import ModuleGraph.Proofs.Bodies
import ModuleGraph.Proofs.ParallelScripts
import ModuleGraph.Worker

/-!
Evaluation in parallel. When resolution is over, a realm that evaluates modules comes to the same in
twin worlds, however deep modules nest: it asks only for what was kept and linked before.
-/
namespace ModuleGraph
open World
variable {p : Vantage}

/-! ### Resolution -/

namespace Embedding
variable (embedding : Embedding)

theorem parallel_remember (key refused : String) (compute : Attempt RecordId) :
    Attempt.Parallel p (remember key refused compute) := by
  refine .get_bind (fun w v h => by simp only [h.sameCache]) fun w closed => ?_
  simp only [closed.cache, p.locked]
  split
  · exact .pure trivial
  · rename_i error kept
    exact .throw (p.errors key error kept)
  · exact .throw trivial

theorem isLocal_canonicalize {referrer : Url} {specifier : String} {error : ModuleError}
    (failed : canonicalize embedding.config referrer specifier = .error error) :
    IsLocal p.realm error := by
  unfold canonicalize at failed
  dsimp only at failed
  repeat' split at failed
  all_goals
    cases failed
    try trivial

theorem parallel_resolve (referrer? : Option Url) (specifier : String) :
    Attempt.Parallel p (embedding.resolve referrer? specifier) := by
  unfold resolve
  split
  · exact parallel_remember _ _ _
  · split
    · exact parallel_remember _ _ _
    · rename_i error failed
      exact .throw (embedding.isLocal_canonicalize failed)

theorem parallel_resolveImported (referrer? : Option RecordId) (specifier : String) :
    Attempt.Parallel p (embedding.resolveImported referrer? specifier) := by
  unfold resolveImported
  split
  · exact parallel_remember _ _ _
  · split
    · exact embedding.parallel_resolve none specifier
    · rename_i id
      have looked : Action.Parallel p (locationOf id) :=
        .get_bind (fun w v h => by simp only [h.locations]) fun _ _ => .pure fun _ _ => trivial
      refine .bind (.lift looked) fun location _ => ?_
      split
      · exact embedding.parallel_resolve _ specifier
      · exact .get_bind (fun w v h => by simp only [h.numberText]) fun _ _ => .throw trivial

theorem parallel_importFor (referrer : RecordId) (specifier : String) :
    Attempt.Parallel p (embedding.importFor .resolver referrer specifier) := by
  refine .get_bind (fun w v h => by simp only [h.hasResolver]) fun w _ => ?_
  dsimp only
  split
  · exact embedding.parallel_resolveImported _ specifier
  · exact .throw trivial

/-- What resolution has kept was linked before. -/
theorem parallel_link {key : String} {id : RecordId} (kept : p.cache.get? key = some (.ok id))
    (depth : Nat) : Attempt.Parallel p (embedding.link depth id) := by
  cases depth with
  | zero => exact .lift .tooDeep
  | succ depth =>
    intro w v twins
    have settled := twins.settled key id kept
    have held := twins.records id
    rw [embedding.run_link_of_isSettled settled,
      embedding.run_link_of_isSettled (by rwa [twins.record]), twins.record]
    refine ⟨rfl, ?_, twins⟩
    cases found : w.record id with
    | custom module =>
      rw [found] at held
      exact held.1
    | _ => trivial

end Embedding

/-- What goes on with a record that resolution has found: it was kept before. -/
theorem Attempt.Parallel.bind_kept {α : Type} [Local α] {attempt : Attempt RecordId}
    {next : RecordId → Attempt α} (parallel : Attempt.Parallel p attempt)
    (finds : Embedding.FindsKept attempt)
    (later : ∀ key id, p.cache.get? key = some (.ok id) → Attempt.Parallel p (next id)) :
    Attempt.Parallel p (attempt >>= next) := by
  intro w v twins
  have h := parallel w v twins
  have found := finds w
  rw [Attempt.run_bind, Attempt.run_bind]
  unfold Attempt.Meets at found
  cases hw : attempt.run w <;> cases hv : attempt.run v <;> rw [hw, hv] at h
  · rename_i outcome w' answer v'
    rw [hw] at found
    obtain ⟨rfl, held, twins'⟩ := h
    cases answer with
    | error error => exact ⟨rfl, held, twins'⟩
    | ok id =>
      obtain ⟨key, kept⟩ := found
      exact later key id (twins'.cache ▸ kept) w' v' twins'
  · exact h.elim
  · exact h.elim
  · trivial

namespace Engine

/-- What an engine does in the realm comes to the same in twin worlds. -/
structure Parallel (p : Vantage) (engine : Engine) : Prop where
  call : ∀ frame function arguments, IsLocal p.realm frame → IsLocal p.realm function →
    IsLocal p.realm arguments → Action.Parallel p (engine.call frame function arguments)
  evaluate : ∀ id, Action.Parallel p (engine.evaluate p.realm id)
  visit : ∀ id index, Attempt.Parallel p (engine.visit p.realm id index)

/-! ### Slots and walks -/

theorem parallel_slotOf (id : RecordId) : Attempt.Parallel p (slotOf p.realm id) := by
  refine .get_bind (fun w v h => by simp only [h.sameRealm, h.numberText]) fun w closed => ?_
  split
  · rename_i slot found
    exact .pure (closed.realm.slot? id slot found)
  · exact .throw trivial

theorem parallel_modifySlot (id : RecordId) {change : Slot → Slot}
    (keeps : ∀ slot, IsLocal p.realm slot → IsLocal p.realm (change slot)) :
    Action.Parallel p (modifySlot p.realm id change) :=
  .modifyRealm fun _ closed => closed.modifySlot id keeps

theorem parallel_moveSlot (id : RecordId) (status : InstanceStatus) {change : Slot → Slot}
    (keeps : ∀ slot, IsLocal p.realm slot → IsLocal p.realm (change slot)) :
    Action.Parallel p (moveSlot p.realm id status change) :=
  .modify fun _ _ h => h.moveSlot id status keeps

theorem parallel_modifyWalk (change : Walk → Walk) :
    Action.Parallel p (modifyWalk p.realm change) :=
  .modifyRealm fun _ closed => closed.modifyWalk change

theorem parallel_outcomeOf {slot : Slot} (held : IsLocal p.realm slot) (index : Nat) :
    Attempt.Parallel p (outcomeOf slot index) := by
  unfold outcomeOf
  split
  · rename_i error kept
    exact .throw (held error kept)
  · exact .pure trivial

theorem parallel_enter (id : RecordId) (index : Nat) :
    Action.Parallel p (enter p.realm id index) :=
  .bind (parallel_moveSlot id .evaluating fun _ held => held) fun _ _ => parallel_modifyWalk _

theorem parallel_lowerAncestor (id required : RecordId) :
    Attempt.Parallel p (lowerAncestor p.realm id required) := by
  refine .get_bind (fun w v h => by simp only [h.record]) fun w _ => ?_
  split
  · refine .bind (parallel_slotOf required) fun slot _ =>
      .get_bind (fun w v h => by simp only [h.sameRealm]) fun w _ => ?_
    split
    · exact .lift (parallel_modifySlot id fun _ held => held)
    · exact .pure trivial
  · exact .pure trivial

theorem parallel_closeDownTo (id : RecordId) (stack : List RecordId) :
    Attempt.Parallel p (closeDownTo p.realm id stack) := by
  induction stack with
  | nil => exact .throw trivial
  | cons top rest ih =>
    refine .bind (.lift (parallel_modifyWalk _)) fun _ _ =>
      .bind (.discard (parallel_slotOf top)) fun _ _ =>
      .bind (.lift (parallel_moveSlot top .evaluated fun _ held => held)) fun _ _ => ?_
    split
    · exact .pure fun _ _ => trivial
    · exact .bind ih fun _ _ => .pure fun _ _ => trivial

theorem parallel_closeComponent (id : RecordId) :
    Attempt.Parallel p (closeComponent p.realm id) := by
  refine .bind (parallel_slotOf id) fun slot _ => ?_
  split
  · exact .get_bind (fun w v h => by simp only [h.sameRealm]) fun w _ =>
      .bind (parallel_closeDownTo id _) fun modules _ =>
      .get_bind (fun w v h => by simp only [h.moment]) fun w _ => .lift (.write _)
  · exact .pure trivial

theorem parallel_abandon {error : ModuleError} (held : IsLocal p.realm error)
    (stack : List RecordId) : Action.Parallel p (abandon p.realm error stack) := by
  induction stack with
  | nil => exact .pure trivial
  | cons id rest ih =>
    exact .bind (parallel_modifyWalk _) fun _ _ =>
      .bind (parallel_moveSlot id .evaluated fun _ _ _ same => Option.some.inj same ▸ held)
        fun _ _ => ih

theorem parallel_conclude {outcome : Except Interrupt Nat} (held : IsLocal p.realm outcome) :
    Action.Parallel p (conclude p.realm outcome) := by
  refine .get_bind (fun w v h => by simp only [h.sameRealm]) fun w _ => ?_
  cases outcome with
  | ok index => exact .pure fun _ _ => trivial
  | error interrupt =>
    have kept : IsLocal p.realm (Interrupt.error interrupt) := by
      cases interrupt with
      | thrown error => exact held
      | suspended location => trivial
    exact .bind (parallel_abandon kept _) fun _ _ => .pure held

/-! ### Bodies -/

section
variable {engine : Engine} (parallel : engine.Parallel p)
include parallel

theorem Parallel.powers : engine.powers.Parallel p where
  call := parallel.call
  evaluate := parallel.evaluate
  read _ name inRealm := Action.parallel_readEnvironment _ inRealm name

theorem parallel_runBody {body : Script} (held : IsLocal p.realm body) :
    Attempt.Parallel p (engine.runBody p.realm body) := by
  refine .bind (.lift (Script.parallel_run parallel.powers ⟨rfl, rfl⟩ body held))
    fun outcome here => ?_
  split
  · exact .pure here
  · exact .throw (Exception.isLocal_toError here)

theorem parallel_runWrapper (id : RecordId) {module : WrapperModule}
    (held : IsLocal p.realm module.program) (instanceIndex : Nat) :
    Attempt.Parallel p (engine.runWrapper p.realm id module instanceIndex) := by
  have modified {change : Instance → Instance}
      (held : ∀ filled, IsLocal p.realm filled → IsLocal p.realm (change filled)) :
      Attempt.Parallel p (liftM (modify (·.modifyRealm p.realm
        (·.modifyInstance instanceIndex change)) : Action Unit) : Attempt Unit) :=
    .lift (.modifyRealm fun _ closed => closed.modifyInstance _ held)
  unfold runWrapper
  refine .bind (parallel_runBody parallel held) fun value called => ?_
  cases value with
  | function wrapper =>
    refine .bind (.lift (Action.parallel_newObject Properties.isLocal_empty)) fun exports made =>
      .bind (.lift (Action.parallel_newObject (Properties.isLocal_ofEntries ?entries)))
        fun descriptor described =>
      .bind (modified fun _ filled => Instance.isLocal_setExports filled made) fun _ _ =>
      .bind (.lift (Action.parallel_newFunction "require" trivial)) fun require given =>
      .bind (.lift (parallel.call _ wrapper _ ⟨rfl, rfl⟩ called ?arguments)) fun outcome here => ?_
    case entries =>
      exact List.forall_mem_cons.mpr ⟨made, List.forall_mem_singleton.mpr trivial⟩
    case arguments =>
      exact List.forall_mem_cons.mpr ⟨made, List.forall_mem_cons.mpr ⟨described,
        List.forall_mem_singleton.mpr given⟩⟩
    cases outcome with
    | error exception => exact .throw (Exception.isLocal_toError here)
    | ok _ =>
      refine .get_bind (fun w v h => by simp only [h.properties described]) fun w closed => ?_
      have final := Properties.isLocal_get (closed.properties described) "exports"
      dsimp only
      split
      · exact .throw trivial
      · exact .bind (modified fun _ filled => Instance.isLocal_setExports filled final) fun _ _ =>
          .get_bind (fun w v h => by simp only [h.keys final]) fun _ _ =>
          .bind (.lift (Action.parallel_publishNames _ id _)) fun _ _ =>
          .get_bind (fun w v h => by simp only [h.property final]) fun _ _ =>
          modified fun _ filled => Instance.isLocal_setMarked filled _
  | _ => exact .throw trivial

theorem parallel_runInstance (id : RecordId) (instanceIndex : Nat) {record : Record}
    (held : IsLocal p.realm record) :
    Attempt.Parallel p (engine.runInstance p.realm id instanceIndex record) := by
  cases record with
  | static module => exact .discard (parallel_runBody parallel (held.1 instanceIndex))
  | wrapper module => exact parallel_runWrapper parallel id held instanceIndex
  | host module => exact .pure trivial
  | custom module => exact .discard (parallel_runBody parallel held.2.2.1)

theorem parallel_execute (id : RecordId) : Attempt.Parallel p (engine.execute p.realm id) :=
  .bind (parallel_slotOf id) fun _ _ =>
    .get_bind (fun w v h => by simp only [h.moment, h.record]) fun _ closed =>
    .bind (.lift (.write _)) fun _ _ => parallel_runInstance parallel id _ (closed.records id)

/-! ### Visits -/

theorem parallel_executeInWalk (id : RecordId) :
    Attempt.Parallel p (engine.executeInWalk p.realm id) := by
  refine .bind (.lift (parallel_modifyWalk _)) fun _ _ =>
    .bind (.outcome (parallel_execute parallel id)) fun outcome held =>
    .bind (.lift (parallel_modifyWalk _)) fun _ _ => ?_
  cases outcome with
  | ok _ => exact .lift (.write _)
  | error error => exact .bind (.lift (.write _)) fun _ _ => .throw held

theorem parallel_visitPlain (id : RecordId) (index : Nat) :
    Attempt.Parallel p (engine.visitPlain p.realm id index) := by
  refine .bind (.walking (parallel_slotOf id)) fun slot held => ?_
  split
  · refine .bind (.walking (.outcome (parallel_executeInWalk parallel id))) fun outcome here =>
      .bind (.lift (parallel_moveSlot id .evaluated fun _ _ => ?_)) fun _ _ =>
      .bind (.walking (parallel_slotOf id)) fun _ held => parallel_outcomeOf held index
    cases outcome with
    | ok _ => exact fun _ none => by cases none
    | error error => exact fun _ same => Option.some.inj same ▸ here
  · exact parallel_outcomeOf held index

theorem parallel_visitAll (id : RecordId) (required : List RecordId) (index : Nat) :
    Attempt.Parallel p (engine.visitAll p.realm id required index) := by
  induction required generalizing index with
  | nil => exact .pure trivial
  | cons next rest ih =>
    exact .bind (parallel.visit next index) fun index _ =>
      .bind (.walking (parallel_lowerAncestor id next)) fun _ _ => ih index

theorem parallel_visitNew (id : RecordId) (index : Nat) :
    Attempt.Parallel p (engine.visitNew p.realm id index) := by
  refine .bind (.lift (parallel_enter id index)) fun _ _ =>
    .get_bind (fun w v h => by simp only [h.record]) fun _ _ =>
    .bind (parallel_visitAll parallel id _ _) fun index _ =>
    .get_bind (fun w v h => by simp only [h.record, h.describe]) fun _ _ => ?_
  split
  · exact .throw trivial
  · exact .bind (.walking (parallel_executeInWalk parallel id)) fun _ _ =>
      .bind (.walking (parallel_closeComponent id)) fun _ _ => .pure trivial

theorem parallel_visitFrom (id : RecordId) (index : Nat) :
    Attempt.Parallel p (engine.visitFrom p.realm id index) := by
  refine .bind (.walking (Action.parallel_instantiate _ id)) fun _ _ =>
    .get_bind (fun w v h => by simp only [h.record]) fun _ _ => ?_
  split
  · refine .bind (.walking (parallel_slotOf id)) fun slot held => ?_
    split
    · exact parallel_outcomeOf held index
    · exact .pure trivial
    · exact parallel_visitNew parallel id index
  · exact parallel_visitPlain parallel id index

theorem parallel_walk (root : RecordId) : Action.Parallel p (engine.walk p.realm root) :=
  .bind (.modifyRealm fun _ closed => closed.setWalks _) fun _ _ =>
    .bind (parallel.visit root 0) fun _ held =>
    .bind (parallel_conclude held) fun _ here =>
    .bind (.modifyRealm fun _ closed => closed.setWalks _) fun _ _ => .pure here

theorem parallel_evaluateFrom (root : RecordId) :
    Action.Parallel p (engine.evaluateFrom p.realm root) := by
  refine .bind (Action.parallel_instantiateGraph _ root) fun outcome held => ?_
  cases outcome with
  | error error => exact .pure held
  | ok _ =>
    refine .bind (parallel_walk parallel root) fun outcome held => ?_
    split
    · exact .pure trivial
    · exact .pure trivial
    · exact .pure held
    · exact .pure trivial

variable (embedding : Embedding)

theorem parallel_requireFrom {key : String} {id : RecordId}
    (kept : p.cache.get? key = some (.ok id)) :
    Attempt.Parallel p (requireFrom embedding engine p.realm id) := by
  refine .bind (embedding.parallel_link kept _) fun _ _ =>
    .bind (Action.parallel_instantiateGraph _ id) fun _ _ =>
    .bind (.lift (parallel_walk parallel id)) fun outcome held => ?_
  cases outcome with
  | error interrupt =>
    cases interrupt with
    | thrown error => exact .throw held
    | suspended location => exact .throw trivial
  | ok left =>
    exact .bind (.discard (parallel_slotOf id)) fun _ _ =>
      .lift (Action.parallel_exportsValue _ id)

theorem parallel_requireCall (referrer : RecordId) (arguments : List Value) :
    Action.Parallel p (requireCall embedding engine p.realm referrer arguments) := by
  unfold requireCall
  split
  · rename_i specifier _
    have required : Attempt.Parallel p (do
        let id ← embedding.importFor .resolver referrer specifier
        requireFrom embedding engine p.realm id) :=
      .bind_kept (embedding.parallel_importFor _ _) (embedding.findsKept_importFor _ _)
        fun _ _ kept => parallel_requireFrom parallel embedding kept
    refine .bind required fun outcome held => ?_
    cases outcome with
    | ok value => exact .pure held
    | error error => exact .pure (Exception.isLocal_ofError held)
  · exact .pure ⟨trivial, fun _ none => by cases none⟩

theorem Parallel.next : (engine.next embedding).Parallel p where
  call frame function arguments inRealm called held := by
    refine .bind (Action.parallel_functionCode called) fun code here => ?_
    cases code with
    | script code => exact Script.parallel_run parallel.powers inRealm _ (here arguments held)
    | require referrer =>
      have same : frame.realm = p.realm := inRealm.1
      rw [same]
      exact parallel_requireCall parallel embedding referrer arguments
  evaluate := parallel_evaluateFrom parallel
  visit := parallel_visitFrom parallel

end

/-- However deep modules nest, evaluation comes to the same in twin worlds. -/
theorem parallel_ofDepth (embedding : Embedding) (depth : Nat) :
    (ofDepth embedding depth).Parallel p := by
  induction depth with
  | zero => exact ⟨fun _ _ _ _ _ _ => .tooDeep, fun _ => .tooDeep, fun _ _ => .tooDeep⟩
  | succ depth ih => exact ih.next embedding

end Engine

namespace Setup
variable (embedding : Embedding) (depth : Nat)

/-- An entry script that runs in a realm comes to the same in twin worlds. -/
theorem parallel_runEntry (location : Url) (source : List UInt8) :
    Attempt.Parallel p ((Setup.ofDepth embedding depth).runEntry p.realm location source) := by
  refine .bind_kept (Embedding.parallel_remember _ _ _) (embedding.findsKept_resolveLoaded _ _)
    fun _ id kept => ?_
  refine .bind (embedding.parallel_link kept _) fun _ _ =>
    .get_bind (fun w v h => by simp only [h.record]) fun _ _ => ?_
  split
  · exact .pure trivial
  · refine .bind (.lift (Engine.parallel_evaluateFrom (Engine.parallel_ofDepth embedding depth) id))
      fun settlement held => ?_
    cases settlement with
    | fulfilled => exact .pure trivial
    | rejected error => exact .throw held
    | pending module => exact .throw trivial

theorem parallel_bindingValue (id : RecordId) (name : String) :
    Action.Parallel p ((Setup.ofDepth embedding depth).bindingValue p.realm id name) :=
  Action.parallel_readBinding _ id name

end Setup
end ModuleGraph
