import ModuleGraph.Proofs.Frames
import ModuleGraph.Proofs.Installed

/-!
Failures of walks. A walk that fails marks the modules that it has opened and not closed, and no
others, and a module that is marked so fails with the same error for good.
-/
namespace ModuleGraph
open World Engine Relation

namespace World
variable {w v w' : World} {realm : RealmId} {id : RecordId} {slot : Slot}

/-! ### Walks that change nothing -/

theorem putRealm_putRealm (id : RealmId) (r r' : Realm) (realms : List (RealmId × Realm)) :
    putRealm id r (putRealm id r' realms) = putRealm id r realms := by
  induction realms with
  | nil => simp [putRealm]
  | cons entry rest ih =>
    obtain ⟨other, _⟩ := entry
    by_cases same : other = id <;> simp [putRealm, same, ih]

/-- A realm that has a slot was used before. -/
theorem lookup_of_slot (found : (w.realm realm).slot? id = some slot) :
    w.realms.lookup realm = some (w.realm realm) := by
  unfold World.realm at found ⊢
  cases used : w.realms.lookup realm with
  | none =>
    rw [used] at found
    cases found
  | some r => rfl

/-- A walk that is over as soon as it has begun leaves the world as it was. -/
theorem walked_walking (found : (w.realm realm).slot? id = some slot) (root : RecordId) :
    (w.walking realm root).walked realm = w := by
  have same : ((w.walking realm root).walked realm).realms = w.realms := by
    rw [walked, modifyRealm, walking, realm_modifyRealm_same]
    simp only [modifyRealm, setRealm, List.tail_cons, putRealm_putRealm]
    exact putRealm_of_lookup (lookup_of_slot found)
  exact congrArg (fun realms => { w with realms }) same

/-! ### Marked modules -/

/-- A module was evaluated and keeps an error. -/
def FailedWith (w : World) (realm : RealmId) (id : RecordId) (error : ModuleError) : Prop :=
  ∃ slot, (w.realm realm).slot? id = some slot ∧ slot.status = .evaluated ∧ slot.error = some error

theorem Steps.failedWith {error : ModuleError} (steps : Steps w w') (h : w.Orderly)
    (cyclic : (w.record id).isCyclic = true) (failed : w.FailedWith realm id error) :
    w'.FailedWith realm id error := by
  obtain ⟨slot, found, evaluated, keeps⟩ := failed
  exact ⟨slot, steps.evaluated h cyclic found evaluated, evaluated, keeps⟩

end World

namespace Engine

/-- What an interrupted walk makes of an evaluation. -/
def Interrupt.settlement : Interrupt → Settlement
  | .thrown error => .rejected error
  | .suspended location => .pending location

section
variable {w : World} {realm : RealmId} {id : RecordId} {slot : Slot} {error : ModuleError}
  (embedding : Embedding) (depth : Nat)

/-- A visit to a module that has been evaluated comes at once to the outcome that it keeps. -/
theorem meets_visit_evaluated (found : (w.realm realm).slot? id = some slot)
    (evaluated : slot.status = .evaluated) (index : Nat) :
    Attempt.Meets (fun _ => False)
      (fun interrupt w' => slot.error.map .thrown = some interrupt ∧ w' = w)
      ((ofDepth embedding (depth + 1)).visit realm id index)
      (fun _ w' => slot.error = none ∧ w' = w) w := by
  have settled : Attempt.Meets (fun _ => False)
      (fun interrupt w' => slot.error.map .thrown = some interrupt ∧ w' = w)
      (outcomeOf slot index) (fun _ w' => slot.error = none ∧ w' = w) w := by
    unfold outcomeOf
    cases slot.error <;> simp
  show Attempt.Meets _ _ (visitFrom _ realm id index) _ w
  unfold visitFrom
  rw [Attempt.meets_bind, Attempt.meets_walking]
  refine (Action.meets_instantiate_found found _).imp (fun _ h => h) (fun _ _ h => h.elim)
    fun _ w' same => ?_
  subst same
  rw [Attempt.meets_bind, Attempt.meets_get]
  split
  · rw [Attempt.meets_bind, Attempt.meets_walking]
    refine meets_slotOf_found found ?_
    rw [evaluated]
    exact settled
  · unfold visitPlain
    rw [Attempt.meets_bind, Attempt.meets_walking]
    refine meets_slotOf_found found ?_
    rw [evaluated]
    exact settled

/-- A walk from a module that has been evaluated comes to the outcome that it keeps and does nothing
else. -/
theorem walk_evaluated (found : (w.realm realm).slot? id = some slot)
    (evaluated : slot.status = .evaluated) :
    (ofDepth embedding (depth + 1)).walk realm id w = .ok
      (match slot.error with
        | some error => .error (.thrown error)
        | none => .ok []) w := by
  have begun : ((w.walking realm id).realm realm).slot? id = some slot :=
    (slot?_rearranged (by simp) w realm realm id).trans found
  have stack : ((w.walking realm id).realm realm).stack = [] := by
    rw [Realm.stack, walks_walking]
  apply Action.Meets.eq
  unfold walk
  rw [Action.meets_bind, Action.meets_modify, Action.meets_bind, Attempt.meets_run]
  refine (meets_visit_evaluated embedding depth begun evaluated 0).imp (fun _ h => h)
    (fun interrupt w' h => ?_) fun _ w' h => ?_
  · obtain ⟨kept, rfl⟩ := h
    obtain ⟨error, keeps, rfl⟩ := Option.map_eq_some_iff.mp kept
    rw [Action.meets_bind, conclude, Action.meets_bind, Action.meets_get]
    dsimp only
    rw [stack, abandon, Action.meets_bind, Action.meets_pure, Action.meets_pure, Action.meets_bind,
      Action.meets_modify, Action.meets_pure, keeps]
    exact ⟨rfl, walked_walking found id⟩
  · obtain ⟨clean, rfl⟩ := h
    rw [Action.meets_bind, conclude, Action.meets_bind, Action.meets_get, Action.meets_pure, stack,
      Action.meets_bind, Action.meets_modify, Action.meets_pure, clean]
    exact ⟨rfl, walked_walking found id⟩

/-- A walk from a module that has failed fails with the same error and does nothing else. -/
theorem walk_failed (failed : w.FailedWith realm id error) :
    (ofDepth embedding (depth + 1)).walk realm id w = .ok (.error (.thrown error)) w := by
  obtain ⟨slot, found, evaluated, keeps⟩ := failed
  rw [walk_evaluated embedding depth found evaluated, keeps]

variable {graph : RecordId → Prop}

/-- To evaluate a module again that has been evaluated comes to what it keeps and does nothing else.
-/
theorem evaluateFrom_evaluated (installed : w.Installed realm graph) (member : graph id)
    (found : (w.realm realm).slot? id = some slot) (evaluated : slot.status = .evaluated) :
    (ofDepth embedding (depth + 1)).evaluateFrom realm id w = .ok
      (match slot.error with
        | some error => .rejected error
        | none => .fulfilled) w := by
  apply Action.Meets.eq
  unfold evaluateFrom
  rw [Action.meets_bind, Attempt.meets_run]
  refine (installed.instantiateGraph member _).imp (fun _ h => h) (fun _ _ h => h.elim)
    fun _ w' same => ?_
  subst same
  rw [Action.meets_bind_of_ended (walk_evaluated embedding depth found evaluated)]
  cases slot.error <;> exact ⟨rfl, rfl⟩

theorem evaluateFrom_failed (installed : w.Installed realm graph) (member : graph id)
    (failed : w.FailedWith realm id error) :
    (ofDepth embedding (depth + 1)).evaluateFrom realm id w = .ok (.rejected error) w := by
  obtain ⟨slot, found, evaluated, keeps⟩ := failed
  rw [evaluateFrom_evaluated embedding depth installed member found evaluated, keeps]

theorem requireFrom_failed (orderly : w.Orderly) (installed : w.Installed realm graph)
    (member : graph id) (failed : w.FailedWith realm id error) :
    (requireFrom embedding (ofDepth embedding (depth + 1)) realm id).run w =
      .ok (.error error) w := by
  apply Action.Meets.eq
  rw [Attempt.meets_run]
  unfold requireFrom
  rw [Attempt.meets_bind, depth_ofDepth]
  refine (installed.link orderly member embedding depth).imp (fun _ h => h) (fun _ _ h => h.elim)
    fun _ w' same => ?_
  subst same
  rw [Attempt.meets_bind]
  refine (installed.instantiateGraph member _).imp (fun _ h => h) (fun _ _ h => h.elim)
    fun _ w' same => ?_
  subst same
  rw [Attempt.meets_bind, Attempt.meets_lift, Action.Meets, walk_failed embedding depth failed]
  exact ⟨rfl, rfl⟩

end
end Engine

/-! ### Walks that fail -/

/-- How a walk gives up that began in `w`, failed with an error in `v`, and is over in `w'`. -/
structure World.GivesUp (realm : RealmId) (error : ModuleError) (walk : Walk) (w v w' : World) :
    Prop where
  /-- It is the innermost walk when it fails, and afterwards it is over. -/
  innermost : (v.realm realm).walks = walk :: (w.realm realm).walks
  ended : (w'.realm realm).walks = (w.realm realm).walks
  /-- What it had opened was at most instantiated before. -/
  fresh : ∀ x ∈ walk.opened, ¬ w.Begun realm x
  /-- Its stack holds what it had opened and not closed, which is all that it has left evaluating.
  -/
  unclosed : ∀ x, x ∈ walk.stack ↔ x ∈ walk.opened ∧ ¬ v.Fulfilled realm x
  evaluating : ∀ x, x ∈ walk.stack ↔
    (v.realm realm).status? x = some .evaluating ∧ (w.realm realm).status? x ≠ some .evaluating
  /-- Just these modules are marked. -/
  marked : ∀ x ∈ walk.stack, ∃ slot, (v.realm realm).slot? x = some slot ∧
    (w'.realm realm).slot? x = some { slot with status := .evaluated, error := some error }
  spared : ∀ x, x ∉ walk.stack → (w'.realm realm).slot? x = (v.realm realm).slot? x
  elsewhere : ∀ other, other ≠ realm →
    ∀ x, (w'.realm other).slot? x = (v.realm other).slot? x
  /-- What it had closed stays evaluated without an error. -/
  closed : ∀ x ∈ walk.opened, x ∉ walk.stack → w'.Fulfilled realm x
  /-- From its beginning on, a slot has changed at most by the beginning of its module. -/
  others : ∀ other x slot, (w.realm other).slot? x = some slot →
    (w'.realm other).slot? x = some slot ∨ slot.status = .instantiated ∧ w'.Begun other x

namespace Engine
variable {w v w' : World} {realm : RealmId} {root : RecordId} {walk : Walk} {outer : List Walk}
  {new more : List RecordId} {error : ModuleError}

/-- The modules on the stack of an inner walk are those evaluating that were not before. -/
theorem mem_stack_iff (h : w.Orderly) (h' : v.Orderly)
    (walks : (v.realm realm).walks = walk :: (w.realm realm).walks) (x : RecordId) :
    x ∈ walk.stack ↔ (v.realm realm).status? x = some .evaluating ∧
      (w.realm realm).status? x ≠ some .evaluating := by
  have nodup := (h' realm).nodup
  rw [← (h' realm).busy, ne_eq, ← (h realm).busy]
  rw [Realm.busy_of_walks walks, ← Realm.busy] at nodup ⊢
  constructor
  · intro member
    exact ⟨List.mem_append_left _ member, fun outside =>
      (List.nodup_append.mp nodup).2.2 x member x outside rfl⟩
  · rintro ⟨member, inside⟩
    exact (List.mem_append.mp member).resolve_right inside

/-- A walk that is given up marks what it has opened and not closed. -/
theorem gives_up (h : w.Orderly)
    (grown : Grown realm [] { root } (w.realm realm).walks new more (w.walking realm root) v)
    (explored : Explored realm root new more (w.walking realm root) v)
    (taken : TakenOff realm (Walk.grow { root } new more) (w.realm realm).walks []
      (Walk.grow { root } new more).stack ({ · with error := some error }) v w')
    (steps : Steps w (w'.walked realm)) (holds : Holds realm w (w'.walked realm)) :
    GivesUp realm error (Walk.grow { root } new more) w v (w'.walked realm) := by
  have slot (other : RealmId) (x : RecordId) :
      ((w'.walked realm).realm other).slot? x = (w'.realm other).slot? x :=
    slot?_rearranged (by simp) w' realm other x
  have status := mem_stack_iff h grown.orderly grown.walks
  have open_of_member {x : RecordId} (member : x ∈ (Walk.grow { root } new more).stack) :
      ∃ slot, (v.realm realm).slot? x = some slot ∧ slot.status = .evaluating :=
    Option.map_eq_some_iff.mp ((status x).mp member).1
  have unclosed (x : RecordId) : x ∈ (Walk.grow { root } new more).stack ↔
      x ∈ (Walk.grow { root } new more).opened ∧ ¬ v.Fulfilled realm x := by
    constructor
    · intro member
      obtain ⟨slot, found, evaluating⟩ := open_of_member member
      refine ⟨by simpa using explored.sub (by simpa using member), ?_⟩
      rw [fulfilled_of_found found]
      simp [evaluating]
    · rintro ⟨member, unfulfilled⟩
      simpa using (explored.closed x (by simpa using member)).resolve_right unfulfilled
  have spared (x : RecordId) (kept : x ∉ (Walk.grow { root } new more).stack) :
      ((w'.walked realm).realm realm).slot? x = (v.realm realm).slot? x :=
    (slot realm x).trans (taken.others x kept)
  refine ⟨grown.walks, walks_walked taken.walks, fun x member begun => ?_, unclosed, status,
    fun x member => ?_, spared, fun other hr x => ?_, fun x member kept => ?_,
    fun other x slot found => ?_⟩
  · refine explored.fresh x (by simpa using member) ?_
    exact Steps.begun (.single (.walking realm root)) begun
  · obtain ⟨own, found, _⟩ := open_of_member member
    refine ⟨own, found, ?_⟩
    rw [slot, taken.taken x member, found]
    rfl
  · rw [slot, (taken.elsewhere other hr).slot?]
  · rw [fulfilled_congr (spared x kept)]
    exact not_not.mp fun unfulfilled => kept ((unclosed x).mpr ⟨member, unfulfilled⟩)
  · obtain ⟨slot', found', -, same | begun⟩ := steps.onward found
    · exact .inl (same ▸ found')
    · by_cases instantiated : slot.status = .instantiated
      · exact .inr ⟨instantiated, slot', found', begun⟩
      · refine .inl ((Framed.of_holds h holds other).slot x slot found ?_)
        cases status : slot.status <;> simp_all

/-- A walk that fails does so when it visits its root, and then all that it has left open is taken
off its stack. -/
theorem meets_walk_error (embedding : Embedding) (depth : Nat) (h : w.Orderly) (realm : RealmId)
    (root : RecordId) :
    Action.Meets (fun _ => True) ((ofDepth embedding depth).walk realm root)
      (fun outcome w' => ∀ interrupt, outcome = .error interrupt → ∃ v new more w₃,
        ((ofDepth embedding depth).visit realm root 0).run (w.walking realm root) =
          .ok (.error interrupt) v ∧
        Grown realm [] { root } (w.realm realm).walks new more (w.walking realm root) v ∧
        Explored realm root new more (w.walking realm root) v ∧
        TakenOff realm (Walk.grow { root } new more) (w.realm realm).walks []
          (Walk.grow { root } new more).stack
          ({ · with error := some (Interrupt.error interrupt) }) v w₃ ∧
        Steps v w₃ ∧ w' = w₃.walked realm) w := by
  have visited := (keepsSteps_ofDepth embedding depth).meets_visit (h.walking realm root)
    (walks_walking w realm root) rfl root 0
  have ended := (Attempt.meets_run _).1 <| Action.meets_ended
    ((ofDepth embedding depth).visit realm root 0).run (w.walking realm root)
  unfold walk
  rw [Action.meets_bind, Action.meets_modify, Action.meets_bind, Attempt.meets_run]
  refine (visited.and ended).imp (fun _ _ => trivial) (fun interrupt v h' => ?_) fun index v _ => ?_
  · obtain ⟨⟨new, more, grown, explored⟩, ended⟩ := h'
    have stack : (v.realm realm).stack = (Walk.grow { root } new more).stack := by
      rw [Realm.stack, grown.walks]
    have taken : Action.Meets (fun _ => True) (abandon realm (Interrupt.error interrupt) _) _ v :=
      meets_abandon (Interrupt.error interrupt) grown.orderly grown.walks
    rw [Action.meets_bind, conclude, Action.meets_bind, Action.meets_get, Action.meets_bind, stack]
    refine (taken.and (steps_abandon _ _ grown.walks rfl)).imp (fun _ _ => trivial)
      fun _ w₃ h => ?_
    rw [Action.meets_pure, Action.meets_bind, Action.meets_modify, Action.meets_pure]
    intro interrupt' same
    cases same
    exact ⟨v, new, more, w₃, ended, grown, explored, h.1, h.2, rfl⟩
  · rw [Action.meets_bind, conclude, Action.meets_bind, Action.meets_get, Action.meets_pure,
      Action.meets_bind, Action.meets_modify, Action.meets_pure]
    intro _ same
    cases same

/-- A walk whose visit fails ends with what interrupts it. Until then it only takes steps, and
neither does a body begin nor is a component closed. -/
theorem exists_walk_of_visit {embedding : Embedding} {depth : Nat} {interrupt : Interrupt}
    (h : w.Orderly)
    (failed : ((ofDepth embedding depth).visit realm root 0).run (w.walking realm root) =
      .ok (.error interrupt) v) :
    ∃ w', (ofDepth embedding depth).walk realm root w = .ok (.error interrupt) w' ∧ Steps v w' ∧
      ∃ events, w'.journal.toList = v.journal.toList ++ events ∧
        ∀ event ∈ events, event.isQuiet = true := by
  have visited := (keepsSteps_ofDepth embedding depth).meets_visit (h.walking realm root)
    (walks_walking w realm root) rfl root 0
  rw [Attempt.Meets, failed] at visited
  obtain ⟨new, more, grown, -⟩ := visited
  have stack : (v.realm realm).stack = (Walk.grow { root } new more).stack := by
    rw [Realm.stack, grown.walks]
  have taken : Action.Meets (fun _ => False) (abandon realm (Interrupt.error interrupt) _) _ v :=
    meets_abandon (Interrupt.error interrupt) grown.orderly grown.walks
  have meets : Action.Meets (fun _ => False) ((ofDepth embedding depth).walk realm root)
      (fun outcome w' => outcome = .error interrupt ∧ Steps v w' ∧
        ∃ events, w'.journal.toList = v.journal.toList ++ events ∧
          ∀ event ∈ events, event.isQuiet = true) w := by
    have visit : Action.Meets (fun _ => False) ((ofDepth embedding depth).visit realm root 0).run
        (fun outcome v' => outcome = .error interrupt ∧ v' = v) (w.walking realm root) := by
      rw [Action.Meets, failed]
      exact ⟨rfl, rfl⟩
    unfold walk
    rw [Action.meets_bind, Action.meets_modify, Action.meets_bind]
    refine visit.mono fun outcome v' same => ?_
    rw [same.1, same.2, Action.meets_bind, conclude, Action.meets_bind, Action.meets_get,
      Action.meets_bind, stack]
    refine (taken.and (steps_abandon _ _ grown.walks rfl)).imp (fun _ h => h.1) fun _ w₃ h => ?_
    rw [Action.meets_pure, Action.meets_bind, Action.meets_modify, Action.meets_pure]
    exact ⟨rfl, h.2.tail (.walked realm h.1.walks rfl), h.1.journal⟩
  obtain ⟨_, w', ended, rfl, after⟩ := meets.exists_ended
  exact ⟨w', ended, after⟩

/-- When a walk has failed, it has given up, and what it marks can be reached from its root. -/
theorem gives_up_of_error {embedding : Embedding} {depth : Nat} {interrupt : Interrupt}
    (h : w.Orderly)
    (failed : (ofDepth embedding depth).walk realm root w = .ok (.error interrupt) w') :
    Steps w w' ∧ ∃ v walk,
      ((ofDepth embedding depth).visit realm root 0).run (w.walking realm root) =
        .ok (.error interrupt) v ∧
      GivesUp realm (Interrupt.error interrupt) walk w v w' ∧
      ∀ x ∈ walk.stack, w'.Reaches root x ∧ (w'.record x).isCyclic = true := by
  have keeps := keepsSteps_ofDepth embedding depth
  have error := meets_walk_error embedding depth h realm root
  have order : Action.Meets Orderly ((ofDepth embedding depth).walk realm root) _ w :=
    keeps.order.meets_walk h root
  have steps : Action.Meets (Steps w) ((ofDepth embedding depth).walk realm root) _ w :=
    keeps.meets_walk h root
  rw [Action.Meets, failed] at error order steps
  obtain ⟨v, new, more, w₃, ended, grown, explored, taken, later, rfl⟩ := error interrupt rfl
  have later : Steps v (w₃.walked realm) := later.tail (.walked realm taken.walks rfl)
  have extends' := later.extends grown.orderly
  refine ⟨steps, v, _, ended, gives_up h grown explored taken steps order.2, fun x member => ?_⟩
  have member : x ∈ more := explored.sub (by simpa using member)
  exact ⟨extends'.reaches (explored.path x member), by
    rw [extends'.isCyclic, explored.cyclic x member]⟩

/-- A module that is in the realm and has not begun is opened by a visit. -/
theorem meets_visit_of_instantiated {stuck : World → Prop} {failed : Interrupt → World → Prop}
    {post : Nat → World → Prop} {slot : Slot} (found : (w.realm realm).slot? root = some slot)
    (instantiated : slot.status = .instantiated) (cyclic : (w.record root).isCyclic = true)
    {embedding : Embedding} {depth index : Nat}
    (opens : Attempt.Meets stuck failed ((ofDepth embedding depth).visitNew realm root index) post
      w) :
    Attempt.Meets stuck failed ((ofDepth embedding (depth + 1)).visit realm root index) post w := by
  show Attempt.Meets _ _ (visitFrom _ realm root index) _ w
  unfold visitFrom
  rw [Attempt.meets_bind, Attempt.meets_walking]
  refine (Action.meets_instantiate_found found _).imp (fun _ h => h.elim) (fun _ _ h => h.elim)
    fun _ w' same => ?_
  rw [same, Attempt.meets_bind, Attempt.meets_get, if_pos cyclic, Attempt.meets_bind,
    Attempt.meets_walking]
  refine meets_slotOf_found found ?_
  rw [instantiated]
  exact opens

/-- A walk from a module that has not begun leaves it failed when it fails. -/
theorem failedWith_of_instantiated {embedding : Embedding} {depth : Nat} {interrupt : Interrupt}
    {slot : Slot} (h : w.Orderly) (found : (w.realm realm).slot? root = some slot)
    (instantiated : slot.status = .instantiated) (cyclic : (w.record root).isCyclic = true)
    (failed : (ofDepth embedding depth).walk realm root w = .ok (.error interrupt) w') :
    w'.FailedWith realm root (Interrupt.error interrupt) := by
  cases depth with
  | zero => cases failed
  | succ depth =>
    obtain ⟨_, v, walk, ended, gaveUp, _⟩ := gives_up_of_error h failed
    have begun : ((w.walking realm root).realm realm).slot? root = some slot :=
      (slot?_rearranged (by simp) w realm realm root).trans found
    have opens := meets_visit_of_instantiated begun instantiated cyclic
      ((keepsSteps_ofDepth embedding depth).visitNew (h.walking realm root)
        (walks_walking w realm root) rfl begun instantiated cyclic 0)
    rw [Attempt.Meets, ended] at opens
    obtain ⟨new, more, walks, _, member⟩ := opens
    obtain ⟨rfl, _⟩ := List.cons_eq_cons.mp (gaveUp.innermost.symm.trans walks)
    obtain ⟨own, _, marked⟩ := gaveUp.marked root (by simpa using member)
    exact ⟨_, marked, rfl, rfl⟩

/-- A walk that begins when none is under way in the realm and fails leaves its root failed. -/
theorem failedWith_of_walk {embedding : Embedding} {depth : Nat} {interrupt : Interrupt}
    {slot : Slot} (h : w.Orderly) (idle : (w.realm realm).walks = [])
    (found : (w.realm realm).slot? root = some slot) (cyclic : (w.record root).isCyclic = true)
    (failed : (ofDepth embedding depth).walk realm root w = .ok (.error interrupt) w') :
    w'.FailedWith realm root (Interrupt.error interrupt) := by
  cases status : slot.status with
  | evaluating =>
    have busy := ((h realm).busy root).mpr (by simp [Realm.status?, found, status])
    simp [Realm.busy, idle] at busy
  | evaluated =>
    cases depth with
    | zero => cases failed
    | succ depth =>
      rw [walk_evaluated embedding depth found status] at failed
      cases keeps : slot.error with
      | none => simp [keeps] at failed
      | some error =>
        simp only [keeps] at failed
        cases failed
        exact ⟨slot, found, status, keeps⟩
  | instantiated => exact failedWith_of_instantiated h found status cyclic failed

section
variable {embedding : Embedding} {depth : Nat} {interrupt : Interrupt} {w₀ w₁ w₂ : World}
  (instantiated : (Action.instantiateGraph depth realm root).run w₀ = .ok (.ok ()) w₁)
  (failed : (ofDepth embedding depth).walk realm root w₁ = .ok (.error interrupt) w₂)
include instantiated failed

theorem evaluateFrom_of_walk : (ofDepth embedding depth).evaluateFrom realm root w₀ =
    .ok (Interrupt.settlement interrupt) w₂ := by
  apply Action.Meets.eq
  unfold evaluateFrom
  rw [depth_ofDepth, Action.meets_bind_of_ended instantiated, Action.meets_bind_of_ended failed]
  cases interrupt <;> exact ⟨rfl, rfl⟩

theorem requireFrom_of_walk {w : World}
    (linked : (embedding.link depth root).run w = .ok (.ok ()) w₀) :
    (requireFrom embedding (ofDepth embedding depth) realm root).run w =
      .ok (.error (Interrupt.error interrupt)) w₂ := by
  apply Action.Meets.eq
  rw [Attempt.meets_run]
  unfold requireFrom
  rw [depth_ofDepth, Attempt.meets_bind_of_ended linked, Attempt.meets_bind_of_ended instantiated,
    Attempt.meets_bind, Attempt.meets_lift, Action.Meets, failed]
  exact ⟨rfl, rfl⟩

end
end Engine

/-- When a walk that `evaluate` or `require` has begun fails, in any world that code comes to, then
exactly those modules are marked that it has opened and not closed: they are evaluated and keep the
error, and no other slot is changed. Whatever happens afterwards, to evaluate or to require a module
that is marked gives the same error at once, and the world stays as it is; so no body runs. -/
theorem failure_marks_unclosed_for_good (embedding : Embedding) (depth : Nat) (w₀ w₁ w₂ : World)
    (reached : w₀.Reached) (realm : RealmId) (root : RecordId) (interrupt : Interrupt)
    (graph : ∀ x, w₀.Needs root x → w₀.hasRecord x ∧
      ∀ module, w₀.record x = .custom module → module.link = .ok ())
    (instantiated : (Action.instantiateGraph depth realm root).run w₀ = .ok (.ok ()) w₁)
    (failed : (ofDepth embedding depth).walk realm root w₁ = .ok (.error interrupt) w₂) :
    let error := Interrupt.error interrupt
    ((ofDepth embedding depth).evaluateFrom realm root w₀ =
        .ok (Interrupt.settlement interrupt) w₂ ∧
      ∀ w, (embedding.link depth root).run w = .ok (.ok ()) w₀ →
        (requireFrom embedding (ofDepth embedding depth) realm root).run w =
          .ok (.error error) w₂) ∧
    ∃ v walk,
      ((ofDepth embedding depth).visit realm root 0).run (w₁.walking realm root) =
        .ok (.error interrupt) v ∧
      GivesUp realm error walk w₁ v w₂ ∧
      ∀ x ∈ walk.stack, ∀ w₃, Steps w₂ w₃ → ∀ later,
        (ofDepth embedding (later + 1)).evaluateFrom realm x w₃ = .ok (.rejected error) w₃ ∧
        (requireFrom embedding (ofDepth embedding (later + 1)) realm x).run w₃ =
          .ok (.error error) w₃ := by
  intro error
  have orderly₀ := reached.orderly
  have installed₁ := installed_of_instantiateGraph orderly₀ graph instantiated
  have changes := Action.keeps_instantiateGraph depth realm root w₀
  rw [Action.Meets, instantiated] at changes
  have orderly₁ := Changes.orderly changes orderly₀
  obtain ⟨steps, v, walk, ended, gaveUp, paths⟩ := gives_up_of_error orderly₁ failed
  refine ⟨⟨evaluateFrom_of_walk instantiated failed, fun w linked =>
    requireFrom_of_walk instantiated failed linked⟩, v, walk, ended, gaveUp,
    fun x member w₃ onward later => ?_⟩
  have orderly₂ := steps.orderly orderly₁
  have orderly₃ := onward.orderly orderly₂
  have installed₂ := installed₁.steps orderly₁ steps
  have installed₃ := installed₂.steps orderly₂ onward
  obtain ⟨path, cyclic⟩ := paths x member
  have inGraph : w₁.Needs root x := installed₂.reaches .refl path
  obtain ⟨slot, _, marked⟩ := gaveUp.marked x member
  have keeps : w₃.FailedWith realm x error :=
    onward.failedWith orderly₂ cyclic ⟨_, marked, rfl, rfl⟩
  exact ⟨evaluateFrom_failed embedding later installed₃ inGraph keeps,
    requireFrom_failed embedding later orderly₃ installed₃ inGraph keeps⟩

/-- Three modules: the first requests the others, and the last requests the first and fails. -/
def halfClosed : World :=
  .ofModules [{ requested := [⟨1⟩, ⟨2⟩] }, {},
    { requested := [⟨0⟩], body := .raise { value := .string "boom" } }]

theorem needs_in_halfClosed {x : RecordId} (path : halfClosed.Needs ⟨0⟩ x) :
    halfClosed.hasRecord x ∧
      ∀ module, halfClosed.record x = .custom module → module.link = .ok () := by
  have known : x ∈ [(⟨0⟩ : RecordId), ⟨1⟩, ⟨2⟩] := by
    induction path with
    | refl => simp
    | @tail a b _ requested ih =>
      fin_cases ih
      · exact List.mem_cons_of_mem _ requested
      · exact absurd requested List.not_mem_nil
      · exact List.mem_cons.mpr (.inl (List.mem_singleton.mp requested))
  fin_cases known <;> exact ⟨rfl, by rintro _ ⟨⟩; rfl⟩

/-- The first and the last module are marked, and to require one of them again gives the error
again. -/
theorem failure_marks_in_halfClosed :
    ∃ w₂ error, (ofDepth .bare 4).evaluateFrom (.worker 0) ⟨0⟩ halfClosed =
        .ok (.rejected error) w₂ ∧
      ∀ x ∈ [(⟨2⟩ : RecordId), ⟨0⟩], (requireFrom .bare (ofDepth .bare 4) (.worker 0) x).run w₂ =
        .ok (.error error) w₂ := by
  have computed : (Action.instantiateGraph 4 (.worker 0) ⟨0⟩).run.ends halfClosed (fun outcome w₁ =>
      outcome.isOk && ((ofDepth .bare 4).walk (.worker 0) ⟨0⟩).ends w₁ (fun outcome _ =>
        outcome matches .error (.thrown _)) &&
      ((ofDepth .bare 4).visit (.worker 0) ⟨0⟩ 0).run.ends (w₁.walking (.worker 0) ⟨0⟩)
        fun _ v => (v.realm (.worker 0)).stack = [⟨2⟩, ⟨0⟩]) = true := by
    cbv
  obtain ⟨outcome, w₁, instantiated, computed⟩ := Action.exists_of_ends computed
  simp only [Bool.and_eq_true] at computed
  obtain ⟨⟨ok, walked⟩, visited⟩ := computed
  obtain ⟨outcome', w₂, walked, thrown⟩ := Action.exists_of_ends walked
  obtain ⟨_, v', visited, stack⟩ := Action.exists_of_ends visited
  cases outcome with
  | error => cases ok
  | ok _ =>
    split at thrown
    · rename_i error
      obtain ⟨⟨evaluated, _⟩, v, walk, ended, gaveUp, again⟩ := failure_marks_unclosed_for_good .bare 4
        halfClosed w₁ w₂ (fresh_ofModules _).reached (.worker 0) ⟨0⟩ (.thrown error)
        (fun _ => needs_in_halfClosed) instantiated walked
      refine ⟨w₂, error, evaluated, fun x member => (again x ?_ w₂ .refl 3).2⟩
      cases visited.symm.trans ended
      rw [decide_eq_true_eq, Realm.stack, gaveUp.innermost] at stack
      exact (congrArg (x ∈ ·) stack).mpr member
    · cases thrown

end ModuleGraph
