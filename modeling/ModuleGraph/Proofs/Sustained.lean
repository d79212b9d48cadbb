import ModuleGraph.Proofs.Runs

/-!
Invariants of whole runs that do not depend on how a walk goes. What resolution, linking and
instantiation uphold, and neither scripts nor the moves of evaluation break, holds wherever code
comes to.
-/
namespace ModuleGraph
open World Engine Relation

/-- Whether an event says how a walk goes. -/
def Event.isSteering : Event → Bool
  | .moved .. | .closed .. => true
  | _ => false

namespace World
variable {w w' : World}

/-- A move of evaluation: the slots and walks of a realm change, but no record gets a slot or loses
it; or the course of evaluation is written down. -/
inductive Move (w : World) : World → Prop
  | arrange (realm : RealmId) (change : Realm → Realm)
      (held : ∀ r id, (change r).slot? id = none ↔ r.slot? id = none) :
      Move w (w.modifyRealm realm change)
  | write (event : Event) (inward : event.isOutward = false) : Move w (w.write event)

/-- A turn of a walk: a move that says nothing of how bodies run. -/
inductive Turn (w : World) : World → Prop
  | arrange (realm : RealmId) (change : Realm → Realm)
      (held : ∀ r id, (change r).slot? id = none ↔ r.slot? id = none) :
      Turn w (w.modifyRealm realm change)
  | write (event : Event) (steers : event.isSteering = true) : Turn w (w.write event)

/-- Any number of moves. -/
abbrev Moves : World → World → Prop := ReflTransGen Move

/-- Any number of turns. -/
abbrev Turns : World → World → Prop := ReflTransGen Turn

theorem Turns.moves (h : Turns w w') : Moves w w' := by
  refine ReflTransGen.mono (fun _ _ turn => ?_) _ _ h
  cases turn with
  | arrange realm change held => exact .arrange realm change held
  | write event steers => exact .write event (by cases event <;> first | rfl | cases steers)

theorem Turns.rearranged (w : World) (realm : RealmId) {change : Realm → Realm}
    (slots : ∀ r, (change r).slots = r.slots) : Turns w (w.modifyRealm realm change) :=
  .single (.arrange realm change fun r id => by rw [Realm.slot?, slots, Realm.slot?])

theorem Turns.modifySlot (w : World) (realm : RealmId) (id : RecordId) (change : Slot → Slot) :
    Turns w (w.modifyRealm realm (·.modifySlot id change)) := by
  refine .single (.arrange realm _ fun r other => ?_)
  rw [Realm.slot?_modifySlot]
  split <;> simp

theorem Turns.moveSlot (w : World) (realm : RealmId) (id : RecordId) (status : InstanceStatus)
    (change : Slot → Slot) : Turns w (w.moveSlot realm id status change) :=
  (Turns.modifySlot w realm id _).tail (.write _ rfl)

theorem Moves.rearranged (w : World) (realm : RealmId) {change : Realm → Realm}
    (slots : ∀ r, (change r).slots = r.slots) : Moves w (w.modifyRealm realm change) :=
  (Turns.rearranged w realm slots).moves

end World

/-- Whether a walk comes to run the body of a record: one that takes part in cycles must not have to
wait at its top level. -/
def Record.IsRunnable (record : Record) : Prop :=
  record.isCyclic = true → record.hasTopLevelAwait = false

namespace Engine

/-- What an invariant needs to hold throughout evaluation: walks can turn as they like, and where
what a body begins upholds it, so does the body, if a walk comes to run it. -/
structure Lasting (embedding : Embedding) (stuck inv : World → Prop)
    (site : Url → Prop := fun _ => True) (linkable : RecordId → Prop := fun _ => True) : Prop
    extends Borne embedding stuck inv site linkable where
  turns : ∀ w w', Turns w w' → inv w → inv w'
  executes : ∀ depth realm id, (∀ realm, (ofDepth embedding depth).Upholds realm stuck inv) →
    ∀ w, inv w → (w.record id).IsRunnable → Attempt.Meets stuck (fun _ => inv)
      ((ofDepth embedding depth).executeInWalk realm id) (fun _ => inv) w

/-- What an invariant needs to hold throughout a run. -/
structure Sustained (embedding : Embedding) (stuck inv : World → Prop)
    (site : Url → Prop := fun _ => True) (linkable : RecordId → Prop := fun _ => True) : Prop
    extends Borne embedding stuck inv site linkable where
  touches : ∀ w w', Touches w w' → inv w → inv w'
  moves : ∀ w w', Moves w w' → inv w → inv w'

/-- An engine all of whose doings uphold an invariant. -/
structure Sustains (engine : Engine) (stuck inv : World → Prop) : Prop where
  upholds : ∀ realm, engine.Upholds realm stuck inv
  execute : ∀ realm id w, inv w → (w.record id).IsRunnable →
    Attempt.Meets stuck (fun _ => inv) (engine.executeInWalk realm id) (fun _ => inv) w
  visit : ∀ realm id index, Attempt.Upholds stuck inv (engine.visit realm id index)

section
variable {α : Type} {embedding : Embedding} {stuck inv : World → Prop} {site : Url → Prop}
  {linkable : RecordId → Prop} {engine : Engine}

/-- An attempt upholds an invariant also as a step of a walk. -/
theorem upholds_walking {attempt : Attempt α} (upholds : Attempt.Upholds stuck inv attempt) :
    Attempt.Upholds stuck inv attempt.walking :=
  .of_meets fun _ h => (Attempt.meets_walking attempt _).2 (upholds.meets h)

theorem upholds_slotOf (realm : RealmId) (id : RecordId) :
    Attempt.Upholds stuck inv (slotOf realm id) := by
  refine .bind .get fun world => ?_
  split
  · exact .pure _
  · exact .throw _

/-- The execution of a body in a walk upholds an invariant that the body upholds where it fails, and
that holds again when the end of a body that did not fail is written down. -/
theorem meets_executeInWalk {done : World → Prop} {realm : RealmId} {id : RecordId} {w : World}
    (turns : ∀ w, inv w → inv (w.running realm none))
    (executes : Attempt.Meets stuck (fun _ => inv) (engine.execute realm id) (fun _ => done)
      (w.running realm (some id)))
    (fails : ∀ w error, inv w → inv (w.write (.ended realm id (some error))))
    (ends : ∀ w, done w → inv ((w.running realm none).write (.ended realm id none))) :
    Attempt.Meets stuck (fun _ => inv) (engine.executeInWalk realm id) (fun _ => inv) w := by
  unfold executeInWalk
  rw [Attempt.meets_bind, Attempt.meets_lift, meets_setRunning, Attempt.meets_bind,
    Attempt.meets_outcome]
  refine executes.imp (fun _ h => h) (fun error w h => ?_) fun _ w h => ?_
  all_goals rw [Attempt.meets_bind, Attempt.meets_lift, meets_setRunning]
  · exact fails _ error (turns w h)
  · exact ends w h

/-- The same where the invariant holds whatever body runs. -/
theorem upholds_executeInWalk {done : World → Prop} {realm : RealmId} {id : RecordId}
    (turns : ∀ w running, inv w → inv (w.running realm running))
    (executes : ∀ w, inv w → Attempt.Meets stuck (fun _ => inv) (engine.execute realm id)
      (fun _ => done) w)
    (fails : ∀ w error, inv w → inv (w.write (.ended realm id (some error))))
    (ends : ∀ w, done w → inv ((w.running realm none).write (.ended realm id none))) :
    Attempt.Upholds stuck inv (engine.executeInWalk realm id) :=
  .of_meets fun w h =>
    meets_executeInWalk (turns · none) (executes _ (turns w (some id) h)) fails ends

/-- Instantiation upholds an invariant that new instances do not break. -/
theorem Touched.instantiate (touched : Touched stuck inv)
    (adds : ∀ w realm id content, (w.realm realm).slot? id = none → inv w →
      inv (w.addInstance realm id content)) (depth : Nat) (realm : RealmId) (id : RecordId) :
    Attempt.Upholds stuck inv (Action.instantiate depth realm id) := by
  refine .of_meets fun w h => ?_
  unfold Action.instantiate
  rw [Attempt.meets_bind, Attempt.meets_get]
  split
  · exact h
  · rename_i absent
    split
    · have made : Attempt.Keeps Touches (Action.newInstance depth realm id) :=
        Action.keeps_newInstance depth realm id
      rw [Attempt.meets_bind]
      refine (made.meets w).imp (fun w₁ touches => touched.stop w₁ (touched.touches w w₁ touches h))
        (fun _ w₁ touches => touched.touches w w₁ touches h) fun content w₁ touches => ?_
      refine adds w₁ realm id content ?_ (touched.touches w w₁ touches h)
      rw [Realm.slot?, touches.edits.still.slots]
      exact absent
    · exact h

variable (lasting : Lasting embedding stuck inv site linkable)
include lasting

theorem Lasting.turned {change : World → World} (turns : ∀ w, Turns w (change w)) :
    Action.Upholds stuck inv (modify change) := fun w h => lasting.turns w _ (turns w) h

theorem Lasting.modifyWalk (realm : RealmId) (change : Walk → Walk) :
    Action.Upholds stuck inv (modifyWalk realm change) :=
  lasting.turned fun w => .rearranged w realm fun r => r.slots_modifyWalk change

theorem Lasting.moveSlot (realm : RealmId) (id : RecordId) (status : InstanceStatus)
    (change : Slot → Slot) : Action.Upholds stuck inv (moveSlot realm id status change) :=
  lasting.turned fun w => .moveSlot w realm id status change

theorem Lasting.write {event : Event} (steers : event.isSteering = true) :
    Action.Upholds stuck inv (Action.write event) :=
  lasting.turned fun _ => .single (.write event steers)

/-! ### Visits -/

theorem Lasting.enter (realm : RealmId) (id : RecordId) (index : Nat) :
    Action.Upholds stuck inv (enter realm id index) :=
  .bind (lasting.moveSlot realm id .evaluating _) fun _ => lasting.modifyWalk realm _

theorem Lasting.lowerAncestor (realm : RealmId) (id required : RecordId) :
    Attempt.Upholds stuck inv (lowerAncestor realm id required) := by
  refine .bind .get fun world => ?_
  split
  · refine .bind (upholds_slotOf realm required) fun slot => .bind .get fun world => ?_
    split
    · exact .lift (lasting.turned fun w => .modifySlot w realm id _)
    · exact .pure _
  · exact .pure _

theorem Lasting.closeDownTo (realm : RealmId) (id : RecordId) (stack : List RecordId) :
    Attempt.Upholds stuck inv (closeDownTo realm id stack) := by
  induction stack with
  | nil => exact .throw _
  | cons top rest ih =>
    refine .bind (.lift (lasting.modifyWalk realm _)) fun _ =>
      .bind (.map (upholds_slotOf realm top) _) fun _ =>
      .bind (.lift (lasting.moveSlot realm top _ _)) fun _ => ?_
    split
    · exact .pure _
    · exact .bind ih fun _ => .pure _

theorem Lasting.closeComponent (realm : RealmId) (id : RecordId) :
    Attempt.Upholds stuck inv (closeComponent realm id) := by
  refine .bind (upholds_slotOf realm id) fun slot => ?_
  split
  · exact .bind .get fun _ => .bind (lasting.closeDownTo realm id _) fun _ =>
      .bind .get fun _ => .lift (lasting.write rfl)
  · exact .pure _

theorem Lasting.abandon (realm : RealmId) (error : ModuleError) (stack : List RecordId) :
    Action.Upholds stuck inv (abandon realm error stack) := by
  induction stack with
  | nil => exact .pure _
  | cons id rest ih =>
    exact .bind (lasting.modifyWalk realm _) fun _ =>
      .bind (lasting.moveSlot realm id _ _) fun _ => ih

section
variable (sustains : engine.Sustains stuck inv) (realm : RealmId) (id : RecordId)
include sustains

theorem Sustains.visitAll (required : List RecordId) (index : Nat) :
    Attempt.Upholds stuck inv (engine.visitAll realm id required index) := by
  induction required generalizing index with
  | nil => exact .pure _
  | cons next rest ih =>
    exact .bind (sustains.visit realm next index) fun index =>
      .bind (upholds_walking (lasting.lowerAncestor realm id next)) fun _ => ih index

theorem Sustains.visitPlain (index : Nat) {w : World} (h : inv w)
    (plain : (w.record id).isCyclic = false) :
    Attempt.Meets stuck (fun _ => inv) (engine.visitPlain realm id index) (fun _ => inv) w := by
  have settled (slot : Slot) : Attempt.Upholds stuck inv (outcomeOf slot index) := by
    unfold outcomeOf
    split
    · exact .throw _
    · exact .pure _
  have runs : Attempt.Meets stuck (fun _ => inv) (engine.executeInWalk realm id) (fun _ => inv) w :=
    sustains.execute realm id w h fun cyclic => by rw [plain] at cyclic; cases cyclic
  have moves (error : Option ModuleError) : Attempt.Upholds stuck inv (do
      moveSlot realm id .evaluated ({ · with error })
      outcomeOf (← (slotOf realm id).walking) index : Walking Nat) :=
    .bind (.lift (lasting.moveSlot realm id _ _)) fun _ =>
      .bind (upholds_walking (upholds_slotOf realm id)) settled
  unfold Engine.visitPlain
  rw [Attempt.meets_bind, Attempt.meets_walking]
  refine meets_slotOf (fun _ => h) fun slot _ => ?_
  split
  · rw [Attempt.meets_bind, Attempt.meets_walking, Attempt.meets_outcome]
    exact runs.imp (fun _ h => h) (fun error _ h => (moves (some error)).meets h)
      fun _ _ h => (moves none).meets h
  · exact (settled slot).meets h

theorem Sustains.visitNew (index : Nat) :
    Attempt.Upholds stuck inv (engine.visitNew realm id index) := by
  refine .bind (.lift (lasting.enter realm id index)) fun _ => .bind .get fun world =>
    .bind (sustains.visitAll lasting realm id _ _) fun index => .of_meets fun w h => ?_
  rw [Attempt.meets_bind, Attempt.meets_get]
  split
  · exact h
  · rename_i ready
    rw [Attempt.meets_bind, Attempt.meets_walking]
    have closes : Attempt.Upholds stuck inv (do
        (closeComponent realm id).walking
        pure index : Walking Nat) :=
      .bind (upholds_walking (lasting.closeComponent realm id)) fun _ => .pure _
    exact (sustains.execute realm id w h fun _ => by simpa using ready).imp (fun _ h => h)
      (fun _ _ h => h) fun _ _ h => closes.meets h

theorem Sustains.visitFrom (index : Nat) :
    Attempt.Upholds stuck inv (engine.visitFrom realm id index) := by
  refine .bind (upholds_walking (lasting.instantiate _ realm id)) fun _ => .of_meets fun w h => ?_
  rw [Attempt.meets_bind, Attempt.meets_get]
  split
  · refine Attempt.Upholds.meets (.bind (upholds_walking (upholds_slotOf realm id)) fun slot => ?_) h
    split
    · unfold outcomeOf
      split
      · exact .throw _
      · exact .pure _
    · exact .pure _
    · exact sustains.visitNew lasting realm id index
  · rename_i plain
    exact sustains.visitPlain lasting realm id index h (by simpa using plain)

theorem Sustains.walk : Action.Upholds stuck inv (engine.walk realm id) := by
  refine .bind (lasting.turned fun w => .rearranged w realm fun _ => rfl) fun _ =>
    .bind (sustains.visit realm id 0) fun outcome => .bind (.bind .get fun world => ?_) fun _ =>
    .bind (lasting.turned fun w => .rearranged w realm fun _ => rfl) fun _ => .pure _
  split
  · exact .pure _
  · exact .bind (lasting.abandon realm _ _) fun _ => .pure _

end

/-- However deep modules nest, evaluation upholds what lasts. -/
theorem Lasting.ofDepth (depth : Nat) : (ofDepth embedding depth).Sustains stuck inv := by
  induction depth with
  | zero =>
    have upholds (realm : RealmId) : (Engine.ofDepth embedding 0).Upholds realm stuck inv :=
      ⟨fun _ _ _ _ => lasting.stop, fun _ => lasting.stop⟩
    exact ⟨upholds, fun realm id => lasting.executes 0 realm id upholds, fun _ _ _ => lasting.stop⟩
  | succ depth ih =>
    have upholds (realm : RealmId) :
        (Engine.ofDepth embedding (depth + 1)).Upholds realm stuck inv :=
      .next lasting.toBorne (ih.walk lasting realm) (ih.upholds realm)
    exact ⟨upholds, fun realm id => lasting.executes (depth + 1) realm id upholds,
      ih.visitFrom lasting⟩

end

section
variable (sustained : Sustained embedding stuck inv site linkable)
include sustained

theorem Sustained.touched : Touched stuck inv := ⟨sustained.stop, sustained.touches⟩

/-- What neither moves nor touches break lasts. -/
theorem Sustained.lasting : Lasting embedding stuck inv site linkable := by
  refine ⟨sustained.toBorne, fun w w' turns => sustained.moves w w' turns.moves,
    fun depth realm id upholds w h _ => ?_⟩
  have written (w : World) {event : Event} (inward : event.isOutward = false) (h : inv w) :
      inv (w.write event) := sustained.moves w _ (.single (.write event inward)) h
  have turned (w : World) (running : Option RecordId) (h : inv w) :
      inv (w.running realm running) :=
    sustained.moves w _ (.rearranged w realm fun r => r.slots_modifyWalk _) h
  have executed : Attempt.Upholds stuck inv ((Engine.ofDepth embedding depth).execute realm id) :=
    .bind (upholds_slotOf realm id) fun slot => .bind .get fun world =>
      .bind (.lift fun w => written w rfl) fun _ =>
      upholds_runInstance sustained.touched (upholds realm) id _ fun w _ _ =>
        sustained.moves w _ (.single (.arrange realm _ fun _ _ => Iff.rfl))
  exact meets_executeInWalk (turned · none) (executed.meets (turned w _ h))
    (fun w _ => written w rfl) fun w h => written _ rfl (turned w none h)

theorem Sustained.ofDepth (depth : Nat) : (ofDepth embedding depth).Sustains stuck inv :=
  sustained.lasting.ofDepth depth

end
end Engine

/-- What is sustained is upheld by every run. -/
theorem Setup.sustains_run_within {embedding : Embedding} {stuck inv : World → Prop}
    {site : Url → Prop} (sustained : Engine.Sustained embedding stuck inv site) (depth : Nat)
    {operations : List Operation}
    (within : ∀ operation ∈ operations, operation.StaysWithin site) :
    Action.Upholds stuck inv ((Setup.ofDepth embedding depth).run operations) :=
  upholds_run_within sustained.toBorne sustained.touched
    ((sustained.ofDepth depth).walk sustained.lasting) (sustained.ofDepth depth).upholds within

theorem Setup.sustains_run {embedding : Embedding} {stuck inv : World → Prop}
    (sustained : Engine.Sustained embedding stuck inv) (depth : Nat) (operations : List Operation) :
    Action.Upholds stuck inv ((Setup.ofDepth embedding depth).run operations) :=
  sustains_run_within sustained depth fun operation _ => operation.staysWithin_all

/-! ### Linking -/

namespace Embedding
variable {embedding : Embedding} {stuck inv : World → Prop}

section
variable (sets : ∀ (w : World) id module status requested, w.record id = .static module →
  status ≠ .unlinked → inv w → inv (w.setRecord id (.static { module with status, requested })))
include sets

/-- A static module may get a status, but not become unlinked. -/
theorem upholds_modifyStatus (id : RecordId) {status : LinkStatus} (begun : status ≠ .unlinked) :
    Attempt.Upholds stuck inv (liftM (modifyStatic id ({ · with status })) : Attempt Unit) := by
  refine .lift fun w h => ?_
  unfold modifyStatic
  rw [Action.meets_modify]
  split
  · rename_i module found
    exact sets w id module status module.requested found begun h
  · exact h

/-- Linking upholds what a static module upholds when it asks for what it imports, and to which it
does not matter how far a static module that links has come and what it requests. -/
theorem upholds_link_with (stop : ∀ w, inv w → stuck w)
    (begins : ∀ (w : World) id module, w.record id = .static module → module.status = .unlinked →
      inv w → Attempt.Meets stuck (fun _ => inv)
        (embedding.importAll module.importer id module.declarations.requestedSpecifiers)
        (fun _ => inv) (w.setRecord id (.static { module with status := .linking })))
    (depth : Nat) (id : RecordId) : Attempt.Upholds stuck inv (embedding.link depth id) := by
  induction depth generalizing id with
  | zero => exact .lift (.tooDeep stop)
  | succ depth ih =>
    refine .of_meets fun w h => ?_
    unfold link
    rw [Attempt.meets_bind, Attempt.meets_get]
    split
    · rename_i module found
      split
      · exact h
      · exact h
      · exact h
      · rename_i unlinked
        have linking : (w.setRecord id (.static { module with status := .linking })).record id =
            .static { module with status := .linking } := by
          rw [record_setRecord, if_pos ⟨rfl, hasRecord_of_static found⟩]
        have linked : Attempt.Meets stuck (fun _ => inv)
            (embedding.linkStatic (embedding.link depth) id { module with status := .linking })
            (fun _ => inv) (w.setRecord id (.static { module with status := .linking })) := by
          unfold linkStatic
          rw [Attempt.meets_bind]
          refine ((begins w id module found unlinked h).and
            ((embedding.keeps_importAll module.importer id _).meets _)).imp (fun _ h => h.1)
            (fun _ _ h => h.1) fun requested w₁ h => ?_
          have found₁ := h.2.static linking
          rw [Attempt.meets_bind, meets_modifyStatic found₁]
          refine Attempt.Upholds.meets (.bind (upholds_linkAll ih _) fun _ => .bind .get fun _ => ?_)
            (sets w₁ id _ .linking requested found₁ (by simp) h.1)
          split
          · exact .pure _
          · exact .throw _
        rw [Attempt.meets_bind, meets_modifyStatic found, Attempt.meets_bind, Attempt.meets_outcome]
        refine linked.imp (fun _ h => h) (fun error _ h => ?_)
          fun _ _ h => (upholds_modifyStatus sets id (by simp)).meets h
        exact Attempt.Upholds.meets
          (.bind (upholds_modifyStatus sets id (by simp)) fun _ => .throw _) h
    · split <;> exact h
    · exact h

end

variable {site : Url → Prop} (consulted : Consulted embedding stuck inv site)
  (asks : ∀ w id specifier, inv w → inv (w.write (.asked id specifier)))
include consulted asks

theorem upholds_importAll_of (importer : Importer) (id : RecordId) (specifiers : List String) :
    Attempt.Upholds stuck inv (embedding.importAll importer id specifiers) := by
  induction specifiers with
  | nil => exact .pure _
  | cons specifier rest ih =>
    exact .bind (.lift fun w => asks w id specifier) fun _ =>
      .bind (consulted.importFor importer id specifier) fun _ => .bind ih fun _ => .pure _

/-- Linking upholds what resolution upholds, and to which it does not matter how far a static module
is linked and what it requests. -/
theorem upholds_link_of (sets : ∀ w id module status requested, w.record id = .static module →
    inv w → inv (w.setRecord id (.static { module with status, requested }))) (depth : Nat)
    (id : RecordId) : Attempt.Upholds stuck inv (embedding.link depth id) := by
  refine upholds_link_with
    (fun w id module status requested found _ => sets w id module status requested found)
    consulted.stop (fun w id module found _ h => ?_) depth id
  exact (upholds_importAll_of consulted asks module.importer id _).meets
    (sets w id module .linking module.requested found h)

end Embedding

/-! ### Relations that every run keeps to -/

/-- A relation that takes in resolution and moves, and to which neither the contents of records nor
new instances matter, holds between a world and all that code makes of it. -/
theorem Engine.sustained_of {R : World → World → Prop} [Retains R]
    (asks : ∀ (w : World) id specifier, R w (w.write (.asked id specifier)))
    (sets : ∀ (w : World) id record, R w (w.setRecord id record))
    (adds : ∀ (w : World) realm id content, R w (w.addInstance realm id content))
    (moves : ∀ w w', Move w w' → R w w') (embedding : Embedding) (w : World) :
    Sustained embedding (R w) (R w) := by
  have onward {w' w'' : World} (r : R w' w'') (h : R w w') : R w w'' := IsTrans.trans _ _ _ h r
  have consulted : Consulted embedding (R w) (R w) :=
    .of_retained (fun _ h => h) fun _ _ (r : R _ _) => onward r
  have touched : Touched (R w) (R w) := .of_absorbed (fun _ h => h) fun _ _ (r : R _ _) => onward r
  refine ⟨⟨consulted, fun depth id _ => Embedding.upholds_link_of consulted
      (fun w' id specifier => onward (asks w' id specifier))
      (fun w' id _ _ _ _ => onward (sets w' id _)) depth id, fun _ _ _ _ _ => trivial,
    touched.instantiate fun w' realm id content _ => onward (adds w' realm id content)⟩,
    touched.touches, fun w' w'' walked h => ?_⟩
  induction walked with
  | refl => exact h
  | tail _ move ih => exact onward (moves _ _ move) ih

end ModuleGraph
