import ModuleGraph.Proofs.Edits

/-!
Linking and instantiation keep to changes. A static module that is no longer unlinked belongs to the
walk that links it, and nothing else touches it.
-/
namespace ModuleGraph
open Relation

namespace World
variable {w w' w'' : World}

/-- Any number of changes. -/
abbrev Changes : World → World → Prop := ReflTransGen Change

theorem Edits.still (h : Edits w w') : Still w w' := by
  induction h with
  | refl => exact .refl w
  | tail _ edit ih => exact ih.trans edit.still

theorem Edits.changes (h : Edits w w') : Changes w w' :=
  ReflTransGen.mono (fun _ _ => Change.edit) _ _ h

theorem Edits.static (h : Edits w w') {id : RecordId} {module : StaticModule}
    (found : w.record id = .static module) : w'.record id = .static module := by
  induction h with
  | refl => exact found
  | tail _ edit ih => exact edit.static ih

/-- Edits change nothing of how instances of a record begin. -/
theorem Edits.begins (h : Edits w w') {id : RecordId} {content : Instance}
    (present : w.hasRecord id) (begins : (w.record id).Begins content) :
    (w'.record id).Begins content := by
  induction h with
  | refl => exact begins
  | tail before edit ih => exact edit.begins ((Edits.still before).records.hasRecord present) ih

/-- What linking does: changes that leave every static module alone that was not unlinked. -/
structure Links (w w' : World) : Prop where
  changes : Changes w w'
  begun : ∀ id module, w.record id = .static module → module.status ≠ .unlinked →
    w'.record id = .static module

instance : Std.Refl Links := ⟨fun _ => ⟨.refl, fun _ _ found _ => found⟩⟩

instance : IsTrans World Links where
  trans _ _ _ h h' := ⟨h.changes.trans h'.changes, fun id module found begun =>
    h'.begun id module (h.begun id module found begun) begun⟩

theorem Edits.links (h : Edits w w') : Links w w' :=
  ⟨h.changes, fun _ _ found _ => h.static found⟩

/-- What instantiation does: changes that leave every static module alone. -/
structure Instantiates (w w' : World) : Prop where
  changes : Changes w w'
  static : ∀ id module, w.record id = .static module → w'.record id = .static module

instance : Std.Refl Instantiates := ⟨fun _ => ⟨.refl, fun _ _ found => found⟩⟩

instance : IsTrans World Instantiates where
  trans _ _ _ h h' := ⟨h.changes.trans h'.changes, fun id module found =>
    h'.static id module (h.static id module found)⟩

theorem Edits.instantiates (h : Edits w w') : Instantiates w w' :=
  ⟨h.changes, fun _ _ found => h.static found⟩

theorem hasRecord_of_static {id : RecordId} {module : StaticModule}
    (found : w.record id = .static module) : w.hasRecord id := by
  by_contra absent
  rw [record_of_not_hasRecord absent] at found
  cases found

/-- A step of a module that was unlinked. -/
theorem Links.relink {id : RecordId} {module : StaticModule} {record : Record} (h : Links w w')
    (found : w.record id = .static module) (unlinked : module.status = .unlinked)
    (step : Relink w' (w'.setRecord id record)) : Links w (w'.setRecord id record) where
  changes := h.changes.tail (.relink step)
  begun other otherModule hfound begun := by
    have differs : other ≠ id := by
      rintro rfl
      rw [found] at hfound
      cases hfound
      exact begun unlinked
    rw [record_setRecord, if_neg fun same => differs same.1]
    exact h.begun other otherModule hfound begun

/-- Whether a module is in the state of linking. -/
def IsLinking (w : World) (id : RecordId) : Prop :=
  ∃ module, w.record id = .static module ∧ module.status = .linking

theorem Links.isLinking {id : RecordId} (h : Links w w') (linking : w.IsLinking id) :
    w'.IsLinking id := by
  obtain ⟨module, found, status⟩ := linking
  exact ⟨module, h.begun id module found (by simp [status]), status⟩

theorem isLinking_setRecord {id : RecordId} {module : StaticModule} (present : w.hasRecord id)
    (linking : module.status = .linking) : (w.setRecord id (.static module)).IsLinking id :=
  ⟨module, by rw [record_setRecord, if_pos ⟨rfl, present⟩], linking⟩

end World

namespace Embedding
variable (embedding : Embedding) {w : World} {stuck : World → Prop}
  {failed : ModuleError → World → Prop}

/-- Changing a static module sets its record. -/
theorem meets_modifyStatic {id : RecordId} {module : StaticModule}
    (found : w.record id = .static module) (change : StaticModule → StaticModule)
    (post : PUnit → World → Prop) :
    Attempt.Meets stuck failed (liftM (modifyStatic id change)) post w ↔
      post ⟨⟩ (w.setRecord id (.static (change module))) := by
  unfold modifyStatic
  rw [Attempt.meets_lift, Action.meets_modify, found]

theorem keeps_linkAll {link : RecordId → Attempt Unit}
    (links : ∀ id, Attempt.Keeps World.Links (link id)) (ids : List RecordId) :
    Attempt.Keeps World.Links (linkAll link ids) := by
  induction ids with
  | nil => exact .pure _
  | cons id rest ih => exact .bind (links id) fun _ => ih

theorem upholds_linkAll {stuck inv : World → Prop} {link : RecordId → Attempt Unit}
    (links : ∀ id, Attempt.Upholds stuck inv (link id)) (ids : List RecordId) :
    Attempt.Upholds stuck inv (linkAll link ids) := by
  induction ids with
  | nil => exact .pure _
  | cons id rest ih => exact .bind (links id) fun _ => ih

/-- A module that links stays in the state of linking until that is over. -/
theorem meets_linkStatic {link : RecordId → Attempt Unit}
    (links : ∀ id, Attempt.Keeps World.Links (link id)) {w₀ : World} {id : RecordId}
    {module : StaticModule} (found : w₀.record id = .static module)
    (unlinked : module.status = .unlinked) (begun : World.Links w₀ w) (linking : w.IsLinking id) :
    Attempt.Meets (fun w' => World.Links w₀ w' ∧ w'.IsLinking id)
      (fun _ w' => World.Links w₀ w' ∧ w'.IsLinking id) (embedding.linkStatic link id module)
      (fun _ w' => World.Links w₀ w' ∧ w'.IsLinking id) w := by
  have onward {α : Type} {attempt : Attempt α} (keeps : Attempt.Keeps World.Links attempt)
      {w' : World} (h : World.Links w₀ w' ∧ w'.IsLinking id) :
      Attempt.Meets (fun w'' => World.Links w₀ w'' ∧ w''.IsLinking id)
        (fun _ w'' => World.Links w₀ w'' ∧ w''.IsLinking id) attempt
        (fun _ w'' => World.Links w₀ w'' ∧ w''.IsLinking id) w' :=
    (keeps.meets w').imp (fun _ r => ⟨IsTrans.trans _ _ _ h.1 r, r.isLinking h.2⟩)
      (fun _ _ r => ⟨IsTrans.trans _ _ _ h.1 r, r.isLinking h.2⟩)
      fun _ _ r => ⟨IsTrans.trans _ _ _ h.1 r, r.isLinking h.2⟩
  have imported := embedding.keeps_importAll module.importer id
    module.declarations.requestedSpecifiers
  unfold linkStatic
  rw [Attempt.meets_bind]
  refine (onward (imported.mono fun _ _ => World.Edits.links) ⟨begun, linking⟩).imp
    (fun _ h => h) (fun _ _ h => h) fun requested w₁ h => ?_
  obtain ⟨module', found', linking'⟩ := h.2
  rw [Attempt.meets_bind, meets_modifyStatic found', Attempt.meets_bind]
  refine (onward (keeps_linkAll links _) ⟨?_, ?_⟩).mono fun _ w₂ h => ?_
  · exact h.1.relink found unlinked (.setRequested id module' found' linking' requested)
  · exact World.isLinking_setRecord (World.hasRecord_of_static found') linking'
  · rw [Attempt.meets_bind, Attempt.meets_get]
    split <;> exact h

/-- Linking changes nothing that another walk links. -/
theorem keeps_link (depth : Nat) (id : RecordId) :
    Attempt.Keeps World.Links (embedding.link depth id) := by
  induction depth generalizing id with
  | zero => exact .lift .tooDeep
  | succ depth ih =>
    refine .get_bind fun w => ?_
    split
    · rename_i module found
      split
      · exact refl w
      · exact refl w
      · exact refl w
      · rename_i unlinked
        have begun : World.Links w (w.setRecord id (.static { module with status := .linking })) :=
          (refl w : World.Links w w).relink found unlinked (.start id module found unlinked)
        rw [Attempt.meets_bind, meets_modifyStatic found, Attempt.meets_bind,
          Attempt.meets_outcome]
        refine (embedding.meets_linkStatic ih found unlinked begun
          (World.isLinking_setRecord (World.hasRecord_of_static found) rfl)).imp (fun _ h => h.1)
          (fun error w₁ h => ?_) fun _ w₁ h => ?_
        all_goals
          obtain ⟨links, module', found', linking⟩ := h
          have ended (status : LinkStatus) :=
            links.relink found unlinked (.finish id module' found' linking status)
        · rw [Attempt.meets_bind, meets_modifyStatic found']
          exact ended (.failed error)
        · rw [meets_modifyStatic found']
          exact ended .linked
    · split <;> exact refl w
    · exact refl w

/-- What linking a record comes to that needs no more of it. -/
def linkedAlready : Record → Outcome Unit
  | .custom module => module.link
  | _ => .ok ()

/-- Linking a settled record changes nothing. -/
theorem run_link_of_isSettled {id : RecordId} (settled : (w.record id).IsSettled)
    (depth : Nat) :
    (embedding.link (depth + 1) id).run w = .ok (linkedAlready (w.record id)) w := by
  unfold link
  rw [Attempt.run_bind_of_ended (show (get : Attempt World).run w = .ok (.ok w) w from rfl)]
  cases found : w.record id with
  | static module =>
    rw [found] at settled
    have linked : module.status = .linked := settled
    simp only [linked]
    rfl
  | custom module =>
    dsimp only [linkedAlready]
    cases module.link <;> rfl
  | _ => rfl

end Embedding

namespace Action
variable {w : World}

/-- There is an instance of a static module only once it was linked. -/
theorem meets_newInstance (depth : Nat) (realm : RealmId) (id : RecordId) (w : World) :
    Attempt.Meets (World.Edits w) (fun _ => World.Edits w) (newInstance depth realm id)
      (fun _ w' => World.Edits w w' ∧ (w.record id).IsSettled) w := by
  by_cases settled : (w.record id).IsSettled
  · exact ((keeps_newInstance depth realm id).meets w).mono fun _ _ h => ⟨h, settled⟩
  · unfold newInstance
    rw [Attempt.meets_bind, Attempt.meets_get]
    split
    · rename_i module found
      split
      · exact ReflTransGen.refl
      · rename_i linked
        simp [found, Record.IsSettled, linked] at settled
      · exact ReflTransGen.refl
    all_goals
      rename_i found
      simp [found, Record.IsSettled] at settled

theorem meets_nativeInstance (depth : Nat) (realm : RealmId) (id : RecordId) (name : String)
    (exports : NativeExports) (w : World) :
    Action.Meets (fun _ => True) (nativeInstance depth realm id name exports)
      (fun content _ => ∃ named default, content = .native named default) w := by
  unfold nativeInstance
  refine meets_bind_of_forall fun _ _ => meets_bind_of_forall fun _ _ =>
    meets_bind_of_forall fun _ _ => meets_bind_of_forall fun named _ =>
    meets_bind_of_forall fun declared _ => meets_bind_of_forall fun _ w => ?_
  split
  · exact ⟨named, _, rfl⟩
  · exact meets_bind_of_forall fun _ _ => ⟨named, _, rfl⟩

theorem meets_legacyInstance_value (depth : Nat) (realm : RealmId) (id : RecordId) (name : String)
    (workplace : Workplace) (script : Script) (w : World) :
    Attempt.Meets (fun _ => True) (fun _ _ => True)
      (legacyInstance depth realm id name workplace script)
      (fun content _ => ∃ value, content = .legacy value) w := by
  unfold legacyInstance
  refine Attempt.meets_bind_of_forall fun _ _ => Attempt.meets_bind_of_forall fun value _ => ?_
  split
  · trivial
  · exact Attempt.meets_bind_of_forall fun _ _ => Attempt.meets_bind_of_forall fun _ _ =>
      ⟨value, rfl⟩

/-- An instance is made as instances of its record begin. -/
theorem meets_newInstance_begins (depth : Nat) (realm : RealmId) (id : RecordId) (w : World) :
    Attempt.Meets (fun _ => True) (fun _ _ => True) (newInstance depth realm id)
      (fun content _ => (w.record id).Begins content) w := by
  unfold newInstance
  rw [Attempt.meets_bind, Attempt.meets_get]
  cases w.record id with
  | static module =>
    dsimp only
    split
    · trivial
    · split
      · exact .static module ‹_›
      · trivial
    · trivial
  | wrapper module => exact .wrapper module
  | host module =>
    have legacy (workplace : Workplace) (script : Script) :=
      (meets_legacyInstance_value depth realm id module.name workplace script w).mono
        fun content _ h => show Record.Begins (.host module) content by
          obtain ⟨value, rfl⟩ := h
          exact .legacy module value
    dsimp only
    split
    · refine (Attempt.meets_lift _).mpr ((meets_nativeInstance ..).mono fun content _ h => ?_)
      obtain ⟨named, default, rfl⟩ := h
      exact .native module named default
    · exact legacy _ _
    · exact legacy _ _
  | custom module =>
    refine Attempt.meets_bind_of_forall fun _ _ => Attempt.meets_bind_of_forall fun _ _ => ?_
    split
    · trivial
    · rw [Attempt.meets_map]
      exact (Attempt.meets_lift _).mpr ((meets_ended _ _).mono fun bindings _ _ =>
        .custom module bindings)

theorem instantiates_instantiate (depth : Nat) (realm : RealmId) (id : RecordId) :
    Attempt.Keeps World.Instantiates (instantiate depth realm id) := by
  refine .get_bind fun w => ?_
  split
  · exact refl w
  · rename_i absent
    split
    · rename_i present
      rw [Attempt.meets_bind]
      refine ((meets_newInstance depth realm id w).and (meets_newInstance_begins depth realm id w)).imp
        (fun _ h => h.1.instantiates) (fun _ _ h => h.1.instantiates) fun content w₁ h => ?_
      obtain ⟨⟨edits, settled⟩, begins⟩ := h
      have still := edits.still
      refine ⟨edits.changes.tail (.addInstance realm id content ?_ ?_ ?_ ?_),
        edits.instantiates.static⟩
      · rw [Realm.slot?, still.slots]
        exact absent
      · exact still.records.hasRecord present
      · exact still.records.isSettled id present settled
      · exact edits.begins present begins
    · exact refl w

theorem instantiates_instantiateFrom (depth : Nat) (realm : RealmId)
    (unvisited pending : List RecordId) :
    Attempt.Keeps World.Instantiates (instantiateFrom depth realm unvisited pending) := by
  induction unvisited, pending using instantiateFrom.induct with
  | case1 unvisited =>
    rw [instantiateFrom]
    exact .pure _
  | case2 unvisited id rest unvisitedYet ih =>
    rw [instantiateFrom, if_pos unvisitedYet]
    exact .bind (instantiates_instantiate depth realm id) fun _ => .bind .get fun _ => ih _
  | case3 unvisited id rest visited ih =>
    rw [instantiateFrom, if_neg visited]
    exact ih

theorem instantiates_instantiateGraph (depth : Nat) (realm : RealmId) (root : RecordId) :
    Attempt.Keeps World.Instantiates (instantiateGraph depth realm root) :=
  .bind .get fun _ => instantiates_instantiateFrom depth realm _ _

theorem keeps_instantiate (depth : Nat) (realm : RealmId) (id : RecordId) :
    Attempt.Keeps World.Changes (instantiate depth realm id) :=
  (instantiates_instantiate depth realm id).mono fun _ _ h => h.changes

theorem keeps_instantiateGraph (depth : Nat) (realm : RealmId) (root : RecordId) :
    Attempt.Keeps World.Changes (instantiateGraph depth realm root) :=
  (instantiates_instantiateGraph depth realm root).mono fun _ _ h => h.changes

end Action
end ModuleGraph
