import ModuleGraph.Proofs.Failures
import ModuleGraph.Proofs.HostValues
import ModuleGraph.Proofs.Origins

/-!
Graphs that could not be instantiated. A linked graph comes into a realm module by module, until one
is refused: a static module that has failed to link, or a host module that gives nothing. Whatever
happens meanwhile, whoever instantiates the graph again comes to the same module, and it is refused
for the same reason.
-/
namespace ModuleGraph
open World Engine Relation

/-- An attempt fails with an error, and does no more to the world than scripts do by themselves. -/
def Attempt.Refuses {α : Type} (error : ModuleError) (attempt : Attempt α) (w : World) : Prop :=
  Attempt.Meets (fun _ => False) (fun e w' => e = error ∧ Touches w w') attempt (fun _ _ => False) w

namespace World
variable {embedding : Embedding} {w w' : World} {realm : RealmId} {id x root : RecordId}
  {graph : RecordId → Prop}

/-! ### What stays -/

/-- A static module that is done with linking stays as it is. -/
theorem Step.done (step : Step w w') {module : StaticModule} (found : w.record id = .static module)
    (done : module.status ≠ .unlinked ∧ module.status ≠ .linking) :
    w'.record id = .static module := by
  have spared {other : RecordId} {before : StaticModule} (record : Record)
      (there : w.record other = .static before)
      (open' : before.status = .unlinked ∨ before.status = .linking) :
      (w.setRecord other record).record id = .static module := by
    rw [record_setRecord_other ?_, found]
    rintro rfl
    cases found.symm.trans there
    rcases open' with status | status
    · exact done.1 status
    · exact done.2 status
  cases step with
  | change change =>
    cases change with
    | edit edit => exact edit.static found
    | relink relink =>
      cases relink with
      | start other before there unlinked => exact spared _ there (.inl unlinked)
      | setRequested other before there linking => exact spared _ there (.inr linking)
      | finish other before there linking => exact spared _ there (.inr linking)
    | addInstance => exact found
  | exposed exposes =>
    cases exposes
    exact found
  | _ => exact found

theorem Steps.done (steps : Steps w w') {module : StaticModule}
    (found : w.record id = .static module)
    (done : module.status ≠ .unlinked ∧ module.status ≠ .linking) :
    w'.record id = .static module := by
  induction steps with
  | refl => exact found
  | tail _ step ih => exact step.done ih done

/-- What revising a record leaves alone stays. -/
theorem Steps.carries (steps : Steps w w') (holds : Record → Prop)
    (carries : ∀ record record', Revised record record' → holds record → holds record')
    (orderly : w.Orderly) (present : w.hasRecord id)
    (before : holds (w.record id)) : holds (w'.record id) := by
  induction steps with
  | refl => exact before
  | tail earlier step ih =>
    have present' := (Steps.extends earlier orderly).hasRecord present
    exact carries _ _ (step.revised present') ih

/-- A host module keeps its name and its content. -/
theorem Steps.host (steps : Steps w w') (orderly : w.Orderly) {module : HostRecord}
    (found : w.record id = .host module) : ∃ names, w'.record id = .host { module with names } := by
  have present : w.hasRecord id := by
    by_contra absent
    rw [record_of_not_hasRecord absent] at found
    cases found
  refine steps.carries (fun record => ∃ names, record = .host { module with names })
    (fun record record' revised before => ?_) orderly present ⟨module.names, found⟩
  obtain ⟨_, before⟩ := before
  obtain ⟨names, after⟩ := revised.host before
  exact ⟨names, after⟩

/-! ### Graphs that were linked -/

/-- A graph of records that the resolver has made, after it was linked: a static module in it knows
all that it imports, or has failed; and requests do not lead out of it, but for those of a failed
one. -/
structure Decided (embedding : Embedding) (w : World) (graph : RecordId → Prop) : Prop where
  made : ∀ x, graph x → (w.record x).IsMade embedding
  linked : ∀ x, graph x → ∀ module, w.record x = .static module →
    (module.status = .linked ∧ ∃ imports, Action.importsOf module = .ok imports) ∨
      ∃ error, module.status = .failed error
  closed : ∀ x, graph x → (w.record x).IsSettled → ∀ r ∈ (w.record x).requested, graph r

/-- The graph behind a linked record of the resolver's is decided. -/
theorem Sourced.decided (sourced : w.Sourced embedding) (linkage : w.Linkage [])
    (made : (w.record root).IsMade embedding)
    (linked : (w.record root).kind = .static → w.IsLinked root) :
    w.Decided embedding (w.Reaches root) := by
  have known {a : RecordId} (linked : w.IsLinked a) {module : StaticModule}
      (found : w.record a = .static module) :
      module.status = .linked ∧ ∃ imports, Action.importsOf module = .ok imports := by
    obtain ⟨module', found', status⟩ := linked
    cases found.symm.trans found'
    exact ⟨status, exists_importsOf (linkage.linked a module found status).asked⟩
  have made' {a : RecordId} (path : w.Reaches root a) : (w.record a).IsMade embedding :=
    sourced.isMade_of_needs made (ReflTransGen.mono (fun _ _ edge => edge.2) _ _ path)
  refine ⟨fun x => made', fun x path module found => ?_,
    fun x path settled r requested => path.tail ⟨settled, requested⟩⟩
  cases path with
  | refl => exact .inl (known (linked (kind_eq_static.mpr ⟨module, found⟩)) found)
  | @tail a _ path edge =>
    obtain ⟨settled, requested⟩ := edge
    cases before : w.record a with
    | static other =>
      rw [before] at settled requested
      rcases linkage.linked_or_failed ⟨other, before, settled⟩ ⟨other, before, requested⟩
        (kind_eq_static.mpr ⟨module, found⟩) with linked | ⟨⟨module', error, found', failed⟩, _⟩
      · exact .inl (known linked found)
      · cases found.symm.trans found'
        exact .inr ⟨error, failed⟩
    | custom =>
      have ofResolver := made' path
      rw [before] at ofResolver
      exact ofResolver.elim
    | _ =>
      rw [before] at requested
      exact absurd requested List.not_mem_nil

/-- Instantiation changes nothing of that. -/
theorem Decided.instantiates (decided : w.Decided embedding graph) (h : Instantiates w w') :
    w'.Decided embedding graph := by
  have known {x : RecordId} (member : graph x) : w.hasRecord x :=
    hasRecord_of_isMade (decided.made x member)
  have static {x : RecordId} (member : graph x) {module : StaticModule}
      (found : w'.record x = .static module) : w.record x = .static module := by
    obtain ⟨module', before⟩ := h.changes.other (known member) found
    cases found.symm.trans (h.static x module' before)
    exact before
  refine ⟨fun x member => h.changes.isMade (decided.made x member), fun x member module found =>
    decided.linked x member module (static member found), fun x member settled r requested => ?_⟩
  rw [h.requested (known member)] at requested
  refine decided.closed x member ?_ r requested
  cases before : w.record x with
  | static module => rwa [h.static x module before] at settled
  | _ => trivial

end World

/-! ### Refusals -/

namespace Action
variable {embedding : Embedding} {w w₁ w₂ : World} {realm : RealmId} {id : RecordId}
  {graph : RecordId → Prop} {depth : Nat} {error : ModuleError}

theorem run_newInstance_failed {module : StaticModule} (found : w.record id = .static module)
    (failed : module.status = .failed error) (depth : Nat) (realm : RealmId) :
    (newInstance depth realm id).run w = .ok (.error error) w := by
  apply Action.Meets.eq
  rw [Attempt.meets_run, newInstance, Attempt.meets_bind, Attempt.meets_get, found]
  simp only [failed]
  exact ⟨rfl, rfl⟩

/-- A host module that has given nothing in a realm is refused there. -/
theorem refuses_newInstance_host (steady : embedding.Steady) {module : HostRecord}
    (found : w.record id = .host module)
    (registered : embedding.hosts.lookup module.name = some module.content) {value : Value}
    (nothing : module.content.GivesNothing module.name depth realm value) :
    (newInstance depth realm id).Refuses (HostModule.refusal module.name value) w := by
  obtain ⟨nullish, script, global, before, after, gives, ended⟩ := nothing
  obtain ⟨workplace, runs⟩ := run_newInstance_host found depth realm gives
  have keeps : Attempt.Keeps Touches (legacyInstance depth realm id module.name workplace script) :=
    keeps_legacyInstance (keeps_publishNames depth id) realm module.name workplace script
  unfold Attempt.Refuses Attempt.Meets
  rw [runs]
  exact ((meets_legacyInstance_refused (steady.script registered gives) nullish ended id
    module.name workplace w).and (keeps.meets w)).imp (fun _ h => h.1) (fun _ _ h => h) fun _ _ h => h.1

/-- What is refused as an instance of a decided record is refused later as well. -/
theorem meets_newInstance_refused (steady : embedding.Steady) (orderly : w.Orderly)
    (decided : w.Decided embedding graph) (member : graph id) (depth : Nat) (realm : RealmId) :
    Attempt.Meets (fun _ => True)
      (fun error _ => ∀ w₂, Steps w w₂ → w₂.Projected embedding →
        (w₂.realm realm).slot? id = none ∧ (newInstance depth realm id).Refuses error w₂)
      (newInstance depth realm id) (fun _ _ => True) w := by
  have made := decided.made id member
  cases found : w.record id with
  | static module =>
    rcases decided.linked id member module found with ⟨linked, imports, built⟩ | ⟨error, failed⟩
    · rw [newInstance, Attempt.meets_bind, Attempt.meets_get, found]
      simp [linked, built]
    · rw [Attempt.Meets, run_newInstance_failed found failed]
      intro w₂ steps _
      have found₂ := steps.done found (by simp [failed])
      refine ⟨Option.eq_none_iff_forall_ne_some.mpr fun slot there => ?_, ?_⟩
      · have settled := ((steps.orderly orderly realm).settled id slot there).2
        simp [found₂, Record.IsSettled, failed] at settled
      · rw [Attempt.Refuses, Attempt.Meets, run_newInstance_failed found₂ failed]
        exact ⟨rfl, .refl⟩
  | wrapper =>
    rw [newInstance, Attempt.meets_bind, Attempt.meets_get, found]
    trivial
  | custom =>
    rw [found] at made
    exact made.elim
  | host module =>
    rw [found] at made
    cases gives : module.content.script? module.name with
    | none =>
      rw [newInstance, Attempt.meets_bind, Attempt.meets_get, found]
      cases content : module.content with
      | native exports =>
        simp only [content]
        exact (Attempt.meets_lift _).mpr ((Action.meets_ended _ w).mono fun _ _ _ => trivial)
      | _ => simp [content, HostModule.script?] at gives
    | some script =>
      obtain ⟨workplace, runs⟩ := run_newInstance_host found depth realm gives
      rw [Attempt.Meets, runs]
      refine (meets_legacyInstance depth realm id module.name workplace script w).imp (fun _ h => h)
        (fun error _ refused w₂ steps projected => ?_) fun _ _ _ => trivial
      obtain ⟨value, global, before, after, nullish, ended, rfl⟩ := refused
      have nothing : module.content.GivesNothing module.name depth realm value :=
        ⟨nullish, script, global, before, after, gives, ended⟩
      obtain ⟨names, found₂⟩ := steps.host orderly found
      refine ⟨Option.eq_none_iff_forall_ne_some.mpr fun slot there => ?_, ?_⟩
      · exact (projected realm id slot there).2 _ found₂ made depth value nothing
      · exact refuses_newInstance_host steady found₂ made nothing

/-- An instance of a decided record that is refused is refused later as well. -/
theorem meets_instantiate_refused (steady : embedding.Steady) (orderly : w.Orderly)
    (decided : w.Decided embedding graph) (member : graph id) (depth : Nat) (realm : RealmId) :
    Attempt.Meets (fun _ => True)
      (fun error _ => ∀ w₂, Steps w w₂ → w₂.Projected embedding →
        (instantiate depth realm id).Refuses error w₂)
      (instantiate depth realm id) (fun _ _ => True) w := by
  have known := hasRecord_of_isMade (decided.made id member)
  unfold instantiate
  rw [Attempt.meets_bind, Attempt.meets_get]
  split
  · trivial
  · rw [if_pos known, Attempt.meets_bind]
    refine (meets_newInstance_refused steady orderly decided member depth realm).imp (fun _ h => h)
      (fun error _ refused w₂ steps projected => ?_) fun _ _ _ => trivial
    obtain ⟨absent, refuses⟩ := refused w₂ steps projected
    have known₂ := (steps.extends orderly).hasRecord known
    rw [Attempt.Refuses, Attempt.meets_bind, Attempt.meets_get, absent]
    dsimp only
    rw [if_pos known₂, Attempt.meets_bind]
    exact refuses.imp (fun _ h => h) (fun _ _ h => h) fun _ _ h => h.elim

/-- When one of the pending records of a decided graph is refused, whoever goes through the same
records later comes to the same refusal. -/
theorem meets_instantiateFrom_refused (steady : embedding.Steady) (orderly : w.Orderly)
    (decided : w.Decided embedding graph) (depth : Nat) (realm : RealmId)
    {unvisited pending : List RecordId} (members : ∀ x ∈ pending, graph x)
    (nodup : unvisited.Nodup) :
    Attempt.Meets (fun _ => True)
      (fun error w₁ => ∀ w₂, Steps w₁ w₂ → w₂.Projected embedding → ∀ unvisited' : List RecordId,
        unvisited'.Nodup → (∀ x, graph x → (x ∈ unvisited ↔ x ∈ unvisited')) →
        (instantiateFrom depth realm unvisited' pending).Refuses error w₂)
      (instantiateFrom depth realm unvisited pending) (fun _ _ => True) w := by
  induction unvisited, pending using instantiateFrom.induct generalizing w with
  | case1 unvisited =>
    rw [instantiateFrom]
    trivial
  | case2 unvisited id rest unvisitedYet ih =>
    obtain ⟨member, members⟩ := List.forall_mem_cons.mp members
    rw [instantiateFrom, if_pos unvisitedYet, Attempt.meets_bind]
    refine (((instantiates_instantiate depth realm id).meets w).and
      ((meets_instantiate_slot depth realm id w).and
        (meets_instantiate_refused steady orderly decided member depth realm))).imp
      (fun _ _ => trivial) (fun error w₁ h w₂ later projected unvisited' _ same => ?_)
      fun _ w₁ h => ?_
    · obtain ⟨instantiates, _, refused⟩ := h
      have steps := (Steps.of_instantiates instantiates).trans later
      rw [instantiateFrom, if_pos ((same id member).mp unvisitedYet), Attempt.Refuses,
        Attempt.meets_bind]
      exact (refused w₂ steps projected).imp (fun _ h => h) (fun _ _ h => h) fun _ _ h => h.elim
    · obtain ⟨instantiates, ⟨slot, found⟩, _⟩ := h
      have orderly₁ := (Steps.of_instantiates instantiates).orderly orderly
      obtain ⟨present, settled⟩ := (orderly₁ realm).settled id slot found
      have decided₁ := decided.instantiates instantiates
      have members₁ : ∀ x ∈ (w₁.record id).requested.reverse ++ rest, graph x := by
        intro x waits
        rcases List.mem_append.mp waits with requested | waits
        · exact decided₁.closed id member settled x (List.mem_reverse.mp requested)
        · exact members x waits
      rw [Attempt.meets_bind, Attempt.meets_get]
      refine ((ih w₁ orderly₁ decided₁ members₁ (nodup.erase id)).and
        ((instantiates_instantiateFrom depth realm _ _).meets w₁)).imp (fun _ _ => trivial)
        (fun error w₂ h w₃ later projected unvisited' nodup' same => ?_) fun _ _ _ => trivial
      obtain ⟨refused, instantiates₂⟩ := h
      -- By then the record is in the realm, and requests what it did.
      have steps : Steps w₁ w₃ := (Steps.of_instantiates instantiates₂).trans later
      obtain ⟨slot', found', _⟩ := steps.onward found
      rw [instantiateFrom, if_pos ((same id member).mp unvisitedYet), Attempt.Refuses,
        Attempt.meets_bind]
      refine (meets_instantiate_found found' depth).imp (fun _ h => h) (fun _ _ h => h.elim)
        fun _ w' unchanged => ?_
      rw [unchanged, Attempt.meets_bind, Attempt.meets_get,
        (steps.extends orderly₁).requested id present settled]
      refine refused w₃ later projected _ (nodup'.erase id) fun x known => ?_
      rw [nodup.mem_erase_iff, nodup'.mem_erase_iff, same x known]
  | case3 unvisited id rest visited ih =>
    obtain ⟨member, members⟩ := List.forall_mem_cons.mp members
    rw [instantiateFrom, if_neg visited]
    refine (ih orderly decided members nodup).imp (fun _ h => h)
      (fun error w₁ refused w₂ later projected unvisited' nodup' same => ?_) fun _ _ h => h
    rw [instantiateFrom, if_neg fun still => visited ((same id member).mpr still)]
    exact refused w₂ later projected unvisited' nodup' same

/-- A decided graph that could not be instantiated is refused for the same reason ever after. -/
theorem refuses_instantiateGraph (steady : embedding.Steady) (orderly : w.Orderly)
    (decided : w.Decided embedding graph) (member : graph id)
    (failed : (instantiateGraph depth realm id).run w = .ok (.error error) w₁)
    (later : Steps w₁ w₂) (projected : w₂.Projected embedding) :
    (instantiateGraph depth realm id).Refuses error w₂ := by
  have refused := meets_instantiateFrom_refused steady orderly decided depth realm
    (by simpa using member : ∀ x ∈ [id], graph x) (nodup_recordIds w)
  have instantiates := (instantiates_instantiateGraph depth realm id).meets w
  have started (w : World) : (instantiateGraph depth realm id).run w =
      (instantiateFrom depth realm w.recordIds [id]).run w := rfl
  rw [Attempt.Meets, ← started, failed] at refused
  rw [Attempt.Meets, failed] at instantiates
  have steps : Steps w w₂ := (Steps.of_instantiates instantiates).trans later
  rw [Attempt.Refuses, Attempt.Meets, started]
  refine refused w₂ later projected w₂.recordIds (nodup_recordIds w₂) fun x known => ?_
  have present := hasRecord_of_isMade (decided.made x known)
  simp [mem_recordIds, present, (steps.extends orderly).hasRecord present]

end Action
end ModuleGraph
