import ModuleGraph.Proofs.Fulfillment
import ModuleGraph.Proofs.SteppedWalks

/-!
Graphs that are in a realm as a whole. Instantiating a graph brings all that its root needs into the
realm, and there it stays; to link or to instantiate any part of the graph again changes nothing.
-/
namespace ModuleGraph
open World Relation

namespace World
variable {w w' : World} {realm : RealmId} {id root : RecordId} {unvisited pending : List RecordId}

theorem Steps.of_instantiates (h : Instantiates w w') : Steps w w' := h.changes.steps

/-! ### Instantiating a graph -/

/-- Instantiation leaves alone what a record requests. -/
theorem Instantiates.requested (h : Instantiates w w') (present : w.hasRecord id) :
    (w'.record id).requested = (w.record id).requested := by
  cases found : w.record id with
  | static module => rw [h.static id module found]
  | _ =>
    rw [← found]
    exact (Changes.passes h.changes (.worker 0)).advance.records.requested id present
      (by simp [found, Record.IsSettled])

/-- Each of some records that was visited is in the realm, and what it requests was visited or is
pending. -/
def Covered (w : World) (realm : RealmId) (all unvisited pending : List RecordId) : Prop :=
  ∀ x ∈ all, x ∉ unvisited → (∃ slot, (w.realm realm).slot? x = some slot) ∧
    ∀ r ∈ (w.record x).requested, r ∈ all → r ∉ unvisited ∨ r ∈ pending

/-- What was in the realm is there still, and requests the same. -/
theorem Covered.steps {all : List RecordId} (h : w.Covered realm all unvisited pending)
    (orderly : w.Orderly) (steps : Steps w w') : w'.Covered realm all unvisited pending := by
  intro x member visited
  obtain ⟨⟨slot, found⟩, covered⟩ := h x member visited
  obtain ⟨slot', found', _⟩ := steps.onward found
  obtain ⟨present, settled⟩ := (orderly realm).settled x slot found
  refine ⟨⟨slot', found'⟩, ?_⟩
  rwa [(steps.extends orderly).requested x present settled]

/-- A record that is in the realm counts as visited when what it requests is pending. -/
theorem Covered.visit {all rest more : List RecordId} {slot : Slot}
    (h : w.Covered realm all unvisited (id :: rest)) (nodup : unvisited.Nodup)
    (found : (w.realm realm).slot? id = some slot)
    (requests : ∀ r ∈ (w.record id).requested, r ∈ more) :
    w.Covered realm all (unvisited.erase id) (more ++ rest) := by
  intro x member visited
  by_cases same : x = id
  · subst same
    exact ⟨⟨slot, found⟩, fun r requested _ => .inr (List.mem_append_left _ (requests r requested))⟩
  · have visited' : x ∉ unvisited := fun left => visited ((List.mem_erase_of_ne same).mpr left)
    obtain ⟨there, covered⟩ := h x member visited'
    refine ⟨there, fun r requested known => ?_⟩
    rcases covered r requested known with before | waits
    · exact .inl fun left => before (List.mem_of_mem_erase left)
    · rcases List.mem_cons.mp waits with rfl | waits
      · exact .inl nodup.not_mem_erase
      · exact .inr (List.mem_append_right _ waits)

/-- A record that was visited need not wait any longer. -/
theorem Covered.drop {all rest : List RecordId}
    (h : w.Covered realm all unvisited (id :: rest)) (visited : id ∉ unvisited) :
    w.Covered realm all unvisited rest := by
  intro x member visited'
  obtain ⟨there, requests⟩ := h x member visited'
  refine ⟨there, fun r requested known => ?_⟩
  rcases requests r requested known with before | waits
  · exact .inl before
  · rcases List.mem_cons.mp waits with rfl | waits
    · exact .inl visited
    · exact .inr waits

end World

namespace Action
variable {w : World} {realm : RealmId} {root : RecordId}

theorem meets_instantiate_found {id : RecordId} {slot : Slot}
    (found : (w.realm realm).slot? id = some slot) (depth : Nat) :
    Attempt.Meets (fun _ => False) (fun _ _ => False) (instantiate depth realm id)
      (fun _ w' => w' = w) w := by
  unfold instantiate
  simp [found]

/-- A realm that has no instance of a record gets the one that is made of it. -/
theorem meets_instantiate_new {stuck : World → Prop} {failed : ModuleError → World → Prop}
    {post : Instance → World → Prop} {id : RecordId} {depth : Nat}
    (absent : (w.realm realm).slot? id = none)
    (unknown : ¬ w.hasRecord id → ∀ error, failed error w)
    (makes : Attempt.Meets stuck failed (newInstance depth realm id) post w) :
    Attempt.Meets stuck failed (instantiate depth realm id)
      (fun _ w' => ∃ content w₁, post content w₁ ∧ (w₁.realm realm).slot? id = none ∧
        w' = w₁.addInstance realm id content) w := by
  unfold instantiate
  rw [Attempt.meets_bind, Attempt.meets_get, absent]
  dsimp only
  split
  · rw [Attempt.meets_bind]
    refine (makes.and ((keeps_newInstance (R := World.Edits) depth realm id).meets w)).imp
      (fun _ h => h.1) (fun _ _ h => h.1) fun content w₁ h => ?_
    obtain ⟨made, (edits : World.Edits w w₁)⟩ := h
    have absent₁ : (w₁.realm realm).slot? id = none := by
      rwa [Realm.slot?, edits.still.slots]
    exact ⟨content, w₁, made, absent₁, rfl⟩
  · exact unknown ‹_› _

theorem meets_instantiate_slot (depth : Nat) (realm : RealmId) (id : RecordId) (w : World) :
    Attempt.Meets (fun _ => True) (fun _ _ => True) (instantiate depth realm id)
      (fun _ w' => ∃ slot, (w'.realm realm).slot? id = some slot) w := by
  cases found : (w.realm realm).slot? id with
  | some slot =>
    refine (meets_instantiate_found found depth).imp (fun _ _ => trivial) (fun _ _ _ => trivial)
      fun _ w' same => ?_
    exact ⟨slot, by rw [same, found]⟩
  | none =>
    have made : Attempt.Meets (fun _ => True) (fun _ _ => True) (newInstance depth realm id)
        (fun _ _ => True) w := Attempt.meets_of_forall _ w (fun _ _ => trivial) fun _ _ => trivial
    refine (meets_instantiate_new found (fun _ _ => trivial) made).mono fun _ w' h => ?_
    obtain ⟨content, w₁, -, absent, rfl⟩ := h
    exact ⟨_, by rw [slot?_addInstance absent, if_pos rfl]⟩

theorem meets_instantiateFrom_covered (depth : Nat) (realm : RealmId)
    {all unvisited pending : List RecordId} (orderly : w.Orderly) (nodup : unvisited.Nodup)
    (covered : w.Covered realm all unvisited pending) :
    Attempt.Meets (fun _ => True) (fun _ _ => True) (instantiateFrom depth realm unvisited pending)
      (fun _ w' => ∃ left, w'.Covered realm all left [] ∧ left ⊆ unvisited ∧
        ∀ x ∈ pending, x ∉ left) w := by
  induction unvisited, pending using instantiateFrom.induct generalizing w with
  | case1 unvisited =>
    rw [instantiateFrom]
    exact ⟨unvisited, covered, List.Subset.refl _, by simp⟩
  | case2 unvisited id rest unvisitedYet ih =>
    rw [instantiateFrom, if_pos unvisitedYet, Attempt.meets_bind]
    refine (((instantiates_instantiate depth realm id).meets w).and
      (meets_instantiate_slot depth realm id w)).imp (fun _ _ => trivial) (fun _ _ _ => trivial)
      fun _ w₁ h => ?_
    obtain ⟨instantiates, slot, found⟩ := h
    have steps := Steps.of_instantiates instantiates
    rw [Attempt.meets_bind, Attempt.meets_get]
    refine (ih w₁ (steps.orderly orderly) (nodup.erase id)
      ((covered.steps orderly steps).visit nodup found (by simp))).mono fun _ w' h => ?_
    obtain ⟨left, covered', sub, visited⟩ := h
    refine ⟨left, covered', List.Subset.trans sub List.erase_subset, fun x member => ?_⟩
    rcases List.mem_cons.mp member with rfl | member
    · exact fun still => nodup.not_mem_erase (sub still)
    · exact visited x (List.mem_append_right _ member)
  | case3 unvisited id rest visited ih =>
    rw [instantiateFrom, if_neg visited]
    refine (ih orderly nodup (covered.drop visited)).mono fun _ w' h => ?_
    obtain ⟨left, covered'', sub, pending⟩ := h
    refine ⟨left, covered'', sub, fun x member => ?_⟩
    rcases List.mem_cons.mp member with rfl | member
    · exact fun still => visited (sub still)
    · exact pending x member

/-- When a graph could be instantiated, all that its root needs is in the realm, if it exists. -/
theorem meets_instantiateGraph_needs (depth : Nat) (realm : RealmId) (orderly : w.Orderly)
    (graph : ∀ x, w.Needs root x → w.hasRecord x) :
    Attempt.Meets (fun _ => True) (fun _ _ => True) (instantiateGraph depth realm root)
      (fun _ w' => ∀ x, w'.Needs root x → w.Needs root x ∧
        ∃ slot, (w'.realm realm).slot? x = some slot) w := by
  have start : w.Covered realm w.recordIds w.recordIds [root] := fun x member left =>
    absurd member left
  unfold instantiateGraph
  rw [Attempt.meets_bind, Attempt.meets_get]
  refine (((instantiates_instantiateFrom depth realm _ _).meets w).and
    (meets_instantiateFrom_covered depth realm orderly (nodup_recordIds w) start)).imp
    (fun _ _ => trivial) (fun _ _ _ => trivial) fun _ w' h => ?_
  obtain ⟨instantiates, left, covered, _, visited⟩ := h
  have known {x : RecordId} (path : w.Needs root x) : x ∈ w.recordIds :=
    mem_recordIds.mpr (graph x path)
  have reached {x : RecordId} (path : w'.Needs root x) : w.Needs root x ∧ x ∉ left := by
    induction path with
    | refl => exact ⟨.refl, visited root (List.mem_singleton.mpr rfl)⟩
    | @tail a b _ requested ih =>
      have path : w.Needs root b := by
        refine ih.1.tail ?_
        rwa [instantiates.requested (graph a ih.1)] at requested
      refine ⟨path, ?_⟩
      exact ((covered a (known ih.1) ih.2).2 b requested (known path)).resolve_right List.not_mem_nil
  intro x path
  obtain ⟨path, visited⟩ := reached path
  exact ⟨path, (covered x (known path) visited).1⟩

/-- When a graph could be instantiated, its root is in the realm. -/
theorem meets_instantiateGraph_root (depth : Nat) (realm : RealmId) (orderly : w.Orderly)
    (present : w.hasRecord root) :
    Attempt.Meets (fun _ => True) (fun _ _ => True) (instantiateGraph depth realm root)
      (fun _ w' => ∃ slot, (w'.realm realm).slot? root = some slot) w := by
  have start : w.Covered realm w.recordIds w.recordIds [root] := fun x member left =>
    absurd member left
  unfold instantiateGraph
  rw [Attempt.meets_bind, Attempt.meets_get]
  refine (meets_instantiateFrom_covered depth realm orderly (nodup_recordIds w) start).mono
    fun _ w' h => ?_
  obtain ⟨left, covered, _, visited⟩ := h
  exact (covered root (mem_recordIds.mpr present) (visited root (List.mem_singleton.mpr rfl))).1

end Action

/-! ### Graphs that stay installed -/

namespace World
variable {w w' : World} {realm : RealmId} {id : RecordId} {graph : RecordId → Prop}

/-- A module of an embedder's stays as it was made, and nothing becomes one. -/
theorem Step.custom (step : Step w w') (present : w.hasRecord id) {module : CustomModule}
    (found : w'.record id = .custom module) : w.record id = .custom module :=
  (step.revised present).of_custom found

theorem Steps.custom (steps : Steps w w') (orderly : w.Orderly) (present : w.hasRecord id)
    {module : CustomModule} (found : w'.record id = .custom module) :
    w.record id = .custom module := by
  induction steps with
  | refl => exact found
  | tail before step ih =>
    exact ih (step.custom ((Steps.extends before orderly).hasRecord present) found)

/-- The modules of a graph are in a realm, and none of them fails to link. -/
structure Installed (w : World) (realm : RealmId) (graph : RecordId → Prop) : Prop where
  slot : ∀ x, graph x → ∃ slot, (w.realm realm).slot? x = some slot
  closed : ∀ x, graph x → ∀ r ∈ (w.record x).requested, graph r
  links : ∀ x, graph x → ∀ module, w.record x = .custom module → module.link = .ok ()

namespace Installed

/-- A graph that is in a realm stays there as it is. -/
theorem steps (h : w.Installed realm graph) (orderly : w.Orderly) (steps : Steps w w') :
    w'.Installed realm graph where
  slot x member := by
    obtain ⟨slot, found⟩ := h.slot x member
    obtain ⟨slot', found', _⟩ := steps.onward found
    exact ⟨slot', found'⟩
  closed x member := by
    obtain ⟨slot, found⟩ := h.slot x member
    obtain ⟨present, settled⟩ := (orderly realm).settled x slot found
    rw [(steps.extends orderly).requested x present settled]
    exact h.closed x member
  links x member module custom := by
    obtain ⟨slot, found⟩ := h.slot x member
    exact h.links x member module
      (steps.custom orderly ((orderly realm).settled x slot found).1 custom)

/-- Requests do not lead out of the graph. -/
theorem reaches (h : w.Installed realm graph) {root : RecordId} (member : graph root)
    (path : w.Reaches root id) : graph id := by
  induction path with
  | refl => exact member
  | tail _ edge ih => exact h.closed _ ih _ edge.2

/-- To link a part of the graph again does nothing. -/
theorem link (h : w.Installed realm graph) (orderly : w.Orderly) (member : graph id)
    (embedding : Embedding) (depth : Nat) :
    Attempt.Meets (fun _ => False) (fun _ _ => False) (embedding.link (depth + 1) id)
      (fun _ w' => w' = w) w := by
  obtain ⟨slot, found⟩ := h.slot id member
  have settled := ((orderly realm).settled id slot found).2
  have linked : Embedding.linkedAlready (w.record id) = .ok () := by
    cases custom : w.record id with
    | custom module => exact h.links id member module custom
    | _ => rfl
  rw [Attempt.Meets, embedding.run_link_of_isSettled settled, linked]

theorem instantiateFrom (h : w.Installed realm graph) (depth : Nat)
    (unvisited pending : List RecordId) (members : ∀ x ∈ pending, graph x) :
    Attempt.Meets (fun _ => False) (fun _ _ => False)
      (Action.instantiateFrom depth realm unvisited pending) (fun _ w' => w' = w) w := by
  induction unvisited, pending using Action.instantiateFrom.induct with
  | case1 unvisited => simp [Action.instantiateFrom]
  | case2 unvisited id rest unvisitedYet ih =>
    obtain ⟨member, members⟩ := List.forall_mem_cons.mp members
    rw [Action.instantiateFrom, if_pos unvisitedYet, Attempt.meets_bind]
    obtain ⟨slot, found⟩ := h.slot id member
    refine (Action.meets_instantiate_found found depth).mono fun _ w₁ same => ?_
    rw [Attempt.meets_bind, Attempt.meets_get, same]
    refine ih w fun x waits => ?_
    rcases List.mem_append.mp waits with waits | waits
    · exact h.closed id member x (List.mem_reverse.mp waits)
    · exact members x waits
  | case3 unvisited id rest visited ih =>
    rw [Action.instantiateFrom, if_neg visited]
    exact ih (List.forall_mem_cons.mp members).2

/-- To instantiate a part of the graph again does nothing. -/
theorem instantiateGraph (h : w.Installed realm graph) (member : graph id) (depth : Nat) :
    Attempt.Meets (fun _ => False) (fun _ _ => False) (Action.instantiateGraph depth realm id)
      (fun _ w' => w' = w) w := by
  unfold Action.instantiateGraph
  rw [Attempt.meets_bind, Attempt.meets_get]
  exact h.instantiateFrom depth _ _ (by simpa using member)

end Installed
end World

/-- A graph whose instantiation came to its end is installed. -/
theorem World.installed_of_instantiateGraph {w w' : World} {realm : RealmId} {root : RecordId}
    {depth : Nat} (orderly : w.Orderly)
    (graph : ∀ x, w.Needs root x → w.hasRecord x ∧
      ∀ module, w.record x = .custom module → module.link = .ok ())
    (ended : (Action.instantiateGraph depth realm root).run w = .ok (.ok ()) w') :
    w'.Installed realm (w'.Needs root) := by
  have covered := Action.meets_instantiateGraph_needs depth realm orderly fun x path =>
    (graph x path).1
  have changes := (Action.keeps_instantiateGraph depth realm root).meets w
  simp only [Attempt.Meets, ended] at covered changes
  have steps := Changes.steps changes
  refine ⟨fun x path => (covered x path).2, fun x path r requested => path.tail requested,
    fun x path module custom => ?_⟩
  obtain ⟨present, links⟩ := graph x (covered x path).1
  exact links module (steps.custom orderly present custom)

end ModuleGraph
