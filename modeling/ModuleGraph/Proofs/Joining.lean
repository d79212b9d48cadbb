import ModuleGraph.Proofs.Reinstantiation

/-!
What instantiating a graph adds to a realm. The modules that its root needs join the realm one after
the other, and nothing else changes that evaluation looks at: no slot that was there, no walk, and no
body begins. A module that cannot be instantiated is found before any module runs.
-/
namespace ModuleGraph
open World Relation

namespace World
variable {w w' w'' : World} {realm : RealmId} {id x root : RecordId} {graph graph' : RecordId → Prop}
  {joined joined' : List (RecordId × Nat)} {unvisited pending : List RecordId}

/-- Modules of a graph, given with the numbers of their instances, have joined a realm that had none
of them. Their slots are new, and each has moved there once. In all other respects evaluation is
where it was, in every realm. -/
structure Joins (realm : RealmId) (graph : RecordId → Prop) (joined : List (RecordId × Nat))
    (w w' : World) : Prop where
  instantiates : Instantiates w w'
  elsewhere : ∀ other, other ≠ realm → SameIn other w w'
  walks : (w'.realm realm).walks = (w.realm realm).walks
  slots : (w'.realm realm).slots =
    (w.realm realm).slots ++ joined.map fun entry => (entry.1, { instanceIndex := entry.2 })
  fresh : ∀ entry ∈ joined, graph entry.1 ∧ (w.realm realm).slot? entry.1 = none
  nodup : (joined.map Prod.fst).Nodup
  life : ∀ x, w'.life realm x =
    w.life realm x ++ if x ∈ joined.map Prod.fst then [.moved .instantiated] else []

namespace Joins

theorem of_edits (edits : Edits w w') : Joins realm graph [] w w' where
  instantiates := edits.instantiates
  elsewhere other _ := edits.still.sameIn other
  walks := (edits.still.sameIn realm).walks
  slots := by simpa using (edits.still.sameIn realm).slots
  fresh := by simp
  nodup := by simp
  life x := by simpa using (edits.still.sameIn realm).life x

theorem refl (w : World) : Joins realm graph [] w w := of_edits .refl

/-- One module joins. -/
theorem addInstance (present : w.hasRecord id) (settled : (w.record id).IsSettled)
    (member : graph id) (absent : (w.realm realm).slot? id = none) {content : Instance}
    (begins : (w.record id).Begins content) :
    Joins realm graph [(id, (w.realm realm).instances.size)] w (w.addInstance realm id content) where
  instantiates := ⟨.single (.addInstance realm id content absent present settled begins),
    fun _ _ found => found⟩
  elsewhere other differs := sameIn_addInstance content differs
  walks := walks_addInstance content
  slots := by simp [World.addInstance, Realm.addInstance]
  fresh := by simpa using ⟨member, absent⟩
  nodup := by simp
  life x := by
    rw [life_addInstance]
    by_cases same : id = x <;> simp [same, eq_comm]

theorem mono (h : Joins realm graph joined w w') (sub : ∀ x, graph x → graph' x) :
    Joins realm graph' joined w w' :=
  { h with fresh := fun entry member => ⟨sub _ (h.fresh entry member).1, (h.fresh entry member).2⟩ }

/-- What a realm has afterwards it had before, or it has joined. -/
theorem slot?_eq_none_iff (h : Joins realm graph joined w w') :
    (w'.realm realm).slot? x = none ↔
      (w.realm realm).slot? x = none ∧ x ∉ joined.map Prod.fst := by
  simp only [Realm.slot?, h.slots, List.lookup_append, Option.or_eq_none_iff,
    List.lookup_eq_none_iff, List.mem_map]
  refine and_congr_right fun _ => ⟨fun none => ?_, fun none => ?_⟩
  · rintro ⟨entry, member, rfl⟩
    simpa using none _ ⟨entry, member, rfl⟩
  · rintro _ ⟨entry, member, rfl⟩
    exact bne_iff_ne.mpr fun same => none ⟨entry, member, same.symm⟩

/-- A slot that was there stays as it is. -/
theorem slot? (h : Joins realm graph joined w w') {slot : Slot}
    (found : (w.realm realm).slot? x = some slot) : (w'.realm realm).slot? x = some slot := by
  rw [Realm.slot?] at found
  simp [Realm.slot?, h.slots, List.lookup_append, found]

theorem trans (h : Joins realm graph joined w w') (h' : Joins realm graph joined' w' w'') :
    Joins realm graph (joined ++ joined') w w'' := by
  have apart {entry : RecordId × Nat} (member : entry ∈ joined') :=
    h.slot?_eq_none_iff.mp (h'.fresh entry member).2
  refine ⟨IsTrans.trans _ _ _ h.instantiates h'.instantiates, fun other differs =>
    (h.elsewhere other differs).trans (h'.elsewhere other differs), h'.walks.trans h.walks, ?_,
    fun entry member => ?_, ?_, fun x => ?_⟩
  · rw [h'.slots, h.slots, List.map_append, List.append_assoc]
  · rcases List.mem_append.mp member with member | member
    · exact h.fresh entry member
    · exact ⟨(h'.fresh entry member).1, (apart member).1⟩
  · rw [List.map_append]
    refine h.nodup.append h'.nodup fun x before after => ?_
    obtain ⟨entry, member, rfl⟩ := List.mem_map.mp after
    exact (apart member).2 before
  · rw [h'.life, h.life, List.map_append]
    by_cases after : x ∈ joined'.map Prod.fst
    · obtain ⟨entry, member, rfl⟩ := List.mem_map.mp after
      rw [if_neg (apart member).2, if_pos after, if_pos (List.mem_append_right _ after),
        List.append_nil]
    · rw [if_neg after, List.append_nil]
      simp only [List.mem_append, after, or_false]

end Joins

/-- What was in the realm is there still, and requests the same. -/
theorem Covered.joins {all : List RecordId} (h : w.Covered realm all unvisited pending)
    (known : ∀ x ∈ all, w.hasRecord x) (joins : Joins realm graph joined w w') :
    w'.Covered realm all unvisited pending := by
  intro x member visited
  obtain ⟨⟨slot, found⟩, covered⟩ := h x member visited
  refine ⟨⟨slot, joins.slot? found⟩, ?_⟩
  rwa [joins.instantiates.requested (known x member)]

/-! ### On the way through a graph -/

/-- On its way through what a root needs, instantiation comes in some world to a module that the
realm has no instance of. -/
structure Tries (w : World) (realm : RealmId) (root x : RecordId) (w₁ : World) : Prop where
  needed : w.Needs root x
  joined : ∃ joined, Joins realm (w.Needs root) joined w w₁
  absent : (w₁.realm realm).slot? x = none

/-- Instantiation makes an instance of a module when it comes to it. -/
def Makes (depth : Nat) (w : World) (realm : RealmId) (root x : RecordId) : Prop :=
  ∃ w₁ content w₂, w.Tries realm root x w₁ ∧
    (Action.newInstance depth realm x).run w₁ = .ok (.ok content) w₂

/-- Instantiation has come to a module and stops there in some world: the attempt to make an instance
of it fails with an error, or gives up. -/
def StopsAt (depth : Nat) (w : World) (realm : RealmId) (root : RecordId)
    (error? : Option ModuleError) (w' : World) : Prop :=
  ∃ x w₁, w.Tries realm root x w₁ ∧ Edits w₁ w' ∧ (Action.newInstance depth realm x).run w₁ =
    match error? with
    | some error => .ok (.error error) w'
    | none => .error () w'

/-- So far a graph has been gone through: what has joined could be made, and the records that were
visited are in the realm, with all that they request visited or pending. -/
structure Sweeps (depth : Nat) (w₀ : World) (realm : RealmId) (root : RecordId)
    (unvisited pending : List RecordId) (w : World) : Prop where
  joins : ∃ joined, Joins realm (fun x => w₀.Needs root x ∧ w₀.Makes depth realm root x) joined w₀ w
  nodup : unvisited.Nodup
  covered : w.Covered realm w₀.recordIds unvisited pending
  needed : ∀ x ∈ pending, w₀.Needs root x
  begun : root ∉ unvisited ∨ root ∈ pending

namespace Sweeps
variable {depth : Nat} {rest : List RecordId} {w₀ : World}

theorem start (depth : Nat) (w : World) (realm : RealmId) (root : RecordId) :
    Sweeps depth w realm root w.recordIds [root] w where
  joins := ⟨[], .refl w⟩
  nodup := nodup_recordIds w
  covered _ member left := absurd member left
  needed _ member := List.mem_singleton.mp member ▸ .refl
  begun := .inr (List.mem_singleton.mpr rfl)

theorem tries (h : Sweeps depth w₀ realm root unvisited (id :: rest) w)
    (absent : (w.realm realm).slot? id = none) : w₀.Tries realm root id w := by
  obtain ⟨joined, joins⟩ := h.joins
  exact ⟨h.needed id List.mem_cons_self, ⟨joined, joins.mono fun _ => And.left⟩, absent⟩

/-- What was visited is passed over. -/
theorem skip (h : Sweeps depth w₀ realm root unvisited (id :: rest) w) (visited : id ∉ unvisited) :
    Sweeps depth w₀ realm root unvisited rest w where
  joins := h.joins
  nodup := h.nodup
  covered := h.covered.drop visited
  needed x member := h.needed x (List.mem_cons_of_mem _ member)
  begun := by
    rcases h.begun with before | waits
    · exact .inl before
    · rcases List.mem_cons.mp waits with rfl | waits
      · exact .inl visited
      · exact .inr waits

/-- The next record is in the realm now, and what it requests comes before the others. -/
theorem visit (h : Sweeps depth w₀ realm root unvisited (id :: rest) w)
    (exist : ∀ x, w₀.Needs root x → w₀.hasRecord x) {more : List (RecordId × Nat)}
    (joins : Joins realm (fun x => w₀.Needs root x ∧ w₀.Makes depth realm root x) more w w')
    {slot : Slot} (found : (w'.realm realm).slot? id = some slot) :
    Sweeps depth w₀ realm root (unvisited.erase id) ((w'.record id).requested.reverse ++ rest) w' := by
  obtain ⟨before, joined⟩ := h.joins
  have known : ∀ x ∈ w₀.recordIds, w.hasRecord x := fun x member =>
    joined.instantiates.changes.extends.hasRecord (mem_recordIds.mp member)
  have needed := h.needed id List.mem_cons_self
  have all := joined.trans joins
  refine ⟨⟨_, all⟩, h.nodup.erase id,
    (h.covered.joins known joins).visit h.nodup found (by simp), fun x member => ?_, ?_⟩
  · rcases List.mem_append.mp member with requested | waits
    · rw [List.mem_reverse, all.instantiates.requested (exist id needed)] at requested
      exact needed.tail requested
    · exact h.needed x (List.mem_cons_of_mem _ waits)
  · rcases h.begun with before | waits
    · exact .inl fun left => before (List.mem_of_mem_erase left)
    · rcases List.mem_cons.mp waits with rfl | waits
      · exact .inl h.nodup.not_mem_erase
      · exact .inr (List.mem_append_right _ waits)

/-- When nothing is pending any more, all that the root needs is in the realm. -/
theorem exists_slot (h : Sweeps depth w₀ realm root unvisited [] w)
    (exist : ∀ x, w₀.Needs root x → w₀.hasRecord x) (path : w₀.Needs root x) :
    ∃ slot, (w.realm realm).slot? x = some slot := by
  obtain ⟨joined, joins⟩ := h.joins
  have visited : x ∉ unvisited := by
    induction path with
    | refl => exact h.begun.resolve_right List.not_mem_nil
    | @tail a b path requested ih =>
      have known := mem_recordIds.mpr (exist b (path.tail requested))
      rw [← joins.instantiates.requested (exist a path)] at requested
      have covered := (h.covered a (mem_recordIds.mpr (exist a path)) ih).2 b requested
      exact (covered known).resolve_right List.not_mem_nil
  exact (h.covered x (mem_recordIds.mpr (exist x path)) visited).1

end Sweeps

theorem StopsAt.exists_joins {depth : Nat} {error? : Option ModuleError}
    (stops : w.StopsAt depth realm root error? w') :
    ∃ joined, Joins realm (w.Needs root) joined w w' := by
  obtain ⟨x, w₁, tries, edits, _⟩ := stops
  obtain ⟨joined, joins⟩ := tries.joined
  exact ⟨_, joins.trans (.of_edits edits)⟩

end World

namespace Action
variable {w w₀ : World} {realm : RealmId} {id root : RecordId}

/-- A record comes into a realm that has no instance of it if an instance could be made. -/
theorem meets_instantiate_absent (depth : Nat) (present : w.hasRecord id)
    (absent : (w.realm realm).slot? id = none) :
    Attempt.Meets
      (fun w' => Edits w w' ∧ (newInstance depth realm id).run w = .error () w')
      (fun error w' => Edits w w' ∧ (newInstance depth realm id).run w = .ok (.error error) w')
      (instantiate depth realm id)
      (fun _ w' => ∃ content w₁ index, (newInstance depth realm id).run w = .ok (.ok content) w₁ ∧
        Joins realm (id = ·) [(id, index)] w w') w := by
  have makes := ((meets_newInstance depth realm id w).and
    (meets_newInstance_begins depth realm id w)).and (Attempt.meets_ended _ w)
  refine (meets_instantiate_new absent (fun unknown => absurd present unknown) makes).imp
    (fun _ h => ⟨h.1.1, h.2⟩) (fun _ _ h => ⟨h.1.1, h.2⟩) fun _ w' h => ?_
  obtain ⟨content, w₁, ⟨⟨⟨edits, settled⟩, begins⟩, made⟩, absent₁, rfl⟩ := h
  have still := edits.still
  have joins : Joins realm (id = ·) [(id, (w₁.realm realm).instances.size)] w₁
      (w₁.addInstance realm id content) :=
    .addInstance (still.records.hasRecord present) (still.records.isSettled id present settled) rfl
      absent₁ (edits.begins present begins)
  exact ⟨content, w₁, _, made, (Joins.of_edits edits).trans joins⟩

/-- Instantiation goes through a graph to its end, or to a record that no instance could be made of.
-/
theorem meets_instantiateFrom_sweeps (depth : Nat)
    (exist : ∀ x, w₀.Needs root x → w₀.hasRecord x) {unvisited pending : List RecordId}
    (sweeps : Sweeps depth w₀ realm root unvisited pending w) :
    Attempt.Meets (w₀.StopsAt depth realm root none)
      (fun error => w₀.StopsAt depth realm root (some error))
      (instantiateFrom depth realm unvisited pending)
      (fun _ w' => ∃ left, Sweeps depth w₀ realm root left [] w') w := by
  induction unvisited, pending using instantiateFrom.induct generalizing w with
  | case1 unvisited =>
    rw [instantiateFrom]
    exact ⟨unvisited, sweeps⟩
  | case2 unvisited id rest unvisitedYet ih =>
    rw [instantiateFrom, if_pos unvisitedYet, Attempt.meets_bind]
    obtain ⟨joined, joins⟩ := sweeps.joins
    have needed := sweeps.needed id List.mem_cons_self
    cases found : (w.realm realm).slot? id with
    | some slot =>
      refine (meets_instantiate_found found depth).imp (fun _ h => h.elim) (fun _ _ h => h.elim)
        fun _ w' same => ?_
      rw [Attempt.meets_bind, Attempt.meets_get, same]
      exact ih w (sweeps.visit exist (.refl w) found)
    | none =>
      have tries := sweeps.tries found
      have present := joins.instantiates.changes.extends.hasRecord (exist id needed)
      refine (meets_instantiate_absent depth present found).imp (fun w' ended => ⟨id, w, tries, ended⟩)
        (fun error w' ended => ⟨id, w, tries, ended⟩) fun _ w' h => ?_
      obtain ⟨content, w₁, index, made, joinsOne⟩ := h
      have joins' := joinsOne.mono fun x (same : id = x) =>
        same ▸ (⟨needed, w, content, w₁, tries, made⟩ :
          w₀.Needs root id ∧ w₀.Makes depth realm root id)
      have there : (w'.realm realm).slot? id ≠ none := fun absent =>
        (joinsOne.slot?_eq_none_iff.mp absent).2 (by simp)
      obtain ⟨slot, found'⟩ := Option.ne_none_iff_exists'.mp there
      rw [Attempt.meets_bind, Attempt.meets_get]
      exact ih w' (sweeps.visit exist joins' found')
  | case3 unvisited id rest visited ih =>
    rw [instantiateFrom, if_neg visited]
    exact ih (sweeps.skip visited)

/-- The modules that a root needs, of a graph that exists, join the realm, all of them; or
instantiation stops at one of them. -/
theorem meets_instantiateGraph_joins (depth : Nat) (realm : RealmId)
    (exist : ∀ x, w.Needs root x → w.hasRecord x) :
    Attempt.Meets (w.StopsAt depth realm root none)
      (fun error => w.StopsAt depth realm root (some error)) (instantiateGraph depth realm root)
      (fun _ w' => ∃ joined,
        Joins realm (fun x => w.Needs root x ∧ w.Makes depth realm root x) joined w w' ∧
        ∀ x, (∃ slot, (w'.realm realm).slot? x = some slot) ↔
          (∃ slot, (w.realm realm).slot? x = some slot) ∨ w.Needs root x) w := by
  unfold instantiateGraph
  rw [Attempt.meets_bind, Attempt.meets_get]
  refine (meets_instantiateFrom_sweeps depth exist (.start depth w realm root)).mono
    fun _ w' swept => ?_
  obtain ⟨left, sweeps⟩ := swept
  obtain ⟨joined, joins⟩ := sweeps.joins
  refine ⟨joined, joins, fun x => ⟨fun there => ?_, ?_⟩⟩
  · by_contra outside
    obtain ⟨absent, needless⟩ := not_or.mp outside
    obtain ⟨slot, found⟩ := there
    have new : x ∈ joined.map Prod.fst := by
      by_contra other
      have absent' := Option.eq_none_iff_forall_ne_some.mpr fun slot found => absent ⟨slot, found⟩
      cases found.symm.trans (joins.slot?_eq_none_iff.mpr ⟨absent', other⟩)
    obtain ⟨entry, member, rfl⟩ := List.mem_map.mp new
    exact needless (joins.fresh entry member).1.1
  · rintro (⟨slot, found⟩ | path)
    · exact ⟨slot, joins.slot? found⟩
    · exact sweeps.exists_slot exist path

/-- An instance of a script is made, or refused, at any depth. -/
theorem exists_newInstance_of_script (depth : Nat) (realm : RealmId)
    (script : (w.record id).kind = .static ∨ (w.record id).kind = .wrapper) :
    ∃ outcome, (newInstance depth realm id).run w = .ok outcome w := by
  have made : Attempt.Meets (fun _ => False) (fun _ w' => w' = w) (newInstance depth realm id)
      (fun _ w' => w' = w) w := by
    unfold newInstance
    rw [Attempt.meets_bind, Attempt.meets_get]
    cases found : w.record id with
    | static module =>
      dsimp only
      cases module.status with
      | linked => cases importsOf module <;> exact rfl
      | _ => exact rfl
    | wrapper => exact rfl
    | host module => cases content : module.content <;> simp [found, Record.kind, content] at script
    | custom => simp [found, Record.kind] at script
  obtain ⟨outcome, w', ended, same⟩ := ((Attempt.meets_run (fun _ w' => w' = w)).mpr made).exists_ended
  exact ⟨outcome, same ▸ ended⟩

end Action

namespace World
variable {w w' : World} {realm : RealmId} {id root : RecordId} {depth : Nat}

theorem Changes.kind (changes : Changes w w') (present : w.hasRecord id) :
    (w'.record id).kind = (w.record id).kind := by
  induction changes with
  | refl => rfl
  | tail before change ih =>
    exact (change.revised ((Changes.extends before).hasRecord present)).kind.trans ih

/-- Instantiation does not give up at a script. -/
theorem StopsAt.not_scripts (stops : w.StopsAt depth realm root none w')
    (exist : ∀ x, w.Needs root x → w.hasRecord x) :
    ∃ x, w.Needs root x ∧ (w.record x).kind ≠ .static ∧ (w.record x).kind ≠ .wrapper := by
  obtain ⟨x, w₁, tries, _, gaveUp⟩ := stops
  obtain ⟨joined, joins⟩ := tries.joined
  refine ⟨x, tries.needed, not_or.mp fun script => ?_⟩
  rw [← joins.instantiates.changes.kind (exist x tries.needed)] at script
  obtain ⟨outcome, ended⟩ := Action.exists_newInstance_of_script depth realm script
  cases gaveUp.symm.trans ended

end World

/-- A graph whose records exist comes into a realm as a whole and before any of it runs.

If instantiation comes to its end, the realm has a slot for what had one before and for all that the
root needs, and for nothing else; what has joined has done so once and is instantiated, and evaluation
is otherwise where it was. Instantiation stops only where no instance of a needed module could be
made, because that failed with the same error, or gave up, which scripts never do; up to there
modules have joined, and evaluation is otherwise where it was. So an evaluation that needs a module
of which no instance can be made is rejected with that error, and has begun no body. -/
theorem graph_joins_before_any_body (w : World) (realm : RealmId) (root : RecordId)
    (exist : ∀ x, w.Needs root x → w.hasRecord x) :
    (∀ depth, Attempt.Meets
      (fun w' => w.StopsAt depth realm root none w' ∧
        (∃ joined, Joins realm (w.Needs root) joined w w') ∧
        ∃ x, w.Needs root x ∧ (w.record x).kind ≠ .static ∧ (w.record x).kind ≠ .wrapper)
      (fun error w' => w.StopsAt depth realm root (some error) w' ∧
        ∃ joined, Joins realm (w.Needs root) joined w w')
      (Action.instantiateGraph depth realm root)
      (fun _ w' => ∃ joined, Joins realm (w.Needs root) joined w w' ∧
        ∀ x, (∃ slot, (w'.realm realm).slot? x = some slot) ↔
          (∃ slot, (w.realm realm).slot? x = some slot) ∨ w.Needs root x) w) ∧
    ∀ (engine : Engine) (x : RecordId), w.Needs root x → (w.realm realm).slot? x = none →
      ¬ w.Makes engine.depth realm root x →
      Action.Meets
        (fun w' => w.StopsAt engine.depth realm root none w' ∧
          ∃ joined, Joins realm (w.Needs root) joined w w')
        (engine.evaluateFrom realm root)
        (fun settlement w' => ∃ error, settlement = .rejected error ∧
          (Action.instantiateGraph engine.depth realm root).run w = .ok (.error error) w' ∧
          w.StopsAt engine.depth realm root (some error) w' ∧
          ∃ joined, Joins realm (w.Needs root) joined w w') w := by
  refine ⟨fun depth => ?_, fun engine x needed absent unmade => ?_⟩
  · refine (Action.meets_instantiateGraph_joins depth realm exist).imp
      (fun w' stops => ⟨stops, stops.exists_joins, stops.not_scripts exist⟩)
      (fun error w' stops => ⟨stops, stops.exists_joins⟩) fun _ w' h => ?_
    obtain ⟨joined, joins, whole⟩ := h
    exact ⟨joined, joins.mono fun _ => And.left, whole⟩
  · unfold Engine.evaluateFrom
    rw [Action.meets_bind, Attempt.meets_run]
    refine ((Action.meets_instantiateGraph_joins engine.depth realm exist).and
      (Attempt.meets_ended _ w)).imp (fun w' h => ⟨h.1, h.1.exists_joins⟩)
      (fun error w' h => ⟨error, rfl, h.2, h.1, h.1.exists_joins⟩) fun _ w' h => ?_
    obtain ⟨⟨joined, joins, whole⟩, _⟩ := h
    obtain ⟨slot, found⟩ := (whole x).mpr (.inr needed)
    have new : x ∈ joined.map Prod.fst := by
      by_contra other
      cases found.symm.trans (joins.slot?_eq_none_iff.mpr ⟨absent, other⟩)
    obtain ⟨entry, member, rfl⟩ := List.mem_map.mp new
    exact absurd (joins.fresh entry member).1.2 unmade

/-- A static module that has failed to link never gets an instance. -/
theorem World.not_makes_of_failed {w : World} {id : RecordId} {module : StaticModule}
    {error : ModuleError} (found : w.record id = .static module)
    (failed : module.status = .failed error) (depth : Nat) (realm : RealmId) (root : RecordId) :
    ¬ w.Makes depth realm root id := by
  rintro ⟨w₁, content, w₂, tries, made⟩
  obtain ⟨joined, joins⟩ := tries.joined
  have found₁ := joins.instantiates.static id module found
  cases (Action.run_newInstance_failed found₁ failed depth realm).symm.trans made

/-- Two modules that request each other; the first one has failed to link. -/
def failedCycle : World where
  records := #[
    .static {
      location := .fileUrl "" ['/', 'a'], declarations := {}, body := fun _ => .give .undefined
      importer := .table, status := .failed (.missingExport "file:///b" "x")
      requested := [("b", ⟨1⟩)] },
    .static {
      location := .fileUrl "" ['/', 'b'], declarations := {}, body := fun _ => .give .undefined
      importer := .table, status := .linked, requested := [("a", ⟨0⟩)] }]

theorem needs_in_failedCycle {x : RecordId} (path : failedCycle.Needs ⟨1⟩ x) :
    failedCycle.hasRecord x := by
  have known : x ∈ [(⟨0⟩ : RecordId), ⟨1⟩] := by
    induction path with
    | refl => simp
    | @tail a b _ requested ih =>
      fin_cases ih
      · exact List.mem_cons_of_mem _ requested
      · exact List.mem_cons.mpr (.inl (List.mem_singleton.mp requested))
  fin_cases known <;> rfl

/-- The second module joins, and its evaluation is rejected before it runs. -/
theorem graph_joins_before_any_body_in_failedCycle :
    failedCycle.Needs ⟨1⟩ ⟨0⟩ ∧ ¬ failedCycle.Makes 4 (.worker 0) ⟨1⟩ ⟨0⟩ ∧
    ∃ error w', (Engine.ofDepth .bare 4).evaluateFrom (.worker 0) ⟨1⟩ failedCycle =
        .ok (.rejected error) w' ∧
      ∃ joined, Joins (.worker 0) (failedCycle.Needs ⟨1⟩) joined failedCycle w' := by
  have needed : failedCycle.Needs ⟨1⟩ ⟨0⟩ := .single (List.mem_singleton.mpr rfl)
  have unmade : ¬ failedCycle.Makes 4 (.worker 0) ⟨1⟩ ⟨0⟩ := not_makes_of_failed rfl rfl _ _ _
  have meets := (graph_joins_before_any_body failedCycle (.worker 0) ⟨1⟩
    fun _ => needs_in_failedCycle).2 (.ofDepth .bare 4) ⟨0⟩ needed rfl (by simpa using unmade)
  have computed : ((Engine.ofDepth .bare 4).evaluateFrom (.worker 0) ⟨1⟩).ends failedCycle
      (fun settlement _ => settlement = .rejected (.missingExport "file:///b" "x")) = true := by
    cbv
  obtain ⟨settlement, w', evaluated, _⟩ := Action.exists_of_ends computed
  rw [Action.Meets, evaluated] at meets
  obtain ⟨error, rfl, _, _, joined⟩ := meets
  exact ⟨needed, unmade, error, w', evaluated, joined⟩

end ModuleGraph
