import ModuleGraph.Proofs.ImportLocations
import ModuleGraph.Proofs.Refusals

/-!
What a refused lookup leaves behind. What is kept stays as it is, and no other key comes to have an
outcome. But where discovery ends during the lookup, the record of a script can have been made by
then: its location stays noted, though the record is kept under no key.
-/
namespace ModuleGraph
open World Engine

namespace World
variable {embedding : Embedding} {place : Place} {refused text : String} {events : List Event}
  {outcome : Outcome RecordId} {w w' : World} {id : RecordId}

theorem Asked.entries (asked : Asked events w w') : w'.cache.entries = w.cache.entries := by
  rcases asked.cache with same | same <;> rw [same]
  rfl

theorem Asked.hasRecord_iff (asked : Asked events w w') (id : RecordId) :
    w'.hasRecord id ↔ w.hasRecord id := by
  rw [hasRecord, asked.records, hasRecord]

/-- Discovery itself is never refused. -/
theorem Discovered.ne_refusal (discovered : Discovered embedding place w outcome w') :
    outcome ≠ .error (.resolutionLocked text) := by
  rintro rfl
  cases discovered with
  | failed _ _ lacks => cases lacks

/-- What discovery leaves when its outcome cannot be kept: nothing, or a record that is new and, for
a script, its location. -/
inductive Leaves (w : World) : World → Prop
  | nothing {events : List Event} {w' : World} (asked : Asked events w w') : Leaves w w'
  | host {events : List Event} {w' : World} {module : HostRecord} (asked : Asked events w w') :
      Leaves w (w'.addRecord (.host module)).2
  | script {events : List Event} {w' : World} {record : Record} {location : Url}
      (asked : Asked events w w') (located : record.location? = some location) :
      Leaves w (w'.enroll (.location location) record)

/-- A lookup that is refused changes nothing, or it was not refused at first and leaves what it has
discovered. -/
theorem LookedUp.leaves
    (did : LookedUp embedding place refused w (.error (.resolutionLocked text)) w') :
    w' = w ∨ w.cache.isLocked = false ∧ w'.cache.isLocked = true ∧ Leaves w w' := by
  generalize answer : (.error (.resolutionLocked text) : Outcome RecordId) = outcome at did
  cases did with
  | kept | refused => exact .inl rfl
  | @discovered outcome w₁ absent unlocked discovered =>
    have locked : w₁.cache.isLocked = true := by
      by_contra unlocked₁
      have kept : (w₁.cache.insert place.key outcome).1 = outcome := by
        simp [Cache.insert, unlocked₁, discovered.get?, absent]
      exact discovered.ne_refusal (kept.symm.trans answer.symm)
    have inserted : w₁.cache.insert place.key outcome =
        (.error (.resolutionLocked place.key), w₁.cache) := if_pos locked
    rw [inserted]
    refine .inr ⟨unlocked, locked, ?_⟩
    cases discovered with
    | failed _ asked _ => exact .nothing asked
    | made _ asked makes =>
      cases makes with
      | host => exact .host asked
      | static | wrapper => exact .script asked rfl

namespace Leaves

theorem entries (leaves : Leaves w w') : w'.cache.entries = w.cache.entries := by
  cases leaves with
  | nothing asked | host asked => exact asked.entries
  | script asked => rw [cache_enroll, asked.entries]

/-- A location is noted just if the record of a script is new; then it is the only one, and that of
the record. -/
theorem locations (leaves : Leaves w w') :
    (w'.locations = w.locations ∧
      ∀ id location, ¬ w.hasRecord id → (w'.record id).location? ≠ some location) ∨
    ∃ id location, w'.locations = w.locations ++ [(id, location)] ∧ ¬ w.hasRecord id ∧
      (w'.record id).location? = some location := by
  have absent {events : List Event} {w₁ : World} (asked : Asked events w w₁) {id : RecordId}
      (new : ¬ w.hasRecord id) (location : Url) : (w₁.record id).location? ≠ some location :=
    fun located => new ((asked.hasRecord_iff id).mp (hasRecord_of_view located))
  cases leaves with
  | nothing asked => exact .inl ⟨asked.locations, fun id location new => absent asked new location⟩
  | @host _ w₁ module asked =>
    refine .inl ⟨asked.locations, fun id location new => ?_⟩
    rw [record_addRecord]
    split
    · simp [Record.location?]
    · exact absent asked new location
  | @script _ w₁ record location asked located =>
    refine .inr ⟨(w₁.addRecord record).1, location, ?_, fun present => ?_, ?_⟩
    · show w₁.locations ++ _ = _
      rw [asked.locations]
    · exact ne_new_of_hasRecord ((asked.hasRecord_iff _).mpr present) record rfl
    · rw [record_enroll_new, located]

end Leaves
end World

/-- However a state of the resolver has come about, a lookup that is refused keeps all keys and
their outcomes as they are, and changes nothing if discovery was over before. The locations that are
noted stay the same as well, unless discovery ends during the lookup and the record of a script has
been made by then: just then one location more is noted, that of this record, which is kept under no
key. -/
theorem refused_lookup_notes_at_most_one_location (depth : Nat) (steps : List (Embedding × Operation))
    (w₀ w w' : World) (embedding : Embedding) (lookup : Lookup) (text : String)
    (unresolved : w₀.Unresolved) (ended : (Setup.runEach depth steps).after w₀ = w)
    (refused : (lookup.attempt embedding).run w = .ok (.error (.resolutionLocked text)) w') :
    w'.cache.entries = w.cache.entries ∧ (w.cache.isLocked = true → w' = w) ∧
    ((w'.locations = w.locations ∧
        ∀ id location, ¬ w.hasRecord id → (w'.record id).location? ≠ some location) ∨
      w.cache.isLocked = false ∧ w'.cache.isLocked = true ∧ ∃ id location,
        w'.locations = w.locations ++ [(id, location)] ∧ ¬ w.hasRecord id ∧
        (w'.record id).location? = some location ∧
        ∀ key, w'.cache.get? key ≠ some (.ok id)) := by
  have indexed : w.Indexed ∧ w.hasResolver = w₀.hasResolver :=
    ended ▸ Setup.sustained_after_runEach (sustained_indexed w₀.hasResolver) depth steps
      ⟨.of_unresolved unresolved, rfl⟩
  have same (same : w' = w) : w'.cache.entries = w.cache.entries ∧ (w.cache.isLocked = true → w' = w) ∧
      (w'.locations = w.locations ∧
        ∀ id location, ¬ w.hasRecord id → (w'.record id).location? ≠ some location) := by
    subst same
    exact ⟨rfl, fun _ => rfl, rfl, fun id location new located => new (hasRecord_of_view located)⟩
  cases found : lookup.place? embedding w with
  | none =>
    obtain ⟨error, fails⟩ := Embedding.run_of_no_place found
    cases (fails embedding rfl).symm.trans refused
    obtain ⟨entries, unchanged, noted⟩ := same rfl
    exact ⟨entries, unchanged, .inl noted⟩
  | some place =>
    have did := Embedding.lookedUp_of_place found
    rw [Action.Meets, refused] at did
    rcases did.leaves with unchanged | ⟨unlocked, locked, leaves⟩
    · obtain ⟨entries, unchanged, noted⟩ := same unchanged
      exact ⟨entries, unchanged, .inl noted⟩
    · refine ⟨leaves.entries, by simp [unlocked], ?_⟩
      rcases leaves.locations with noted | ⟨id, location, noted, new, located⟩
      · exact .inl noted
      · refine .inr ⟨unlocked, locked, id, location, noted, new, located, fun key kept => new ?_⟩
        rw [Cache.get?, leaves.entries] at kept
        exact hasRecord_of_view (indexed.1.kept key id kept).1

/-- A wrapper-style script is refused because its loader ends discovery, and its location is noted.
-/
theorem run_resolve_lockedByLoader :
    ∃ w', (Embedding.lockedByLoader.resolve none "/a").run (ofModules []) =
        .ok (.error (.resolutionLocked "file:///a")) w' ∧
      w'.locations = [(⟨0⟩, .fileUrl "" ['/', 'a'])] := by
  have computed : Action.ends (Embedding.lockedByLoader.resolve none "/a").run (ofModules [])
      (fun outcome w' => outcome = .error (.resolutionLocked "file:///a") &&
        w'.locations = [(⟨0⟩, .fileUrl "" ['/', 'a'])]) = true := by
    cbv
  obtain ⟨outcome, w', ended, computed⟩ := Action.exists_of_ends computed
  simp only [Bool.and_eq_true, decide_eq_true_eq] at computed
  obtain ⟨rfl, noted⟩ := computed
  exact ⟨w', ended, noted⟩

/-- Nothing is kept of the script then. -/
theorem refused_lookup_notes_one_location_in_lockedByLoader :
    ∃ w', (Embedding.lockedByLoader.resolve none "/a").run (ofModules []) =
        .ok (.error (.resolutionLocked "file:///a")) w' ∧
      w'.cache.entries = [] ∧ w'.locations = [(⟨0⟩, .fileUrl "" ['/', 'a'])] ∧
      ∀ key, w'.cache.get? key ≠ some (.ok ⟨0⟩) := by
  obtain ⟨w', ended, noted⟩ := run_resolve_lockedByLoader
  obtain ⟨entries, _, left⟩ := refused_lookup_notes_at_most_one_location 1 [] (ofModules []) _ w'
    .lockedByLoader (.written none "/a") _ ⟨rfl, rfl⟩ rfl ended
  rcases left with ⟨none, _⟩ | ⟨_, _, id, location, one, _, _, unkept⟩
  · cases noted.symm.trans none
  · cases noted.symm.trans one
    exact ⟨w', ended, entries, noted, unkept⟩

/-- So a lookup that is refused does not always leave the noted locations as they were. -/
theorem not_locations_same_after_refusal :
    ¬ ∀ (depth : Nat) (steps : List (Embedding × Operation)) (w₀ w w' : World)
      (embedding : Embedding) (lookup : Lookup) (text : String), w₀.Unresolved →
      (Setup.runEach depth steps).after w₀ = w →
      (lookup.attempt embedding).run w = .ok (.error (.resolutionLocked text)) w' →
      w'.cache.entries = w.cache.entries ∧ w'.locations = w.locations := by
  intro claim
  obtain ⟨w', ended, noted⟩ := run_resolve_lockedByLoader
  have same := claim 1 [] (ofModules []) _ w' .lockedByLoader (.written none "/a") _ ⟨rfl, rfl⟩ rfl
    ended
  cases noted.symm.trans same.2

end ModuleGraph
