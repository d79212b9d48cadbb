import ModuleGraph.Proofs.Namespaces

/-!
Where imports are resolved. The location that is noted of a record is the one that the record itself
has, and its text is the key under which the record is kept. So what a script imports is resolved
against the script's own location, whoever imports it.
-/
namespace ModuleGraph
open World Engine

/-! ### Keys of records -/

/-- The key that a record is kept under if it is: the text of a script's location, or the name of a
host module. -/
def Record.key? : Record → Option String
  | .host module => some module.name
  | record => record.location?.map Url.toText

theorem Record.key?_of_location? {record : Record} {location : Url}
    (found : record.location? = some location) : record.key? = some location.toText := by
  cases record <;> cases found <;> rfl

namespace World
variable {record record' : Record}

theorem Revised.location? (revised : Revised record record') :
    record'.location? = record.location? := by
  cases revised with
  | memo => cases record <;> rfl
  | _ => rfl

theorem Revised.key? (revised : Revised record record') : record'.key? = record.key? := by
  cases revised with
  | memo => cases record <;> rfl
  | _ => rfl

end World

/-- The location of a place, if it is one. -/
def Place.location? : Place → Option Url
  | .host _ => none
  | .location url => some url

namespace Embedding.Makes
variable {embedding : Embedding} {place : Place} {record : Record}
  (makes : embedding.Makes place record)
include makes

theorem key? : record.key? = some place.key := by
  cases makes <;> rfl

theorem location? : record.location? = place.location? := by
  cases makes <;> rfl

end Embedding.Makes

/-! ### Locations of records -/

namespace World
variable {embedding : Embedding} {place : Place} {refused : String} {outcome : Outcome RecordId}
  {w w' : World} {record : Record} {id : RecordId}

/-- What an inert record does not have tells that a record exists. -/
theorem hasRecord_of_view {γ : Type} {view : Record → Option γ} {value : γ}
    (found : view (w.record id) = some value) (inert : view default = none := by rfl) :
    w.hasRecord id := by
  by_contra absent
  rw [record_of_not_hasRecord absent, inert] at found
  cases found

theorem ne_new_of_hasRecord (present : w.hasRecord id) (record : Record) :
    id ≠ (w.addRecord record).1 := by
  rintro rfl
  simp [hasRecord, addRecord] at present

theorem lookup_enroll_of_ne (place : Place) (older : id ≠ (w.addRecord record).1) :
    (w.enroll place record).locations.lookup id = w.locations.lookup id := by
  cases place with
  | host => rfl
  | location url => simp [enroll, List.lookup_append, List.lookup_cons, beq_false_of_ne older]

theorem lookup_enroll_new (record : Record)
    (nothing : w.locations.lookup (w.addRecord record).1 = none) :
    (w.enroll place record).locations.lookup (w.addRecord record).1 = place.location? := by
  cases place with
  | host => exact nothing
  | location => simp [enroll, List.lookup_append, nothing, Place.location?]

/-- A record has its key, and the location that is noted of it if it is kept; only locations that
records have are noted. -/
structure Indexed (w : World) : Prop where
  kept : ∀ key id, w.cache.get? key = some (.ok id) →
    (w.record id).key? = some key ∧ w.locations.lookup id = (w.record id).location?
  noted : ∀ id location, w.locations.lookup id = some location →
    (w.record id).location? = some location

namespace Indexed

theorem of_unresolved (unresolved : w.Unresolved) : w.Indexed where
  kept key id kept := by
    rw [Cache.get?, unresolved.cache] at kept
    cases kept
  noted id location noted := by simp [unresolved.locations] at noted

theorem of_revised (indexed : w.Indexed) (revised : ∀ id, Revised (w.record id) (w'.record id))
    (kept : ∀ key, w'.cache.get? key = w.cache.get? key) (locations : w'.locations = w.locations) :
    w'.Indexed where
  kept key id found := by
    rw [kept] at found
    rw [(revised id).key?, (revised id).location?, locations]
    exact indexed.kept key id found
  noted id location noted := by
    rw [locations] at noted
    rw [(revised id).location?]
    exact indexed.noted id location noted

theorem asked {events : List Event} (indexed : w.Indexed) (asked : Asked events w w') :
    w'.Indexed :=
  indexed.of_revised (fun id => asked.record id ▸ .same _) asked.get? asked.locations

theorem beside (indexed : w.Indexed) (beside : Beside w w') : w'.Indexed :=
  indexed.of_revised beside.revised beside.get? beside.locations

theorem lookup_new (indexed : w.Indexed) (record : Record) :
    w.locations.lookup (w.addRecord record).1 = none := by
  cases noted : w.locations.lookup (w.addRecord record).1 with
  | none => rfl
  | some location =>
    have present := hasRecord_of_view (indexed.noted _ location noted)
    exact absurd rfl (ne_new_of_hasRecord present record)

/-- The location that is noted of the record made for a place is the one that it has. -/
theorem enroll (indexed : w.Indexed) (makes : embedding.Makes place record) :
    (w.enroll place record).Indexed where
  kept key id kept := by
    rw [cache_enroll] at kept
    obtain ⟨named, located⟩ := indexed.kept key id kept
    have present := hasRecord_of_view named
    rw [record_enroll_of_hasRecord w place record present,
      lookup_enroll_of_ne place (ne_new_of_hasRecord present record)]
    exact ⟨named, located⟩
  noted id location noted := by
    by_cases new : id = (w.addRecord record).1
    · rw [new, lookup_enroll_new record (indexed.lookup_new record)] at noted
      rw [new, record_enroll_new, makes.location?, noted]
    · rw [lookup_enroll_of_ne place new] at noted
      have found := indexed.noted id location noted
      rwa [record_enroll_of_hasRecord w place record (hasRecord_of_view found)]

theorem keep (indexed : w.Indexed) (key : String) (outcome : Outcome RecordId)
    (right : ∀ id, outcome = .ok id →
      (w.record id).key? = some key ∧ w.locations.lookup id = (w.record id).location?) :
    { w with cache := (w.cache.insert key outcome).2 }.Indexed where
  kept other id found := by
    rw [Cache.get?_insert] at found
    split at found
    · rename_i new
      rw [new.1]
      exact right id (Option.some.inj found)
    · exact indexed.kept other id found
  noted := indexed.noted

theorem lookedUp (indexed : w.Indexed) (did : LookedUp embedding place refused w outcome w') :
    w'.Indexed := by
  cases did with
  | kept | refused => exact indexed
  | discovered _ _ discovered =>
    cases discovered with
    | @made _ w₁ record _ asked makes =>
      have indexed₁ := indexed.asked asked
      refine (indexed₁.enroll makes).keep place.key _ fun id new => ?_
      cases new
      rw [record_enroll_new, makes.key?, makes.location?,
        lookup_enroll_new record (indexed₁.lookup_new record)]
      exact ⟨rfl, rfl⟩
    | failed _ asked _ =>
      exact (indexed.asked asked).keep place.key _ fun _ impossible => by cases impossible

end Indexed

/-- Whatever is done, the locations that are noted of records stay the records' own, and the
resolver stays there. -/
theorem sustained_indexed (hasResolver : Bool) (embedding : Embedding) :
    let inv (w : World) := w.Indexed ∧ w.hasResolver = hasResolver
    Sustained embedding inv inv := by
  refine sustained_of_lookedUp
    (fun _ _ beside h => ⟨h.1.beside beside, beside.hasResolver.trans h.2⟩)
    fun _ _ _ _ _ did h => ⟨h.1.lookedUp did, ?_⟩
  cases did with
  | kept | refused => exact h.2
  | discovered _ _ discovered => exact discovered.hasResolver.trans h.2

end World

theorem Embedding.run_importFor_resolver {embedding : Embedding} {w : World} {id : RecordId}
    {location : Url} (present : w.hasResolver = true)
    (known : w.locations.lookup id = some location) (specifier : String) :
    (embedding.importFor .resolver id specifier).run w =
      (embedding.resolve (some location) specifier).run w := by
  have looked : (get : Attempt World).run w = .ok (.ok w) w := rfl
  rw [importFor, Attempt.run_bind_of_ended looked, if_pos present,
    run_resolveImported_of_located known]

/-- Whatever is done, with loaders and compilers that may also fail and end discovery, what is kept
under a key is kept under no other one. For a script the key is the text of the location that the
script has, and just this location is noted of it; of host modules none is. So what the script
imports, then and in all worlds that come of that, is resolved against its own location. -/
theorem imports_resolve_at_own_location (depth : Nat) (steps : List (Embedding × Operation))
    (w₀ w : World) (unresolved : w₀.Unresolved)
    (ended : (Setup.runEach depth steps).after w₀ = w) :
    w.hasResolver = w₀.hasResolver ∧
    (∀ id module, w.record id = .host module → w.locations.lookup id = none) ∧
    ∀ key id, w.cache.get? key = some (.ok id) →
      (∀ other, w.cache.get? other = some (.ok id) → other = key) ∧
      ∀ location, (w.record id).location? = some location →
        w.locations.lookup id = some location ∧ location.toText = key ∧
        ∀ w', Remembers w w' → w'.hasResolver = true →
          ∀ (embedding : Embedding) (specifier : String),
            (embedding.importFor .resolver id specifier).run w' =
              (embedding.resolve (some location) specifier).run w' := by
  have holds : w.Indexed ∧ w.hasResolver = w₀.hasResolver :=
    ended ▸ Setup.sustained_after_runEach (sustained_indexed w₀.hasResolver) depth steps
      ⟨.of_unresolved unresolved, rfl⟩
  obtain ⟨indexed, hasResolver⟩ := holds
  refine ⟨hasResolver, fun id module found => ?_, fun key id kept =>
    ⟨fun other kept' => ?_, fun location found => ?_⟩⟩
  · cases noted : w.locations.lookup id with
    | none => rfl
    | some location =>
      have located := indexed.noted id location noted
      rw [found] at located
      cases located
  · exact Option.some.inj ((indexed.kept other id kept').1.symm.trans (indexed.kept key id kept).1)
  · obtain ⟨named, noted⟩ := indexed.kept key id kept
    rw [found] at noted
    exact ⟨noted, Option.some.inj ((Record.key?_of_location? found).symm.trans named),
      fun w' remembers present _ specifier => Embedding.run_importFor_resolver present
        (remembers.location id location noted) specifier⟩

/-- A script imports from the folder that it is in itself, also after discovery is over. -/
theorem imports_resolve_in_namesakes :
    (ofModules []).Unresolved ∧
      ∃ w, Setup.runEach 1 [(namesakes, .resolve none "/d/a"), (namesakes, .resolve none "host:kv"),
          (.bare, .lock)] (ofModules []) = .ok () w ∧
        w.cache.get? "file:///d/a" = some (.ok ⟨0⟩) ∧
        w.locations.lookup ⟨0⟩ = some (.fileUrl "" ['/', 'd', '/', 'a']) ∧
        (namesakes.importFor .resolver ⟨0⟩ "b").run w =
          (namesakes.resolve (some (.fileUrl "" ['/', 'd', '/', 'a'])) "b").run w := by
  have unresolved : (ofModules []).Unresolved := ⟨rfl, rfl⟩
  have computed : (Setup.runEach 1 [(namesakes, .resolve none "/d/a"),
      (namesakes, .resolve none "host:kv"), (.bare, .lock)]).ends (ofModules []) (fun _ w =>
        w.cache.get? "file:///d/a" = some (.ok ⟨0⟩) &&
          (w.record ⟨0⟩).location? = some (.fileUrl "" ['/', 'd', '/', 'a'])) = true := by
    cbv
  obtain ⟨_, w, ran, computed⟩ := Action.exists_of_ends computed
  simp only [Bool.and_eq_true, decide_eq_true_eq] at computed
  obtain ⟨kept, located⟩ := computed
  have ended : (Setup.runEach 1 [(namesakes, .resolve none "/d/a"),
      (namesakes, .resolve none "host:kv"), (.bare, .lock)]).after (ofModules []) = w := by
    rw [Action.after, ran]
  obtain ⟨present, _, scripts⟩ := imports_resolve_at_own_location 1 _ _ w unresolved ended
  obtain ⟨noted, _, imports⟩ := (scripts _ _ kept).2 _ located
  exact ⟨unresolved, w, ran, kept, noted, imports w (refl w) present namesakes "b"⟩

end ModuleGraph
