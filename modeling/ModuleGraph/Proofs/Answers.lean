import ModuleGraph.Proofs.Changes
import ModuleGraph.Proofs.Discoveries

/-!
What resolution answers: records that exist, if those exist that were kept or that a table names;
and the same ones again, when it changed nothing and remembers what it did.
-/
namespace ModuleGraph
open Relation World

namespace World
variable {w : World} {id : RecordId}

/-- All records that resolution has kept, or that a table names, exist. -/
structure Named (w : World) : Prop where
  cached : ∀ key id, w.cache.get? key = some (.ok id) → w.hasRecord id
  tabled : ∀ referrer specifier id, w.table referrer specifier = some id → w.hasRecord id

namespace Named

theorem of_same {w' : World} (named : w.Named) (records : w'.records.size = w.records.size)
    (cache : ∀ key, w'.cache.get? key = w.cache.get? key) (table : w'.table = w.table) :
    w'.Named := by
  constructor
  · intro key id cached
    rw [cache] at cached
    simpa only [hasRecord, records] using named.cached key id cached
  · intro referrer specifier id tabled
    rw [table] at tabled
    simpa only [hasRecord, records] using named.tabled referrer specifier id tabled

theorem write (named : w.Named) (event : Event) : (w.write event).Named :=
  named.of_same rfl (fun _ => rfl) rfl

theorem asked {events : List Event} {w' : World} (named : w.Named) (asked : Asked events w w') :
    w'.Named :=
  named.of_same (by rw [asked.records]) asked.get? asked.table

theorem setRecord (named : w.Named) (id : RecordId) (record : Record) :
    (w.setRecord id record).Named := by
  have same (other : RecordId) : (w.setRecord id record).hasRecord other = w.hasRecord other := by
    simp [World.hasRecord, World.setRecord]
  constructor
  · intro key other cached
    rw [same]
    exact named.cached key other cached
  · intro referrer specifier other tabled
    rw [same]
    exact named.tabled referrer specifier other tabled

end Named

theorem hasRecord_addRecord (w : World) (record : Record) (h : w.hasRecord id) :
    (w.addRecord record).2.hasRecord id := by
  simp only [hasRecord, addRecord, Array.size_push, decide_eq_true_eq] at h ⊢
  omega

theorem hasRecord_addRecord_new (w : World) (record : Record) :
    (w.addRecord record).2.hasRecord (w.addRecord record).1 := by
  simp [hasRecord, addRecord]

theorem hasRecord_enroll_new (w : World) (place : Place) (record : Record) :
    (w.enroll place record).hasRecord (w.addRecord record).1 := by
  cases place <;> exact hasRecord_addRecord_new w record

theorem Named.enroll (named : w.Named) (place : Place) (record : Record) :
    (w.enroll place record).Named := by
  have grows (id : RecordId) (present : w.hasRecord id) : (w.enroll place record).hasRecord id := by
    cases place <;> exact hasRecord_addRecord w record present
  constructor
  · intro key id cached
    rw [cache_enroll] at cached
    exact grows id (named.cached key id cached)
  · intro referrer specifier id tabled
    rw [table_enroll] at tabled
    exact grows id (named.tabled referrer specifier id tabled)

/-- What a key has when an outcome was written for it exists, if the outcome does. -/
theorem Named.insert (named : w.Named) (key : String) {outcome : Outcome RecordId}
    (present : ∀ id, outcome = .ok id → w.hasRecord id) :
    { w with cache := (w.cache.insert key outcome).2 }.Named ∧
      ∀ id, (w.cache.insert key outcome).1 = .ok id → w.hasRecord id := by
  refine ⟨⟨fun other id cached => ?_, named.tabled⟩, fun id answered => ?_⟩
  · rw [Cache.get?_insert] at cached
    split at cached
    · exact present id (Option.some.inj cached)
    · exact named.cached other id cached
  · unfold Cache.insert at answered
    split at answered
    · cases answered
    · split at answered
      · rename_i kept
        exact named.cached key id (kept.trans (congrArg some answered))
      · exact present id answered

end World

namespace Embedding
variable (embedding : Embedding) {w : World}

/-- Whatever an attempt at resolution answers exists. -/
def Answers (attempt : Attempt RecordId) : Prop :=
  ∀ w, w.Named → Attempt.Meets (fun _ => False) (fun _ => World.Named) attempt
    (fun id w' => w'.Named ∧ w'.hasRecord id) w

theorem Answers.throw (error : ModuleError) : Answers (throw error) := fun _ named => named

/-- What is looked up for a place exists. -/
theorem Discovers.answers {embedding : Embedding} {place : Place} {compute : Attempt RecordId}
    (discovers : embedding.Discovers place compute) (refused : String) :
    Answers (remember place.key refused compute) := by
  intro w named
  have answered {outcome : Outcome RecordId} {w' : World}
      (lookedUp : LookedUp embedding place refused w outcome w') :
      w'.Named ∧ ∀ id, outcome = .ok id → w'.hasRecord id := by
    cases lookedUp with
    | kept kept => exact ⟨named, fun id same => named.cached _ id (same ▸ kept)⟩
    | refused => exact ⟨named, fun id same => by cases same⟩
    | discovered _ _ discovered =>
      cases discovered with
      | made _ asked _ =>
        exact ((named.asked asked).enroll place _).insert _ fun id same => by
          cases same
          exact hasRecord_enroll_new _ place _
      | failed _ asked _ => exact (named.asked asked).insert _ fun id same => by cases same
  exact ((Attempt.meets_run _).mp (discovers.lookedUp refused w)).imp (fun _ h => h)
    (fun _ _ h => (answered h).1) fun id _ h => ⟨(answered h).1, (answered h).2 id rfl⟩

theorem answers_resolveHost (specifier : String) : Answers (embedding.resolveHost specifier) :=
  (Discovers.host specifier).answers specifier

theorem answers_resolve (referrer? : Option Url) (specifier : String) :
    Answers (embedding.resolve referrer? specifier) := by
  unfold resolve
  split
  · exact embedding.answers_resolveHost specifier
  · split
    · exact (Discovers.loads _ specifier).answers specifier
    · exact .throw _

theorem answers_resolveImported (referrer? : Option RecordId) (specifier : String) :
    Answers (embedding.resolveImported referrer? specifier) := by
  unfold resolveImported
  split
  · exact embedding.answers_resolveHost specifier
  · split
    · exact embedding.answers_resolve none specifier
    · rename_i id
      intro w named
      have looked : Action.Meets (fun _ => False) (locationOf id) (fun _ w' => w' = w) w := rfl
      rw [Attempt.meets_bind, Attempt.meets_lift]
      refine looked.mono fun location _ same => ?_
      rw [same]
      split
      · exact embedding.answers_resolve _ specifier w named
      · exact named

theorem answers_importFor (importer : Importer) (referrer : RecordId) (specifier : String) :
    Answers (embedding.importFor importer referrer specifier) := by
  intro w named
  unfold importFor
  rw [Attempt.meets_bind, Attempt.meets_get]
  split
  · split
    · exact embedding.answers_resolveImported _ specifier w named
    · exact named
  · split
    · rename_i id tabled
      exact ⟨named, named.tabled referrer specifier id tabled⟩
    · exact named

/-- All that a module asks for is answered by records that exist, or one answer fails. -/
theorem meets_importAll (importer : Importer) (id : RecordId) (specifiers : List String)
    (named : w.Named) :
    Attempt.Meets (fun _ => False) (fun _ => World.Named)
      (embedding.importAll importer id specifiers)
      (fun requested w' => w'.Named ∧ requested.map Prod.fst = specifiers ∧
        ∀ r ∈ requested.map Prod.snd, w'.hasRecord r) w := by
  induction specifiers generalizing w with
  | nil => exact ⟨named, rfl, by simp⟩
  | cons specifier rest ih =>
    unfold importAll
    rw [Attempt.meets_bind, Attempt.meets_lift, Action.meets_write, Attempt.meets_bind]
    refine (embedding.answers_importFor importer id specifier _ (named.write _)).mono
      fun r w₁ h => ?_
    obtain ⟨named₁, present⟩ := h
    rw [Attempt.meets_bind]
    refine ((ih named₁).and ((embedding.keeps_importAll importer id rest).meets w₁)).imp
      (fun _ h => h.1) (fun _ _ h => h.1) fun others w₂ h => ?_
    obtain ⟨⟨named₂, asked, answered⟩, edits⟩ := h
    refine ⟨named₂, congrArg (specifier :: ·) asked, List.forall_mem_cons.mpr ⟨?_, answered⟩⟩
    exact edits.still.records.hasRecord present

end Embedding

/-! ### Resolution that changes nothing -/

namespace World

/-- Resolution remembers the same in both worlds. -/
structure Recalls (w w' : World) : Prop where
  cache : w'.cache = w.cache
  locations : w'.locations = w.locations
  hasResolver : w'.hasResolver = w.hasResolver
  table : w'.table = w.table

end World

namespace Embedding
variable {embedding : Embedding} {w w' : World} {id r : RecordId} {specifier : String}

/-- An attempt at resolution answers a record and changes nothing. -/
def Finds (attempt : Attempt RecordId) (w : World) (r : RecordId) : Prop :=
  attempt.run w = .ok (.ok r) w

theorem finds_iff {attempt : Attempt RecordId} : Finds attempt w r ↔
    Attempt.Meets (fun _ => False) (fun _ _ => False) attempt (fun a w' => a = r ∧ w' = w) w := by
  unfold Finds Attempt.Meets
  split
  · rename_i answer w' ended
    rw [ended]
    simp
  · rename_i ended
    simp [ended]
  · rename_i ended
    simp [ended]

/-- A key under which something was kept has an outcome. -/
theorem meets_keep_cached (key : String) (outcome : Outcome RecordId) (w : World) :
    Attempt.Meets (fun _ => True) (fun _ _ => True) (keep key outcome)
      (fun _ w' => w'.cache.get? key ≠ none) w := by
  unfold keep
  rw [Attempt.meets_bind, Attempt.meets_get, Attempt.meets_bind, Attempt.meets_set]
  split
  · rename_i id answered
    rw [Attempt.meets_pure, Cache.get?_insert]
    unfold Cache.insert at answered
    split at answered
    · cases answered
    · rename_i unlocked
      by_cases absent : w.cache.get? key = none
      · simp [absent, unlocked]
      · simp [absent]
  · trivial

/-- An outcome is remembered without a change exactly if it was kept before. -/
theorem finds_remember {key refused : String} {compute : Attempt RecordId} :
    Finds (remember key refused compute) w r ↔ w.cache.get? key = some (.ok r) := by
  constructor
  · intro finds
    have meets : Attempt.Meets (fun _ => True) (fun _ _ => True) (remember key refused compute)
        (fun id w' => w.cache.get? key = some (.ok id) ∨
          w.cache.get? key = none ∧ w'.cache.get? key ≠ none) w := by
      unfold remember
      rw [Attempt.meets_bind, Attempt.meets_get]
      dsimp only
      split
      · rename_i cached
        exact .inl cached
      · trivial
      · rename_i absent
        split
        · trivial
        · rw [Attempt.meets_bind]
          refine Attempt.meets_of_forall compute.outcome w (fun _ _ => trivial) fun outcome w' => ?_
          exact (meets_keep_cached key outcome w').mono fun _ _ cached => .inr ⟨absent, cached⟩
    rw [Attempt.Meets, finds] at meets
    exact meets.resolve_right fun h => h.2 h.1
  · intro cached
    rw [finds_iff, remember, Attempt.meets_bind, Attempt.meets_get]
    simp only [cached]
    exact ⟨rfl, rfl⟩

/-- What follows an attempt that has changed nothing begins in the same world. -/
theorem finds_bind {α : Type} {attempt : Attempt α} {a : α} (ended : attempt.run w = .ok (.ok a) w)
    (next : α → Attempt RecordId) : Finds (attempt >>= next) w r ↔ Finds (next a) w r := by
  rw [finds_iff, Attempt.meets_bind_of_ended ended, ← finds_iff]

/-- What an attempt at resolution finds depends on what resolution remembers. -/
def Recollects (attempt : Attempt RecordId) : Prop :=
  ∀ w w' r, Recalls w w' → Finds attempt w r → Finds attempt w' r

theorem recollects_remember (key refused : String) (compute : Attempt RecordId) :
    Recollects (remember key refused compute) := by
  intro w w' r recalls found
  rw [finds_remember] at found ⊢
  rwa [recalls.cache]

theorem recollects_throw (error : ModuleError) : Recollects (throw error) :=
  fun _ _ _ _ found => (finds_iff.mp found).elim

theorem recollects_resolve (embedding : Embedding) (referrer? : Option Url) (specifier : String) :
    Recollects (embedding.resolve referrer? specifier) := by
  unfold resolve
  split
  · exact recollects_remember _ _ _
  · split
    · exact recollects_remember _ _ _
    · exact recollects_throw _

theorem recollects_resolveImported (embedding : Embedding) (referrer? : Option RecordId)
    (specifier : String) : Recollects (embedding.resolveImported referrer? specifier) := by
  unfold resolveImported
  split
  · exact recollects_remember _ _ _
  · split
    · exact embedding.recollects_resolve none specifier
    · rename_i id
      intro w w' r recalls found
      have looked (w : World) :
          (liftM (locationOf id) : Attempt _).run w = .ok (.ok (w.locations.lookup id)) w := rfl
      rw [finds_bind (looked _)] at found ⊢
      rw [recalls.locations]
      split at found
      · exact embedding.recollects_resolve _ specifier w w' r recalls found
      · exact (finds_iff.mp found).elim

theorem recollects_importFor (embedding : Embedding) (importer : Importer) (id : RecordId)
    (specifier : String) : Recollects (embedding.importFor importer id specifier) := by
  intro w w' r recalls found
  have looked (w : World) : (get : Attempt World).run w = .ok (.ok w) w := rfl
  unfold importFor at found ⊢
  rw [finds_bind (looked _)] at found ⊢
  rw [recalls.hasResolver, recalls.table]
  split at found
  · split at found
    · rename_i here
      rw [if_pos here]
      exact embedding.recollects_resolveImported _ specifier w w' r recalls found
    · exact (finds_iff.mp found).elim
  · split at found
    · exact finds_iff.mpr ⟨(finds_iff.mp found).1, rfl⟩
    · exact (finds_iff.mp found).elim

end Embedding
end ModuleGraph
