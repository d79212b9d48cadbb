import ModuleGraph.Error
import ModuleGraph.Sorted

/-!
The outcomes of resolutions. A key is written at most once, and nothing is written after the cache
is locked.
-/
namespace ModuleGraph

/-- What a resolution came to. -/
abbrev Outcome (ρ : Type) := Except ModuleError ρ

/-- Outcomes by canonical location or host specifier. -/
structure Cache (ρ : Type) where
  entries : Sorted (Outcome ρ) := []
  isLocked : Bool := false

namespace Cache
variable {ρ : Type}

instance : Inhabited (Cache ρ) := ⟨{}⟩

/-- The outcome of a key, if it has one. -/
def get? (cache : Cache ρ) (key : String) : Option (Outcome ρ) := cache.entries.lookup key

/-- Whether a key has an outcome. -/
def contains (cache : Cache ρ) (key : String) : Bool := (cache.get? key).isSome

/-- Writes the outcome of a key unless it has one, and answers the outcome it has then. A locked
cache writes nothing and refuses every key. -/
def insert (cache : Cache ρ) (key : String) (outcome : Outcome ρ) : Outcome ρ × Cache ρ :=
  if cache.isLocked then (.error (.resolutionLocked key), cache)
  else
    match cache.get? key with
    | some present => (present, cache)
    | none => (outcome, { cache with entries := Sorted.insert key outcome cache.entries })

/-- Refuses every later write. -/
def lock (cache : Cache ρ) : Cache ρ := { cache with isLocked := true }

/-- The keys, ascending. -/
def keys (cache : Cache ρ) : List String := Sorted.keys cache.entries

/-- The number of keys. -/
def size (cache : Cache ρ) : Nat := cache.entries.length

@[simp] theorem isLocked_lock (cache : Cache ρ) : cache.lock.isLocked = true := rfl

@[simp] theorem get?_lock (cache : Cache ρ) (key : String) : cache.lock.get? key = cache.get? key :=
  rfl

@[simp] theorem isLocked_insert (cache : Cache ρ) (key : String) (outcome : Outcome ρ) :
    (cache.insert key outcome).2.isLocked = cache.isLocked := by
  unfold insert
  split
  · rfl
  · split <;> rfl

/-- A write gives an outcome to its own key alone, and only if that has none and nothing is locked.
-/
theorem get?_insert (cache : Cache ρ) (key other : String) (outcome : Outcome ρ) :
    (cache.insert key outcome).2.get? other =
      if other = key ∧ cache.get? key = none ∧ cache.isLocked = false then some outcome
      else cache.get? other := by
  unfold insert
  split
  · rename_i locked
    simp [locked]
  · rename_i unlocked
    split
    · rename_i present
      simp [present]
    · rename_i absent
      have inserted := Sorted.get?_insert key other outcome cache.entries
      by_cases h : other = key
      · rw [if_pos ⟨h, absent, by simpa using unlocked⟩]
        exact inserted.trans (if_pos h)
      · rw [if_neg fun held => h held.1]
        exact inserted.trans (if_neg h)

/-- What a write answers is kept. -/
theorem get?_of_insert {cache : Cache ρ} {key : String} {outcome : Outcome ρ} {value : ρ}
    (answer : (cache.insert key outcome).1 = .ok value) :
    (cache.insert key outcome).2.get? key = some (.ok value) := by
  have kept := get?_insert cache key key outcome
  unfold insert at answer kept ⊢
  split at answer
  · cases answer
  · rename_i unlocked
    rw [if_neg unlocked] at kept ⊢
    split at answer
    · rename_i present
      cases answer
      exact present
    · rename_i absent
      cases answer
      simpa [absent, unlocked] using kept

end Cache
end ModuleGraph
