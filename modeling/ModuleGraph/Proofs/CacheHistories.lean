import ModuleGraph.Cache

/-!
What a cache holds and answers after any uses of it. A key has the outcome that was entered for it
first, if that was before the cache was locked, and it has that outcome for good. Entering answers
what the key has afterwards, but a locked cache refuses also the keys that have an outcome.
-/
namespace ModuleGraph
namespace Cache
variable {ρ : Type} {cache : Cache ρ} {key : String} {outcome held : Outcome ρ}

/-- A use of a cache. -/
inductive Use (ρ : Type) where
  | insert (key : String) (outcome : Outcome ρ)
  | get (key : String)
  | lock

/-- A cache after one use of it. -/
def use (cache : Cache ρ) : Use ρ → Cache ρ
  | .insert key outcome => (cache.insert key outcome).2
  | .get _ => cache
  | .lock => cache.lock

/-- A new cache after uses of it, one after the other. -/
def after (uses : List (Use ρ)) : Cache ρ := uses.foldl use {}

/-- What is entered for a key first, before a lock. -/
def entered? (key : String) : List (Use ρ) → Option (Outcome ρ)
  | [] | .lock :: _ => none
  | .insert other outcome :: rest => if other = key then some outcome else entered? key rest
  | .get _ :: rest => entered? key rest

theorem isLocked_foldl_use (uses : List (Use ρ)) (cache : Cache ρ) :
    (uses.foldl use cache).isLocked = true ↔ cache.isLocked = true ∨ .lock ∈ uses := by
  induction uses generalizing cache with
  | nil => simp
  | cons step rest ih =>
    rw [List.foldl_cons, ih]
    cases step <;> simp [use]

/-- A key keeps what it has. In a cache that is not locked, a key that has nothing comes to have
what is entered for it first. -/
theorem get?_foldl_use (uses : List (Use ρ)) (cache : Cache ρ) (key : String) :
    (uses.foldl use cache).get? key =
      (cache.get? key).or (if cache.isLocked then none else entered? key uses) := by
  induction uses generalizing cache with
  | nil => simp [entered?]
  | cons step rest ih =>
    rw [List.foldl_cons, ih]
    cases step with
    | get => rfl
    | lock => simp [use, entered?]
    | insert other outcome =>
      rw [use, isLocked_insert, get?_insert, entered?]
      cases locked : cache.isLocked with
      | true => simp
      | false =>
        by_cases same : key = other
        · subst same
          cases present : cache.get? key <;> simp
        · simp [same, Ne.symm same]

theorem isLocked_after (uses : List (Use ρ)) :
    (after uses).isLocked = true ↔ .lock ∈ uses := by
  simp [after, isLocked_foldl_use]

theorem get?_after (uses : List (Use ρ)) (key : String) :
    (after uses).get? key = entered? key uses := by
  rw [after, get?_foldl_use]
  simp [get?]

/-- A cache that is not locked answers what the key has then. -/
theorem answer_of_unlocked (unlocked : cache.isLocked = false)
    (kept : (cache.insert key outcome).2.get? key = some held) :
    (cache.insert key outcome).1 = held := by
  rw [get?_insert] at kept
  unfold insert
  cases present : cache.get? key with
  | some value => simpa [unlocked, present] using kept
  | none => simpa [unlocked, present] using kept

/-- A locked cache refuses every key and keeps what it has. -/
theorem insert_of_locked (locked : cache.isLocked = true) (key : String) (outcome : Outcome ρ) :
    cache.insert key outcome = (.error (.resolutionLocked key), cache) := if_pos locked

/-- Whatever a cache was used for before, entering an outcome answers what the key has afterwards if
and only if the cache is not locked, or the key has nothing, or it has the very refusal that a
locked cache answers. What a key has is what was entered for it first before the lock, and no use of
the cache changes it any more. -/
theorem insert_answers_held_unless_locked (uses : List (Use ρ)) (key : String)
    (outcome : Outcome ρ) :
    ((∀ held, ((after uses).insert key outcome).2.get? key = some held →
        ((after uses).insert key outcome).1 = held) ↔
      (.lock ∈ uses → ∀ held, entered? key uses = some held →
        held = .error (.resolutionLocked key))) ∧
    (∀ other, (after uses).get? other = entered? other uses) ∧
    ∀ more other held, (after uses).get? other = some held →
      (after (uses ++ more)).get? other = some held := by
  refine ⟨⟨fun answers locks held entered => ?_, fun refuses held kept => ?_⟩, get?_after uses,
    fun more other held present => ?_⟩
  · have locked := insert_of_locked ((isLocked_after uses).mpr locks) key outcome
    rw [locked] at answers
    exact (answers held ((get?_after uses key).trans entered)).symm
  · cases locked : (after uses).isLocked with
    | false => exact answer_of_unlocked locked kept
    | true =>
      rw [insert_of_locked locked, get?_after] at kept
      rw [insert_of_locked locked, refuses ((isLocked_after uses).mp locked) held kept]
  · rw [after, List.foldl_append, get?_foldl_use]
    exact (congrArg (Option.or · _) present).trans (Option.some_or ..)

/-- So entering an outcome does not always answer what the key has afterwards: a cache that was
locked refuses a key that has an outcome. -/
theorem not_insert_answers_held :
    ¬ ∀ (uses : List (Use Nat)) (key : String) (outcome held : Outcome Nat),
      ((after uses).insert key outcome).2.get? key = some held →
      ((after uses).insert key outcome).1 = held := by
  intro claim
  have answered := claim [.insert "a" (.ok 0), .lock] "a" (.ok 1) (.ok 0) rfl
  cases answered

end Cache
end ModuleGraph
