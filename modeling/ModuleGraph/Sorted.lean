/-!
Lists of entries in ascending order of their keys, with at most one entry for a key.
-/
namespace ModuleGraph

/-- A key without an entry has no value. -/
theorem lookup_eq_none_iff {α : Type} {entries : List (String × α)} {key : String} :
    entries.lookup key = none ↔ key ∉ entries.map Prod.fst := by
  rw [List.lookup_eq_none_iff, List.mem_map]
  exact ⟨fun differs ⟨entry, member, same⟩ => by simpa [same] using differs entry member,
    fun absent entry member => by
      have differs : key ≠ entry.1 := fun same => absent ⟨entry, member, same.symm⟩
      simpa using differs⟩

/-- Entries of a map, ascending by key. -/
abbrev Sorted (α : Type) := List (String × α)

namespace Sorted
variable {α β : Type}

/-- Enters a value; an entry of the same key gives way to it. -/
def insert (key : String) (value : α) : Sorted α → Sorted α
  | [] => [(key, value)]
  | (k, v) :: rest =>
    if key < k then (key, value) :: (k, v) :: rest
    else if key = k then (key, value) :: rest
    else (k, v) :: insert key value rest

/-- The entries of a list, where the last one of a key counts. -/
def ofList (entries : List (String × α)) : Sorted α :=
  entries.foldl (fun map entry => insert entry.1 entry.2 map) []

/-- The value of a key. -/
def get? (map : Sorted α) (key : String) : Option α := map.lookup key

/-- The keys, ascending. -/
def keys (map : Sorted α) : List String := map.map Prod.fst

@[simp] theorem insert_nil (key : String) (value : α) : insert key value [] = [(key, value)] := rfl

/-- Only the key that is entered changes its value. -/
theorem get?_insert (key other : String) (value : α) (map : Sorted α) :
    get? (insert key value map) other = if other = key then some value else get? map other := by
  unfold get?
  induction map with
  | nil => by_cases h : other = key <;> simp [List.lookup_cons, h, beq_false_of_ne]
  | cons entry rest ih =>
    obtain ⟨k, v⟩ := entry
    unfold insert
    split
    · by_cases h : other = key <;> simp [List.lookup_cons, h, beq_false_of_ne]
    · split
      · rename_i hk
        subst hk
        by_cases h : other = key <;> simp [List.lookup_cons, h, beq_false_of_ne]
      · rename_i hk
        by_cases h : other = k
        · subst h
          simp [Ne.symm hk]
        · simp [List.lookup_cons, beq_false_of_ne h, ih]

/-- Of values entered one after the other, where no key is entered twice, each key has its own. -/
theorem get?_foldl_insert {entries : List (String × α)} (nodup : (entries.map Prod.fst).Nodup)
    (map : Sorted α) (key : String) :
    get? (entries.foldl (fun map entry => insert entry.1 entry.2 map) map) key =
      (entries.lookup key).or (get? map key) := by
  induction entries generalizing map with
  | nil => rfl
  | cons entry rest ih =>
    obtain ⟨k, v⟩ := entry
    obtain ⟨new, nodup⟩ := List.nodup_cons.mp nodup
    rw [List.foldl_cons, ih nodup, get?_insert]
    by_cases h : key = k
    · subst h
      simp [lookup_eq_none_iff.mpr new]
    · simp [List.lookup_cons, h, beq_false_of_ne]

theorem get?_ofList {entries : List (String × α)} (nodup : (entries.map Prod.fst).Nodup)
    (key : String) : get? (ofList entries) key = entries.lookup key := by
  rw [ofList, get?_foldl_insert nodup]
  exact Option.or_none

/-- Values can be changed before or after they are entered. -/
theorem insert_map (change : α → β) (key : String) (value : α) (map : Sorted α) :
    insert key (change value) (List.map (fun entry => (entry.1, change entry.2)) map) =
      (insert key value map).map fun entry => (entry.1, change entry.2) := by
  induction map with
  | nil => rfl
  | cons entry rest ih =>
    obtain ⟨k, v⟩ := entry
    simp only [List.map_cons, insert]
    split
    · rfl
    · split
      · rfl
      · rw [ih, List.map_cons]

theorem ofList_map (change : α → β) (entries : List (String × α)) :
    ofList (entries.map fun entry => (entry.1, change entry.2)) =
      (ofList entries).map fun entry => (entry.1, change entry.2) := by
  have entered (map : Sorted α) :
      (entries.map fun entry => (entry.1, change entry.2)).foldl
          (fun map entry => insert entry.1 entry.2 map)
          (map.map fun entry => (entry.1, change entry.2)) =
        (entries.foldl (fun map entry => insert entry.1 entry.2 map) map).map
          fun entry => (entry.1, change entry.2) := by
    induction entries generalizing map with
    | nil => rfl
    | cons entry rest ih => simp only [List.map_cons, List.foldl_cons, insert_map, ih]
  exact entered []

theorem mem_keys {key : String} {map : Sorted α} :
    key ∈ keys map ↔ ∃ value, get? map key = some value := by
  unfold get? keys
  induction map with
  | nil => simp
  | cons entry rest ih =>
    obtain ⟨k, v⟩ := entry
    by_cases same : key = k
    · subst same
      simp
    · simp only [List.map_cons, List.mem_cons, same, false_or, List.lookup_cons,
        beq_false_of_ne same]
      exact ih

theorem mem_keys_insert {key other : String} {value : α} {map : Sorted α} :
    other ∈ keys (insert key value map) ↔ other = key ∨ other ∈ keys map := by
  rw [mem_keys, mem_keys, get?_insert]
  by_cases same : other = key <;> simp [same]

theorem mem_keys_ofList {key : String} {entries : List (String × α)} :
    key ∈ keys (ofList entries) ↔ key ∈ entries.map Prod.fst := by
  have entered (map : Sorted α) :
      key ∈ keys (entries.foldl (fun map entry => insert entry.1 entry.2 map) map) ↔
        key ∈ entries.map Prod.fst ∨ key ∈ keys map := by
    induction entries generalizing map with
    | nil => simp
    | cons entry rest ih =>
      rw [List.foldl_cons, ih, mem_keys_insert, List.map_cons, List.mem_cons, or_left_comm, or_assoc]
  exact (entered []).trans (or_iff_left (by simp [keys]))

theorem mem_of_mem_insert {key : String} {value : α} {map : Sorted α} {entry : String × α}
    (member : entry ∈ insert key value map) : entry = (key, value) ∨ entry ∈ map := by
  induction map with
  | nil => exact .inl (List.mem_singleton.mp member)
  | cons first rest ih =>
    unfold insert at member
    split at member
    · exact List.mem_cons.mp member
    · split at member
      · exact (List.mem_cons.mp member).imp_right (List.mem_cons_of_mem _)
      · rcases List.mem_cons.mp member with rfl | later
        · exact .inr List.mem_cons_self
        · exact (ih later).imp_right (List.mem_cons_of_mem _)

/-- Nothing is there but what was entered. -/
theorem mem_of_mem_ofList {entries : List (String × α)} {entry : String × α}
    (member : entry ∈ ofList entries) : entry ∈ entries := by
  have entered := List.foldlRecOn (motive := fun map : Sorted α => ∀ entry ∈ map, entry ∈ entries)
    entries (fun map entry => insert entry.1 entry.2 map) (fun _ none => absurd none List.not_mem_nil)
    fun _ held entry present other member =>
      (mem_of_mem_insert member).elim (fun here => here ▸ present) (held other)
  exact entered entry member

/-- A new entry leaves the keys in ascending order. -/
theorem ascending_insert {key : String} {value : α} {map : Sorted α}
    (ascending : (keys map).Pairwise (· < ·)) : (keys (insert key value map)).Pairwise (· < ·) := by
  induction map with
  | nil => simp [keys]
  | cons entry rest ih =>
    obtain ⟨k, v⟩ := entry
    obtain ⟨first, others⟩ := List.pairwise_cons.mp ascending
    unfold insert
    split
    · rename_i lower
      exact List.pairwise_cons.mpr
        ⟨List.forall_mem_cons.mpr ⟨lower, fun other later => String.lt_trans lower (first other later)⟩,
          ascending⟩
    · rename_i higher
      split
      · rename_i same
        exact List.pairwise_cons.mpr ⟨same ▸ first, others⟩
      · rename_i differs
        refine List.pairwise_cons.mpr ⟨fun other present => ?_, ih others⟩
        rcases mem_keys_insert.mp present with rfl | later
        · exact Std.lt_of_le_of_ne (Std.not_lt.mp higher) (Ne.symm differs)
        · exact first other later

/-- The keys are ascending, however their values were entered. -/
theorem ascending_ofList (entries : List (String × α)) :
    (keys (ofList entries)).Pairwise (· < ·) :=
  List.foldlRecOn (motive := fun map : Sorted α => (keys map).Pairwise (· < ·)) entries _ .nil
    fun _ ascending _ _ => ascending_insert ascending

/-- Whatever is entered, the last value of a key counts. -/
theorem get?_ofList_eq (entries : List (String × α)) (key : String) :
    get? (ofList entries) key = entries.reverse.lookup key := by
  have entered (map : Sorted α) :
      get? (entries.foldl (fun map entry => insert entry.1 entry.2 map) map) key =
        (entries.reverse.lookup key).or (get? map key) := by
    induction entries generalizing map with
    | nil => rfl
    | cons entry rest ih =>
      obtain ⟨k, v⟩ := entry
      rw [List.foldl_cons, ih, get?_insert, List.reverse_cons, List.lookup_append, Option.or_assoc,
        List.lookup_cons, List.lookup_nil]
      by_cases same : key = k
      · rw [if_pos same, beq_iff_eq.mpr same, Option.some_or]
      · rw [if_neg same, beq_false_of_ne same, Option.none_or]
  exact (entered []).trans Option.or_none

/-- A key below all others has no value. -/
theorem get?_of_forall_lt {key : String} {map : Sorted α} (below : ∀ other ∈ keys map, key < other) :
    get? map key = none :=
  lookup_eq_none_iff.mpr fun present => String.lt_irrefl key (below key present)

/-- Entries in ascending order are known by the values of the keys. -/
theorem ext {map map' : Sorted α} (ascending : (keys map).Pairwise (· < ·))
    (ascending' : (keys map').Pairwise (· < ·)) (same : ∀ key, get? map key = get? map' key) :
    map = map' := by
  induction map generalizing map' with
  | nil =>
    cases map' with
    | nil => rfl
    | cons entry rest =>
      obtain ⟨k, v⟩ := entry
      simpa [get?] using same k
  | cons entry rest ih =>
    obtain ⟨k, v⟩ := entry
    cases map' with
    | nil => simpa [get?] using same k
    | cons entry' rest' =>
      obtain ⟨k', v'⟩ := entry'
      obtain ⟨first, others⟩ := List.pairwise_cons.mp ascending
      obtain ⟨first', others'⟩ := List.pairwise_cons.mp ascending'
      -- each of the two least keys is also one of the other entries
      have least : k ∈ keys ((k', v') :: rest') :=
        mem_keys.mpr ⟨v, same k ▸ List.lookup_cons_self⟩
      have least' : k' ∈ keys ((k, v) :: rest) :=
        mem_keys.mpr ⟨v', (same k').trans List.lookup_cons_self⟩
      have head : k = k' := by
        rcases List.mem_cons.mp least with here | later
        · exact here
        · rcases List.mem_cons.mp least' with here | later'
          · exact here.symm
          · exact absurd (first k' later') (String.lt_asymm (first' k later))
      subst head
      have value : v = v' := by simpa [get?] using same k
      subst value
      refine congrArg _ (ih others others' fun key => ?_)
      by_cases here : key = k
      · rw [here, get?_of_forall_lt first, get?_of_forall_lt first']
      · simpa [get?, List.lookup_cons, beq_false_of_ne here] using same key

/-- Entries that are in ascending order already are entered as they are. -/
theorem ofList_of_ascending {map : Sorted α} (ascending : (keys map).Pairwise (· < ·)) :
    ofList map = map :=
  ext (ascending_ofList map) ascending
    (get?_ofList (ascending.imp String.ne_of_lt))

end Sorted
end ModuleGraph
