import ModuleGraph.Sorted
import ModuleGraph.Value.Basic

/-!
The own properties of an object, in the order of the first setting of each key since it was last
deleted.
-/
namespace ModuleGraph

/-- Overwrites the value of a key in its place, or adds the key at the end. -/
def Properties.setEntry (key : String) (value : Value) :
    List (String × Value) → List (String × Value)
  | [] => [(key, value)]
  | (k, v) :: rest => if k = key then (k, value) :: rest else (k, v) :: setEntry key value rest

/-- Only the key that is set changes its value. -/
theorem Properties.lookup_setEntry (key other : String) (value : Value)
    (entries : List (String × Value)) :
    (setEntry key value entries).lookup other =
      if other = key then some value else entries.lookup other := by
  induction entries with
  | nil => by_cases h : other = key <;> simp [setEntry, List.lookup_cons, h, beq_false_of_ne]
  | cons entry rest ih =>
    obtain ⟨k, v⟩ := entry
    by_cases hk : k = key
    · subst hk
      by_cases h : other = k <;> simp [setEntry, List.lookup_cons, h, beq_false_of_ne]
    · by_cases h : other = k
      · subst h
        simp [setEntry, hk]
      · simpa [setEntry, hk, List.lookup_cons, beq_false_of_ne h] using ih

/-- Setting a key keeps the order of the others; a new key comes last. -/
theorem Properties.keys_setEntry (key : String) (value : Value) (entries : List (String × Value)) :
    (setEntry key value entries).map Prod.fst =
      if key ∈ entries.map Prod.fst then entries.map Prod.fst
      else entries.map Prod.fst ++ [key] := by
  induction entries with
  | nil => simp [setEntry]
  | cons entry rest ih =>
    obtain ⟨k, v⟩ := entry
    by_cases hk : k = key
    · subst hk
      simp [setEntry]
    · by_cases hm : key ∈ rest.map Prod.fst
      · simpa [setEntry, hk, Ne.symm hk, hm] using ih
      · simpa [setEntry, hk, Ne.symm hk, hm] using ih

theorem Properties.nodup_setEntry (key : String) (value : Value) {entries : List (String × Value)}
    (nodup : (entries.map Prod.fst).Nodup) : ((setEntry key value entries).map Prod.fst).Nodup := by
  rw [keys_setEntry]
  split
  · exact nodup
  · rename_i absent
    refine List.nodup_append.mpr ⟨nodup, by simp, fun a present b new same => absent ?_⟩
    rw [List.mem_singleton.mp new] at same
    exact same ▸ present

theorem Properties.setEntry_of_lookup {key : String} {value : Value} {entries : List (String × Value)}
    (held : entries.lookup key = some value) : setEntry key value entries = entries := by
  induction entries with
  | nil => cases held
  | cons entry rest ih =>
    obtain ⟨k, v⟩ := entry
    by_cases same : k = key
    · subst same
      rw [List.lookup_cons_self] at held
      cases held
      exact if_pos rfl
    · rw [List.lookup_cons, beq_false_of_ne (Ne.symm same)] at held
      rw [setEntry, if_neg same, ih held]

/-- Properties in their order. -/
structure Properties where
  entries : List (String × Value) := []
  /-- A key occurs at most once. -/
  nodup : (entries.map Prod.fst).Nodup := by exact List.nodup_nil
  deriving DecidableEq

namespace Properties

instance : Inhabited Properties := ⟨{}⟩

/-- The value of a key, if there is one. -/
def get? (properties : Properties) (key : String) : Option Value := properties.entries.lookup key

/-- The value of a key, undefined if there is none. -/
def get (properties : Properties) (key : String) : Value := (properties.get? key).getD .undefined

/-- Sets a key. -/
def set (properties : Properties) (key : String) (value : Value) : Properties where
  entries := setEntry key value properties.entries
  nodup := nodup_setEntry key value properties.nodup

/-- Whether there is such a key. -/
def has (properties : Properties) (key : String) : Bool := (properties.get? key).isSome

/-- Deletes a key. -/
def delete (properties : Properties) (key : String) : Properties where
  entries := properties.entries.filter fun entry => entry.1 != key
  nodup := properties.nodup.sublist (List.filter_sublist.map _)

/-- The keys in their order. -/
def keys (properties : Properties) : List String := properties.entries.map Prod.fst

/-- The number of properties. -/
def size (properties : Properties) : Nat := properties.entries.length

/-- Properties set one after the other. -/
def ofEntries (entries : List (String × Value)) : Properties :=
  entries.foldl (fun properties entry => properties.set entry.1 entry.2) {}

@[simp] theorem keys_empty : ({} : Properties).keys = [] := rfl

@[simp] theorem get?_empty (key : String) : ({} : Properties).get? key = none := rfl

/-- Only the key that is set changes its value. -/
theorem get?_set (properties : Properties) (key other : String) (value : Value) :
    (properties.set key value).get? other =
      if other = key then some value else properties.get? other :=
  lookup_setEntry key other value properties.entries

/-- To set a key to the value that it has changes nothing. -/
theorem set_of_get? {properties : Properties} {key : String} {value : Value}
    (held : properties.get? key = some value) : properties.set key value = properties := by
  cases properties
  simp only [set, setEntry_of_lookup held]

/-- Setting a key keeps the order of the others; a new key comes last. -/
theorem keys_set (properties : Properties) (key : String) (value : Value) :
    (properties.set key value).keys =
      if key ∈ properties.keys then properties.keys else properties.keys ++ [key] :=
  keys_setEntry key value properties.entries

/-- Deleting a key keeps the order of the others. -/
theorem keys_delete (properties : Properties) (key : String) :
    (properties.delete key).keys = properties.keys.filter (· != key) := by
  simp [delete, keys, List.filter_map, Function.comp_def]

theorem get?_eq_none_iff {properties : Properties} {key : String} :
    properties.get? key = none ↔ key ∉ properties.keys := lookup_eq_none_iff

/-- Each entry is found under its key. -/
theorem get?_of_mem {properties : Properties} {key : String} {value : Value}
    (member : (key, value) ∈ properties.entries) : properties.get? key = some value := by
  obtain ⟨before, after, split⟩ := List.append_of_mem member
  have nodup := properties.nodup
  rw [split, List.map_append, List.map_cons, List.nodup_append] at nodup
  rw [get?, List.lookup_eq_some_iff]
  refine ⟨before, after, split, fun entry earlier => ?_⟩
  have differs := nodup.2.2 entry.1 (List.mem_map_of_mem earlier) key List.mem_cons_self
  simpa using Ne.symm differs

/-- An object is its keys with their values. -/
theorem entries_eq (properties : Properties) :
    properties.entries = properties.keys.map fun key => (key, properties.get key) := by
  rw [keys, List.map_map]
  refine (List.map_id _).symm.trans (List.map_congr_left fun entry member => ?_)
  simp [get, get?_of_mem member]

end Properties
end ModuleGraph
