import Mathlib.Data.List.Induction
import Mathlib.Data.List.Perm.Subperm
import Mathlib.Data.Nat.Find
import ModuleGraph.Value.Properties

/-!
What an object holds after any history of setting and deleting. Each key has the value that was set
last, unless it was deleted since, and the keys stand in the order in which they came in: by the first
setting since they were last deleted. The same comes of properties that are kept in two parts, the
values by their keys and the order of the keys, and the two parts never get out of step.
-/
namespace ModuleGraph

namespace Properties

/-- A change of one property. -/
inductive Edit where
  | set (key : String) (value : Value)
  | delete (key : String)
  deriving DecidableEq

namespace Edit

/-- The key that is set or deleted. -/
def key : Edit → String
  | set key _ => key
  | delete key => key

/-- The value that the key has afterwards. -/
def value? : Edit → Option Value
  | set _ value => some value
  | delete _ => none

/-- An object that is made of entries has them set one after the other. -/
def ofEntry (entry : String × Value) : Edit := .set entry.1 entry.2

end Edit

/-- Properties after a change. -/
def edit (properties : Properties) : Edit → Properties
  | .set key value => properties.set key value
  | .delete key => properties.delete key

/-- Properties that were made of entries and changed since, one change after the other. -/
def after (entries : List (String × Value)) (edits : List Edit) : Properties :=
  edits.foldl edit (.ofEntries entries)

/-- All that was ever done to properties that were made of entries and changed since. -/
def history (entries : List (String × Value)) (edits : List Edit) : List Edit :=
  entries.map .ofEntry ++ edits

theorem after_eq (entries : List (String × Value)) (edits : List Edit) :
    after entries edits = (history entries edits).foldl edit {} := by
  rw [after, ofEntries, history, List.foldl_append, List.foldl_map]
  rfl

/-! ### Values -/

/-- What a key was given by the last of some changes that concerns it. -/
def last? (edits : List Edit) (key : String) : Option Value :=
  (edits.reverse.find? (·.key = key)).bind Edit.value?

theorem last?_append_singleton (edits : List Edit) (edit : Edit) (key : String) :
    last? (edits ++ [edit]) key = if edit.key = key then edit.value? else last? edits key := by
  rw [last?, List.reverse_append, List.reverse_singleton, List.singleton_append, List.find?_cons]
  by_cases same : edit.key = key <;> simp [same, last?]

theorem get?_delete (properties : Properties) (key other : String) :
    (properties.delete key).get? other = if other = key then none else properties.get? other := by
  by_cases same : other = key
  · subst same
    rw [if_pos rfl, get?_eq_none_iff, keys_delete]
    simp
  · rw [if_neg same]
    cases found : properties.get? other with
    | none =>
      rw [get?_eq_none_iff] at found ⊢
      rw [keys_delete]
      exact fun member => found (List.mem_of_mem_filter member)
    | some value =>
      obtain ⟨before, after, split, _⟩ := List.lookup_eq_some_iff.mp found
      exact get?_of_mem (List.mem_filter.mpr ⟨by simp [split], by simpa using same⟩)

theorem get?_edit (properties : Properties) (change : Edit) (key : String) :
    (properties.edit change).get? key =
      if change.key = key then change.value? else properties.get? key := by
  have turned (k : String) (given kept : Option Value) :
      (if key = k then given else kept) = if k = key then given else kept := by
    simp only [eq_comm]
  cases change with
  | set k value => exact (properties.get?_set k key value).trans (turned k _ _)
  | delete k => exact (properties.get?_delete k key).trans (turned k _ _)

/-- A key has what the last change that concerns it has given it. -/
theorem get?_foldl_edit (edits : List Edit) (key : String) :
    (edits.foldl edit {}).get? key = last? edits key := by
  induction edits using List.reverseRecOn with
  | nil => rfl
  | append_singleton before change ih =>
    rw [List.foldl_append, List.foldl_cons, List.foldl_nil, get?_edit, last?_append_singleton, ih]

theorem has_eq_true_iff {properties : Properties} {key : String} :
    properties.has key = true ↔ key ∈ properties.keys := by
  rw [has, ← not_iff_not, ← get?_eq_none_iff, Option.not_isSome_iff_eq_none]

/-! ### The order of keys -/

/-- A key is there since one of some changes, counted from zero: it is set there, never deleted later,
and wherever it was set earlier it was deleted in between. -/
structure IsThereSince (edits : List Edit) (key : String) (place : Nat) : Prop where
  sets : ∃ value, edits[place]? = some (.set key value)
  stays : ∀ later, place < later → edits[later]? ≠ some (.delete key)
  first : ∀ earlier value, earlier < place → edits[earlier]? = some (.set key value) →
    ∃ between, earlier < between ∧ between < place ∧ edits[between]? = some (.delete key)

variable {edits : List Edit} {change : Edit} {key other : String} {value : Value} {place : Nat}

theorem IsThereSince.lt_length (since : IsThereSince edits key place) : place < edits.length := by
  obtain ⟨value, found⟩ := since.sets
  exact (List.getElem?_eq_some_iff.mp found).1

/-- A key that is set and never deleted later has come in somewhere. -/
theorem exists_isThereSince (found : edits[place]? = some (Edit.set key value))
    (stays : ∀ later, place < later → edits[later]? ≠ some (Edit.delete key)) :
    ∃ since, IsThereSince edits key since := by
  classical
  have somewhere : ∃ place, (∃ value, edits[place]? = some (Edit.set key value)) ∧
      ∀ later, place < later → edits[later]? ≠ some (Edit.delete key) :=
    ⟨place, ⟨value, found⟩, stays⟩
  obtain ⟨⟨value', here⟩, stays'⟩ := Nat.find_spec somewhere
  refine ⟨Nat.find somewhere, ⟨value', here⟩, stays', fun earlier value lower found => ?_⟩
  -- what is set before the first such place is deleted later, but not after that place
  have deleted := Nat.find_min somewhere lower
  simp only [not_and, not_forall, not_not] at deleted
  obtain ⟨between, after, gone⟩ := deleted ⟨value, found⟩
  refine ⟨between, after, ?_, gone⟩
  by_contra beyond
  rcases Nat.lt_or_eq_of_le (Nat.not_lt.mp beyond) with later | same
  · exact stays' between later gone
  · cases gone.symm.trans (same ▸ here)

/-- A key that was there still is after one more change, unless it was deleted. -/
theorem isThereSince_append_of_lt (lower : place < edits.length) :
    IsThereSince (edits ++ [change]) key place ↔
      IsThereSince edits key place ∧ change ≠ .delete key := by
  have old {place : Nat} (lower : place < edits.length) :
      (edits ++ [change])[place]? = edits[place]? := List.getElem?_append_left lower
  have last : (edits ++ [change])[edits.length]? = some change := List.getElem?_concat_length
  constructor
  · intro since
    refine ⟨⟨?_, fun later after gone => ?_, fun earlier value before set => ?_⟩, fun deletes => ?_⟩
    · simpa only [old lower] using since.sets
    · exact since.stays later after ((old (List.getElem?_eq_some_iff.mp gone).1).trans gone)
    · obtain ⟨between, above, below, gone⟩ :=
        since.first earlier value before ((old (Nat.lt_trans before lower)).trans set)
      exact ⟨between, above, below, (old (Nat.lt_trans below lower)).symm.trans gone⟩
    · exact since.stays edits.length lower (deletes ▸ last)
  · rintro ⟨since, keeps⟩
    refine ⟨?_, fun later after gone => ?_, fun earlier value before set => ?_⟩
    · simpa only [old lower] using since.sets
    · have within := (List.getElem?_eq_some_iff.mp gone).1
      rw [List.length_append, List.length_singleton, Nat.lt_succ_iff] at within
      rcases Nat.lt_or_eq_of_le within with inside | rfl
      · exact since.stays later after ((old inside).symm.trans gone)
      · exact keeps (Option.some.inj (last.symm.trans gone))
    · obtain ⟨between, above, below, gone⟩ :=
        since.first earlier value before ((old (Nat.lt_trans before lower)).symm.trans set)
      exact ⟨between, above, below, (old (Nat.lt_trans below lower)).trans gone⟩

/-- The last change brings in a key by setting it where it is not there. -/
theorem isThereSince_append_length :
    IsThereSince (edits ++ [change]) key edits.length ↔
      (∃ value, change = .set key value) ∧ ∀ since, ¬ IsThereSince edits key since := by
  have old {place : Nat} (lower : place < edits.length) :
      (edits ++ [change])[place]? = edits[place]? := List.getElem?_append_left lower
  have last : (edits ++ [change])[edits.length]? = some change := List.getElem?_concat_length
  constructor
  · intro since
    refine ⟨by simpa only [last, Option.some.injEq] using since.sets, fun other present => ?_⟩
    obtain ⟨value, set⟩ := present.sets
    have lower := present.lt_length
    obtain ⟨between, above, below, gone⟩ := since.first other value lower ((old lower).trans set)
    exact present.stays between above ((old below).symm.trans gone)
  · rintro ⟨⟨value, rfl⟩, absent⟩
    refine ⟨⟨value, last⟩, fun later after gone => ?_, fun earlier value before set => ?_⟩
    · have within := (List.getElem?_eq_some_iff.mp gone).1
      rw [List.length_append, List.length_singleton] at within
      omega
    · by_contra kept
      simp only [not_exists, not_and] at kept
      obtain ⟨since, present⟩ := exists_isThereSince ((old before).symm.trans set)
        fun later after gone => kept later after (List.getElem?_eq_some_iff.mp gone).1
          ((old (List.getElem?_eq_some_iff.mp gone).1).trans gone)
      exact absent since present

/-- One more change takes a key away, or brings in one that is not there. -/
theorem isThereSince_append_singleton :
    IsThereSince (edits ++ [change]) key place ↔
      IsThereSince edits key place ∧ change ≠ .delete key ∨
        place = edits.length ∧ (∃ value, change = .set key value) ∧
          ∀ since, ¬ IsThereSince edits key since := by
  rcases Nat.lt_trichotomy place edits.length with lower | rfl | beyond
  · rw [isThereSince_append_of_lt lower, or_iff_left fun here => Nat.ne_of_lt lower here.1]
  · rw [isThereSince_append_length, or_iff_right fun here => Nat.lt_irrefl _ here.1.lt_length]
    exact (and_iff_right rfl).symm
  · refine iff_of_false (fun since => ?_) (fun here => ?_)
    · have within := since.lt_length
      rw [List.length_append, List.length_singleton] at within
      omega
    · rcases here with ⟨since, -⟩ | ⟨rfl, -⟩
      · exact Nat.lt_asymm beyond since.lt_length
      · exact Nat.lt_irrefl _ beyond

/-- Properties have those keys that are there after some changes, in the order in which they came in. -/
structure CameIn (edits : List Edit) (properties : Properties) : Prop where
  mem : ∀ key, key ∈ properties.keys ↔ ∃ since, IsThereSince edits key since
  ordered : properties.keys.Pairwise fun a b => ∀ since later,
    IsThereSince edits a since → IsThereSince edits b later → since < later

namespace CameIn
variable {properties : Properties}

theorem set (came : CameIn edits properties) (key : String) (value : Value) :
    CameIn (edits ++ [.set key value]) (properties.set key value) := by
  have grows {k : String} {since : Nat} : IsThereSince (edits ++ [.set key value]) k since ↔
      IsThereSince edits k since ∨
        since = edits.length ∧ key = k ∧ ∀ since, ¬ IsThereSince edits k since := by
    simp [isThereSince_append_singleton]
  by_cases present : key ∈ properties.keys
  · have same {k : String} {since : Nat} :
        IsThereSince (edits ++ [.set key value]) k since ↔ IsThereSince edits k since := by
      rw [grows, or_iff_left]
      rintro ⟨_, rfl, absent⟩
      obtain ⟨since, here⟩ := (came.mem key).mp present
      exact absent since here
    have keys : (properties.set key value).keys = properties.keys := by
      rw [keys_set, if_pos present]
    constructor
    case mem => simpa only [keys, same] using came.mem
    case ordered => simpa only [keys, same] using came.ordered
  · have none (since : Nat) : ¬ IsThereSince edits key since :=
      fun here => present ((came.mem key).mpr ⟨since, here⟩)
    have new {since : Nat} :
        IsThereSince (edits ++ [.set key value]) key since ↔ since = edits.length := by
      simp [grows, none]
    have others {k : String} (differs : k ≠ key) {since : Nat} :
        IsThereSince (edits ++ [.set key value]) k since ↔ IsThereSince edits k since := by
      simp [grows, Ne.symm differs]
    have apart {k : String} (member : k ∈ properties.keys) : k ≠ key :=
      fun same => present (same ▸ member)
    have keys : (properties.set key value).keys = properties.keys ++ [key] := by
      rw [keys_set, if_neg present]
    constructor
    case mem =>
      intro k
      by_cases same : k = key
      · simp [keys, same, new]
      · simp [keys, same, others same, came.mem]
    case ordered =>
      rw [keys]
      refine List.pairwise_append.mpr ⟨?_, List.pairwise_singleton .., ?_⟩
      · refine came.ordered.imp_of_mem fun first second lower since later => ?_
        rw [others (apart first), others (apart second)]
        exact lower since later
      · intro k member b isNew since later
        rw [List.mem_singleton.mp isNew, others (apart member), new]
        rintro here rfl
        exact here.lt_length

theorem delete (came : CameIn edits properties) (key : String) :
    CameIn (edits ++ [.delete key]) (properties.delete key) := by
  have shrinks {k : String} {since : Nat} : IsThereSince (edits ++ [.delete key]) k since ↔
      k ≠ key ∧ IsThereSince edits k since := by
    simp [isThereSince_append_singleton, eq_comm (a := key), and_comm]
  constructor
  case mem => simp [keys_delete, shrinks, came.mem, and_comm]
  case ordered =>
    simp only [keys_delete, shrinks]
    refine (came.ordered.filter _).imp fun lower since later first second => ?_
    exact lower since later first.2 second.2

end CameIn

theorem cameIn_foldl_edit (edits : List Edit) : CameIn edits (edits.foldl edit {}) := by
  induction edits using List.reverseRecOn with
  | nil =>
    refine ⟨fun key => iff_of_false (by simp) ?_, .nil⟩
    rintro ⟨since, there⟩
    exact absurd there.lt_length (Nat.not_lt_zero since)
  | append_singleton before change ih =>
    rw [List.foldl_append, List.foldl_cons, List.foldl_nil]
    cases change with
    | set key value => exact ih.set key value
    | delete key => exact ih.delete key

end Properties

/-! ### Two parts -/

/-- Properties kept in two parts: the values by their keys, and the keys in their order. -/
structure PropertyTable where
  values : Std.HashMap String Value := {}
  order : List String := []

namespace PropertyTable

/-- The value of a key, if there is one. -/
def get? (table : PropertyTable) (key : String) : Option Value := table.values[key]?

/-- The value of a key, undefined if there is none. -/
def get (table : PropertyTable) (key : String) : Value := (table.get? key).getD .undefined

/-- Sets a key, which comes last if it is new. -/
def set (table : PropertyTable) (key : String) (value : Value) : PropertyTable where
  values := table.values.insert key value
  order := if (table.values[key]?).isNone then table.order ++ [key] else table.order

/-- Deletes a key, and tells whether it was there. -/
def delete (table : PropertyTable) (key : String) : Bool × PropertyTable :=
  if (table.values[key]?).isSome then
    (true, { values := table.values.erase key, order := table.order.filter (· != key) })
  else (false, table)

/-- Whether there is such a key. -/
def has (table : PropertyTable) (key : String) : Bool := table.values.contains key

/-- The keys in their order. -/
def keys (table : PropertyTable) : List String := table.order

/-- The number of properties. -/
def size (table : PropertyTable) : Nat := table.order.length

/-- Whether there are no properties. -/
def isEmpty (table : PropertyTable) : Bool := table.size == 0

/-- Properties set one after the other. -/
def ofEntries (entries : List (String × Value)) : PropertyTable :=
  entries.foldl (fun table entry => table.set entry.1 entry.2) {}

/-- A table after a change. -/
def edit (table : PropertyTable) : Properties.Edit → PropertyTable
  | .set key value => table.set key value
  | .delete key => (table.delete key).2

/-- A table that was made of entries and changed since, one change after the other. -/
def after (entries : List (String × Value)) (edits : List Properties.Edit) : PropertyTable :=
  edits.foldl edit (.ofEntries entries)

/-- A table holds the same as properties do. -/
structure Holds (table : PropertyTable) (properties : Properties) : Prop where
  get? : ∀ key, table.get? key = properties.get? key
  keys : table.keys = properties.keys

namespace Holds
variable {table : PropertyTable} {properties : Properties}

theorem set (holds : table.Holds properties) (key : String) (value : Value) :
    (table.set key value).Holds (properties.set key value) where
  get? other := by
    rw [Properties.get?_set, ← holds.get? other, PropertyTable.get?, PropertyTable.set,
      Std.HashMap.getElem?_insert]
    by_cases same : other = key <;> simp [same, Ne.symm, PropertyTable.get?]
  keys := by
    have there : table.values[key]? = properties.get? key := holds.get? key
    have order : table.order = properties.keys := holds.keys
    rw [Properties.keys_set, PropertyTable.keys, PropertyTable.set, order, there]
    by_cases present : key ∈ properties.keys
    · have some := Properties.get?_eq_none_iff.not.mpr (not_not.mpr present)
      simp [present, Option.isNone_iff_eq_none, some]
    · simp [present, Properties.get?_eq_none_iff.mpr present]

theorem delete (holds : table.Holds properties) (key : String) :
    (table.delete key).1 = properties.has key ∧ (table.delete key).2.Holds (properties.delete key) := by
  have there : table.values[key]? = properties.get? key := holds.get? key
  have order : table.order = properties.keys := holds.keys
  have filtered : (properties.delete key).keys = table.order.filter (· != key) :=
    order ▸ properties.keys_delete key
  unfold PropertyTable.delete Properties.has
  rw [there]
  cases found : properties.get? key with
  | some value =>
    refine ⟨rfl, fun other => ?_, filtered.symm⟩
    rw [Properties.get?_delete, ← holds.get? other]
    by_cases same : other = key
    · simp [PropertyTable.get?, same]
    · simp [PropertyTable.get?, same, Std.HashMap.getElem?_erase, Ne.symm same]
  | none =>
    have absent := Properties.get?_eq_none_iff.mp found
    refine ⟨rfl, fun other => ?_, ?_⟩
    · rw [Properties.get?_delete]
      by_cases same : other = key
      · rw [if_pos same, same]
        exact there.trans found
      · rw [if_neg same]
        exact holds.get? other
    · rw [filtered, List.filter_eq_self.mpr fun other member => ?_]
      · rfl
      · rw [order] at member
        exact bne_iff_ne.mpr fun same => absent (same ▸ member)

theorem edit (holds : table.Holds properties) (change : Properties.Edit) :
    (table.edit change).Holds (properties.edit change) := by
  cases change with
  | set key value => exact holds.set key value
  | delete key => exact (holds.delete key).2

theorem after (entries : List (String × Value)) (edits : List Properties.Edit) :
    (PropertyTable.after entries edits).Holds (.after entries edits) := by
  have changed {table : PropertyTable} {properties : Properties} (holds : table.Holds properties)
      (edits : List Properties.Edit) :
      (edits.foldl PropertyTable.edit table).Holds (edits.foldl Properties.edit properties) := by
    induction edits generalizing table properties with
    | nil => exact holds
    | cons change rest ih => exact ih (holds.edit change)
  have empty : Holds {} {} := ⟨fun key => by simp [PropertyTable.get?], rfl⟩
  refine changed ?_ edits
  have made := changed empty (entries.map .ofEntry)
  rwa [List.foldl_map, List.foldl_map] at made

theorem mem_values (holds : table.Holds properties) {key : String} :
    key ∈ table.values ↔ key ∈ properties.keys := by
  have there : table.values[key]? = properties.get? key := holds.get? key
  rw [← not_iff_not, ← Properties.get?_eq_none_iff, ← there]
  simp

theorem has (holds : table.Holds properties) (key : String) : table.has key = properties.has key := by
  rw [Bool.eq_iff_iff, PropertyTable.has, Std.HashMap.contains_iff_mem, holds.mem_values,
    Properties.has_eq_true_iff]

end Holds

end PropertyTable

namespace Properties

/-- Properties are what a history of changes leaves of an empty object, and a table keeps them in two
parts. -/
structure IsLeftBy (history : List Edit) (properties : Properties) (table : PropertyTable) : Prop where
  /-- No key stands in the order twice, -/
  nodup : table.order.Nodup
  /-- and those that stand there are the keys that have values. -/
  mem_order : ∀ key, key ∈ table.order ↔ key ∈ table.values
  /-- A key has what the last change that concerns it has given it. -/
  get? : ∀ key, properties.get? key = last? history key
  mem_keys : ∀ key, key ∈ properties.keys ↔ ∃ since, IsThereSince history key since
  /-- The keys stand in the order in which they came in. -/
  ordered : properties.keys.Pairwise fun a b => ∀ since later,
    IsThereSince history a since → IsThereSince history b later → since < later
  /-- A key that is overwritten keeps its place. -/
  keys_overwritten : ∀ key value, key ∈ properties.keys →
    (properties.set key value).keys = properties.keys
  /-- A key that is deleted and set again goes to the end. -/
  keys_renewed : ∀ key value, ((properties.delete key).set key value).keys =
    properties.keys.filter (· != key) ++ [key]
  /-- All questions to the table are answered as the properties answer them. -/
  agrees : ∀ key, table.get key = properties.get key ∧ table.has key = properties.has key ∧
    (properties.has key = true ↔ key ∈ properties.keys) ∧
    (table.delete key).1 = properties.has key
  keys_eq : table.keys = properties.keys
  size_eq : table.size = properties.size ∧ properties.size = properties.keys.length
  isEmpty_iff : table.isEmpty = true ↔ properties.keys = []

end Properties

/-- An object is made of entries, and keys of it are set and deleted in any order. What it holds then
is what this history leaves. -/
theorem properties_are_left_by_history (entries : List (String × Value))
    (edits : List Properties.Edit) :
    (Properties.after entries edits).IsLeftBy (Properties.history entries edits)
      (PropertyTable.after entries edits) := by
  have holds := PropertyTable.Holds.after entries edits
  have same := Properties.after_eq entries edits
  obtain ⟨there, ordered⟩ := Properties.cameIn_foldl_edit (Properties.history entries edits)
  rw [← same] at there ordered
  generalize Properties.after entries edits = properties at *
  generalize PropertyTable.after entries edits = table at *
  have order : table.order = properties.keys := holds.keys
  constructor
  case nodup => exact order ▸ properties.nodup
  case mem_order => exact fun key => by rw [order, holds.mem_values]
  case get? => exact fun key => same ▸ Properties.get?_foldl_edit _ key
  case mem_keys => exact there
  case ordered => exact ordered
  case keys_overwritten => exact fun key value present => by rw [Properties.keys_set, if_pos present]
  case keys_renewed =>
    exact fun key value => by rw [Properties.keys_set, Properties.keys_delete, if_neg (by simp)]
  case agrees =>
    exact fun key => ⟨congrArg (Option.getD · _) (holds.get? key), holds.has key,
      Properties.has_eq_true_iff, (holds.delete key).1⟩
  case keys_eq => exact holds.keys
  case size_eq =>
    have sizes : properties.size = properties.keys.length := by simp [Properties.size, Properties.keys]
    exact ⟨(congrArg List.length order).trans sizes.symm, sizes⟩
  case isEmpty_iff => simp [PropertyTable.isEmpty, PropertyTable.size, order]

/-- What is overwritten keeps its place, and what is deleted is gone. -/
example : (Properties.after [] [.set "b" .null, .set "a" .null, .set "b" .undefined]).keys = ["b", "a"] ∧
    (Properties.after [] [.set "b" .null, .set "a" .null, .delete "b"]).keys = ["a"] := by
  decide

end ModuleGraph
