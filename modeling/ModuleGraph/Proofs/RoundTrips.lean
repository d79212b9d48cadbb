import ModuleGraph.Json.Reader
import ModuleGraph.Proofs.Doubles
import ModuleGraph.Proofs.Objects
import ModuleGraph.Proofs.Projections

/-!
Documents that become values and documents again. What is built for a document is a tree of new
objects, so it unfolds into the document, but for arrays, which come back as objects, and for numbers,
which come back as the doubles that they denote. What comes back once comes back unchanged.
-/
namespace ModuleGraph

/-! ### What comes back -/

namespace Json

mutual

/-- What a document comes back as. An array becomes the object of its items under their indices, with
its length under `length`, and a number becomes its double. -/
def returned : Json → Json
  | .null => .null
  | .bool value => .bool value
  | .number value => value.toDouble.toJson
  | .string value => .string value
  | .array items =>
    .ofFields (returnedItems 0 items ++ [("length", (Double.ofInt items.length).toJson)])
  | .object fields => .ofFields (returnedFields fields)

/-- What items come back as, under the indices from a first one on. -/
def returnedItems (index : Nat) : List Json → List (String × Json)
  | [] => []
  | item :: rest => (toString index, returned item) :: returnedItems (index + 1) rest

/-- What fields come back as, under their names. -/
def returnedFields : List (String × Json) → List (String × Json)
  | [] => []
  | (name, document) :: rest => (name, returned document) :: returnedFields rest

end

theorem returnedFields_eq (fields : List (String × Json)) :
    returnedFields fields = fields.map fun field => (field.1, field.2.returned) := by
  induction fields with
  | nil => rfl
  | cons field rest ih => rw [returnedFields, ih, List.map_cons]

mutual

/-- Whether the fields of all objects in the document stand in ascending order of their names. -/
def Ordered : Json → Prop
  | .array items => AllOrdered items
  | .object fields => (fields.map Prod.fst).Pairwise (· < ·) ∧ FieldsOrdered fields
  | .null | .bool _ | .number _ | .string _ => True

/-- Whether the fields of all objects in the documents stand in ascending order of their names. -/
def AllOrdered : List Json → Prop
  | [] => True
  | item :: rest => Ordered item ∧ AllOrdered rest

/-- Whether the fields of all objects in the fields stand in ascending order of their names. -/
def FieldsOrdered : List (String × Json) → Prop
  | [] => True
  | (_, document) :: rest => Ordered document ∧ FieldsOrdered rest

end

mutual

/-- Whether the document is without arrays, and its numbers are integers of a size up to `2 ^ 53`. -/
def IsPlain : Json → Prop
  | .number (.integer value) => value.natAbs ≤ 2 ^ 53
  | .number (.real _) | .array _ => False
  | .object fields => FieldsPlain fields
  | .null | .bool _ | .string _ => True

/-- Whether the fields are without arrays, and their numbers are integers of a size up to `2 ^ 53`. -/
def FieldsPlain : List (String × Json) → Prop
  | [] => True
  | (_, document) :: rest => IsPlain document ∧ FieldsPlain rest

end

end Json

/-! ### Documents that are read -/

namespace Json

theorem fieldsOrdered_iff {fields : List (String × Json)} :
    FieldsOrdered fields ↔ ∀ field ∈ fields, field.2.Ordered := by
  induction fields with
  | nil => simp [FieldsOrdered]
  | cons field rest ih => rw [FieldsOrdered, ih, List.forall_mem_cons]

/-- However its fields were written, an object is ordered if what they hold is. -/
theorem ordered_ofFields {fields : List (String × Json)} (ordered : FieldsOrdered fields) :
    (ofFields fields).Ordered := by
  rw [fieldsOrdered_iff] at ordered
  exact ⟨Sorted.ascending_ofList fields,
    fieldsOrdered_iff.mpr fun field member => ordered field (Sorted.mem_of_mem_ofList member)⟩

/-- Whatever is read is ordered, at each depth of the reader. -/
theorem ordered_of_read (fuel : Nat) :
    (∀ text document rest, document? fuel text = some (document, rest) → document.Ordered) ∧
    (∀ text items rest, itemsAfter? fuel text = some (items, rest) → AllOrdered items) ∧
    ∀ text fields rest, fieldsAfter? fuel text = some (fields, rest) → FieldsOrdered fields := by
  induction fuel with
  | zero => simp [document?, itemsAfter?, fieldsAfter?]
  | succ fuel ih =>
    obtain ⟨document, items, fields⟩ := ih
    refine ⟨fun text read rest ended => ?_, fun text read rest ended => ?_,
      fun text read rest ended => ?_⟩
    · rw [document?] at ended
      split at ended
      case h_1 | h_2 | h_3 => cases ended; trivial
      case h_4 =>
        obtain ⟨_, _, ended⟩ := Option.bind_eq_some_iff.mp ended
        cases ended
        trivial
      case h_5 =>
        split at ended
        · cases ended
          trivial
        · obtain ⟨found, inner, ended⟩ := Option.bind_eq_some_iff.mp ended
          cases ended
          exact items _ _ _ inner
      case h_6 =>
        split at ended
        · cases ended
          exact ⟨.nil, trivial⟩
        · obtain ⟨found, inner, ended⟩ := Option.bind_eq_some_iff.mp ended
          cases ended
          exact ordered_ofFields (fields _ _ _ inner)
      case h_7 =>
        obtain ⟨_, _, ended⟩ := Option.bind_eq_some_iff.mp ended
        cases ended
        trivial
    · rw [itemsAfter?] at ended
      obtain ⟨⟨first, after⟩, here, ended⟩ := Option.bind_eq_some_iff.mp ended
      dsimp only at ended
      split at ended
      · obtain ⟨others, later, ended⟩ := Option.bind_eq_some_iff.mp ended
        cases ended
        exact ⟨document _ _ _ here, items _ _ _ later⟩
      · cases ended
        exact ⟨document _ _ _ here, trivial⟩
      · cases ended
    · rw [fieldsAfter?] at ended
      split at ended
      · obtain ⟨⟨name, after⟩, -, ended⟩ := Option.bind_eq_some_iff.mp ended
        dsimp only at ended
        split at ended
        · obtain ⟨⟨first, after⟩, here, ended⟩ := Option.bind_eq_some_iff.mp ended
          dsimp only at ended
          split at ended
          · obtain ⟨others, later, ended⟩ := Option.bind_eq_some_iff.mp ended
            cases ended
            exact ⟨document _ _ _ here, fields _ _ _ later⟩
          · cases ended
            exact ⟨document _ _ _ here, trivial⟩
          · cases ended
        · cases ended
      · cases ended

/-- Every document of a text has its fields in order. -/
theorem ordered_of_ofText? {text : String} {document : Json} (read : ofText? text = some document) :
    document.Ordered := by
  obtain ⟨⟨whole, rest⟩, found, ended⟩ := Option.bind_eq_some_iff.mp read
  dsimp only at ended
  split at ended
  · cases ended
    exact (ordered_of_read _).1 _ _ _ found
  · cases ended

end Json

/-! ### Numbers -/

namespace Double
variable {d : Double} {i : ℤ} {q : ℚ}

theorem toJson_of_lt (is : d.toInt? = some i) (small : i.natAbs < 2 ^ 63) : d.toJson = .ofInt i := by
  simp only [toJson, is]
  exact if_pos small

theorem toJson_of_le (is : d.toInt? = some i) (large : 2 ^ 63 ≤ i.natAbs) :
    d.toJson = .number (.real d) := by
  simp only [toJson, is]
  exact if_neg (Nat.not_lt.mpr large)

theorem toJson_of_fraction (finite : d.toRat? = some q) (fraction : d.toInt? = none) :
    d.toJson = .number (.real d) := by
  cases d with
  | nan | infinity => cases finite
  | finite => rw [toJson, fraction]

theorem toJson_of_not_finite (infinite : d.toRat? = none) : d.toJson = .null := by
  cases d with
  | nan | infinity => rfl
  | finite => cases infinite

/-- A number in a document comes back as it is. -/
theorem returned_toJson (d : Double) : d.toJson.returned = d.toJson := by
  cases whole : d.toInt? with
  | some i =>
    rcases Nat.lt_or_ge i.natAbs (2 ^ 63) with small | large
    · rw [toJson_of_lt whole small]
      exact toJson_of_lt (toInt?_ofInt whole) small
    · rw [toJson_of_le whole large]
      exact toJson_of_le whole large
  | none =>
    cases finite : d.toRat? with
    | some q =>
      rw [toJson_of_fraction finite whole]
      exact toJson_of_fraction finite whole
    | none => rw [toJson_of_not_finite finite, Json.returned]

end Double

/-! ### Fixed points -/

namespace Json

mutual

/-- A document without arrays comes back unchanged if its numbers are small integers. -/
theorem returned_of_isPlain {document : Json} (ordered : document.Ordered) (plain : document.IsPlain) :
    document.returned = document := by
  cases document with
  | null | bool | string => rfl
  | array => cases plain
  | number value =>
    cases value with
    | real => cases plain
    | integer value =>
      rw [IsPlain] at plain
      exact Double.toJson_of_lt (Double.toInt?_ofInt_of_natAbs_le plain) (by omega)
  | object fields =>
    obtain ⟨ascending, ordered⟩ := ordered
    rw [returned, returnedFields_of_plain ordered plain, ofFields, Sorted.ofList_of_ascending ascending]

theorem returnedFields_of_plain {fields : List (String × Json)} (ordered : FieldsOrdered fields)
    (plain : FieldsPlain fields) : returnedFields fields = fields := by
  cases fields with
  | nil => rfl
  | cons field rest =>
    rw [returnedFields, returned_of_isPlain ordered.1 plain.1, returnedFields_of_plain ordered.2 plain.2]

end

theorem returned_ofFields (fields : List (String × Json)) :
    (ofFields fields).returned = ofFields (fields.map fun field => (field.1, field.2.returned)) := by
  have ascending := Sorted.ascending_ofList (fields.map fun field => (field.1, field.2.returned))
  rw [ofFields, returned, returnedFields_eq, ← Sorted.ofList_map, ofFields, ofFields,
    Sorted.ofList_of_ascending ascending]

end Json

/-- What a value unfolds into comes back unchanged. -/
theorem Value.Unfolds.returned {read : ObjectRef → Properties} {path : List ObjectRef} {value : Value}
    {document : Json} (unfolds : value.Unfolds read path document) : document.returned = document := by
  induction unfolds with
  | number path value => exact value.returned_toJson
  | object new documents each ih =>
    rw [Json.returned_ofFields, List.map_map]
    refine congrArg Json.ofFields (List.map_congr_left fun key present => ?_)
    exact congrArg (Prod.mk key) (ih key present)
  | _ => rfl

/-! ### What is built -/

namespace World

/-- Every object that was there still is, with the properties that it had. -/
def KeepsHeap (w w' : World) : Prop := ∀ ref, LeavesAlone ref w w'

instance : IsPreorder World KeepsHeap where
  refl _ _ := fun there => ⟨there, rfl⟩
  trans _ _ _ first later ref := fun there =>
    ⟨(later ref (first ref there).1).1,
      (later ref (first ref there).1).2.trans (first ref there).2⟩

end World

/-- An object that is made changes no other. -/
theorem World.keepsHeap_push (w : World) (realm : RealmId) (properties : Properties) :
    w.KeepsHeap (w.modifyRealm realm fun r => { r with objects := r.objects.push properties }) :=
  fun ref => .pushObject ref w realm properties

/-- Of entries set one after the other, the last one of a key counts. -/
theorem Properties.get?_ofEntries_eq (entries : List (String × Value)) (key : String) :
    (Properties.ofEntries entries).get? key = entries.reverse.lookup key := by
  have overlaid (properties : Properties) :
      (properties.overlay entries).get? key =
        (entries.reverse.lookup key).or (properties.get? key) := by
    induction entries generalizing properties with
    | nil => rfl
    | cons entry rest ih =>
      obtain ⟨k, v⟩ := entry
      rw [overlay, List.foldl_cons, ← overlay, ih, get?_set, List.reverse_cons, List.lookup_append,
        Option.or_assoc, List.lookup_cons, List.lookup_nil]
      by_cases same : key = k
      · rw [if_pos same, beq_iff_eq.mpr same, Option.some_or]
      · rw [if_neg same, beq_false_of_ne same, Option.none_or]
  exact (overlaid {}).trans Option.or_none

namespace Value
variable {w w' w₀ w₁ : World} {value : Value} {document : Json} {entries : List (String × Value)}
  {fields : List (String × Json)}

/-- A value that was built between two moments stands for a document: it unfolds into the document
from then on, inside of any objects that were not made in between. -/
def StandsFor (w w' : World) (value : Value) (document : Json) : Prop :=
  ∀ (later : World) (path : List ObjectRef), w'.KeepsHeap later →
    (∀ ref ∈ path, w.HasObject ref ∨ ¬ w'.HasObject ref) →
    value.Unfolds later.properties path document

theorem StandsFor.mono (stands : value.StandsFor w w' document) (before : w₀.KeepsHeap w)
    (after : w'.KeepsHeap w₁) : value.StandsFor w₀ w₁ document := by
  intro later path kept outside
  refine stands later path (IsTrans.trans _ _ _ after kept) fun ref inside => ?_
  exact (outside ref inside).imp (fun there => (before ref there).1)
    fun absent there => absent (after ref there).1

/-- Entries stand for fields, one by one and under the same keys. -/
def EntriesStandFor (w w' : World) : List (String × Value) → List (String × Json) → Prop :=
  List.Forall₂ fun entry field => entry.1 = field.1 ∧ entry.2.StandsFor w w' field.2

/-- Under each key there is a value that stands for the field, or neither a value nor a field; of
several the last one counts on both sides. -/
theorem EntriesStandFor.get? (stand : EntriesStandFor w w' entries fields) (key : String) :
    ((Properties.ofEntries entries).get? key = none ∧ Sorted.get? (Sorted.ofList fields) key = none) ∨
      ∃ value document, (Properties.ofEntries entries).get? key = some value ∧
        Sorted.get? (Sorted.ofList fields) key = some document ∧ value.StandsFor w w' document := by
  rw [Properties.get?_ofEntries_eq, Sorted.get?_ofList_eq]
  have reversed := List.rel_reverse stand
  generalize entries.reverse = entries, fields.reverse = fields at reversed
  induction reversed with
  | nil => exact .inl ⟨rfl, rfl⟩
  | @cons entry field entries fields stands _ ih =>
    obtain ⟨k, value⟩ := entry
    obtain ⟨name, document⟩ := field
    obtain ⟨rfl, stands⟩ := stands
    rw [List.lookup_cons, List.lookup_cons]
    by_cases here : key = k
    · rw [beq_iff_eq.mpr here]
      exact .inr ⟨value, document, rfl, rfl, stands⟩
    · rw [beq_false_of_ne here]
      exact ih

/-- The field that counts under a name; null if there is none. -/
def fieldOf (fields : List (String × Json)) (name : String) : Json :=
  (Sorted.get? (Sorted.ofList fields) name).getD .null

theorem EntriesStandFor.get (stand : EntriesStandFor w w' entries fields) {key : String}
    (present : key ∈ (Properties.ofEntries entries).keys) :
    ((Properties.ofEntries entries).get key).StandsFor w w' (fieldOf fields key) := by
  obtain ⟨none, -⟩ | ⟨value, document, found, field, stands⟩ := stand.get? key
  · exact absurd present (Properties.get?_eq_none_iff.mp none)
  · rwa [Properties.get, found, fieldOf, field, Option.getD_some, Option.getD_some]

/-- The object of the fields has the keys of the entries, each with the field that counts. -/
theorem EntriesStandFor.ofFields_eq (stand : EntriesStandFor w w' entries fields) :
    Json.ofFields ((Properties.ofEntries entries).keys.map fun key => (key, fieldOf fields key)) =
      .ofFields fields := by
  refine congrArg Json.object (Sorted.ext (Sorted.ascending_ofList _) (Sorted.ascending_ofList _)
    fun key => ?_)
  have nodup : (((Properties.ofEntries entries).keys.map fun key => (key, fieldOf fields key)).map
      Prod.fst).Nodup := by
    rw [List.map_map]
    exact (List.map_id _).symm ▸ (Properties.ofEntries entries).nodup
  rw [Sorted.get?_ofList nodup, lookup_map_key]
  obtain ⟨none, without⟩ | ⟨value, document, found, field, -⟩ := stand.get? key
  · rw [if_neg (Properties.get?_eq_none_iff.mp none), without]
  · have present : key ∈ (Properties.ofEntries entries).keys := by
      by_contra missing
      rw [Properties.get?_eq_none_iff.mpr missing] at found
      cases found
    rw [if_pos present, fieldOf, field, Option.getD_some]

/-- An object that is made out of such entries stands for the object of the fields. -/
theorem EntriesStandFor.object (stand : EntriesStandFor w w' entries fields) (kept : w.KeepsHeap w')
    (realm : RealmId) :
    (Value.object ⟨realm, (w'.realm realm).objects.size⟩).StandsFor w
      (w'.modifyRealm realm fun r => { r with objects := r.objects.push (.ofEntries entries) })
      (.ofFields fields) := by
  intro later path still outside
  have pushed := w'.keepsHeap_push realm (.ofEntries entries)
  let ref : ObjectRef := ⟨realm, (w'.realm realm).objects.size⟩
  have made : (w'.modifyRealm realm fun r =>
      { r with objects := r.objects.push (.ofEntries entries) }).HasObject ref := by
    simp [World.HasObject, ref]
  have holds : later.properties ref = .ofEntries entries := by
    rw [(still ref made).2]
    simp [World.properties, ref]
  have absent : ¬ w'.HasObject ref := Nat.lt_irrefl _
  have new : ref ∉ path := fun inside =>
    (outside ref inside).elim (fun there => absent (kept ref there).1) fun unmade => unmade made
  -- the entries were built before the object, so none of them leads back to it
  have apart : ∀ other ∈ ref :: path, w.HasObject other ∨ ¬ w'.HasObject other :=
    List.forall_mem_cons.mpr ⟨.inr absent, fun other inside =>
      (outside other inside).imp_right fun unmade there => unmade (pushed other there).1⟩
  have each : ∀ key ∈ (later.properties ref).keys,
      ((later.properties ref).get key).Unfolds later.properties (ref :: path) (fieldOf fields key) := by
    rw [holds]
    exact fun key present =>
      stand.get present later (ref :: path) (IsTrans.trans _ _ _ pushed still) apart
  have unfolds := Unfolds.object new (fieldOf fields) each
  rwa [holds, stand.ofFields_eq] at unfolds

end Value

namespace Script
variable {powers : Powers} {frame : Frame} {w w' : World}

/-- A script comes to an object that it makes. -/
theorem run_newObject (powers : Powers) (frame : Frame) (properties : Properties)
    (next : ObjectRef → Script) (w : World) :
    (newObject properties next).run powers frame w =
      (next ⟨frame.realm, (w.realm frame.realm).objects.size⟩).run powers frame
        (w.modifyRealm frame.realm fun r => { r with objects := r.objects.push properties }) := rfl

/-- Whatever a script goes on to do with the result, it first builds it and touches no object that is
there. -/
def Builds {α : Type} (powers : Powers) (frame : Frame) (build : (α → Script) → Script)
    (stands : World → World → α → Prop) (w : World) : Prop :=
  ∃ result w', (∀ next, (build next).run powers frame w = (next result).run powers frame w') ∧
    w.KeepsHeap w' ∧ stands w w' result

/-- A script that has no need to build anything. -/
theorem builds_at_once {α : Type} {stands : World → World → α → Prop} {result : α}
    (stand : stands w w result) : Builds powers frame (fun next => next result) stands w :=
  ⟨result, w, fun _ => rfl, refl w, stand⟩

/-- Entries are built one after the other, the first one first. -/
theorem Builds.entry {build : (Value → Script) → Script}
    {others : (List (String × Value) → Script) → Script} {document : Json}
    {fields : List (String × Json)} (name : String)
    (first : Builds powers frame build (fun w w' value => value.StandsFor w w' document) w)
    (rest : ∀ w, Builds powers frame others
      (fun w w' entries => Value.EntriesStandFor w w' entries fields) w) :
    Builds powers frame
      (fun next => build fun value => others fun entries => next ((name, value) :: entries))
      (fun w w' entries => Value.EntriesStandFor w w' entries ((name, document) :: fields)) w := by
  obtain ⟨value, w₁, run, kept, stands⟩ := first
  obtain ⟨entries, w₂, run', kept', stand⟩ := rest w₁
  refine ⟨(name, value) :: entries, w₂, fun next => by rw [run, run'], IsTrans.trans _ _ _ kept kept',
    .cons ⟨rfl, stands.mono (refl w) kept'⟩ ?_⟩
  exact stand.imp fun entry field h => ⟨h.1, h.2.mono kept (refl w₂)⟩

/-- One more entry follows that needs not be built. -/
theorem Builds.followed {build : (List (String × Value) → Script) → Script}
    {fields : List (String × Json)} (name : String) {value : Value} {document : Json}
    (built : Builds powers frame build
      (fun w w' entries => Value.EntriesStandFor w w' entries fields) w)
    (stands : ∀ w w', value.StandsFor w w' document) :
    Builds powers frame (fun next => build fun entries => next (entries ++ [(name, value)]))
      (fun w w' entries => Value.EntriesStandFor w w' entries (fields ++ [(name, document)])) w := by
  obtain ⟨entries, w', run, kept, stand⟩ := built
  exact ⟨_, w', fun next => run _, kept, List.rel_append stand (.cons ⟨rfl, stands w w'⟩ .nil)⟩

/-- An object is made once its entries are built. -/
theorem Builds.object {build : (List (String × Value) → Script) → Script}
    {fields : List (String × Json)} (built : Builds powers frame build
      (fun w w' entries => Value.EntriesStandFor w w' entries fields) w) :
    Builds powers frame
      (fun next => build fun entries => newObject (.ofEntries entries) fun ref => next (.object ref))
      (fun w w' (value : Value) => value.StandsFor w w' (.ofFields fields)) w := by
  obtain ⟨entries, w', run, kept, stand⟩ := built
  exact ⟨_, _, fun next => by rw [run, run_newObject],
    IsTrans.trans _ _ _ kept (w'.keepsHeap_push frame.realm _), stand.object kept frame.realm⟩

/-- The value that is built for a document stands for what the document comes back as. -/
theorem builds_ofJson (powers : Powers) (frame : Frame) :
    (∀ (document : Json) (w : World), Builds powers frame (ofJson document)
      (fun w w' value => value.StandsFor w w' document.returned) w) ∧
    (∀ (fields : List (String × Json)) (w : World), Builds powers frame (ofFields fields)
      (fun w w' entries => Value.EntriesStandFor w w' entries (Json.returnedFields fields)) w) ∧
    ∀ (index : Nat) (items : List Json) (w : World), Builds powers frame (ofItems index items)
      (fun w w' entries => Value.EntriesStandFor w w' entries (Json.returnedItems index items)) w := by
  refine Json.returned.mutual_induct
    (fun document => ∀ w, Builds powers frame (ofJson document)
      (fun w w' value => value.StandsFor w w' document.returned) w)
    (fun fields => ∀ w, Builds powers frame (ofFields fields)
      (fun w w' entries => Value.EntriesStandFor w w' entries (Json.returnedFields fields)) w)
    (fun index items => ∀ w, Builds powers frame (ofItems index items)
      (fun w w' entries => Value.EntriesStandFor w w' entries (Json.returnedItems index items)) w)
    ?null ?bool ?number ?string ?array ?object ?noItems ?item ?noFields ?field
  case null => exact fun w => builds_at_once fun _ _ _ _ => .null _
  case bool => exact fun value w => builds_at_once fun _ _ _ _ => .bool _ value
  case number => exact fun number w => builds_at_once fun _ _ _ _ => .number _ _
  case string => exact fun value w => builds_at_once fun _ _ _ _ => .string _ value
  case array =>
    intro items built w
    rw [Json.returned]
    exact ((built w).followed "length" fun _ _ _ _ _ _ => .number _ _).object
  case object => exact fun fields built w => (built w).object
  case noItems => exact fun index w => builds_at_once List.Forall₂.nil
  case item => exact fun index item rest built others w => (built w).entry _ others
  case noFields => exact fun w => builds_at_once List.Forall₂.nil
  case field => exact fun name document rest built others w => (built w).entry name others

end Script

/-! ### There and back -/

namespace World
variable {w : World} {value : Value} {document : Json}

theorem unfolds_toJson (w : World) (value : Value) :
    value.Unfolds w.properties [] (w.toJson value) := by
  rw [toJson_eq]
  refine Value.unfolds_project (fun _ => properties_of_not_mem) _ .nil (List.nil_subset _) ?_
  rw [length_objectRefs]
  exact Nat.lt_succ_self _

theorem toJson_of_unfolds (unfolds : value.Unfolds w.properties [] document) :
    w.toJson value = document :=
  (w.unfolds_toJson value).unique unfolds

end World

/-- A script that builds the value of a document, whatever it goes on to do with it, touches no object
that is there, and the value has another document in the world that it is built in. -/
def Json.ComesBackAs (powers : Powers) (frame : Frame) (w : World) (document result : Json) : Prop :=
  ∃ value w', (∀ next, (Script.ofJson document next).run powers frame w =
      (next value).run powers frame w') ∧ w.KeepsHeap w' ∧ w'.toJson value = result

/-- Every document comes back as itself, but for its arrays and numbers. A number is an integer in what
comes back just where its double is one below `2 ^ 63` in size. So documents without arrays come back
unchanged if their numbers are small integers, and so do the documents of values. -/
theorem json_comes_back (powers : Powers) (frame : Frame) (w : World) :
    (∀ document : Json, document.ComesBackAs powers frame w document.returned) ∧
    (∀ d : Double,
      (∀ i : ℤ, d.toRat? = some (i : ℚ) → i.natAbs < 2 ^ 63 → d.toJson = .ofInt i) ∧
      (∀ q : ℚ, d.toRat? = some q → (∀ i : ℤ, q = i → 2 ^ 63 ≤ i.natAbs) →
        d.toJson = .number (.real d)) ∧
      (d.toRat? = none → d.toJson = .null)) ∧
    (∀ document : Json, document.Ordered → document.IsPlain →
      document.ComesBackAs powers frame w document) ∧
    ∀ value : Value, (w.toJson value).ComesBackAs powers frame w (w.toJson value) := by
  have back (document : Json) : document.ComesBackAs powers frame w document.returned := by
    obtain ⟨value, w', run, kept, stands⟩ := (Script.builds_ofJson powers frame).1 document w
    have unfolds := stands w' [] (refl w') fun _ inside => absurd inside List.not_mem_nil
    exact ⟨value, w', run, kept, World.toJson_of_unfolds unfolds⟩
  have fixed {document : Json} (same : document.returned = document) :
      document.ComesBackAs powers frame w document := by
    have := back document
    rwa [same] at this
  refine ⟨back, fun d => ⟨fun i is small => ?_, fun q is large => ?_, fun infinite => ?_⟩,
    fun document ordered plain => fixed (Json.returned_of_isPlain ordered plain),
    fun value => fixed (w.unfolds_toJson value).returned⟩
  · exact Double.toJson_of_lt (Double.toInt?_eq_some_iff.mpr is) small
  · cases whole : d.toInt? with
    | none => exact Double.toJson_of_fraction is whole
    | some i =>
      have same : q = i := Option.some.inj (is.symm.trans (Double.toInt?_eq_some_iff.mp whole))
      exact Double.toJson_of_le whole (large i same)
  · exact Double.toJson_of_not_finite infinite

/-- The documents of a package come back: the list of its tags is an object afterwards, and its version
is the number that it was. -/
theorem package_comes_back :
    (Json.object [("name", .string "spacey"), ("tags", .array [.string "a", .ofInt 2])]).ComesBackAs
        (Action.apart 0) (.of (.worker 1)) {}
        (.object [("name", .string "spacey"),
          ("tags", .object [("0", .string "a"), ("1", .ofInt 2), ("length", .ofInt 2)])]) ∧
      (Json.object [("name", .string "spacey"), ("version", .ofInt 9007199254740992)]).ComesBackAs
        (Action.apart 0) (.of (.worker 1)) {}
        (.object [("name", .string "spacey"), ("version", .ofInt 9007199254740992)]) := by
  have back := json_comes_back (Action.apart 0) (.of (.worker 1)) {}
  refine ⟨back.1 (.object _), back.2.2.1 (.object _) ?_ ?_⟩
  · exact ⟨by decide, trivial, trivial, trivial⟩
  · have small : Int.natAbs 9007199254740992 ≤ 2 ^ 53 := by decide
    exact ⟨trivial, small, trivial⟩

end ModuleGraph
