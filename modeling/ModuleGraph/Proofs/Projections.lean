import Mathlib.Data.List.Perm.Subperm
import ModuleGraph.World

/-!
Values as documents. A value unfolds into a tree: each object into its properties, wherever it
occurs, unless it occurs in itself, where null stands for it. The tree is finite, since a path into
it comes to no object twice, and the document of a value is this tree.
-/
namespace ModuleGraph

namespace Json

/-- What a document has under names, each one a field of what is under those before it. -/
def at? (document : Json) : List String → Option Json
  | [] => some document
  | name :: rest => (document.field? name).bind (·.at? rest)

/-- A document with null in all its fields. -/
def surface : Json → Json
  | .object fields => .object (fields.map fun field => (field.1, .null))
  | document => document

theorem surface_ofFields (fields : List (String × Json)) :
    (ofFields fields).surface = ofFields (fields.map fun field => (field.1, .null)) := by
  exact congrArg object (Sorted.ofList_map (fun _ : Json => null) fields).symm

/-- A number becomes a number or null, which has no fields. -/
theorem field?_toJson (number : Double) (name : String) : number.toJson.field? name = none := by
  unfold Double.toJson
  split
  · split <;> rfl
  · split <;> rfl

theorem surface_toJson (number : Double) : number.toJson.surface = number.toJson := by
  unfold Double.toJson
  split
  · split <;> rfl
  · split <;> rfl

theorem field?_ofFields {fields : List (String × Json)} (nodup : (fields.map Prod.fst).Nodup)
    (name : String) : (ofFields fields).field? name = fields.lookup name :=
  Sorted.get?_ofList nodup name

end Json

namespace Value
variable {read : ObjectRef → Properties} {path : List ObjectRef} {value : Value}
  {document document' : Json}

/-- A value inside of objects, the innermost first, unfolds into a document. -/
inductive Unfolds (read : ObjectRef → Properties) : List ObjectRef → Value → Json → Prop
  | undefined (path : List ObjectRef) : Unfolds read path .undefined .null
  | null (path : List ObjectRef) : Unfolds read path .null .null
  | bool (path : List ObjectRef) (value : Bool) : Unfolds read path (.bool value) (.bool value)
  | number (path : List ObjectRef) (value : Double) :
      Unfolds read path (.number value) value.toJson
  | string (path : List ObjectRef) (value : String) :
      Unfolds read path (.string value) (.string value)
  | function (path : List ObjectRef) (ref : FunctionRef) : Unfolds read path (.function ref) .null
  | again {path : List ObjectRef} {ref : ObjectRef} (inside : ref ∈ path) :
      Unfolds read path (.object ref) .null
  | object {path : List ObjectRef} {ref : ObjectRef} (new : ref ∉ path)
      (documents : String → Json)
      (each : ∀ key ∈ (read ref).keys,
        Unfolds read (ref :: path) ((read ref).get key) (documents key)) :
      Unfolds read path (.object ref) (.ofFields ((read ref).keys.map fun key => (key, documents key)))

/-- What occurs in the tree of a value under keys, with the objects that it is inside of, the
innermost first. An object inside of itself has nothing under any key. -/
def occurrence? (read : ObjectRef → Properties) (path : List ObjectRef) (value : Value) :
    List String → Option (List ObjectRef × Value)
  | [] => some (path, value)
  | key :: rest =>
    match value with
    | .object ref =>
      if ref ∈ path then none
      else ((read ref).get? key).bind fun inner => inner.occurrence? read (ref :: path) rest
    | _ => none

/-- The document for a value inside of objects, with null for all that the value holds. -/
def surface (read : ObjectRef → Properties) (path : List ObjectRef) : Value → Json
  | .bool value => .bool value
  | .number value => value.toJson
  | .string value => .string value
  | .object ref =>
    if ref ∈ path then .null else .ofFields ((read ref).keys.map fun key => (key, .null))
  | .undefined | .null | .function _ => .null

theorem Unfolds.unique (unfolds : Unfolds read path value document)
    (unfolds' : Unfolds read path value document') : document = document' := by
  induction unfolds generalizing document' with
  | again inside =>
    cases unfolds' with
    | again => rfl
    | object new => exact absurd inside new
  | object new documents each ih =>
    cases unfolds' with
    | again inside => exact absurd inside new
    | object _ documents' each' =>
      congr 1
      exact List.map_congr_left fun key present => by rw [ih key present (each' key present)]
  | _ => cases unfolds'; rfl

/-- A value unfolds as far as it is projected, if no object outside a heap has properties and the
projection goes deeper than there are objects in the heap besides those around the value. -/
theorem unfolds_project {heap : List ObjectRef} (bounded : ∀ ref, ref ∉ heap → read ref = {})
    (depth : Nat) (nodup : path.Nodup) (within : path ⊆ heap)
    (deep : heap.length < depth + path.length) :
    Unfolds read path value (value.project read depth path) := by
  induction depth generalizing path value with
  | zero =>
    have := (nodup.subperm within).length_le
    omega
  | succ depth ih =>
    cases value with
    | undefined => exact .undefined path
    | null => exact .null path
    | bool value => exact .bool path value
    | number value => exact .number path value
    | string value => exact .string path value
    | function ref => exact .function path ref
    | object ref =>
      by_cases inside : ref ∈ path
      · rw [project, if_pos (by simpa using inside)]
        exact .again inside
      · rw [project, if_neg (by simpa using inside), Properties.entries_eq, List.map_map]
        refine .object inside (fun key => ((read ref).get key).project read depth (ref :: path))
          fun key present => ?_
        by_cases there : ref ∈ heap
        · refine ih (List.nodup_cons.mpr ⟨inside, nodup⟩) (List.cons_subset.mpr ⟨there, within⟩) ?_
          rw [List.length_cons]
          omega
        · rw [bounded ref there] at present
          cases present

theorem lookup_map_key (keys : List String) (documents : String → Json) (key : String) :
    (keys.map fun key => (key, documents key)).lookup key =
      if key ∈ keys then some (documents key) else none := by
  induction keys with
  | nil => rfl
  | cons head rest ih =>
    rw [List.map_cons, List.lookup_cons, ih]
    by_cases same : key = head
    · simp [same]
    · simp [same, beq_false_of_ne]

/-- A document has at each place what occurs at this place in the tree of the value. -/
theorem Unfolds.surface_at? (unfolds : Unfolds read path value document) (keys : List String) :
    (document.at? keys).map Json.surface =
      (value.occurrence? read path keys).map fun found => found.2.surface read found.1 := by
  induction unfolds generalizing keys with
  | @object path ref new documents each ih =>
    have nodup : (((read ref).keys.map fun key => (key, documents key)).map Prod.fst).Nodup := by
      rw [List.map_map]
      exact (List.map_id _).symm ▸ (read ref).nodup
    cases keys with
    | nil => simp [Json.at?, occurrence?, surface, new, Json.surface_ofFields, Function.comp_def]
    | cons key rest =>
      rw [Json.at?, Json.field?_ofFields nodup, occurrence?, if_neg new]
      cases found : (read ref).get? key with
      | none =>
        have absent : key ∉ (read ref).keys := Properties.get?_eq_none_iff.mp found
        rw [lookup_map_key, if_neg absent]
        rfl
      | some inner =>
        have present : key ∈ (read ref).keys := by
          by_contra absent
          simp [Properties.get?_eq_none_iff.mpr absent] at found
        have held : (read ref).get key = inner := by rw [Properties.get, found, Option.getD_some]
        rw [lookup_map_key, if_pos present]
        exact held ▸ ih key present rest
  | again inside =>
    cases keys <;> simp [Json.at?, Json.field?, Json.surface, occurrence?, surface, inside]
  | number path value =>
    cases keys <;>
      simp [Json.at?, Json.field?_toJson, Json.surface_toJson, occurrence?, surface]
  | _ => cases keys <;> rfl

end Value

namespace World

/-- All objects. -/
def objectRefs (world : World) : List ObjectRef :=
  world.realms.flatMap fun entry => (List.range entry.2.objects.size).map fun index =>
    ⟨entry.1, index⟩

theorem length_objectRefs (w : World) : w.objectRefs.length = w.objectCount := by
  have counted (realms : List (RealmId × Realm)) (count : Nat) :
      realms.foldl (fun count entry => count + entry.2.objects.size) count =
        count + (realms.map fun entry => entry.2.objects.size).sum := by
    induction realms generalizing count with
    | nil => rfl
    | cons entry rest ih => rw [List.foldl_cons, ih, List.map_cons, List.sum_cons, Nat.add_assoc]
  simp [objectRefs, objectCount, counted, List.length_flatMap]

/-- What is no object has no properties. -/
theorem properties_of_not_mem {w : World} {ref : ObjectRef} (absent : ref ∉ w.objectRefs) :
    w.properties ref = {} := by
  unfold properties World.realm
  cases found : w.realms.lookup ref.realm with
  | none => cases ref with | mk realm index => cases index <;> rfl
  | some realm =>
    have outside : realm.objects.size ≤ ref.index := by
      by_contra inside
      obtain ⟨before, after, split, -⟩ := List.lookup_eq_some_iff.mp found
      refine absent (List.mem_flatMap.mpr ⟨(ref.realm, realm), by simp [split], ?_⟩)
      exact List.mem_map.mpr ⟨ref.index, List.mem_range.mpr (by simpa using inside), rfl⟩
    simp [Array.getD, Nat.not_lt.mpr outside]
    rfl

/-- A value's document is the one that the value unfolds into, which has null in place of an object
just where the object is inside of itself, and has at each place what is there in this tree. No
greater depth than the number of objects is ever reached. -/
theorem toJson_cuts_cycles_alone (w : World) (value : Value) :
    (∀ depth, w.objectCount < depth →
      (value.document w.properties depth).run [] = pure (w.toJson value, [])) ∧
    (∀ document, value.Unfolds w.properties [] document ↔ document = w.toJson value) ∧
    ∀ keys, ((w.toJson value).at? keys).map Json.surface =
      (value.occurrence? w.properties [] keys).map fun found =>
        found.2.surface w.properties found.1 := by
  have unfolds {depth : Nat} (deep : w.objectCount < depth) :
      value.Unfolds w.properties [] (value.project w.properties depth []) :=
    Value.unfolds_project (fun _ => properties_of_not_mem) depth .nil (List.nil_subset _)
      (by simpa [length_objectRefs] using deep)
  have document := w.toJson_eq value ▸ unfolds (Nat.lt_succ_self w.objectCount)
  refine ⟨fun depth deep => ?_, fun other => ⟨fun also => also.unique document, fun same => ?_⟩,
    document.surface_at?⟩
  · rw [Value.run_document, (unfolds deep).unique document]
  · exact same ▸ document

end World
end ModuleGraph
