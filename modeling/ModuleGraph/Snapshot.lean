import ModuleGraph.Error
import ModuleGraph.Json.Basic
import ModuleGraph.Value.Properties

/-!
Values as trees. An object unfolds into its properties until it comes back below itself: a snapshot
counts the way back up, and a JSON document has a null there.
-/
namespace ModuleGraph

/-- A value with all that can be reached from it. -/
inductive Snapshot where
  | undefined
  | null
  | bool (value : Bool)
  | number (value : Double)
  | string (value : String)
  | function (name : String)
  | object (entries : List (String × Snapshot))
  /-- The object that many levels up, one for the object that holds this. -/
  | cycle (levels : Nat)
  deriving Inhabited

/-- The place of an object among those around it, the innermost first. -/
def levelsUp? (path : List ObjectRef) (ref : ObjectRef) : Option Nat :=
  match path with
  | [] => none
  | r :: rest => if r = ref then some 1 else (levelsUp? rest ref).map (· + 1)

/-- Unfolds a value at most so many objects deep; `path` holds the objects around it. -/
def Value.unfold (read : ObjectRef → Properties) : Nat → List ObjectRef → Value → Snapshot
  | _, _, .undefined => .undefined
  | _, _, .null => .null
  | _, _, .bool value => .bool value
  | _, _, .number value => .number value
  | _, _, .string value => .string value
  | _, _, .function ref => .function ref.name
  | 0, _, .object _ => .undefined
  | depth + 1, path, .object ref =>
    match levelsUp? path ref with
    | some levels => .cycle levels
    | none =>
      .object ((read ref).entries.map fun entry =>
        (entry.1, Value.unfold read depth (ref :: path) entry.2))

/-- A number as a document has it: an integer where it is one below `2 ^ 63` in size, and null if it
is not finite. -/
def Double.toJson (number : Double) : Json :=
  match number.toInt? with
  | some value =>
    if value.natAbs < Nat.pow 2 63 then .ofInt value else .number (.real number)
  | none =>
    match number with
    | .finite _ _ _ _ => .number (.real number)
    | _ => .null

/-- Projects a value into a document at most so many objects deep. The state holds the objects around
the value, the innermost first: an object is put there before its properties are projected, and
taken away after. -/
def Value.document (read : ObjectRef → Properties) : Nat → Value → StateM (List ObjectRef) Json
  | _, .undefined => pure .null
  | _, .null => pure .null
  | _, .bool value => pure (.bool value)
  | _, .number value => pure value.toJson
  | _, .string value => pure (.string value)
  | _, .function _ => pure .null
  | 0, .object _ => pure .null
  | depth + 1, .object ref => do
    if (← get).contains ref then
      pure .null
    else
      modify (ref :: ·)
      let fields ← (read ref).keys.mapM fun key => do
        pure (key, ← Value.document read depth ((read ref).get key))
      modify List.tail
      pure (.ofFields fields)

/-- The document that a value inside of objects is projected into, the innermost of them first. -/
def Value.project (read : ObjectRef → Properties) : Nat → List ObjectRef → Value → Json
  | _, _, .undefined => .null
  | _, _, .null => .null
  | _, _, .bool value => .bool value
  | _, _, .number value => value.toJson
  | _, _, .string value => .string value
  | _, _, .function _ => .null
  | 0, _, .object _ => .null
  | depth + 1, path, .object ref =>
    if path.contains ref then .null
    else
      .ofFields ((read ref).entries.map fun entry =>
        (entry.1, Value.project read depth (ref :: path) entry.2))

/-- Steps that leave a state as it is leave it so one after the other. -/
theorem run_mapM_of_leaves {σ α β : Type} {state : σ} {step : α → StateM σ β} {result : α → β}
    {items : List α} (leaves : ∀ item ∈ items, (step item).run state = pure (result item, state)) :
    (items.mapM step).run state = pure (items.map result, state) := by
  induction items with
  | nil => rfl
  | cons item rest ih =>
    obtain ⟨first, others⟩ := List.forall_mem_cons.mp leaves
    simp only [List.mapM_cons, StateT.run_bind, first, pure_bind, ih others, StateT.run_pure,
      List.map_cons]

namespace Value

/-- Whatever is added to the objects around is taken off again. -/
theorem run_document (read : ObjectRef → Properties) (depth : Nat) (path : List ObjectRef)
    (value : Value) :
    (value.document read depth).run path = pure (value.project read depth path, path) := by
  induction depth generalizing path value with
  | zero => cases value <;> rfl
  | succ depth ih =>
    cases value with
    | object ref =>
      have field (key : String) :
          (do pure (key, ← document read depth ((read ref).get key)) : StateM _ _).run (ref :: path) =
            pure ((key, ((read ref).get key).project read depth (ref :: path)), ref :: path) := by
        simp only [StateT.run_bind, ih, pure_bind, StateT.run_pure]
      have fields := run_mapM_of_leaves fun key (_ : key ∈ (read ref).keys) => field key
      rw [document, project, Properties.entries_eq, List.map_map, StateT.run_bind, StateT.run_get,
        pure_bind]
      split
      · rfl
      · simp only [StateT.run_bind, StateT.run_modify, pure_bind, fields, StateT.run_pure,
          List.tail_cons, Function.comp_def]
    | _ => rfl
end Value

/-- An error as it is reported: its name, its text, and the thrown value if there is one. -/
structure ErrorReport where
  name : String
  message : String
  thrown : Option Snapshot := none

/-- How an evaluation ended, as it is reported. -/
inductive SettlementReport where
  | fulfilled
  | rejected (error : ErrorReport)
  | pending (location : String)

end ModuleGraph
