import ModuleGraph.Scripted.Modules

/-!
Single scripts and single errors, tried out in a world of their own.
-/
namespace ModuleGraph.Scripted

/-- What a value shows of itself. -/
structure ValueReport where
  snapshot : Snapshot
  display : String
  typeName : String
  isTruthy : Bool
  isUndefined : Bool
  isNull : Bool
  isNullish : Bool
  isObject : Bool
  isFunction : Bool
  text : Option String
  keys : List String
  /-- The values of the properties that were asked for. -/
  properties : List Snapshot
  json : Json
  agreesWithItself : Bool

/-- Reports on a value. -/
def reportValue (world : World) (value : Value) (properties : List String) : ValueReport where
  snapshot := world.snapshot value
  display := value.display
  typeName := value.typeName
  isTruthy := value.isTruthy
  isUndefined := value = .undefined
  isNull := value = .null
  isNullish := value.isNullish
  isObject := value.object?.isSome
  isFunction := value.function?.isSome
  text := value.string?
  keys := world.keys value
  properties := properties.map fun key => world.snapshot (world.property value key)
  json := world.toJson value
  agreesWithItself := value.agrees value

/-- How a script ended. -/
inductive TrialResult where
  | returned (report : ValueReport)
  | thrown (value : Snapshot) (display : String)

/-- Runs a body in a new realm and reports on its value. -/
def tryScript (depth : Nat) (body : List Stmt) (worker : Nat) (properties : List String) :
    Option (TrialResult × Array Event) := do
  let realm := RealmId.worker worker
  let world : World := {}
  match Action.runApart depth realm (World.globalOf realm) (script [] body) world with
  | .ok (.ok value) world => pure (.returned (reportValue world value properties), world.journal)
  | .ok (.error exception) world =>
    pure (.thrown (world.snapshot exception.value) exception.value.display, world.journal)
  | .error _ _ => none

/-- What errors and exceptions make of each other. -/
structure ErrorTrial where
  error : ErrorReport
  isFatal : Bool
  value : Snapshot
  display : String
  cause : Option String
  back : ErrorReport
  backAgrees : Bool
  otherAgrees : Bool

/-- Raises an error, or throws a value in its place, and takes the exception for an error again.
Without another error to compare with, the error is compared with itself. -/
def tryError (depth : Nat) (term : ErrorTerm) (other : Option ErrorTerm) (thrown : Option Expr) :
    Option ErrorTrial := do
  let build : Action (ModuleError × ModuleError × Exception) := do
    let error ← term.build depth
    let compared ← buildError? depth other
    let exception ←
      match thrown with
      | none => pure (Exception.ofError error)
      | some expr =>
        let global ← Action.newObject .embedder {}
        let value ← Action.valueApart depth .embedder global expr.script
        pure { value }
    pure (error, compared.getD error, exception)
  let .ok (error, compared, exception) world := build {} | none
  let back := exception.toError
  pure
    { error := world.reportError error
      isFatal := error.isFatal
      value := world.snapshot exception.value
      display := exception.value.display
      cause := exception.cause.map ModuleError.name
      back := world.reportError back
      backAgrees := back.agrees error
      otherAgrees := compared.agrees error }

/-- A use of a cache whose records are names. -/
inductive CacheStep where
  | insertRecord (key record : String)
  | insertError (key : String) (term : ErrorTerm)
  | get (key : String)
  | contains (key : String)
  | lock
  | info

/-- The answer of a cache. -/
inductive CacheReply where
  | nothing
  | record (name : String)
  | error (report : ErrorReport)
  | flag (value : Bool)
  | info (isLocked : Bool) (keys : List String) (size : Nat)

/-- Reports an outcome. -/
def reportOutcome (world : World) : Outcome String → CacheReply
  | .ok name => .record name
  | .error error => .error (world.reportError error)

/-- Uses a cache once. -/
def useCache (depth : Nat) (cache : Cache String) (step : CacheStep) :
    Action (CacheReply × Cache String) := do
  match step with
  | .insertRecord key name =>
    let (outcome, cache) := cache.insert key (.ok name)
    pure (reportOutcome (← get) outcome, cache)
  | .insertError key term =>
    let error ← term.build depth
    let (outcome, cache) := cache.insert key (.error error)
    pure (reportOutcome (← get) outcome, cache)
  | .get key =>
    match cache.get? key with
    | some outcome => pure (reportOutcome (← get) outcome, cache)
    | none => pure (.nothing, cache)
  | .contains key => pure (.flag (cache.contains key), cache)
  | .lock => pure (.nothing, cache.lock)
  | .info => pure (.info cache.isLocked cache.keys cache.size, cache)

/-- Uses a cache step by step. -/
def useCacheAll (depth : Nat) (cache : Cache String) : List CacheStep → Action (List CacheReply)
  | [] => pure []
  | step :: rest => do
    let (reply, cache) ← useCache depth cache step
    let replies ← useCacheAll depth cache rest
    pure (reply :: replies)

/-- Uses a new cache step by step and gives the answers. -/
def tryCache (depth : Nat) (steps : List CacheStep) : Option (List CacheReply) :=
  match useCacheAll depth {} steps {} with
  | .ok replies _ => some replies
  | .error _ _ => none

end ModuleGraph.Scripted
