import ModuleGraph.Bindings

/-!
Running scripts. What leads out of a script, calls and evaluations, goes through the powers that it
is given; what an embedder computes when a module is instantiated has no power to require or
evaluate.
-/
namespace ModuleGraph

/-- Where a script runs: its realm and the object it takes for the global one. -/
structure Frame where
  realm : RealmId
  global : ObjectRef
  deriving DecidableEq, Repr

namespace Frame

/-- The frame of modules in a realm. -/
def of (realm : RealmId) : Frame := ⟨realm, World.globalOf realm⟩

end Frame

/-- What a script can do beyond its own steps. -/
structure Powers where
  call : Frame → FunctionRef → List Value → Action (Except Exception Value)
  evaluate : RealmId → RecordId → Action Settlement
  read : EnvironmentRef → String → Action Value

namespace Script

/-- Runs a script. -/
def run (powers : Powers) (frame : Frame) : Script → Action (Except Exception Value)
  | .done outcome => pure outcome
  | .newObject properties next => do
    let ref ← Action.newObject frame.realm properties
    run powers frame (next ref)
  | .inspect object next => do
    let world ← get
    run powers frame (next (world.properties object))
  | .setProperty object key value next => do
    Action.modifyObject object (·.set key value)
    run powers frame next
  | .deleteProperty object key next => do
    let had := ((← get).properties object).has key
    Action.modifyObject object (·.delete key)
    run powers frame (next had)
  | .newFunction name code next => do
    let ref ← Action.newFunction frame.realm name (.script code)
    run powers frame (next ref)
  | .call function arguments next => do
    let outcome ← powers.call frame function arguments
    run powers frame (next outcome)
  | .readBinding environment name next => do
    let value ← powers.read environment name
    run powers frame (next value)
  | .writeBinding environment name value next => do
    let refusal ← Action.writeEnvironment environment name value
    run powers frame (next refusal)
  | .isImport environment name next => do
    let environment ← Action.environment environment
    run powers frame (next (environment.imports.lookup name).isSome)
  | .globalObject next => run powers frame (next frame.global)
  | .currentRealm next => run powers frame (next frame.realm)
  | .evaluate record next => do
    let settlement ← powers.evaluate frame.realm record
    run powers frame (next settlement)
  | .announce announcement next => do
    let world ← get
    Action.write (world.eventOf frame.realm announcement)
    run powers frame next
  | .lock next => do
    modify World.lock
    run powers frame next

end Script

namespace Action

/-- The code of a function; a function that does not exist gives undefined. -/
def functionCode (ref : FunctionRef) : Action FunctionCode := do
  match ((← get).realm ref.realm).functions[ref.index]? with
  | some code => pure code
  | none => pure (.script fun _ => .give .undefined)

/-- Calls a function that has no power to require. -/
def callApart : Nat → Frame → FunctionRef → List Value → Action (Except Exception Value)
  | 0, _, _, _ => tooDeep
  | depth + 1, frame, function, arguments => do
    match ← functionCode function with
    | .script code =>
      (code arguments).run ⟨callApart depth, fun _ _ => tooDeep, readEnvironment depth⟩ frame
    | .require _ => tooDeep

/-- The powers of what an embedder computes. -/
def apart (depth : Nat) : Powers := ⟨callApart depth, fun _ _ => tooDeep, readEnvironment depth⟩

/-- Runs a script of the embedder's in a realm, with an object that it takes for the global one. -/
def runApart (depth : Nat) (realm : RealmId) (global : ObjectRef) (script : Script) :
    Action (Except Exception Value) :=
  script.run (apart depth) ⟨realm, global⟩

/-- The value of a script of the embedder's; an exception gives undefined. -/
def valueApart (depth : Nat) (realm : RealmId) (global : ObjectRef) (script : Script) :
    Action Value := do
  match ← runApart depth realm global script with
  | .ok value => pure value
  | .error _ => pure .undefined

end Action
end ModuleGraph
