import ModuleGraph.Instantiation
import ModuleGraph.Linking

/-!
Evaluation of module graphs. A walk goes depth first through the requested modules and keeps the
modules of open components on its stack. A module whose component has no member below it on the
stack closes that component. Requiring a module from a running body begins a walk of its own, for
which modules of the walks around it count as scheduled.
-/
namespace ModuleGraph

/-- Why a walk ends early. -/
inductive Interrupt where
  | thrown (error : ModuleError)
  | suspended (location : String)
  deriving DecidableEq

/-- A step of a walk. -/
abbrev Walking := ExceptT Interrupt Action

/-- An attempt as a step of a walk. -/
def Attempt.walking {α : Type} (attempt : Attempt α) : Walking α := attempt.adapt .thrown

/-- What can be done with so much depth left: to call functions, to evaluate graphs, and to visit a
module in the innermost walk. -/
structure Engine where
  depth : Nat
  call : Frame → FunctionRef → List Value → Action (Except Exception Value)
  evaluate : RealmId → RecordId → Action Settlement
  visit : RealmId → RecordId → Nat → Walking Nat

namespace Engine

/-- The engine that has no depth left. -/
def exhausted : Engine where
  depth := 0
  call _ _ _ := Action.tooDeep
  evaluate _ _ := Action.tooDeep
  visit _ _ _ := ExceptT.mk Action.tooDeep

/-- What the bodies of modules can do. -/
def powers (engine : Engine) : Powers where
  call := engine.call
  evaluate := engine.evaluate
  read := Action.readEnvironment engine.depth

/-! ### Executing an instance -/

/-- The slot of a record that has to have one. -/
def slotOf (realm : RealmId) (id : RecordId) : Attempt Slot := do
  let world ← get
  match (world.realm realm).slot? id with
  | some slot => pure slot
  | none => throw (.defect ("module " ++ world.numberText id ++ " was not instantiated"))

/-- Runs the body of a module of the embedder's or of a static module. -/
def runBody (engine : Engine) (realm : RealmId) (body : Script) : Attempt Value := do
  match ← body.run engine.powers (.of realm) with
  | .ok value => pure value
  | .error exception => throw exception.toError

/-- The property that marks exports as those of a static module. -/
def marker : String := "__esModule"

/-- Runs a wrapper-style module: its program gives a function, which is called with `exports`,
`module` and `require`. What the module exports in the end is what `module` holds then. -/
def runWrapper (engine : Engine) (realm : RealmId) (id : RecordId) (module : WrapperModule)
    (instanceIndex : Nat) : Attempt Unit := do
  let modifyInstance (change : Instance → Instance) : Action Unit :=
    modify (·.modifyRealm realm (·.modifyInstance instanceIndex change))
  match ← engine.runBody realm module.program with
  | .function wrapper =>
    let location := module.location.toText
    let exports ← Action.newObject realm {}
    let descriptor ← Action.newObject realm
      (.ofEntries [("exports", .object exports), ("id", .string location)])
    modifyInstance (.setExports (.object exports))
    let require ← Action.newFunction realm "require" (.require id)
    let arguments := [.object exports, .object descriptor, .function require]
    match ← engine.call (.of realm) wrapper arguments with
    | .error exception => throw exception.toError
    | .ok _ =>
      let final := ((← get).properties descriptor).get "exports"
      if final.isNullish then throw (.invalidExports location)
      else
        modifyInstance (.setExports final)
        let keys := (← get).keys final
        Action.publishNames engine.depth id keys
        let isMarked := ((← get).property final marker).isTruthy
        modifyInstance (.setMarked isMarked)
  | _ => throw (.defect (module.location.toText ++ " is not wrapped in a function"))

/-- Does what a record's body does in an instance. Host modules have no body. -/
def runInstance (engine : Engine) (realm : RealmId) (id : RecordId) (instanceIndex : Nat) :
    Record → Attempt Unit
  | .static module => discard (engine.runBody realm (module.body ⟨realm, instanceIndex⟩))
  | .wrapper module => engine.runWrapper realm id module instanceIndex
  | .host _ => pure ()
  | .custom module => discard (engine.runBody realm module.body)

/-- Runs the body of a module in a realm. -/
def execute (engine : Engine) (realm : RealmId) (id : RecordId) : Attempt Unit := do
  let slot ← slotOf realm id
  let world ← get
  Action.write (.began realm id (world.moment realm))
  engine.runInstance realm id slot.instanceIndex (world.record id)

/-! ### Walks -/

/-- Changes the slot of a record. -/
def modifySlot (realm : RealmId) (id : RecordId) (change : Slot → Slot) : Action Unit :=
  modify (·.modifyRealm realm (·.modifySlot id change))

/-- Changes the slot of a record and gives it a status. -/
def moveSlot (realm : RealmId) (id : RecordId) (status : InstanceStatus) (change : Slot → Slot) :
    Action Unit :=
  modify (·.moveSlot realm id status change)

/-- Changes the innermost walk. -/
def modifyWalk (realm : RealmId) (change : Walk → Walk) : Action Unit :=
  modify (·.modifyRealm realm (·.modifyWalk change))

/-- Goes on with the outcome that an evaluated module has kept. -/
def outcomeOf (slot : Slot) (index : Nat) : Walking Nat :=
  match slot.error with
  | some error => throw (.thrown error)
  | none => pure index

/-- Runs the body of a module that the innermost walk has reached. -/
def executeInWalk (engine : Engine) (realm : RealmId) (id : RecordId) : Attempt Unit := do
  modifyWalk realm ({ · with running := some id })
  let outcome ← (engine.execute realm id).outcome
  modifyWalk realm ({ · with running := none })
  match outcome with
  | .ok () => Action.write (.ended realm id none)
  | .error error =>
    Action.write (.ended realm id (some error))
    throw error

/-- Visits a module that takes no part in cycles: it runs by itself, once. -/
def visitPlain (engine : Engine) (realm : RealmId) (id : RecordId) (index : Nat) : Walking Nat := do
  let slot ← (slotOf realm id).walking
  match slot.status with
  | .instantiated =>
    let outcome ← (engine.executeInWalk realm id).outcome.walking
    let error := match outcome with
      | .ok () => none
      | .error error => some error
    moveSlot realm id .evaluated ({ · with error })
    outcomeOf (← (slotOf realm id).walking) index
  | _ => outcomeOf slot index

/-- Opens a module: it is evaluating, numbered in the order of the walk, and on top of the stack. -/
def enter (realm : RealmId) (id : RecordId) (index : Nat) : Action Unit := do
  moveSlot realm id .evaluating ({ · with index, ancestor := index })
  modifyWalk realm fun walk =>
    { walk with stack := id :: walk.stack, opened := id :: walk.opened }

/-- Takes a requested module's ancestor for one's own if it is lower, when the module takes part in
cycles and is still open in this walk. -/
def lowerAncestor (realm : RealmId) (id required : RecordId) : Attempt Unit := do
  if ((← get).record required).isCyclic then
    let slot ← slotOf realm required
    if slot.status = .evaluating ∧ required ∈ ((← get).realm realm).stack then
      modifySlot realm id fun own => { own with ancestor := min own.ancestor slot.ancestor }
    else pure ()
  else pure ()

/-- Visits the modules that a module requests, in order. -/
def visitAll (engine : Engine) (realm : RealmId) (id : RecordId) :
    List RecordId → Nat → Walking Nat
  | [], index => pure index
  | required :: rest, index => do
    let index ← engine.visit realm required index
    (lowerAncestor realm id required).walking
    visitAll engine realm id rest index

/-- Closes a component: the modules on the stack down to its first one have been evaluated. Answers
them. -/
def closeDownTo (realm : RealmId) (id : RecordId) : List RecordId → Attempt (List RecordId)
  | [] => throw (.defect "evaluation stack underflow")
  | top :: rest => do
    modifyWalk realm ({ · with stack := rest })
    discard (slotOf realm top)
    moveSlot realm top .evaluated fun slot => slot
    if top = id then pure [top]
    else
      let others ← closeDownTo realm id rest
      pure (top :: others)

/-- Closes the component of a module if no member of it is lower on the stack. -/
def closeComponent (realm : RealmId) (id : RecordId) : Attempt Unit := do
  let slot ← slotOf realm id
  if slot.ancestor = slot.index then
    let modules ← closeDownTo realm id ((← get).realm realm).stack
    Action.write (.closed realm modules ((← get).moment realm))
  else pure ()

/-- Visits a module that was not evaluated yet: first all that it requests, then its own body. -/
def visitNew (engine : Engine) (realm : RealmId) (id : RecordId) (index : Nat) : Walking Nat := do
  enter realm id index
  let requested := ((← get).record id).requested
  let index ← engine.visitAll realm id requested (index + 1)
  let world ← get
  if (world.record id).hasTopLevelAwait then throw (.suspended (world.describe id))
  else
    (engine.executeInWalk realm id).walking
    (closeComponent realm id).walking
    pure index

/-- Visits a module, with the number for the next one opened. A module that is evaluating, in this
walk or around it, is not visited again. -/
def visitFrom (engine : Engine) (realm : RealmId) (id : RecordId) (index : Nat) : Walking Nat := do
  (Action.instantiate engine.depth realm id).walking
  if ((← get).record id).isCyclic then
    let slot ← (slotOf realm id).walking
    match slot.status with
    | .evaluated => outcomeOf slot index
    | .evaluating => pure index
    | .instantiated => engine.visitNew realm id index
  else engine.visitPlain realm id index

/-- Gives up the open modules of the innermost walk: each has been evaluated and keeps the error. -/
def abandon (realm : RealmId) (error : ModuleError) : List RecordId → Action Unit
  | [] => pure ()
  | id :: rest => do
    modifyWalk realm ({ · with stack := rest })
    moveSlot realm id .evaluated ({ · with error := some error })
    abandon realm error rest

/-- The error that the modules of an interrupted walk keep. -/
def Interrupt.error : Interrupt → ModuleError
  | .thrown error => error
  | .suspended location => .unsupportedTopLevelSuspension location

/-- Ends a walk: an interrupted one gives up its open modules. Answers those that a walk which came
to its end has left open. -/
def conclude (realm : RealmId) (outcome : Except Interrupt Nat) :
    Action (Except Interrupt (List RecordId)) := do
  let left := ((← get).realm realm).stack
  match outcome with
  | .ok _ => pure (.ok left)
  | .error interrupt =>
    abandon realm (Interrupt.error interrupt) left
    pure (.error interrupt)

/-- Evaluates a graph of instances in a walk of its own. Answers the modules that are left open, of
which there are none. -/
def walk (engine : Engine) (realm : RealmId) (root : RecordId) :
    Action (Except Interrupt (List RecordId)) := do
  modify (·.modifyRealm realm fun r => { r with walks := { root } :: r.walks })
  let outcome ← conclude realm (← (engine.visit realm root 0).run)
  modify (·.modifyRealm realm fun r => { r with walks := r.walks.tail })
  pure outcome

/-- Evaluates the graph of a record that was linked. -/
def evaluateFrom (engine : Engine) (realm : RealmId) (root : RecordId) : Action Settlement := do
  match ← (Action.instantiateGraph engine.depth realm root).run with
  | .error error => pure (.rejected error)
  | .ok () =>
    match ← engine.walk realm root with
    | .ok [] => pure .fulfilled
    | .ok left =>
      let text := toString left.length ++ " modules left on the evaluation stack"
      pure (.rejected (.defect text))
    | .error (.thrown error) => pure (.rejected error)
    | .error (.suspended location) => pure (.pending location)

/-- Evaluates a record for a running body and gives the value that it exports. -/
def requireFrom (embedding : Embedding) (engine : Engine) (realm : RealmId) (id : RecordId) :
    Attempt Value := do
  embedding.link engine.depth id
  Action.instantiateGraph engine.depth realm id
  match ← engine.walk realm id with
  | .error interrupt => throw (Interrupt.error interrupt)
  | .ok _ =>
    discard (slotOf realm id)
    Action.exportsValue engine.depth realm id

/-- What the `require` function of a module does. -/
def requireCall (embedding : Embedding) (engine : Engine) (realm : RealmId) (referrer : RecordId)
    (arguments : List Value) : Action (Except Exception Value) := do
  match arguments.head? with
  | some (.string specifier) =>
    let required : Attempt Value := do
      let id ← embedding.importFor .resolver referrer specifier
      requireFrom embedding engine realm id
    match ← required.run with
    | .ok value => pure (.ok value)
    | .error error => pure (.error (.ofError error))
  | _ => pure (.error (.typeError "the module specifier must be a string"))

/-- Calls a function. -/
def callFrom (embedding : Embedding) (engine : Engine) (frame : Frame) (function : FunctionRef)
    (arguments : List Value) : Action (Except Exception Value) := do
  match ← Action.functionCode function with
  | .script code => (code arguments).run engine.powers frame
  | .require referrer => requireCall embedding engine frame.realm referrer arguments

/-- The engine that goes one level deeper than another. -/
def next (embedding : Embedding) (engine : Engine) : Engine where
  depth := engine.depth + 1
  call := callFrom embedding engine
  evaluate := engine.evaluateFrom
  visit := engine.visitFrom

/-- The engine of a depth. -/
def ofDepth (embedding : Embedding) : Nat → Engine
  | 0 => exhausted
  | depth + 1 => (ofDepth embedding depth).next embedding

@[simp] theorem depth_ofDepth (embedding : Embedding) (depth : Nat) :
    (ofDepth embedding depth).depth = depth := by
  induction depth with
  | zero => rfl
  | succ depth ih => simp [ofDepth, next, ih]

end Engine
end ModuleGraph
