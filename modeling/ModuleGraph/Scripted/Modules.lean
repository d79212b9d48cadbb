import ModuleGraph.Evaluation
import ModuleGraph.Scripted.Meaning

/-!
Embeddings whose sources, host modules and records are given as data.
-/
namespace ModuleGraph.Scripted

/-- What is found at a location. -/
inductive SourceShape where
  /-- A program that completes with a wrapper function around a body. -/
  | wrapper (body : List Stmt)
  | static (declarations : Declarations) (body : List Stmt)
  /-- A program for a wrapper that completes with whatever its body returns. -/
  | raw (body : List Stmt)
  /-- A source that is no program. -/
  | broken (message : String)
  /-- A source that compiles, but not as a wrapper. -/
  | half (message : String)
  /-- A source that cannot be loaded. -/
  | unloadable (message : String)

/-- When a source has the resolver locked. -/
inductive LockPoint where
  | load
  | compile
  deriving DecidableEq

/-- A source of an embedding. -/
structure Source where
  shape : SourceShape
  bytes : Option (List UInt8) := none
  lockOn : Option LockPoint := none

/-- The bytes of a source that has none given are those of its location. -/
def bytesOr (bytes : Option (List UInt8)) (location : String) : List UInt8 :=
  bytes.getD (Text.encode location)

/-- The program that completes with a wrapper around a body. -/
def wrapperProgram (body : List Stmt) : Script :=
  .newFunction "wrapper" (fun arguments =>
    let names := ["exports", "module", "require"]
    script (names.zip arguments) body) fun ref => .give (.function ref)

/-- Loads a source. -/
def loadFrom (sources : List (String × Source)) (location : Url) (specifier : String) : LoadReply :=
  match sources.lookup location.toText with
  | none =>
    { outcome := .error ("no module at " ++ location.toText ++ " (" ++ specifier ++ ")") }
  | some source =>
    { locksFirst := source.lockOn = some .load
      outcome :=
        match source.shape with
        | .unloadable message => .error message
        | _ => .ok (bytesOr source.bytes location.toText) }

/-- Compiles a source. -/
def compileFrom (sources : List (String × Source)) (location : String) : CompileReply :=
  match sources.lookup location with
  | none => { outcome := .error ("nothing registered at " ++ location) }
  | some source =>
    { locksFirst := source.lockOn = some .compile
      outcome :=
        match source.shape with
        | .broken message => .error message
        | .static declarations body =>
          .ok (.static declarations fun environment =>
            runBody (.static environment) none body Ending.finish)
        | _ => .ok .wrapper }

/-- Compiles a source as a wrapper. -/
def compileWrapperFrom (sources : List (String × Source)) (location : String) :
    Except String Script :=
  match (sources.lookup location).map Source.shape with
  | some (.half message) => .error message
  | some (.wrapper body) => .ok (wrapperProgram body)
  | some (.raw body) => .ok (script [] body)
  | _ => .ok (wrapperProgram [])

/-- A host module of an embedding. -/
inductive Host where
  | native (named : Option (List (String × Expr))) (default : Option Expr)
  | document (json : Json)
  | value (expr : Expr)

/-- The host module that is described; its expressions are evaluated in a realm of their own. -/
def Host.module : Host → HostModule
  | .native named default =>
    .native
      { named := named.map fun entries => entries.map fun entry => (entry.1, entry.2.script)
        default := default.map Expr.script
        workplace := .own }
  | .document json => .document json
  | .value expr => .value expr.script .own

/-- The embedding of sources and host modules. -/
def embedding (config : Config) (sources : List (String × Source)) (hosts : List (String × Host)) :
    Embedding where
  config := config
  hosts := hosts.map fun entry => (entry.1, entry.2.module)
  load := loadFrom sources
  compile _ location := compileFrom sources location
  compileWrapper _ location := { outcome := compileWrapperFrom sources location }

/-- An error as a description, where a thrown value is an expression. -/
inductive ErrorTerm where
  | plain (error : ModuleError)
  | rejected (expr : Expr)

/-- The error that a description stands for. -/
def ErrorTerm.build (depth : Nat) (term : ErrorTerm) : Action ModuleError :=
  match term with
  | .plain error => pure error
  | .rejected expr => do
    let global ← Action.newObject .embedder {}
    .evaluationRejected <$> Action.valueApart depth .embedder global expr.script

/-- The errors that optional descriptions stand for. -/
def buildError? (depth : Nat) : Option ErrorTerm → Action (Option ModuleError)
  | none => pure none
  | some term => some <$> term.build depth

/-- A module of the embedder's own making, with what it does as data. -/
structure CustomNode where
  requires : List String := []
  linkError : Option ErrorTerm := none
  instantiateError : Option ErrorTerm := none
  failure : Option ErrorTerm := none
  hasTopLevelAwait : Bool := false
  isCyclic : Bool := true
  names : Option (List String) := none
  values : List (String × Expr) := []
  /-- The records that its body evaluates. -/
  evaluates : List String := []

/-- A record that the embedder makes. -/
inductive Node where
  | static (declarations : Declarations) (body : List Stmt)
  | custom (node : CustomNode)

/-- Ends with an error if there is one. -/
def endWith (error? : Option ModuleError) : Script :=
  match error? with
  | some error => .raise (.ofError error)
  | none => .give .undefined

/-- Evaluates records one after the other and has each outcome written down. -/
def evaluateEach (last : Script) : List (String × RecordId) → Script
  | [] => last
  | (name, id) :: rest =>
    .evaluate id fun settlement =>
      .announce (.settled name settlement) (evaluateEach last rest)

/-- The record of a node. -/
def Node.record (depth : Nat) (ids : List (String × RecordId)) (name : String) (node : Node) :
    Action Record := do
  match node with
  | .static declarations body =>
    let location :=
      match Url.parse ("file:///nodes/" ++ name) with
      | .ok url => url
      | .error _ => Url.fileUrl "" ['/']
    pure (.static {
      location
      declarations
      body := fun environment => runBody (.static environment) none body Ending.finish
      importer := .table })
  | .custom node =>
    let linkError ← buildError? depth node.linkError
    let instantiateError ← buildError? depth node.instantiateError
    let failure ← buildError? depth node.failure
    let evaluated := node.evaluates.filterMap fun other => (ids.lookup other).map (other, ·)
    let body := evaluateEach (endWith failure) evaluated
    pure (.custom {
      requested := node.requires.filterMap (ids.lookup ·)
      link := match linkError with
        | some error => .error error
        | none => .ok ()
      instantiation := .announce (.happened "instantiate" name false) (endWith instantiateError)
      body := .announce (.happened "execute" name false) body
      hasTopLevelAwait := node.hasTopLevelAwait
      isCyclic := node.isCyclic
      names := node.names
      bindings := node.values.map fun entry => (entry.1, entry.2.script)
      workplace := .own })

/-- Makes the records of nodes, in order. -/
def makeNodes (depth : Nat) (ids : List (String × RecordId)) : List (String × Node) → Action Unit
  | [] => pure ()
  | (name, node) :: rest => do
    discard (Action.newRecord (← node.record depth ids name))
    makeNodes depth ids rest

/-- The records that nodes will be, by name; the last node of a name counts. -/
def nodeIds (nodes : List (String × Node)) : List (String × RecordId) :=
  (nodes.mapIdx fun index entry => (entry.1, (⟨index⟩ : RecordId))).reverse

end ModuleGraph.Scripted
