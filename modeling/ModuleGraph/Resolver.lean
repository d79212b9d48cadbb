import ModuleGraph.Specifier
import ModuleGraph.Text.Utf8
import ModuleGraph.World

/-!
Resolution: from a specifier, or a source that is at hand, to the one record for it. Every outcome
is kept, and a locked resolver gives only those it has kept.
-/
namespace ModuleGraph

/-- What a loader answers; the resolver may find itself locked by then. -/
structure LoadReply where
  locksFirst : Bool := false
  outcome : Except String (List UInt8)

/-- A source as the compiler classifies it. -/
inductive CompiledSource where
  | static (declarations : Declarations) (body : EnvironmentRef → Script)
  | wrapper

/-- What a compiler answers; the resolver may find itself locked by then. -/
structure CompileReply where
  locksFirst : Bool := false
  outcome : Except String CompiledSource

/-- What a compiler answers for a source in wrapper form; the resolver may find itself locked by
then. -/
structure WrapperReply where
  locksFirst : Bool := false
  outcome : Except String Script

/-- What an embedder supplies to a resolver: settings, host modules by name, and ways to load and
compile sources. -/
structure Embedding where
  config : Config := .standard
  hosts : List (String × HostModule) := []
  load : (location : Url) → (specifier : String) → LoadReply
  compile : (source location : String) → CompileReply
  compileWrapper : (source location : String) → WrapperReply

namespace Embedding

/-- Keeps an outcome under a key and answers what is kept there. -/
def keep (key : String) (outcome : Outcome RecordId) : Attempt RecordId := do
  let world ← get
  let (outcome, cache) := world.cache.insert key outcome
  set { world with cache }
  match outcome with
  | .ok id => pure id
  | .error error => throw error

/-- Answers what is kept under a key, or refuses for `refused` if the resolver is locked, or else
computes the outcome and keeps it. -/
def remember (key refused : String) (compute : Attempt RecordId) : Attempt RecordId := do
  let cache := (← get).cache
  match cache.get? key with
  | some (.ok id) => pure id
  | some (.error error) => throw error
  | none =>
    if cache.isLocked then throw (.resolutionLocked refused)
    else
      let outcome ← compute.outcome
      keep key outcome

/-- Locks the resolver if a reply says so. -/
def lockIf (locks : Bool) : Action Unit := if locks then modify World.lock else pure ()

/-- Makes the record of a script and notes its location. -/
def register (location : Url) (record : Record) : Action RecordId := do
  let id ← Action.newRecord record
  modify fun world => { world with locations := world.locations ++ [(id, location)] }
  pure id

/-- The record of a source, by the way in which the source says to be a module. -/
def classify (embedding : Embedding) (location : Url) (source : List UInt8) : Attempt RecordId := do
  let failure (message : String) : ModuleError := .compileFailure location.toText message
  match Text.decode source with
  | .error fault => throw (failure ("source is not valid UTF-8: " ++ fault.message))
  | .ok text =>
    Action.write (.compiled location.toText text)
    let reply := embedding.compile text location.toText
    lockIf reply.locksFirst
    match reply.outcome with
    | .error message => throw (failure message)
    | .ok (.static declarations body) =>
      register location (.static { location, declarations, body, importer := .resolver })
    | .ok .wrapper =>
      Action.write (.wrapped location.toText text)
      let reply := embedding.compileWrapper text location.toText
      lockIf reply.locksFirst
      match reply.outcome with
      | .error message => throw (failure message)
      | .ok program => register location (.wrapper { location, program })

/-- Loads the source at a location and makes its record. -/
def discover (embedding : Embedding) (location : Url) (specifier : String) : Attempt RecordId := do
  Action.write (.loaded location.toText specifier)
  let reply := embedding.load location specifier
  lockIf reply.locksFirst
  match reply.outcome with
  | .error reason => throw (.load location.toText reason)
  | .ok source => embedding.classify location source

/-- Makes the record of a host module. -/
def discoverHost (embedding : Embedding) (specifier : String) : Attempt RecordId :=
  match embedding.hosts.lookup specifier with
  | some content => Action.newRecord (.host { name := specifier, content })
  | none => throw (.unknownHostModule specifier)

/-- Resolves a location that a specifier stands for. -/
def resolveLocation (embedding : Embedding) (location : Url) (specifier : String) :
    Attempt RecordId :=
  remember location.toText specifier (embedding.discover location specifier)

/-- Resolves the name of a host module. -/
def resolveHost (embedding : Embedding) (specifier : String) : Attempt RecordId :=
  remember specifier specifier (embedding.discoverHost specifier)

/-- Resolves a specifier written at a location, or at the base if there is none. -/
def resolve (embedding : Embedding) (referrer? : Option Url) (specifier : String) :
    Attempt RecordId :=
  if embedding.config.isHostSpecifier specifier then embedding.resolveHost specifier
  else
    match canonicalize embedding.config (referrer?.getD embedding.config.base) specifier with
    | .ok location => embedding.resolveLocation location specifier
    | .error error => throw error

/-- The location of a script's record. -/
def locationOf (id : RecordId) : Action (Option Url) := do
  pure ((← get).locations.lookup id)

/-- Resolves a specifier on behalf of a record. -/
def resolveImported (embedding : Embedding) (referrer? : Option RecordId) (specifier : String) :
    Attempt RecordId := do
  if embedding.config.isHostSpecifier specifier then embedding.resolveHost specifier
  else
    match referrer? with
    | none => embedding.resolve none specifier
    | some id =>
      match ← locationOf id with
      | some location => embedding.resolve (some location) specifier
      | none =>
        throw (.defect ("module " ++ (← get).numberText id ++ " importing " ++
          Text.quoted specifier ++ " has no known location"))

/-- The record of a source that is at hand, under its location. -/
def resolveLoaded (embedding : Embedding) (location : Url) (source : List UInt8) :
    Attempt RecordId :=
  remember location.toText location.toText (embedding.classify location source)

/-- Resolves an import for the module that made it, through the resolver if it is still there. -/
def importFor (embedding : Embedding) (importer : Importer) (referrer : RecordId)
    (specifier : String) : Attempt RecordId := do
  let world ← get
  match importer with
  | .resolver =>
    if world.hasResolver then embedding.resolveImported (some referrer) specifier
    else throw (.defect "module resolver dropped while in use")
  | .table =>
    match world.table referrer specifier with
    | some id => pure id
    | none => throw (.unknownHostModule specifier)

end Embedding
end ModuleGraph
