import ModuleGraph.Declarations
import ModuleGraph.NameMemo.Basic
import ModuleGraph.Script
import ModuleGraph.Url.Basic

/-!
Module records: what is known of a module once and for all workers. There are static and
wrapper-style scripts, host modules, and modules that an embedder makes by other means.
-/
namespace ModuleGraph

/-- The shape of a module. -/
inductive ModuleKind where
  | native
  | legacy
  | wrapper
  | static
  deriving DecidableEq, Repr

/-- Someone who waits for exported names: to pass them on, or to ask a static module again whose own
names were not complete without them. -/
inductive Watcher where
  | report (tag : Json)
  | reask (record : RecordId) (andThen : Watcher)

/-- Whom a module asks for what it imports: the resolver, or a table of the embedder's. -/
inductive Importer where
  | resolver
  | table
  deriving DecidableEq, Repr

/-- How far the linking of a static module has come. -/
inductive LinkStatus where
  | unlinked
  | linking
  | linked
  | failed (error : ModuleError)
  deriving DecidableEq

/-- A script with static imports and exports. -/
structure StaticModule where
  location : Url
  declarations : Declarations
  body : EnvironmentRef → Script
  importer : Importer
  status : LinkStatus := .unlinked
  /-- The records behind the requested specifiers, in the order of the requests. -/
  requested : List (String × RecordId) := []

/-- A script that completes with a function of `exports`, `module` and `require`. -/
structure WrapperModule where
  location : Url
  program : Script
  names : NameMemo Watcher := {}

/-- Where an embedder's code works when it makes what a module gives in a realm: in this realm, or in
one that it sets up for this, with a global object of its own. -/
inductive Workplace where
  | given
  | own
  deriving DecidableEq, Repr

/-- The exports of a native host module, computed anew in every realm. -/
structure NativeExports where
  named : Option (List (String × Script)) := none
  default : Option Script := none
  workplace : Workplace := .given

/-- What a host module gives. -/
inductive HostModule where
  /-- Declared exports. -/
  | native (exports : NativeExports)
  /-- A document whose fields are the exports. -/
  | document (json : Json)
  /-- A value whose properties are the exports, computed anew in every realm. -/
  | value (script : Script) (workplace : Workplace)

/-- A host module under its name. -/
structure HostRecord where
  name : String
  content : HostModule
  names : NameMemo Watcher := {}

/-- A module made by an embedder. It links and is instantiated and run as it says. -/
structure CustomModule where
  requested : List RecordId := []
  link : Except ModuleError Unit := .ok ()
  instantiation : Script := .give .undefined
  body : Script := .give .undefined
  hasTopLevelAwait : Bool := false
  isCyclic : Bool := true
  names : Option (List String) := none
  bindings : List (String × Script) := []
  workplace : Workplace := .given

/-- A module record. -/
inductive Record where
  | static (module : StaticModule)
  | wrapper (module : WrapperModule)
  | host (module : HostRecord)
  | custom (module : CustomModule)

namespace Record

instance : Inhabited Record := ⟨.custom {}⟩

/-- The shape of the module. -/
def kind : Record → ModuleKind
  | .static _ => .static
  | .wrapper _ => .wrapper
  | .host module =>
    match module.content with
    | .native _ => .native
    | _ => .legacy
  | .custom _ => .native

/-- The location of a script. -/
def location? : Record → Option Url
  | .static module => some module.location
  | .wrapper module => some module.location
  | _ => none

/-- The records to be evaluated before this one, in the order of the requests. -/
def requested : Record → List RecordId
  | .static module => module.requested.map Prod.snd
  | .custom module => module.requested
  | _ => []

/-- Whether the record takes part in cycles, so that its evaluation is a walk. -/
def isCyclic : Record → Bool
  | .custom module => module.isCyclic
  | _ => true

/-- Whether the body would have to wait at its top level. -/
def hasTopLevelAwait : Record → Bool
  | .static module => module.declarations.hasTopLevelAwait
  | .custom module => module.hasTopLevelAwait
  | _ => false

/-- The static module, if the record is one. -/
def static? : Record → Option StaticModule
  | .static module => some module
  | _ => none

/-- The exported names of a module that is not static, if they are known. -/
def settledNames? : Record → Option (List String)
  | .static _ => none
  | .wrapper module => module.names.names?
  | .host module => module.names.names?
  | .custom module => module.names

/-- The memo of the exported names, for those modules that have one. -/
def memo? : Record → Option (NameMemo Watcher)
  | .wrapper module => some module.names
  | .host module => some module.names
  | _ => none

/-- The record with another memo. -/
def withMemo (record : Record) (memo : NameMemo Watcher) : Record :=
  match record with
  | .wrapper module => .wrapper { module with names := memo }
  | .host module => .host { module with names := memo }
  | record => record

end Record
end ModuleGraph
