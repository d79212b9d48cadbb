/-!
What a static module says of itself before it runs: which names it imports from where, which names
it exports, and whether its body waits at the top level.
-/
namespace ModuleGraph

/-- One name that an import statement brings in. -/
inductive Import where
  | default (binding : String)
  | named (imported : String) (renamed : Option String)
  | namespace (binding : String)
  deriving DecidableEq, Repr

/-- The name that an import is bound to. -/
def Import.localName : Import → String
  | .default binding => binding
  | .named imported renamed => renamed.getD imported
  | .namespace binding => binding

/-- An import statement; one without names only asks for the module to run. -/
structure ImportStatement where
  specifier : String
  names : List Import
  deriving DecidableEq, Repr

/-- One export of a module. -/
inductive Export where
  /-- A value bound to `default`. -/
  | default
  | named (binding : String) (renamed : Option String)
  /-- Every name of another module but `default`. -/
  | all (source : String)
  /-- Another module's namespace under a name. -/
  | allAs (name source : String)
  deriving DecidableEq, Repr

/-- The declarations of a static module in source order. -/
structure Declarations where
  imports : List ImportStatement := []
  exports : List Export := []
  hasTopLevelAwait : Bool := false
  deriving DecidableEq, Repr

/-- The elements of a list at their first occurrences. -/
def distinct (items : List String) : List String :=
  items.foldl (fun seen item => if seen.contains item then seen else seen ++ [item]) []

namespace Export

/-- The module that an export takes names from. -/
def source? : Export → Option String
  | .all source => some source
  | .allAs _ source => some source
  | _ => none

/-- The module all of whose names are exported along. -/
def starSource? : Export → Option String
  | .all source => some source
  | _ => none

/-- The one name that an export gives out, unless it is a star. -/
def name? : Export → Option String
  | .default => some "default"
  | .named binding renamed => some (renamed.getD binding)
  | .allAs name _ => some name
  | .all _ => none

/-- The binding that an export gives out under a name. -/
def bindingFor? (name : String) : Export → Option String
  | .default => if name = "default" then some "default" else none
  | .named binding renamed => if renamed.getD binding = name then some binding else none
  | _ => none

/-- The module whose namespace an export gives out under a name. -/
def namespaceFor? (name : String) : Export → Option String
  | .allAs given source => if given = name then some source else none
  | _ => none

end Export

namespace Declarations

/-- The specifiers that imports and exports ask for, each one once. -/
def requestedSpecifiers (declarations : Declarations) : List String :=
  distinct (declarations.imports.map ImportStatement.specifier ++
    declarations.exports.filterMap Export.source?)

/-- The binding behind an exported name, if it is one of the module's own. -/
def localExport? (declarations : Declarations) (name : String) : Option String :=
  declarations.exports.findSome? (Export.bindingFor? name)

/-- The module whose namespace stands behind an exported name. -/
def namespaceExport? (declarations : Declarations) (name : String) : Option String :=
  declarations.exports.findSome? (Export.namespaceFor? name)

/-- The modules all of whose names are exported along. -/
def starSources (declarations : Declarations) : List String :=
  declarations.exports.filterMap Export.starSource?

/-- The names that the module exports itself. -/
def ownNames (declarations : Declarations) : List String :=
  declarations.exports.filterMap Export.name?

end Declarations
end ModuleGraph
