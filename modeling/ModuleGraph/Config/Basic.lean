import ModuleGraph.Text.Quoted
import ModuleGraph.Url.Reader

/-!
What an embedder settles about resolution: where relative specifiers start, how host modules are
named, and which schemes modules come from.
-/
namespace ModuleGraph

/-- The settings of a resolver. -/
structure Config where
  /-- Where relative specifiers start when no module wrote them. -/
  base : Url
  /-- The name of host modules; further ones follow it after a colon. -/
  hostNamespace : String
  /-- Schemes that modules may be loaded from. -/
  allowedSchemes : List String
  /-- The location of a script that was read from standard input. -/
  stdinLocation : Url
  deriving DecidableEq, Repr

/-- Why settings are refused. -/
inductive ConfigError where
  /-- The text or document does not give settings. -/
  | malformed
  /-- Nothing can be relative to the base. -/
  | opaqueBase (base : Url)
  deriving DecidableEq, Repr

/-- The text of a refused base; a malformed text has none of its own. -/
def ConfigError.message? : ConfigError → Option String
  | .malformed => none
  | .opaqueBase base => some ("invalid base location " ++ Text.quoted base.toText)

namespace Config

/-- The settings that go without saying. -/
def standard : Config where
  base := Url.fileUrl "" ['/']
  hostNamespace := "host"
  allowedSchemes := ["file", "https"]
  stdinLocation := Url.fileUrl "" ['/', '-']

instance : Inhabited Config := ⟨standard⟩

/-- The usual settings with another base, which becomes a directory. -/
def withBase (base : Url) : Config := { standard with base := base.asDirectory }

/-- Settings whose base is to be a directory. -/
def settle (config : Config) : Except ConfigError Config :=
  if config.base.isOpaque then .error (.opaqueBase config.base)
  else .ok { config with base := config.base.asDirectory }

/-- Whether a specifier names a host module. -/
def isHostSpecifier (config : Config) (specifier : String) : Bool :=
  specifier == config.hostNamespace || specifier.startsWith (config.hostNamespace ++ ":")

/-- Whether modules may be loaded from a location. -/
def isAllowedScheme (config : Config) (url : Url) : Bool :=
  config.allowedSchemes.contains url.scheme

end Config
end ModuleGraph
