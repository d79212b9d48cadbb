import ModuleGraph.Config.Basic
import ModuleGraph.Config.Toml
import ModuleGraph.Json.Basic

/-!
Settings from a TOML text or from a JSON document. What is not given takes its usual value, and what
no setting is named after is passed over.
-/
namespace ModuleGraph.Config

/-- A location, if the text is one. -/
def url? (text : String) : Option Url := (Url.parse text).toOption

/-- A setting by its name: its reading if it is there, and the usual value if it is not. -/
def setting {α β : Type} (given : Option α) (read : α → Option β) (usual : β) : Option β :=
  match given with
  | some value => read value
  | none => some usual

namespace OfToml

/-- A text. -/
def text? : Toml → Option String
  | .string value => some value
  | _ => none

/-- A list of texts. -/
def texts? : Toml → Option (List String)
  | .array items => items.mapM text?
  | _ => none

/-- A location. -/
def location? (value : Toml) : Option Url := text? value >>= url?

/-- The settings among the entries of a document. -/
def settings? (entries : List (String × Toml)) : Option Config := do
  let base ← setting (entries.lookup "base") location? standard.base
  let hostNamespace ← setting (entries.lookup "host_namespace") text? standard.hostNamespace
  let allowedSchemes ← setting (entries.lookup "allowed_schemes") texts? standard.allowedSchemes
  let stdinLocation ← setting (entries.lookup "stdin_location") location? standard.stdinLocation
  pure { base, hostNamespace, allowedSchemes, stdinLocation }

end OfToml

/-- Settings from a TOML text; their base becomes a directory. -/
def ofToml (source : String) : Except ConfigError Config :=
  match Toml.ofText? source >>= OfToml.settings? with
  | some config => config.settle
  | none => .error .malformed

namespace OfJson

/-- A list of texts. -/
def texts? (value : Json) : Option (List String) := value.items? >>= (·.mapM Json.string?)

/-- A location. -/
def location? (value : Json) : Option Url := value.string? >>= url?

/-- The settings given one by one. -/
def settings? (base hostNamespace allowedSchemes stdinLocation : Option Json) : Option Config := do
  let base ← setting base location? standard.base
  let hostNamespace ← setting hostNamespace Json.string? standard.hostNamespace
  let allowedSchemes ← setting allowedSchemes texts? standard.allowedSchemes
  let stdinLocation ← setting stdinLocation location? standard.stdinLocation
  pure { base, hostNamespace, allowedSchemes, stdinLocation }

end OfJson

/-- Settings from a JSON document: an object, or an array of the first few in their order. The base
is taken as it is. -/
def ofJson (document : Json) : Except ConfigError Config :=
  let config? :=
    match document with
    | .object fields =>
      OfJson.settings? (fields.lookup "base") (fields.lookup "host_namespace")
        (fields.lookup "allowed_schemes") (fields.lookup "stdin_location")
    | .array items =>
      if 4 < items.length then none
      else OfJson.settings? items[0]? items[1]? items[2]? items[3]?
    | _ => none
  match config? with
  | some config => .ok config
  | none => .error .malformed

end ModuleGraph.Config
