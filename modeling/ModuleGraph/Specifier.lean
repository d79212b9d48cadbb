import ModuleGraph.Config.Basic
import ModuleGraph.Error

/-!
From a specifier, as a module wrote it, to the one location it stands for.
-/
namespace ModuleGraph

/-- The location of a specifier written at `referrer`. Relative ones are joined to it, and absolute
ones need an allowed scheme; what came over the network never leads to a local file. -/
def canonicalize (config : Config) (referrer : Url) (specifier : String) :
    Except ModuleError Url :=
  let invalid (reason : String) : Except ModuleError Url :=
    .error (.invalidSpecifier specifier reason)
  let referrer := if referrer = config.stdinLocation then config.base else referrer
  if specifier.isEmpty then invalid "empty specifier"
  else if specifier.startsWith "." || specifier.startsWith "/" then
    match referrer.join specifier with
    | .ok url => .ok url
    | .error reason => invalid reason.message
  else if specifier.contains "://" then
    match Url.parse specifier with
    | .error reason => invalid reason.message
    | .ok url =>
      if !config.isAllowedScheme url then
        invalid ("only " ++ ", ".intercalate config.allowedSchemes ++ " schemes are supported")
      else if referrer.scheme = "https" ∧ url.scheme = "file" then
        invalid ("file: modules cannot be imported from " ++ referrer.toText)
      else .ok url
  else invalid "bare specifiers must start with ./, ../, / or a URL scheme"

end ModuleGraph
