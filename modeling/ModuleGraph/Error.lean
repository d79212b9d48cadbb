import ModuleGraph.Text.Quoted
import ModuleGraph.Value.Basic

/-!
What can go wrong between a specifier and an evaluated module, and the exceptions that carry it
through scripts.
-/
namespace ModuleGraph

/-- Why a module could not be resolved, linked or evaluated. -/
inductive ModuleError where
  /-- No host module has this name. -/
  | unknownHostModule (specifier : String)
  /-- Discovery is over and the module was never seen. -/
  | resolutionLocked (specifier : String)
  /-- The specifier leads to no location. -/
  | invalidSpecifier (specifier reason : String)
  /-- There is no source at the location. -/
  | load (location reason : String)
  /-- The source is no program. -/
  | compileFailure (location message : String)
  /-- A static import asks for a name that its module does not export. -/
  | missingExport (module name : String)
  /-- A wrapper-style module left its exports null or undefined. -/
  | invalidExports (location : String)
  /-- A module threw a value. -/
  | evaluationRejected (value : Value)
  /-- A module would have to wait at its top level. -/
  | unsupportedTopLevelSuspension (location : String)
  /-- Something that never holds was found to hold. -/
  | defect (text : String)
  deriving DecidableEq

namespace ModuleError

/-- The name of the kind of error. -/
def name : ModuleError → String
  | .unknownHostModule _ => "UnknownHostModule"
  | .resolutionLocked _ => "ResolutionLocked"
  | .invalidSpecifier _ _ => "InvalidSpecifier"
  | .load _ _ => "Load"
  | .compileFailure _ _ => "CompileFailure"
  | .missingExport _ _ => "MissingExport"
  | .invalidExports _ => "InvalidExports"
  | .evaluationRejected _ => "EvaluationRejected"
  | .unsupportedTopLevelSuspension _ => "UnsupportedTopLevelSuspension"
  | .defect _ => "Defect"

/-- The text of an error. -/
def message : ModuleError → String
  | .unknownHostModule specifier => "unknown module: " ++ specifier
  | .resolutionLocked specifier =>
    "the module " ++ Text.quoted specifier ++ " was not previously resolved during initialization"
  | .invalidSpecifier specifier reason =>
    "invalid module specifier " ++ Text.quoted specifier ++ ": " ++ reason
  | .load location reason => "failed to load " ++ location ++ ": " ++ reason
  | .compileFailure location message => "failed to compile " ++ location ++ ": " ++ message
  | .missingExport module name =>
    "the requested module " ++ module ++ " does not provide an export named " ++ Text.quoted name
  | .invalidExports location => "exports must be an object (module " ++ location ++ ")"
  | .evaluationRejected value => value.display
  | .unsupportedTopLevelSuspension location =>
    "top-level await is not supported (module " ++ location ++ ")"
  | .defect text => "internal error: " ++ text

/-- Whether the error speaks of the embedding and not of the scripts. -/
def isFatal : ModuleError → Bool
  | .unsupportedTopLevelSuspension _ | .defect _ => true
  | _ => false

/-- Equality where thrown values are compared as scripts compare them. -/
def agrees : ModuleError → ModuleError → Bool
  | .evaluationRejected a, .evaluationRejected b => a.agrees b
  | a, b => a == b

end ModuleError

/-- A value on its way through scripts, with the error that it was raised for, if there was one. -/
structure Exception where
  value : Value
  cause : Option ModuleError := none
  deriving DecidableEq

namespace Exception

/-- The exception of a wrong type of operand. -/
def typeError (text : String) : Exception := { value := .string ("TypeError: " ++ text) }

/-- The exception that an error is raised as: scripts see its text. -/
def ofError (error : ModuleError) : Exception :=
  { value := .string error.message, cause := some error }

/-- The error of an exception that leaves scripts: the one it was raised for, or a rejection. -/
def toError (exception : Exception) : ModuleError :=
  exception.cause.getD (.evaluationRejected exception.value)

@[simp] theorem toError_ofError (error : ModuleError) : (ofError error).toError = error := rfl

end Exception
end ModuleGraph
