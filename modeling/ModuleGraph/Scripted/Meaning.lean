import ModuleGraph.Script
import ModuleGraph.Scripted.Syntax

/-!
What scripts of the small language do, by what comes after: an expression is given what to do with
its value and with an exception, a body what to do with its ending.
-/
namespace ModuleGraph.Scripted

/-- The variables of a body: the bindings of a static module, or variables of its own. -/
inductive Scope where
  | static (environment : EnvironmentRef)
  | locals (bindings : List (String × Value))

namespace Scope

/-- A scope without variables. -/
def empty : Scope := .locals []

/-- Reads a variable; one that is not there is undefined. -/
def read (scope : Scope) (name : String) (next : Value → Script) : Script :=
  match scope with
  | .static environment => .readBinding environment name next
  | .locals bindings => next ((bindings.lookup name).getD .undefined)

/-- Writes a variable, which a static module may refuse. -/
def write (scope : Scope) (name : String) (value : Value) (next : Scope → Script)
    (fail : Exception → Script) : Script :=
  match scope with
  | .static environment =>
    .writeBinding environment name value fun
      | some exception => fail exception
      | none => next scope
  | .locals bindings => next (.locals ((name, value) :: bindings))

/-- The variables that a function made here starts with, before its arguments. -/
def captured : Scope → List (String × Value)
  | .static _ => []
  | .locals bindings => bindings

end Scope

/-- The variables of a function's arguments. -/
def argumentsFrom (index : Nat) : List Value → List (String × Value)
  | [] => []
  | value :: rest => ("arg" ++ toString index, value) :: argumentsFrom (index + 1) rest

/-- How a body ends, with its variables where they are still of use. -/
inductive Ending where
  | next (scope : Scope)
  | returned (value : Value)
  | thrown (exception : Exception) (scope : Scope)

/-- The end of a script that was a body. -/
def Ending.finish : Ending → Script
  | .next _ => .give .undefined
  | .returned value => .give value
  | .thrown exception _ => .raise exception

/-- Goes on with an object, or throws if the value is none. -/
def withObject (value : Value) (next : ObjectRef → Script) (fail : Exception → Script) : Script :=
  match value with
  | .object ref => next ref
  | _ => fail (.typeError "not an object")

/-- Calls a value, or throws if it is no function. -/
def callValue (value : Value) (arguments : List Value) (next : Value → Script)
    (fail : Exception → Script) : Script :=
  match value with
  | .function ref =>
    .call ref arguments fun
      | .ok result => next result
      | .error exception => fail exception
  | _ => fail (.typeError "not a function")

mutual

/-- Evaluates an expression. -/
def Expr.run (scope : Scope) (expr : Expr) (next : Value → Script) (fail : Exception → Script) :
    Script :=
  match expr with
  | .undefined => next .undefined
  | .null => next .null
  | .bool value => next (.bool value)
  | .number value => next (.number value)
  | .string value => next (.string value)
  | .literal document => .ofJson document next
  | .variable name => scope.read name next
  | .get target key =>
    target.run scope (fun
      | .object ref => .inspect ref fun properties => next (properties.get key)
      | _ => next .undefined) fail
  | .object entries =>
    runEntries scope entries (fun values =>
      .newObject (.ofEntries values) fun ref => next (.object ref)) fail
  | .function name body =>
    .newFunction name (fun arguments =>
      runBody (.locals (argumentsFrom 0 arguments ++ scope.captured)) none body Ending.finish)
      fun ref => next (.function ref)
  | .call function arguments =>
    function.run scope (fun function =>
      runAll scope arguments (fun arguments => callValue function arguments next fail) fail) fail
  | .require specifier =>
    specifier.run scope (fun specifier =>
      scope.read "require" fun require => callValue require [specifier] next fail) fail
  | .equal left right =>
    left.run scope (fun left =>
      right.run scope (fun right => next (.bool (left.agrees right))) fail) fail
  | .negate operand => operand.run scope (fun value => next (.bool (!value.isTruthy))) fail
  | .typeOf operand => operand.run scope (fun value => next (.string value.typeName)) fail
  | .text operand => operand.run scope (fun value => next (.string value.display)) fail
  | .keys operand =>
    operand.run scope (fun
      | .object ref =>
        .inspect ref fun properties => next (.string (",".intercalate properties.keys))
      | _ => next (.string "")) fail
  | .has target key =>
    target.run scope (fun value =>
      withObject value (fun ref =>
        .inspect ref fun properties => next (.bool (properties.has key))) fail) fail
  | .size target =>
    target.run scope (fun value =>
      withObject value (fun ref =>
        .inspect ref fun properties => next (.number (.ofInt properties.size))) fail) fail
  | .isEmpty target =>
    target.run scope (fun value =>
      withObject value (fun ref =>
        .inspect ref fun properties => next (.bool (properties.size == 0))) fail) fail
  | .delete target key =>
    target.run scope (fun value =>
      withObject value (fun ref => .deleteProperty ref key fun had => next (.bool had)) fail) fail
  | .worker => .currentRealm fun realm => next (.string realm.text)
  | .global name =>
    .globalObject fun ref => .inspect ref fun properties => next (properties.get name)
  | .globalObject => .globalObject fun ref => next (.object ref)
  | .isImport name =>
    match scope with
    | .static environment => .isImport environment name fun imported => next (.bool imported)
    | .locals _ => next (.bool false)

/-- Evaluates expressions in order. -/
def runAll (scope : Scope) (exprs : List Expr) (next : List Value → Script)
    (fail : Exception → Script) : Script :=
  match exprs with
  | [] => next []
  | expr :: rest =>
    expr.run scope (fun value =>
      runAll scope rest (fun values => next (value :: values)) fail) fail

/-- Evaluates the entries of an object in order. -/
def runEntries (scope : Scope) (entries : List (String × Expr))
    (next : List (String × Value) → Script) (fail : Exception → Script) : Script :=
  match entries with
  | [] => next []
  | (key, expr) :: rest =>
    expr.run scope (fun value =>
      runEntries scope rest (fun values => next ((key, value) :: values)) fail) fail

/-- Runs a statement; `caught` is what the handler around it has caught. -/
def Stmt.run (scope : Scope) (caught : Option Exception) (stmt : Stmt)
    (finish : Ending → Script) : Script :=
  let fail (exception : Exception) : Script := finish (.thrown exception scope)
  match stmt with
  | .assign name value =>
    value.run scope (fun value => scope.write name value (fun scope => finish (.next scope)) fail)
      fail
  | .set target key value =>
    target.run scope (fun target =>
      value.run scope (fun value =>
        withObject target (fun ref => .setProperty ref key value (finish (.next scope))) fail)
        fail) fail
  | .setGlobal name value =>
    value.run scope (fun value =>
      .globalObject fun ref => .setProperty ref name value (finish (.next scope))) fail
  | .discard value => value.run scope (fun _ => finish (.next scope)) fail
  | .log value => value.run scope (fun value => .announce (.log value) (finish (.next scope))) fail
  | .json value =>
    value.run scope (fun value => .announce (.json value) (finish (.next scope))) fail
  | .throw value => value.run scope (fun value => fail { value }) fail
  | .return value => value.run scope (fun value => finish (.returned value)) fail
  | .branch condition yes no =>
    condition.run scope (fun condition =>
      if condition.isTruthy then runBody scope caught yes finish
      else runBody scope caught no finish) fail
  | .attempt body name handler =>
    runBody scope caught body fun
      | .thrown exception scope =>
        let cause : Value :=
          match exception.cause with
          | some error => .string error.name
          | none => .undefined
        let fail (exception : Exception) : Script := finish (.thrown exception scope)
        scope.write name exception.value (fun scope =>
          scope.write (name ++ "_cause") cause (fun scope =>
            runBody scope (some exception) handler finish) fail) fail
      | ending => finish ending
  | .rethrow => fail (caught.getD { value := .undefined })
  | .lock => .lock (finish (.next scope))

/-- Runs the statements of a body until one ends it. -/
def runBody (scope : Scope) (caught : Option Exception) (body : List Stmt)
    (finish : Ending → Script) : Script :=
  match body with
  | [] => finish (.next scope)
  | stmt :: rest =>
    stmt.run scope caught fun
      | .next scope => runBody scope caught rest finish
      | ending => finish ending

end

/-- The script of a body with variables of its own. -/
def script (bindings : List (String × Value)) (body : List Stmt) : Script :=
  runBody (.locals bindings) none body Ending.finish

/-- The script of an expression in a scope without variables. -/
def Expr.script (expr : Expr) : Script := expr.run .empty .give .raise

end ModuleGraph.Scripted
