import ModuleGraph.Error
import ModuleGraph.Json.Basic

/-!
A small script language: expressions and statements as data.
-/
namespace ModuleGraph.Scripted

mutual

/-- An expression. -/
inductive Expr where
  | undefined
  | null
  | bool (value : Bool)
  | number (value : Double)
  | string (value : String)
  /-- The value of a document. -/
  | literal (document : Json)
  | variable (name : String)
  | get (target : Expr) (key : String)
  | object (entries : List (String × Expr))
  /-- A function of a name; its arguments are `arg0`, `arg1` and so on. -/
  | function (name : String) (body : List Stmt)
  | call (function : Expr) (arguments : List Expr)
  /-- A call of what the variable `require` holds. -/
  | require (specifier : Expr)
  | equal (left right : Expr)
  | negate (operand : Expr)
  | typeOf (operand : Expr)
  | text (operand : Expr)
  /-- The keys of a value, with commas between them. -/
  | keys (operand : Expr)
  | has (target : Expr) (key : String)
  | size (target : Expr)
  | isEmpty (target : Expr)
  | delete (target : Expr) (key : String)
  /-- The name of the worker. -/
  | worker
  | global (name : String)
  | globalObject
  | isImport (name : String)

/-- A statement. -/
inductive Stmt where
  | assign (name : String) (value : Expr)
  | set (target : Expr) (key : String) (value : Expr)
  | setGlobal (name : String) (value : Expr)
  | discard (value : Expr)
  | log (value : Expr)
  | json (value : Expr)
  | throw (value : Expr)
  | return (value : Expr)
  | branch (condition : Expr) (yes no : List Stmt)
  /-- Runs a body, and a handler if that throws: the thrown value is then under the name. -/
  | attempt (body : List Stmt) (name : String) (handler : List Stmt)
  /-- Throws what the handler around it has caught. -/
  | rethrow
  | lock

end

end ModuleGraph.Scripted
