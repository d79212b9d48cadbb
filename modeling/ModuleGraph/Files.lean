import ModuleGraph.Url.Reader

/-!
Loading modules from local files, on the paths that every system has.
-/
namespace ModuleGraph

/-- Why a file could not be read. -/
inductive FileError where
  /-- Nothing there. -/
  | notFound
  | isADirectory
  | notADirectory
  /-- The path cannot name a file. -/
  | invalidInput (message : String)
  /-- The location is none of a file. -/
  | unsupported (message : String)
  deriving DecidableEq, Repr

namespace FileError

/-- The name of the kind of error. -/
def name : FileError → String
  | .notFound => "NotFound"
  | .isADirectory => "IsADirectory"
  | .notADirectory => "NotADirectory"
  | .invalidInput _ => "InvalidInput"
  | .unsupported _ => "Unsupported"

/-- The text of an error that the loader finds itself. -/
def message? : FileError → Option String
  | .invalidInput message => some message
  | .unsupported message => some message
  | _ => none

end FileError

namespace Files

/-- What stands at a path. -/
inductive FileNode where
  | file (bytes : List UInt8)
  | directory (entries : List (String × FileNode))

/-- The part of the file tree that every system has. -/
def standardTree : FileNode :=
  .directory
    [("dev", .directory [("null", .file [])]),
      ("tmp", .directory []), ("etc", .directory []), ("usr", .directory []),
      ("bin", .directory []), ("proc", .directory []), ("sys", .directory []),
      ("home", .directory []), ("var", .directory []), ("root", .directory []),
      ("lib", .directory []), ("opt", .directory [])]

/-- Follows the segments of a path from a node, with the directories above it. An empty segment and
a dot stay where they are, two dots climb, and only a directory can be gone through. -/
def lookUp (above : List FileNode) : FileNode → List String → Except FileError FileNode
  | node, [] => .ok node
  | .file _, _ :: _ => .error .notADirectory
  | .directory entries, segment :: rest =>
    if segment = "" ∨ segment = "." then lookUp above (.directory entries) rest
    else if segment = ".." then
      match above with
      | parent :: above => lookUp above parent rest
      | [] => lookUp [] (.directory entries) rest
    else
      match entries.lookup segment with
      | some node => lookUp (.directory entries :: above) node rest
      | none => .error .notFound

/-- The path of a local file, decoded. -/
def path? (url : Url) : Option (List UInt8) :=
  if url.hostText = "" ∨ url.hostText = "localhost" then
    some (Url.percentDecode url.path.toList)
  else none

/-- Splits a path of bytes at its slashes; segments that are no text have no file. -/
def segments (path : List UInt8) : List String :=
  let parts := path.splitOn (UInt8.ofNat '/'.toNat)
  parts.map fun part =>
    match Text.decode part with
    | .ok text => text
    | .error _ => "\x00"

/-- Reads the file at a location. -/
def load (tree : FileNode) (url : Url) (specifier : String) : Except FileError (List UInt8) :=
  if url.scheme ≠ "file" then
    .error (.unsupported ("cannot load " ++ url.toText ++ " (" ++ specifier ++
      "): only file: URLs are supported"))
  else
    match path? url with
    | none => .error (.invalidInput (url.toText ++ " is not a local path"))
    | some path =>
      if path.contains 0 then
        .error (.invalidInput "file name contained an unexpected NUL byte")
      else
        match lookUp [] tree (segments path) with
        | .ok (.file bytes) => .ok bytes
        | .ok (.directory _) => .error .isADirectory
        | .error error => .error error

end Files
end ModuleGraph
