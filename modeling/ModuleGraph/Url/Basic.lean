import ModuleGraph.Url.Host

/-!
Locations in their normal form: a scheme, an authority, a path, and what may follow it.
-/
namespace ModuleGraph

/-- Who answers for a location: user information with its mark, a host, and a port that is not the
scheme's own. The host of a local file is empty. -/
structure Authority where
  userinfo : String := ""
  host : String := ""
  port : Option Nat := none
  deriving DecidableEq, Repr

/-- A location. -/
structure Url where
  scheme : String
  authority : Option Authority
  path : String
  query : Option String := none
  fragment : Option String := none
  deriving DecidableEq, Repr

/-- How a scheme is read: locations of local files, those of the other well-known schemes, and all
others. -/
inductive SchemeKind where
  | file
  | special
  | other
  deriving DecidableEq, Repr

namespace SchemeKind

/-- The kind of a scheme. -/
def of (scheme : String) : SchemeKind :=
  if scheme = "file" then .file
  else if ["http", "https", "ws", "wss", "ftp"].contains scheme then .special
  else .other

/-- Whether a backslash is a slash and a host is required or known to be local. -/
def isSpecial (kind : SchemeKind) : Bool := kind != .other

end SchemeKind

/-- The port that goes without saying. -/
def defaultPort? (scheme : String) : Option Nat :=
  match scheme with
  | "http" | "ws" => some 80
  | "https" | "wss" => some 443
  | "ftp" => some 21
  | _ => none

/-- The text of an authority. -/
def Authority.toText (authority : Authority) : String :=
  authority.userinfo ++ authority.host ++
    match authority.port with
    | some port => ":" ++ toString port
    | none => ""

namespace Url

/-- The kind of the location's scheme. -/
def kind (url : Url) : SchemeKind := .of url.scheme

/-- Whether the path is opaque, so that nothing can be relative to the location. -/
def isOpaque (url : Url) : Bool := url.authority.isNone && !url.path.startsWith "/"

/-- What stands between the scheme and the path: without an authority a path of two slashes is kept
from being read as one. -/
def beforePath (url : Url) : String :=
  match url.authority with
  | some authority => "//" ++ authority.toText
  | none => if url.path.startsWith "//" then "/." else ""

/-- The text of a location. -/
def toText (url : Url) : String :=
  url.scheme ++ ":" ++ url.beforePath ++ url.path ++
    (match url.query with
    | some query => "?" ++ query
    | none => "") ++
    match url.fragment with
    | some fragment => "#" ++ fragment
    | none => ""

end Url
end ModuleGraph
