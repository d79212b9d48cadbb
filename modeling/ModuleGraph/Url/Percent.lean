import ModuleGraph.Text.Digits
import ModuleGraph.Text.Utf8

/-!
Percent-encoding: which characters each part of a location keeps, and how the others are written.
-/
namespace ModuleGraph.Url

/-- Control characters and everything beyond ASCII. -/
def isControl (c : Char) : Bool := c.toNat < 0x20 || 0x7f ≤ c.toNat

/-- What a fragment encodes. -/
def inFragmentSet (c : Char) : Bool := isControl c || " \"<>`".contains c

/-- What a path encodes. -/
def inPathSet (c : Char) : Bool := inFragmentSet c || "#?\x7b\x7d".contains c

/-- What a user name or a password encodes. -/
def inUserinfoSet (c : Char) : Bool := inPathSet c || "/:;=@[\\]^|".contains c

/-- What a query encodes; a special scheme adds the apostrophe. -/
def inQuerySet (special : Bool) (c : Char) : Bool :=
  isControl c || " \"#<>".contains c || (special && c == '\'')

/-- A byte as an escape. -/
def escapeByte (byte : Nat) : List Char :=
  ['%', (Nat.digitChar (byte / 16)).toUpper, (Nat.digitChar (byte % 16)).toUpper]

/-- The characters with every member of a set written as the escapes of its bytes. -/
def percentEncode (inSet : Char → Bool) (text : List Char) : List Char :=
  text.flatMap fun c => if inSet c then (Text.encodeChar c).flatMap escapeByte else [c]

/-- The bytes of a text in which every complete escape stands for its byte. -/
def percentDecode : List Char → List UInt8
  | [] => []
  | '%' :: a :: b :: rest =>
    match Text.hexDigit? a, Text.hexDigit? b with
    | some high, some low => UInt8.ofNat (16 * high + low) :: percentDecode rest
    | _, _ => UInt8.ofNat '%'.toNat :: percentDecode (a :: b :: rest)
  | c :: rest => (Text.encodeChar c).map UInt8.ofNat ++ percentDecode rest

end ModuleGraph.Url
