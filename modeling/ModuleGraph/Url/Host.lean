import ModuleGraph.Url.Percent
import ModuleGraph.Url.Punycode

/-!
Hosts of locations: domain names, addresses of four bytes and addresses of eight pieces, each with
the one text it is written in.
-/
namespace ModuleGraph

/-- Why a text is no location. -/
inductive UrlError where
  | emptyHost
  | invalidDomainName
  | invalidPort
  | invalidIpv4Address
  | invalidIpv6Address
  | invalidDomainCharacter
  | relativeWithoutBase
  | relativeToOpaqueBase
  deriving DecidableEq, Repr

/-- The text of a reason. -/
def UrlError.message : UrlError → String
  | .emptyHost => "empty host"
  | .invalidDomainName => "invalid international domain name"
  | .invalidPort => "invalid port number"
  | .invalidIpv4Address => "invalid IPv4 address"
  | .invalidIpv6Address => "invalid IPv6 address"
  | .invalidDomainCharacter => "invalid domain character"
  | .relativeWithoutBase => "relative URL without a base"
  | .relativeToOpaqueBase => "relative URL with a cannot-be-a-base base"

namespace Url

/-! ### Addresses of four bytes -/

/-- A part of a four-byte address: decimal, octal after a zero, hexadecimal after `0x`. -/
def ipv4Part? (part : List Char) : Option Nat :=
  match part with
  | [] => none
  | '0' :: 'x' :: digits => Text.digitsIn? 16 digits
  | '0' :: 'X' :: digits => Text.digitsIn? 16 digits
  | '0' :: d :: digits => Text.digitsIn? 8 (d :: digits)
  | digits => Text.digitsIn? 10 digits

/-- The parts between points, without one empty part at the end. -/
def ipv4Parts (domain : List Char) : List (List Char) :=
  let parts := Text.splitAtChar '.' domain
  if parts.getLast? = some [] then parts.dropLast else parts

/-- Whether the last part of a domain is a number, so that the whole has to be an address. -/
def endsInNumber (domain : List Char) : Bool :=
  match (ipv4Parts domain).getLast? with
  | some last => (!last.isEmpty && last.all Char.isDigit) || (ipv4Part? last).isSome
  | none => false

/-- The address of a domain that ends in a number: the last part fills the bytes that are left. -/
def ipv4Address? (domain : List Char) : Option Nat := do
  let parts := ipv4Parts domain
  if 4 < parts.length then none
  else
    let numbers ← parts.mapM ipv4Part?
    let last ← numbers.getLast?
    let leading := numbers.dropLast
    if Nat.pow 2 (8 * (4 - leading.length)) ≤ last ∨ leading.any (255 < ·) then none
    else
      let add := fun (sum, place) n => (sum + n * Nat.pow 256 place, place - 1)
      let (sum, _) := leading.foldl add (last, 3)
      pure sum

/-- The text of a four-byte address. -/
def ipv4Text (address : Nat) : String :=
  ".".intercalate
    ([3, 2, 1, 0].map fun place => toString (address / Nat.pow 256 place % 256))

/-! ### Addresses of eight pieces -/

/-- One decimal byte without leading zeros, and what follows it. -/
def ipv4Byte? (text : List Char) : Option (Nat × List Char) :=
  let digits := text.takeWhile Char.isDigit
  match digits with
  | [] => none
  | '0' :: _ :: _ => none
  | digits => do
    let value ← Text.digitsIn? 10 digits
    if 255 < value then none else pure (value, text.dropWhile Char.isDigit)

/-- The last two pieces written as four bytes. -/
def ipv4Tail? (text : List Char) : Option (List Nat) := do
  let (a, rest) ← ipv4Byte? text
  let '.' :: rest := rest | none
  let (b, rest) ← ipv4Byte? rest
  let '.' :: rest := rest | none
  let (c, rest) ← ipv4Byte? rest
  let '.' :: rest := rest | none
  let (d, rest) ← ipv4Byte? rest
  if rest.isEmpty then pure [a * 256 + b, c * 256 + d] else none

/-- Reads pieces: those so far, and where a run of zeros is left out. -/
def ipv6Pieces? : Nat → List Nat → Option Nat → List Char → Option (List Nat × Option Nat)
  | 0, _, _, _ => none
  | _ + 1, pieces, gap, [] => some (pieces, gap)
  | fuel + 1, pieces, gap, text@(c :: rest) =>
    if pieces.length = 8 then none
    else if c = ':' then
      if gap.isSome then none
      else ipv6Pieces? fuel (pieces ++ [0]) (some (pieces.length + 1)) rest
    else
      let digits := (text.take 4).takeWhile fun c => (Text.hexDigit? c).isSome
      let after := text.drop digits.length
      match after with
      | '.' :: _ =>
        if digits.isEmpty ∨ 6 < pieces.length then none
        else do
          let tail ← ipv4Tail? text
          pure (pieces ++ tail, gap)
      | ':' :: rest =>
        if rest.isEmpty then none
        else do
          let value ← Text.digitsIn? 16 digits
          ipv6Pieces? fuel (pieces ++ [value]) gap rest
      | _ :: _ => none
      | [] => do
        let value ← Text.digitsIn? 16 digits
        ipv6Pieces? fuel (pieces ++ [value]) gap []

/-- The eight pieces of an address. -/
def ipv6Address? (text : List Char) : Option (List Nat) := do
  let fuel := text.length + 1
  let (pieces, gap) ←
    match text with
    | ':' :: ':' :: rest => ipv6Pieces? fuel [0] (some 1) rest
    | ':' :: _ => none
    | _ => if text.length < 2 then none else ipv6Pieces? fuel [] none text
  match gap with
  | some place =>
    if 8 < pieces.length then none
    else pure (pieces.take place ++ List.replicate (8 - pieces.length) 0 ++ pieces.drop place)
  | none => if pieces.length = 8 then pure pieces else none

/-- The number of zeros at the front. -/
def leadingZeros (pieces : List Nat) : Nat := (pieces.takeWhile (· = 0)).length

/-- Where the longest run of at least two zeros begins, the first one of the longest, and its
length. -/
def longestZeros (pieces : List Nat) : Nat × Nat :=
  (List.range pieces.length).foldl (fun best start =>
    let length := leadingZeros (pieces.drop start)
    if 2 ≤ length ∧ best.2 < length then (start, length) else best) (0, 0)

/-- The text of an address: pieces in hexadecimal, with the longest run of zeros left out. -/
def ipv6Text (pieces : List Nat) : String :=
  let shown (pieces : List Nat) :=
    ":".intercalate (pieces.map fun piece => String.ofList (Nat.toDigits 16 piece))
  let (start, length) := longestZeros pieces
  let body :=
    if length = 0 then shown pieces
    else shown (pieces.take start) ++ "::" ++ shown (pieces.drop (start + length))
  "[" ++ body ++ "]"

/-! ### Whole hosts -/

/-- A host in square brackets. -/
def bracketed? (text : List Char) : Except UrlError String :=
  match text.getLast? with
  | some ']' =>
    match ipv6Address? (text.drop 1).dropLast with
    | some pieces => .ok (ipv6Text pieces)
    | none => .error .invalidIpv6Address
  | _ => .error .invalidIpv6Address

/-- Whether a character may not stand in a domain name. -/
def isForbiddenInDomain (c : Char) : Bool :=
  c.toNat ≤ 0x20 || 0x7f ≤ c.toNat || "%#/:<>?@[\\]^|".contains c

/-- Whether a lower-case label is well formed. -/
def isLabel (label : List Char) : Bool :=
  match label with
  | 'x' :: 'n' :: '-' :: '-' :: rest => isEncodedLabel rest
  | _ => true

/-- The host of a location with a special scheme. Names beyond ASCII are refused, as the mapping that
gives them an encoded form is left out. -/
def specialHost? (text : List Char) : Except UrlError String :=
  match text with
  | '[' :: _ => bracketed? text
  | _ =>
    match Text.decode (percentDecode text) with
    | .error _ => .error .invalidDomainName
    | .ok decoded =>
      let domain := decoded.toList.map Char.toLower
      if domain.any isForbiddenInDomain || !(Text.splitAtChar '.' domain).all isLabel then
        .error .invalidDomainName
      else if domain.isEmpty then .error .emptyHost
      else if endsInNumber domain then
        match ipv4Address? domain with
        | some address => .ok (ipv4Text address)
        | none => .error .invalidIpv4Address
      else .ok (String.ofList domain)

/-- Whether a character may not stand in a host of a scheme that is not special. -/
def isForbiddenInHost (c : Char) : Bool :=
  "\x00\t\n\r #/:<>?@[\\]^|".contains c

/-- The host of a location whose scheme is not special. -/
def opaqueHost? (text : List Char) : Except UrlError String :=
  match text with
  | '[' :: _ => bracketed? text
  | _ =>
    if text.any isForbiddenInHost then .error .invalidDomainCharacter
    else .ok (String.ofList (percentEncode isControl text))

end Url
end ModuleGraph
