/-!
Reading the ASCII form of a label of a host name: basic characters, then differences between code
points in digits of varying weight.
-/
namespace ModuleGraph.Url

/-- The value of a digit. -/
def punycodeDigit? (c : Char) : Option Nat :=
  if 'a' ≤ c ∧ c ≤ 'z' then some (c.toNat - 'a'.toNat)
  else if '0' ≤ c ∧ c ≤ '9' then some (c.toNat - '0'.toNat + 26)
  else none

/-- The weight at which the digit at `position` ends a number. -/
def punycodeThreshold (position bias : Nat) : Nat :=
  if position ≤ bias then 1 else if bias + 26 ≤ position then 26 else position - bias

/-- Halves the difference until it is small, counting the steps in the bias. -/
def punycodeShrink : Nat → Nat → Nat → Nat
  | 0, delta, k => k + 36 * delta / (delta + 38)
  | fuel + 1, delta, k =>
    if 455 < delta then punycodeShrink fuel (delta / 35) (k + 36)
    else k + 36 * delta / (delta + 38)

/-- The bias for the next number. -/
def punycodeBias (delta count : Nat) (first : Bool) : Nat :=
  let delta := if first then delta / 700 else delta / 2
  punycodeShrink delta (delta + delta / count) 0

/-- Reads digits after the basic characters: `point` and `index` are where the next character goes,
`start` is the index before the current number, `weight` and `position` belong to its next digit. -/
def punycodeInsertions? (point index start weight position bias : Nat) (output : List Nat) :
    List Char → Option (List Nat)
  | [] => if position = 36 then some output else none
  | c :: rest => do
    let digit ← punycodeDigit? c
    let sum := index + digit * weight
    let threshold := punycodeThreshold position bias
    if digit < threshold then
      let count := output.length + 1
      let point := point + sum / count
      let place := sum % count
      let bias := punycodeBias (sum - start) count (start = 0)
      let output := output.take place ++ point :: output.drop place
      if 0x10ffff < point ∨ (0xD800 ≤ point ∧ point < 0xE000) then none
      else punycodeInsertions? point (place + 1) (place + 1) 1 36 bias output rest
    else if Nat.pow 2 32 < sum then none
    else
      let weight := weight * (36 - threshold)
      punycodeInsertions? point sum start weight (position + 36) bias output rest

/-- The code points of an encoded label, without its leading mark. -/
def punycodeDecode? (text : List Char) : Option (List Nat) :=
  let reversed := text.reverse
  let digits := (reversed.takeWhile (· ≠ '-')).reverse
  let basic := ((reversed.dropWhile (· ≠ '-')).drop 1).reverse
  punycodeInsertions? 128 0 0 1 36 72 (basic.map Char.toNat) digits

/-- Whether a label that begins with the mark stands for one that needs it: some character is beyond
ASCII, and none is a control character. -/
def isEncodedLabel (text : List Char) : Bool :=
  match punycodeDecode? text with
  | some points => points.any (0x80 ≤ ·) && points.all fun point => point < 0x80 || 0xa0 < point
  | none => false

end ModuleGraph.Url
