import ModuleGraph.Number.Double

/-!
Numbers read from text: plain numerals with an optional sign, point and exponent, and the words for
the special values.
-/
namespace ModuleGraph

/-- A decimal as written: digits without the point, and the power of ten of the last one. -/
structure Decimal where
  negative : Bool
  digits : Nat
  exponent : Int
  deriving DecidableEq, Repr

namespace Decimal

/-- The value of a list of digits. -/
def digitsValue (digits : List Char) : Nat :=
  digits.foldl (fun value c => 10 * value + (c.toNat - '0'.toNat)) 0

/-- Splits a run of digits off the front. -/
def splitDigits (text : List Char) : List Char × List Char :=
  (text.takeWhile Char.isDigit, text.dropWhile Char.isDigit)

/-- The optional exponent and what follows it; `none` when the mark has no digits. -/
def exponent? (text : List Char) : Option (Int × List Char) :=
  match text with
  | mark :: rest =>
    if mark = 'e' ∨ mark = 'E' then
      let (negative, rest) :=
        match rest with
        | '+' :: r => (false, r)
        | '-' :: r => (true, r)
        | r => (false, r)
      let (digits, rest) := splitDigits rest
      if digits.isEmpty then none
      else
        let value : Int := digitsValue digits
        some (if negative then -value else value, rest)
    else some (0, text)
  | [] => some (0, [])

/-- The double that the decimal denotes. -/
def toDouble (decimal : Decimal) : Double :=
  Double.ofDecimal decimal.negative decimal.digits decimal.exponent

end Decimal

namespace Double

/-- Reads a whole text as a number: at least one digit before or after an optional point, an
optional exponent, an optional sign, or the words `inf`, `infinity` and `nan` in any case. -/
def ofText? (text : String) : Option Double :=
  let (negative, body) :=
    match text.toList with
    | '-' :: r => (true, r)
    | '+' :: r => (false, r)
    | r => (false, r)
  let word := String.ofList (body.map Char.toLower)
  if word = "inf" ∨ word = "infinity" then some (.infinity negative)
  else if word = "nan" then some .nan
  else
    let (whole, rest) := Decimal.splitDigits body
    let (fraction, rest) :=
      match rest with
      | '.' :: r => Decimal.splitDigits r
      | r => ([], r)
    if whole.isEmpty && fraction.isEmpty then none
    else
      match Decimal.exponent? rest with
      | some (exponent, []) =>
        some (Double.ofDecimal negative (Decimal.digitsValue (whole ++ fraction))
          (exponent - fraction.length))
      | _ => none

end Double
end ModuleGraph
