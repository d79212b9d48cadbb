/-!
Double-precision numbers as exact dyadic rationals: a number is a sign, a mantissa below `2 ^ 53`
and an exponent, in the one normal form that each value has. Rounding of a rational is to nearest,
and a tie goes to the even mantissa.
-/
namespace ModuleGraph

/-- The mantissa and exponent of a double: full precision unless the exponent is the least one. -/
def Double.Normal (mantissa : Nat) (exponent : Int) : Prop :=
  mantissa < Nat.pow 2 53 ∧ -1074 ≤ exponent ∧ exponent ≤ 971 ∧
    (Nat.pow 2 52 ≤ mantissa ∨ exponent = -1074)

instance (mantissa : Nat) (exponent : Int) : Decidable (Double.Normal mantissa exponent) := by
  unfold Double.Normal; infer_instance

/-- A double-precision number; `finite` stands for `± mantissa · 2 ^ exponent`. -/
inductive Double where
  | nan
  | infinity (negative : Bool)
  | finite (negative : Bool) (mantissa : Nat) (exponent : Int)
      (normal : Double.Normal mantissa exponent)
  deriving DecidableEq

namespace Double

/-- Zero of either sign. -/
def zero (negative : Bool) : Double := .finite negative 0 (-1074) (by decide)

instance : Inhabited Double := ⟨zero false⟩

/-- The integer nearest to `numerator / denominator`, the even one of two. -/
def nearestEven (numerator denominator : Nat) : Nat :=
  let quotient := numerator / denominator
  let twice := 2 * (numerator % denominator)
  if denominator < twice ∨ (twice = denominator ∧ quotient % 2 = 1) then quotient + 1 else quotient

/-- `numerator / denominator` in units of `2 ^ exponent`, as a fraction again. -/
def inUnits (numerator denominator : Nat) (exponent : Int) : Nat × Nat :=
  if 0 ≤ exponent then (numerator, denominator * Nat.pow 2 exponent.toNat)
  else (numerator * Nat.pow 2 (-exponent).toNat, denominator)

/-- The exponent at which a positive fraction has a mantissa of 53 bits, or the least exponent. -/
def exponentOf (numerator denominator : Nat) : Int :=
  let low : Int := (numerator.log2 : Int) - (denominator.log2 : Int) - 53
  let (n, d) := inUnits numerator denominator low
  max (-1074) (if n < d * Nat.pow 2 53 then low else low + 1)

/-- The double nearest to `± numerator / denominator`; beyond the largest one it is infinite. -/
def ofRatio (negative : Bool) (numerator denominator : Nat) : Double :=
  if numerator = 0 ∨ denominator = 0 then zero negative
  else
    let exponent := exponentOf numerator denominator
    let (n, d) := inUnits numerator denominator exponent
    let rounded := nearestEven n d
    let (mantissa, exponent) :=
      if rounded = Nat.pow 2 53 then (Nat.pow 2 52, exponent + 1) else (rounded, exponent)
    if normal : Normal mantissa exponent then .finite negative mantissa exponent normal
    else .infinity negative

/-- The double nearest to an integer. -/
def ofInt (value : Int) : Double := ofRatio (value < 0) value.natAbs 1

/-- The double nearest to `± digits · 10 ^ exponent`. Powers far outside the range of doubles are
answered without being computed: they round to zero or to infinity whatever the digits are. -/
def ofDecimal (negative : Bool) (digits : Nat) (exponent : Int) : Double :=
  if digits = 0 then zero negative
  else if 400 < exponent then .infinity negative
  else if exponent + ((digits.log2 : Int) / 3 + 1) < -400 then zero negative
  else if 0 ≤ exponent then ofRatio negative (digits * Nat.pow 10 exponent.toNat) 1
  else ofRatio negative digits (Nat.pow 10 (-exponent).toNat)

/-- Equality as scripts see it: not-a-number differs from itself and the two zeros are equal. -/
def agrees : Double → Double → Bool
  | .infinity a, .infinity b => a == b
  | .finite a m e _, .finite b n f _ => m == n && e == f && (m == 0 || a == b)
  | _, _ => false

/-- Whether scripts take the number for a truth: it is neither zero nor not-a-number. -/
def isTruthy : Double → Bool
  | .nan => false
  | .infinity _ => true
  | .finite _ m _ _ => m != 0

/-- The number as an integer, when it is one. -/
def toInt? : Double → Option Int
  | .finite negative mantissa exponent _ =>
    let magnitude : Option Nat :=
      if 0 ≤ exponent then some (mantissa * Nat.pow 2 exponent.toNat)
      else
        let unit := Nat.pow 2 (-exponent).toNat
        if mantissa % unit = 0 then some (mantissa / unit) else none
    magnitude.map fun m => if negative then -(m : Int) else (m : Int)
  | _ => none

end Double
end ModuleGraph
