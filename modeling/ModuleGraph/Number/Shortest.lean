import ModuleGraph.Number.Double

/-!
The shortest decimal text of a double: the fewest digits that read back as the same double, of those
the nearest to it, written positionally and never with an exponent.
-/
namespace ModuleGraph
namespace Double

/-- The doubles' own neighbourhood: every real strictly between the bounds rounds to the double, and
the bounds themselves do when `closed`. All three numbers are in units of `2 ^ (exponent - 2)`. -/
structure Neighbourhood where
  value : Nat
  low : Nat
  high : Nat
  closed : Bool

/-- Half a unit above, and below half a unit or a quarter where the doubles below lie twice as
dense. -/
def neighbourhood (mantissa : Nat) (exponent : Int) : Neighbourhood where
  value := 4 * mantissa
  low := if mantissa = Nat.pow 2 52 ∧ -1074 < exponent then 4 * mantissa - 1 else 4 * mantissa - 2
  high := 4 * mantissa + 2
  closed := mantissa % 2 = 0

/-- Whether `point · 10 ^ power`, given as a fraction of the neighbourhood's unit, lies in it. -/
def Neighbourhood.holds (n : Neighbourhood) (numerator denominator : Nat) : Bool :=
  if n.closed then n.low * denominator ≤ numerator && numerator ≤ n.high * denominator
  else n.low * denominator < numerator && numerator < n.high * denominator

/-- `point · 10 ^ power` in units of `2 ^ exponent`, as a fraction. -/
def decimalInUnits (point : Nat) (power exponent : Int) : Nat × Nat :=
  let numerator := point * Nat.pow 10 power.toNat * Nat.pow 2 (-exponent).toNat
  let denominator := Nat.pow 10 (-power).toNat * Nat.pow 2 exponent.toNat
  (numerator, denominator)

/-- `value · 2 ^ exponent` in units of `10 ^ power`, rounded down. -/
def floorAtPower (value : Nat) (exponent power : Int) : Nat :=
  (value * Nat.pow 2 exponent.toNat * Nat.pow 10 (-power).toNat) /
    (Nat.pow 2 (-exponent).toNat * Nat.pow 10 power.toNat)

/-- The number of decimal digits of a natural number; zero has one. -/
def digitCount (n : Nat) : Nat := (Nat.toDigits 10 n).length

/-- The power of ten of the leading digit of `value · 2 ^ exponent`, for a positive value. -/
def leadingPower (value : Nat) (exponent : Int) : Int :=
  let numerator := value * Nat.pow 2 exponent.toNat
  let denominator := Nat.pow 2 (-exponent).toNat
  if denominator ≤ numerator then (digitCount (numerator / denominator) : Int) - 1
  else
    let inverse := denominator / numerator
    let power : Int := -(digitCount inverse : Int)
    if denominator = numerator * Nat.pow 10 ((-power).toNat - 1) then power + 1 else power

/-- The digits to write at one grid of decimals: the nearer of the double's two neighbours on the
grid among those that read back, and the upper one when both are equally near. -/
def atPower? (n : Neighbourhood) (exponent power : Int) : Option Nat :=
  let below := floorAtPower n.value exponent power
  let above := below + 1
  let (belowNum, belowDen) := decimalInUnits below power exponent
  let (aboveNum, aboveDen) := decimalInUnits above power exponent
  let belowHolds := n.holds belowNum belowDen
  let aboveHolds := n.holds aboveNum aboveDen
  if belowHolds && aboveHolds then
    if (n.value * belowDen - belowNum) * aboveDen < (aboveNum - n.value * aboveDen) * belowDen
    then some below else some above
  else if belowHolds then some below
  else if aboveHolds then some above
  else none

/-- The first grid with a hit, from one digit on; seventeen digits always suffice. -/
def shortestFrom (n : Neighbourhood) (exponent leading : Int) : Nat → Nat → Nat × Int
  | 0, _ => (n.value, 0)
  | fuel + 1, count =>
    let power := leading + 1 - count
    match atPower? n exponent power with
    | some digits => (digits, power)
    | none => shortestFrom n exponent leading fuel (count + 1)

/-- Digits and power of ten of the shortest decimal of a positive double. -/
def shortest (mantissa : Nat) (exponent : Int) : Nat × Int :=
  let n := neighbourhood mantissa exponent
  let unit := exponent - 2
  shortestFrom n unit (leadingPower n.value unit) 17 1

/-- Drops zeros at the end of a positive number's digits. -/
def dropZeros : Nat → Nat → Int → Nat × Int
  | 0, digits, power => (digits, power)
  | fuel + 1, digits, power =>
    if digits % 10 = 0 then dropZeros fuel (digits / 10) (power + 1) else (digits, power)

/-- `digits · 10 ^ power` in positional notation. -/
def positional (digits : Nat) (power : Int) : String :=
  let text := Nat.toDigits 10 digits
  if 0 ≤ power then String.ofList (text ++ List.replicate power.toNat '0')
  else
    let places := (-power).toNat
    let padded := List.replicate (places + 1 - text.length) '0' ++ text
    let whole := padded.length - places
    String.ofList (padded.take whole ++ '.' :: padded.drop whole)

/-- The text of a double. -/
def toText : Double → String
  | .nan => "NaN"
  | .infinity negative => if negative then "-inf" else "inf"
  | .finite negative mantissa exponent _ =>
    let magnitude :=
      if mantissa = 0 then "0"
      else
        let (digits, power) := shortest mantissa exponent
        let (digits, power) := dropZeros 17 digits power
        positional digits power
    if negative then "-" ++ magnitude else magnitude

end Double
end ModuleGraph
