import Mathlib.Algebra.Order.Field.Power
import Mathlib.Algebra.Order.Field.Rat
import Mathlib.Tactic.Positivity
import Mathlib.Tactic.Ring
import ModuleGraph.Number.Double

/-!
Doubles as rational numbers. A finite double is an integer times a power of two, and the integers among
the doubles are those with at most 53 significant bits below `2 ^ 1024`: such an integer is its own
nearest double.
-/
namespace ModuleGraph
namespace Double

/-- The rational number that a double is, if it is finite. Both zeros are zero. -/
def toRat? : Double → Option ℚ
  | .finite negative mantissa exponent _ =>
    some (if negative then -((mantissa : ℚ) * 2 ^ exponent) else (mantissa : ℚ) * 2 ^ exponent)
  | _ => none

variable {d : Double} {negative : Bool} {n mantissa : Nat} {i : ℤ}

/-! ### Integers -/

/-- A mantissa with an exponent is an integer as a rational number if it is one by division. -/
theorem magnitude_eq_some_iff (mantissa : Nat) (exponent : ℤ) (n : Nat) :
    (if 0 ≤ exponent then some (mantissa * Nat.pow 2 exponent.toNat)
      else if mantissa % Nat.pow 2 (-exponent).toNat = 0 then
        some (mantissa / Nat.pow 2 (-exponent).toNat) else none) = some n ↔
      (mantissa : ℚ) * 2 ^ exponent = n := by
  by_cases whole : 0 ≤ exponent
  · obtain ⟨k, rfl⟩ := Int.eq_ofNat_of_zero_le whole
    rw [if_pos whole, Option.some.injEq, Int.toNat_natCast, Nat.pow_eq, zpow_natCast]
    exact_mod_cast Iff.rfl
  · obtain ⟨k, rfl⟩ : ∃ k : Nat, exponent = -k := ⟨(-exponent).toNat, by omega⟩
    have positive : 0 < 2 ^ k := Nat.two_pow_pos k
    have scaled : (mantissa : ℚ) * 2 ^ (-(k : ℤ)) = n ↔ mantissa = n * 2 ^ k := by
      rw [zpow_neg, zpow_natCast, ← div_eq_mul_inv, div_eq_iff (by positivity)]
      exact_mod_cast Iff.rfl
    rw [if_neg whole, neg_neg, Int.toNat_natCast, Nat.pow_eq, scaled]
    constructor
    · intro divided
      split at divided
      · rename_i divides
        rw [← Option.some.inj divided, Nat.div_mul_cancel (Nat.dvd_of_mod_eq_zero divides)]
      · cases divided
    · rintro rfl
      rw [if_pos (Nat.mul_mod_left n (2 ^ k)), Nat.mul_div_cancel n positive]

/-- The integer that a double is, if it is one, is the rational number that it is. -/
theorem toInt?_eq_some_iff : d.toInt? = some i ↔ d.toRat? = some (i : ℚ) := by
  cases d with
  | nan | infinity => simp [toInt?, toRat?]
  | finite negative mantissa exponent =>
    have positive : (0 : ℚ) ≤ (mantissa : ℚ) * 2 ^ exponent := by positivity
    have same (n : ℤ) : (∃ m : Nat, (mantissa : ℚ) * 2 ^ exponent = m ∧ (m : ℤ) = n) ↔
        (mantissa : ℚ) * 2 ^ exponent = n := by
      constructor
      · rintro ⟨m, is, rfl⟩
        exact_mod_cast is
      · intro is
        have nonneg : 0 ≤ n := by exact_mod_cast is ▸ positive
        obtain ⟨m, rfl⟩ := Int.eq_ofNat_of_zero_le nonneg
        exact ⟨m, by exact_mod_cast is, rfl⟩
    rw [toInt?, toRat?, Option.map_eq_some_iff, Option.some.injEq]
    simp only [Option.bind_eq_bind, Option.bind_eq_some_iff, Option.pure_def, Option.some.injEq,
      magnitude_eq_some_iff, exists_exists_and_eq_and]
    cases negative with
    | false =>
      simp only [Bool.false_eq_true, if_false]
      exact same i
    | true =>
      simp only [if_true, neg_eq_iff_eq_neg]
      rw [same (-i)]
      push_cast
      exact Iff.rfl

/-! ### Nearest doubles of integers -/

theorem inUnits_natCast (numerator denominator shift : Nat) :
    inUnits numerator denominator shift = (numerator, denominator * 2 ^ shift) := by
  rw [inUnits, if_pos (Int.natCast_nonneg shift), Int.toNat_natCast, Nat.pow_eq]

theorem inUnits_neg_natCast (numerator denominator shift : Nat) :
    inUnits numerator denominator (-shift) = (numerator * 2 ^ shift, denominator) := by
  cases shift with
  | zero => simp [inUnits]
  | succ shift => rw [inUnits, if_neg (by omega), neg_neg, Int.toNat_natCast, Nat.pow_eq]

/-- The exponent at which a positive integer has 53 bits. -/
theorem exponentOf_one (positive : 0 < n) : exponentOf n 1 = (n.log2 : ℤ) - 52 := by
  have least := Nat.log2_self_le positive.ne'
  have enough : ¬ (inUnits n 1 ((n.log2 : ℤ) - 53)).1 <
      (inUnits n 1 ((n.log2 : ℤ) - 53)).2 * 2 ^ 53 := by
    by_cases wide : 53 ≤ n.log2
    · obtain ⟨shift, L⟩ : ∃ shift, n.log2 = shift + 53 := ⟨n.log2 - 53, by omega⟩
      rw [show (n.log2 : ℤ) - 53 = (shift : Nat) by omega, inUnits_natCast, one_mul, ← pow_add, ← L]
      exact Nat.not_lt.mpr least
    · obtain ⟨shift, L⟩ : ∃ shift, n.log2 + shift = 53 := ⟨53 - n.log2, by omega⟩
      rw [show (n.log2 : ℤ) - 53 = -(shift : Nat) by omega, inUnits_neg_natCast, one_mul, ← L, pow_add]
      exact Nat.not_lt.mpr (Nat.mul_le_mul_right _ least)
  have one : Nat.log2 1 = 0 := by decide
  simp only [exponentOf, one, Nat.cast_zero, sub_zero, Nat.pow_eq, enough, if_false]
  omega

/-- In these units an integer of at most 53 significant bits is whole. -/
theorem exists_inUnits {k : Nat} (positive : 0 < n) (small : mantissa < 2 ^ 53)
    (is : n = mantissa * 2 ^ k) :
    ∃ whole unit : Nat, 0 < unit ∧ inUnits n 1 ((n.log2 : ℤ) - 52) = (whole * unit, unit) ∧
      2 ^ 52 ≤ whole ∧ whole < 2 ^ 53 ∧ (whole : ℚ) * 2 ^ ((n.log2 : ℤ) - 52) = n := by
  have least := Nat.log2_self_le positive.ne'
  have greatest : n < 2 ^ (n.log2 + 1) := Nat.lt_log2_self
  by_cases wide : 52 ≤ n.log2
  · obtain ⟨shift, L⟩ : ∃ shift, n.log2 = 52 + shift := ⟨n.log2 - 52, by omega⟩
    have unit : 0 < 2 ^ shift := Nat.two_pow_pos shift
    rw [show (n.log2 : ℤ) - 52 = (shift : Nat) by omega, inUnits_natCast, one_mul]
    rw [L] at least greatest
    have divides : 2 ^ shift ∣ n := by
      rw [is]
      refine Dvd.dvd.mul_left (Nat.pow_dvd_pow 2 ?_) mantissa
      by_contra less
      have : n < 2 ^ (52 + shift) := calc
        n = mantissa * 2 ^ k := is
        _ < 2 ^ 53 * 2 ^ k := Nat.mul_lt_mul_of_pos_right small (Nat.two_pow_pos k)
        _ = 2 ^ (53 + k) := (pow_add 2 53 k).symm
        _ ≤ 2 ^ (52 + shift) := Nat.pow_le_pow_right (by decide) (by omega)
      omega
    obtain ⟨whole, split⟩ := divides
    rw [mul_comm] at split
    refine ⟨whole, 2 ^ shift, unit, by rw [split], ?_, ?_, ?_⟩
    · rw [split, pow_add] at least
      exact Nat.le_of_mul_le_mul_right least unit
    · rw [split, show 52 + shift + 1 = 53 + shift by omega, pow_add] at greatest
      exact Nat.lt_of_mul_lt_mul_right greatest
    · rw [zpow_natCast, split]
      push_cast
      rfl
  · obtain ⟨shift, L⟩ : ∃ shift, n.log2 + shift = 52 := ⟨52 - n.log2, by omega⟩
    rw [show (n.log2 : ℤ) - 52 = -(shift : Nat) by omega, inUnits_neg_natCast]
    refine ⟨n * 2 ^ shift, 1, Nat.one_pos, by rw [mul_one], ?_, ?_, ?_⟩
    · rw [← L, pow_add]
      exact Nat.mul_le_mul_right _ least
    · rw [show 53 = n.log2 + 1 + shift by omega, pow_add]
      exact Nat.mul_lt_mul_of_pos_right greatest (Nat.two_pow_pos shift)
    · rw [zpow_neg, zpow_natCast]
      push_cast
      exact mul_inv_cancel_right₀ (by positivity) _

/-- What is whole is not rounded. -/
theorem nearestEven_mul {unit : Nat} (positive : 0 < unit) (whole : Nat) :
    nearestEven (whole * unit) unit = whole := by
  rw [nearestEven, Nat.mul_div_cancel whole positive, Nat.mul_mod_left]
  exact if_neg (by omega)

/-- An integer of at most 53 significant bits is its own nearest double, unless it is too large for any.
-/
theorem toRat?_ofRatio_one {k : Nat} (small : mantissa < 2 ^ 53) (bounded : k ≤ 971)
    (is : n = mantissa * 2 ^ k) :
    (ofRatio negative n 1).toRat? = some (if negative then -(n : ℚ) else n) := by
  rcases Nat.eq_zero_or_pos n with rfl | positive
  · simp [ofRatio, zero, toRat?]
  obtain ⟨whole, unit, unitPositive, units, least, most, value⟩ := exists_inUnits positive small is
  have bits : n.log2 < 53 + k := by
    rw [Nat.log2_lt positive.ne', is, pow_add]
    exact Nat.mul_lt_mul_of_pos_right small (Nat.two_pow_pos k)
  have normal : Normal whole ((n.log2 : ℤ) - 52) := ⟨most, by omega, by omega, .inl least⟩
  have rounded : ofRatio negative n 1 = .finite negative whole ((n.log2 : ℤ) - 52) normal := by
    rw [ofRatio, if_neg (by omega), exponentOf_one positive]
    simp only [units, nearestEven_mul unitPositive, Nat.pow_eq, most.ne, if_false, normal, dite_true]
  rw [rounded, toRat?, value]

theorem toInt?_ofInt_of_natAbs_eq {k : Nat} (small : mantissa < 2 ^ 53) (bounded : k ≤ 971)
    (is : i.natAbs = mantissa * 2 ^ k) : (ofInt i).toInt? = some i := by
  rw [toInt?_eq_some_iff, ofInt, toRat?_ofRatio_one small bounded is, Nat.cast_natAbs, Int.cast_abs]
  by_cases negative : i < 0
  · simp [negative, abs_of_neg]
  · simp [negative, abs_of_nonneg (Int.cast_nonneg (not_lt.mp negative))]

/-- An integer that is a double has at most 53 significant bits. -/
theorem exists_natAbs_eq (is : d.toInt? = some i) :
    ∃ mantissa k, mantissa < 2 ^ 53 ∧ k ≤ 971 ∧ i.natAbs = mantissa * 2 ^ k := by
  rw [toInt?_eq_some_iff] at is
  cases d with
  | nan | infinity => cases is
  | finite negative mantissa exponent normal =>
    have ⟨small, _, bounded, _⟩ := normal
    have size : (mantissa : ℚ) * 2 ^ exponent = i.natAbs := by
      have nonneg : (0 : ℚ) ≤ (mantissa : ℚ) * 2 ^ exponent := by positivity
      rw [Nat.cast_natAbs, Int.cast_abs, ← Option.some.inj is]
      cases negative <;> simp [abs_of_nonneg nonneg]
    by_cases whole : 0 ≤ exponent
    · obtain ⟨k, rfl⟩ := Int.eq_ofNat_of_zero_le whole
      rw [zpow_natCast] at size
      exact ⟨mantissa, k, small, by omega, by exact_mod_cast size.symm⟩
    · obtain ⟨k, rfl⟩ : ∃ k : Nat, exponent = -k := ⟨(-exponent).toNat, by omega⟩
      rw [zpow_neg, zpow_natCast, ← div_eq_mul_inv, div_eq_iff (by positivity)] at size
      have shifted : mantissa = i.natAbs * 2 ^ k := by exact_mod_cast size
      refine ⟨i.natAbs, 0, Nat.lt_of_le_of_lt ?_ small, by decide, (mul_one _).symm⟩
      exact shifted ▸ Nat.le_mul_of_pos_right _ (Nat.two_pow_pos k)

/-- An integer that is a double is its own nearest double. -/
theorem toInt?_ofInt (is : d.toInt? = some i) : (ofInt i).toInt? = some i := by
  obtain ⟨mantissa, k, small, bounded, is⟩ := exists_natAbs_eq is
  exact toInt?_ofInt_of_natAbs_eq small bounded is

/-- An integer of a size up to `2 ^ 53` is its own nearest double. -/
theorem toInt?_ofInt_of_natAbs_le (bounded : i.natAbs ≤ 2 ^ 53) : (ofInt i).toInt? = some i := by
  rcases Nat.lt_or_eq_of_le bounded with small | greatest
  · exact toInt?_ofInt_of_natAbs_eq small (Nat.zero_le 971) (mul_one _).symm
  · have half : 2 ^ 52 < 2 ^ 53 := by decide
    exact toInt?_ofInt_of_natAbs_eq (k := 1) half (by decide) greatest

end Double
end ModuleGraph
