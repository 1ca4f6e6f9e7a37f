import LoxLexer.Decimal.Basic
import Mathlib.Algebra.Order.Field.Power
import Mathlib.Tactic.FieldSimp
import Mathlib.Tactic.Ring

/-!
# The value of a decimal

The double nearest to a decimal depends on nothing but the number that the decimal denotes
(`Decimal.nearest?_eq_of_value_eq`): digits and exponent may be shifted against each other at will.
A number that is a whole number of units of some magnitude rounds to that magnitude
(`Magnitude.nearest?_units`).
-/
namespace LoxLexer

theorem roundHalfEven_scale (num den : Nat) {k : Nat} (hk : 0 < k) :
    roundHalfEven (num * k) (den * k) = roundHalfEven num den := by
  have hrest (rest : Nat) : 2 * (rest * k) = 2 * rest * k := (Nat.mul_assoc 2 rest k).symm
  simp only [roundHalfEven, Nat.mul_div_mul_right num den hk, Nat.mul_mod_mul_right, hrest,
    Nat.mul_lt_mul_right hk]

namespace Magnitude

theorem exponentFor_scale (num den : Nat) {k : Nat} (hk : 0 < k) :
    exponentFor (num * k) (den * k) = exponentFor num den := by
  rw [exponentFor, exponentFor, Nat.mul_div_mul_right num den hk]

theorem nearest?_scale (num den : Nat) {k : Nat} (hk : 0 < k) :
    nearest? (num * k) (den * k) = nearest? num den := by
  have hround (exponent : Nat) :
      roundHalfEven (num * k) (den * k * twoPow exponent) =
        roundHalfEven num (den * twoPow exponent) := by
    rw [Nat.mul_right_comm, roundHalfEven_scale _ _ hk]
  simp only [nearest?, exponentFor_scale num den hk, hround]

/-- Two quotients of the same value have the same nearest magnitude. -/
theorem nearest?_congr {num den num' den' : Nat} (hden : 0 < den) (hden' : 0 < den')
    (h : num * den' = num' * den) : nearest? num den = nearest? num' den' := by
  rw [← nearest?_scale num den hden', h, Nat.mul_comm den den', nearest?_scale num' den' hden]

theorem units_lt (x : Magnitude) : x.units < twoPow (x.exponent + 53) := by
  rw [units, Nat.add_comm, twoPow_add]
  exact Nat.mul_lt_mul_of_pos_right x.significand_lt (twoPow_pos _)

/-- The exponent of a magnitude is the one that rounding chooses for its units. -/
theorem exponentFor_units (x : Magnitude) : exponentFor x.units 1 = x.exponent := by
  rw [exponentFor, Nat.div_one]
  by_cases hzero : x.units = 0
  · rw [hzero, units_eq_zero_iff.mp hzero]
    rfl
  · have hlog : x.units.log2 < x.exponent + 53 := (Nat.log2_lt hzero).mpr x.units_lt
    obtain hsub | hnormal := x.normal
    · omega
    · have hle : twoPow (52 + x.exponent) ≤ x.units := by
        rw [units, twoPow_add]
        exact Nat.mul_le_mul_right _ hnormal
      have hlog' : 52 + x.exponent ≤ x.units.log2 := le_log2_of_twoPow_le hzero hle
      omega

/-- Rounding keeps what is a magnitude already. -/
theorem nearest?_units (x : Magnitude) : nearest? x.units 1 = some x := by
  have hround : roundHalfEven x.units (1 * twoPow x.exponent) = x.significand := by
    rw [Nat.one_mul, units, roundHalfEven_mul_self _ _ (twoPow_pos _)]
  simp only [nearest?, exponentFor_units, hround, dif_pos x.significand_lt, dif_pos x.exponent_le]

end Magnitude

namespace Decimal

/-- The number that a decimal denotes. -/
def value (d : Decimal) : ℚ := d.coefficient * 10 ^ d.exponent

theorem value_eq_div (d : Decimal) : d.value = d.numerator / d.denominator := by
  obtain ⟨coefficient, exponent⟩ := d
  obtain ⟨n, rfl | rfl⟩ := exponent.eq_nat_or_neg
  · simp [value, numerator, denominator, tenPow]
  · simp [value, numerator, denominator, tenPow, div_eq_mul_inv]

theorem denominator_pos (d : Decimal) : 0 < d.denominator := tenPow_pos _

theorem value_eq_iff {d e : Decimal} :
    d.value = e.value ↔ d.numerator * e.denominator = e.numerator * d.denominator := by
  have hd : (d.denominator : ℚ) ≠ 0 := Nat.cast_ne_zero.mpr d.denominator_pos.ne'
  have he : (e.denominator : ℚ) ≠ 0 := Nat.cast_ne_zero.mpr e.denominator_pos.ne'
  rw [value_eq_div, value_eq_div, div_eq_div_iff hd he]
  exact_mod_cast Iff.rfl

/-- Decimals that denote the same number have the same nearest magnitude. -/
theorem nearest?_eq_of_value_eq {d e : Decimal} (h : d.value = e.value) :
    d.nearest? = e.nearest? := by
  refine Magnitude.nearest?_congr d.denominator_pos e.denominator_pos ?_
  rw [Nat.mul_right_comm, value_eq_iff.mp h, Nat.mul_right_comm]

end Decimal

end LoxLexer
