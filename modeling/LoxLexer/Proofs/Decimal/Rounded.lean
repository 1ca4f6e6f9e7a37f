import LoxLexer.Proofs.Decimal.Nearest

/-!
# The double nearest to a decimal

A decimal is read as the double nearest to the number that it denotes, a tie going to the even
significand (`Decimal.isNearest_of_nearest?`), as infinity just if it is too large for any finite
one and as zero just if it is too small (`Binary64.isRounded_ofDecimal`). Greater decimals are not
read as smaller doubles (`Binary64.le_ofDecimal`).
-/
namespace LoxLexer

namespace Decimal

variable {d e : Decimal} {x y : Magnitude}

theorem units_eq (d : Decimal) :
    ((d.numerator * twoPow 1074 : ℕ) / d.denominator : ℚ) = d.value * 2 ^ 1074 := by
  rw [value_eq_div, Nat.cast_mul, cast_twoPow, mul_div_right_comm]

/-- Reading a decimal gives the nearest magnitude, a tie going to the even significand. -/
theorem isNearest_of_nearest? (h : d.nearest? = some x) : x.IsNearest d.value := by
  have hpos : (0 : ℚ) < 2 ^ 1074 := by positivity
  have hnearest := Magnitude.abs_units_sub_le d.denominator_pos h
  rw [units_eq] at hnearest
  constructor
  · intro y
    rw [x.abs_value_sub, y.abs_value_sub, div_le_div_iff_of_pos_right hpos]
    exact (hnearest y).1
  · intro y hne htie
    rw [x.abs_value_sub, y.abs_value_sub, div_left_inj' hpos.ne'] at htie
    exact (hnearest y).2 hne htie

/-- A decimal is too large from the midpoint of the largest double and `2 ^ 1024` on. -/
theorem nearest?_eq_none_iff : d.nearest? = none ↔ (2 ^ 1024 - 2 ^ 970 : ℚ) ≤ d.value := by
  have hthreshold : (2 ^ 54 - 1 : ℚ) * 2 ^ 2044 = (2 ^ 1024 - 2 ^ 970) * 2 ^ 1074 := by
    have htop : (2 : ℚ) ^ 2044 = 2 ^ 970 * 2 ^ 1074 := pow_add 2 970 1074
    have hlimit : (2 : ℚ) ^ 1024 = 2 ^ 54 * 2 ^ 970 := pow_add 2 54 970
    rw [htop, hlimit, ← sub_one_mul, mul_assoc]
  rw [nearest?, Magnitude.nearest?_eq_none_iff d.denominator_pos, units_eq, hthreshold,
    mul_le_mul_iff_of_pos_right (by positivity)]

/-- A decimal is too small up to half the least positive double. -/
theorem nearest?_eq_zero_iff : d.nearest? = some Magnitude.zero ↔ d.value ≤ 1 / 2 ^ 1075 := by
  have hthreshold : (1 / 2 : ℚ) = 1 / 2 ^ 1075 * 2 ^ 1074 := by
    have hsucc : (2 : ℚ) ^ 1075 = 2 ^ 1074 * 2 := pow_succ 2 1074
    have hpos : (0 : ℚ) < 2 ^ 1074 := by positivity
    rw [hsucc]
    field_simp
  rw [nearest?, Magnitude.nearest?_eq_zero_iff d.denominator_pos, units_eq, hthreshold,
    mul_le_mul_iff_of_pos_right (by positivity)]

/-- Reading decimals keeps their order. -/
theorem value_le_of_nearest? (h : d.value ≤ e.value) (hd : d.nearest? = some x)
    (he : e.nearest? = some y) : x.value ≤ y.value := by
  rw [value_eq_div, value_eq_div, div_le_div_iff₀ (Nat.cast_pos.mpr d.denominator_pos)
    (Nat.cast_pos.mpr e.denominator_pos)] at h
  rw [nearest?, ← Magnitude.nearest?_scale _ _ e.denominator_pos] at hd
  rw [nearest?, ← Magnitude.nearest?_scale _ _ d.denominator_pos, Nat.mul_comm e.denominator] at he
  rw [Magnitude.value_le_value_iff]
  refine Magnitude.units_le_of_nearest? (Nat.mul_pos d.denominator_pos e.denominator_pos) ?_ hd he
  rw [Nat.mul_right_comm, Nat.mul_right_comm e.numerator]
  exact Nat.mul_le_mul_right _ (by exact_mod_cast h)

end Decimal

namespace Binary64

/-- The units of a magnitude with its sign. -/
def signedUnits (negative : Bool) (x : Magnitude) : Int := if negative then -x.units else x.units

/-- The order of doubles by their values; a `nan` has no place in it. -/
def le : Binary64 → Binary64 → Bool
  | nan, _ | _, nan => false
  | infinite true, _ | _, infinite false => true
  | finite s x, finite t y => signedUnits s x ≤ signedUnits t y
  | _, _ => false

/-- A double is what a nonnegative number is rounded to: the nearest finite double, or infinity from
the midpoint of the largest one and `2 ^ 1024` on. -/
structure IsRounded (v : ℚ) (x : Binary64) : Prop where
  ne_nan : x ≠ nan
  not_negative : x ≠ infinite true ∧ ∀ m, x ≠ finite true m
  infinite_iff : x = infinite false ↔ 2 ^ 1024 - 2 ^ 970 ≤ v
  zero_iff : x = finite false Magnitude.zero ↔ v ≤ 1 / 2 ^ 1075
  exists_isNearest : v < 2 ^ 1024 - 2 ^ 970 → ∃ m, x = finite false m ∧ m.IsNearest v

variable {d e : Decimal}

theorem isRounded_ofDecimal (d : Decimal) : (ofDecimal false d).IsRounded d.value := by
  have hlarge := @Decimal.nearest?_eq_none_iff d
  have hsmall := @Decimal.nearest?_eq_zero_iff d
  rw [ofDecimal]
  cases hnearest : d.nearest? with
  | none =>
    rw [hnearest] at hlarge hsmall
    rw [Option.elim_none]
    refine ⟨Binary64.noConfusion, ⟨by simp, by simp⟩, ?_, ?_, fun hlt => ?_⟩
    · simpa using hlarge
    · simpa using hsmall
    · exact absurd (hlarge.mp rfl) hlt.not_ge
  | some m =>
    rw [hnearest] at hlarge hsmall
    rw [Option.elim_some]
    refine ⟨Binary64.noConfusion, ⟨by simp, by simp⟩, ?_, ?_, fun _ => ?_⟩
    · simpa using hlarge
    · simpa using hsmall
    · exact ⟨m, rfl, Decimal.isNearest_of_nearest? hnearest⟩

/-- Reading decimals keeps their order. -/
theorem le_ofDecimal (h : d.value ≤ e.value) :
    (ofDecimal false d).le (ofDecimal false e) = true := by
  rw [ofDecimal, ofDecimal]
  cases he : e.nearest? with
  | none => cases d.nearest? <;> rfl
  | some y =>
    cases hd : d.nearest? with
    | none =>
      rw [Decimal.nearest?_eq_none_iff] at hd
      rw [Decimal.nearest?_eq_none_iff.mpr (hd.trans h)] at he
      cases he
    | some x =>
      have hle := Decimal.value_le_of_nearest? h hd he
      rw [Magnitude.value_le_value_iff] at hle
      simpa [le, signedUnits] using hle

end Binary64

end LoxLexer
