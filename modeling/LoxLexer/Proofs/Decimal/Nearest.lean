import LoxLexer.Proofs.Decimal.HalfEven
import LoxLexer.Proofs.Decimal.Value

/-!
# The nearest magnitude

Rounding gives the magnitude that is nearest of all to a quotient of units, and of two that are
equally near the one with the even significand (`Magnitude.abs_units_sub_le`). There is none from
the midpoint of the largest magnitude and the next power of two on
(`Magnitude.nearest?_eq_none_iff`), and it is zero up to half a unit
(`Magnitude.nearest?_eq_zero_iff`). A greater quotient never has a smaller nearest magnitude
(`Magnitude.units_le_of_nearest?`).
-/
namespace LoxLexer

theorem cast_twoPow (n : ℕ) : (twoPow n : ℚ) = 2 ^ n := Nat.cast_pow 2 n

namespace Magnitude

/-- The number that a magnitude stands for. -/
def value (x : Magnitude) : ℚ := x.units / 2 ^ 1074

/-- No magnitude is nearer to the rational, and if another is as near this one is even. -/
structure IsNearest (v : ℚ) (x : Magnitude) : Prop where
  abs_sub_le : ∀ y : Magnitude, |x.value - v| ≤ |y.value - v|
  even_of_tie : ∀ y : Magnitude, y ≠ x → |y.value - v| = |x.value - v| → Even x.significand

theorem units_injective : Function.Injective units := by
  intro x y h
  have hx := x.nearest?_units
  rw [h, y.nearest?_units] at hx
  exact (Option.some.inj hx).symm

/-- A magnitude is a multiple of a power of two, or smaller than any with 53 bits at that power. -/
theorem units_multiple_or_lt (y : Magnitude) (exponent : ℕ) :
    (∃ k, y.units = k * twoPow exponent) ∨ (exponent ≠ 0 ∧ y.units < twoPow (exponent + 52)) := by
  by_cases h : exponent ≤ y.exponent
  · refine .inl ⟨y.significand * twoPow (y.exponent - exponent), ?_⟩
    rw [units, Nat.mul_assoc, ← twoPow_add, Nat.sub_add_cancel h]
  · refine .inr ⟨by omega, Nat.lt_of_lt_of_le y.units_lt (twoPow_le_twoPow (by omega))⟩

section Nearest

variable {num den : ℕ} {x : Magnitude}

theorem div_lt_twoPow (num den : ℕ) : num / den < twoPow (exponentFor num den + 53) := by
  have hlt : num / den < twoPow ((num / den).log2 + 1) := Nat.lt_log2_self
  refine Nat.lt_of_lt_of_le hlt (twoPow_le_twoPow ?_)
  rw [exponentFor]
  omega

theorem exponentFor_mono {num' : ℕ} (h : num ≤ num') :
    exponentFor num den ≤ exponentFor num' den := by
  have hle : num / den ≤ num' / den := Nat.div_le_div_right h
  rw [exponentFor, exponentFor]
  by_cases hzero : num / den = 0
  · rw [hzero]
    exact Nat.zero_le _
  · have hne : num' / den ≠ 0 := fun hzero' => hzero (Nat.le_zero.mp (hzero' ▸ hle))
    exact Nat.sub_le_sub_right (le_log2_of_twoPow_le hne ((twoPow_log2_le hzero).trans hle)) 52

theorem twoPow_le_div (h : exponentFor num den ≠ 0) :
    twoPow (exponentFor num den + 52) ≤ num / den := by
  rw [exponentFor] at h ⊢
  have hne : num / den ≠ 0 := by
    intro hzero
    rw [hzero] at h
    exact h rfl
  rw [Nat.sub_add_cancel (by omega)]
  exact twoPow_log2_le hne

/-- The significand that is kept before a carry. -/
def kept (num den : ℕ) : ℕ := roundHalfEven num (den * twoPow (exponentFor num den))

theorem kept_le (num den : ℕ) : kept num den ≤ twoPow 53 := by
  have hlt := div_lt_twoPow num den
  rw [Nat.add_comm, twoPow_add] at hlt
  have hfloor : num / (den * twoPow (exponentFor num den)) < twoPow 53 := by
    rw [← Nat.div_div_eq_div_mul]
    exact Nat.div_lt_of_lt_mul (by rwa [Nat.mul_comm])
  exact (roundHalfEven_le _ _).trans hfloor

theorem le_kept (h : exponentFor num den ≠ 0) : twoPow 52 ≤ kept num den :=
  (normal_of_exponentFor num den).resolve_left h

/-- A carry changes significand and exponent but not the number, and the new significand is even. -/
theorem units_of_nearest? (h : nearest? num den = some x) :
    x.units = kept num den * twoPow (exponentFor num den) ∧
      (Even (kept num den) → Even x.significand) := by
  have hle := kept_le num den
  rw [nearest?] at h
  rw [kept] at hle ⊢
  split at h
  · split at h
    · cases h
      exact ⟨rfl, id⟩
    · cases h
  · rename_i hcarry
    split at h
    · cases h
      have hkept : roundHalfEven num (den * twoPow (exponentFor num den)) = twoPow 53 := by omega
      have heven : Even (twoPow 52) := by decide
      refine ⟨?_, fun _ => heven⟩
      rw [hkept]
      change twoPow 52 * twoPow (exponentFor num den + 1) = twoPow 53 * twoPow (exponentFor num den)
      rw [← twoPow_add, ← twoPow_add]
      exact congrArg twoPow (by omega)
    · cases h

theorem nearest?_eq_none_iff_kept :
    nearest? num den = none ↔ 2045 < exponentFor num den ∨
      exponentFor num den = 2045 ∧ kept num den = twoPow 53 := by
  have hle := kept_le num den
  rw [nearest?]
  rw [kept] at hle ⊢
  split
  · split <;> simp <;> omega
  · split <;> simp <;> omega

/-- The quotient that is rounded, at its full size. -/
theorem quotient_mul_twoPow (num den exponent : ℕ) :
    (num / (den * twoPow exponent : ℕ) * 2 ^ exponent : ℚ) = num / den := by
  rw [Nat.cast_mul, cast_twoPow, div_mul_eq_mul_div, mul_div_mul_right _ _ (by positivity)]

section Quotient

variable (hden : 0 < den)
include hden

theorem den_mul_twoPow_pos (exponent : ℕ) : 0 < den * twoPow exponent :=
  Nat.mul_pos hden (twoPow_pos exponent)

/-- The quotient that is rounded to the kept significand. -/
theorem quotient_bounds :
    (num / (den * twoPow (exponentFor num den) : ℕ) : ℚ) < 2 ^ 53 ∧
      (exponentFor num den ≠ 0 →
        2 ^ 52 ≤ (num / (den * twoPow (exponentFor num den) : ℕ) : ℚ)) := by
  have hpos : (0 : ℚ) < (den * twoPow (exponentFor num den) : ℕ) :=
    Nat.cast_pos.mpr (den_mul_twoPow_pos hden _)
  rw [div_lt_iff₀ hpos, le_div_iff₀ hpos, ← cast_twoPow, ← cast_twoPow]
  constructor
  · have hlt := (Nat.div_lt_iff_lt_mul hden).mp (div_lt_twoPow num den)
    rw [Nat.add_comm, twoPow_add, Nat.mul_assoc, Nat.mul_comm _ den] at hlt
    exact_mod_cast hlt
  · intro hexponent
    have hle := (Nat.le_div_iff_mul_le hden).mp (twoPow_le_div hexponent)
    rw [Nat.add_comm, twoPow_add, Nat.mul_assoc, Nat.mul_comm _ den] at hle
    exact_mod_cast hle

/-- A magnitude is nearest to the quotient of which it keeps the significand. -/
theorem abs_units_sub_le (h : nearest? num den = some x) (y : Magnitude) :
    |(x.units : ℚ) - num / den| ≤ |(y.units : ℚ) - num / den| ∧
      (y ≠ x → |(y.units : ℚ) - num / den| = |(x.units : ℚ) - num / den| →
        Even x.significand) := by
  obtain ⟨hunits, heven⟩ := units_of_nearest? h
  obtain ⟨-, hlow⟩ := @quotient_bounds num den hden
  obtain hkept := @abs_roundHalfEven_sub_le_abs num (den * twoPow (exponentFor num den))
    (den_mul_twoPow_pos hden _)
  rw [← kept] at hkept
  generalize exponentFor num den = e at *
  have hscale : (0 : ℚ) < 2 ^ e := by positivity
  have hquotient := quotient_mul_twoPow num den e
  have hsplit (k : ℕ) : |((k * twoPow e : ℕ) : ℚ) - num / den| =
      |(k : ℚ) - num / (den * twoPow e : ℕ)| * 2 ^ e := by
    rw [← hquotient, Nat.cast_mul, cast_twoPow, ← sub_mul, abs_mul, abs_of_pos hscale]
  rw [hunits, hsplit]
  obtain ⟨k, hk⟩ | ⟨he, hlt⟩ := y.units_multiple_or_lt e
  · rw [hk, hsplit, mul_le_mul_iff_of_pos_right hscale, mul_left_inj' hscale.ne']
    refine ⟨(hkept k).1, fun hne htie => heven ((hkept k).2 ?_ htie)⟩
    rintro rfl
    exact hne (units_injective (hk.trans hunits.symm))
  · -- a number below the binade is farther from the quotient than the least number in it
    have hleast := (hkept (twoPow 52)).1
    rw [← mul_le_mul_iff_of_pos_right hscale, ← hsplit (twoPow 52), ← twoPow_add,
      Nat.add_comm] at hleast
    have hleast' : ((twoPow (e + 52) : ℕ) : ℚ) ≤ num / den := by
      rw [← hquotient, cast_twoPow, add_comm, pow_add]
      exact mul_le_mul_of_nonneg_right (hlow he) hscale.le
    have hbelow : (y.units : ℚ) < (twoPow (e + 52) : ℕ) := by exact_mod_cast hlt
    have hfar : |((twoPow (e + 52) : ℕ) : ℚ) - num / den| < |(y.units : ℚ) - num / den| := by
      rw [abs_of_nonpos (by linarith), abs_of_nonpos (by linarith)]
      linarith
    exact ⟨by linarith, fun _ htie => absurd htie (by linarith)⟩

/-- There is no nearest magnitude from the midpoint on that lies behind the largest one. -/
theorem nearest?_eq_none_iff :
    nearest? num den = none ↔ ((2 ^ 54 - 1) * 2 ^ 2044 : ℚ) ≤ num / den := by
  obtain ⟨hhigh, hlow⟩ := @quotient_bounds num den hden
  have hcarry := @lt_roundHalfEven_iff num _ (den_mul_twoPow_pos hden (exponentFor num den))
    (twoPow 53 - 1)
  have hle := kept_le num den
  have hpredecessor : ((twoPow 53 - 1 : ℕ) : ℚ) = 2 ^ 53 - 1 := by
    rw [Nat.cast_pred (twoPow_pos 53), cast_twoPow]
  have hodd : Odd (twoPow 53 - 1) := by decide
  rw [← kept, hpredecessor] at hcarry
  rw [nearest?_eq_none_iff_kept, ← quotient_mul_twoPow num den (exponentFor num den)]
  have hpos : (0 : ℚ) < 2 ^ 2044 := by positivity
  have hbelow {e : ℕ} (he : e < 2045) : (2 : ℚ) ^ e ≤ 2 ^ 2044 :=
    pow_le_pow_right₀ one_le_two (by omega)
  have htop : (2 : ℚ) ^ 2045 = 2 ^ 2044 * 2 := pow_succ 2 2044
  have habove {e : ℕ} (he : 2045 < e) : (2 : ℚ) ^ 2044 * 2 ^ 2 ≤ 2 ^ e :=
    (pow_add 2 2044 2).symm.le.trans (pow_le_pow_right₀ one_le_two (by omega))
  generalize exponentFor num den = e at *
  generalize (num / (den * twoPow e : ℕ) : ℚ) = t at *
  generalize (2 : ℚ) ^ 2044 = unit at *
  obtain hsmall | rfl | hlarge := lt_trichotomy e 2045
  · have hlt : t * 2 ^ e < (2 ^ 54 - 1) * unit := calc
      t * 2 ^ e < 2 ^ 53 * 2 ^ e := by gcongr
      _ ≤ 2 ^ 53 * unit := by gcongr; exact hbelow hsmall
      _ < (2 ^ 54 - 1) * unit := by gcongr; norm_num
    exact iff_of_false (by omega) hlt.not_ge
  · have hkept : kept num den = twoPow 53 ↔ twoPow 53 - 1 < kept num den := by
      rw [Nat.lt_iff_add_one_le, Nat.sub_add_cancel (twoPow_pos 53)]
      exact ⟨fun heq => heq.ge, fun hge => hle.antisymm hge⟩
    have hscale : t * (unit * 2) = 2 * t * unit := by ring
    rw [htop, hkept, hcarry, hscale, mul_le_mul_iff_of_pos_right hpos]
    simp only [hodd, and_true, ← le_iff_lt_or_eq, lt_irrefl, false_or, true_and]
    constructor <;> intro hmidpoint <;> linarith
  · have hge : (2 ^ 54 - 1) * unit ≤ t * 2 ^ e := calc
      (2 ^ 54 - 1) * unit ≤ 2 ^ 52 * (unit * 2 ^ 2) := by linarith only [hpos]
      _ ≤ 2 ^ 52 * 2 ^ e := by gcongr; exact habove hlarge
      _ ≤ t * 2 ^ e := by gcongr; exact hlow (by omega)
    exact iff_of_true (.inl hlarge) hge

/-- The nearest magnitude is zero up to half a unit. -/
theorem nearest?_eq_zero_iff : nearest? num den = some zero ↔ (num / den : ℚ) ≤ 1 / 2 := by
  have hround := @lt_roundHalfEven_iff num _ (den_mul_twoPow_pos hden (exponentFor num den)) 0
  have hodd : ¬Odd 0 := by decide
  rw [← kept, Nat.cast_zero, zero_add, or_iff_left fun h => hodd h.2, ← not_le, ← not_le,
    not_iff_not, Nat.le_zero] at hround
  have hsame (he : exponentFor num den = 0) : kept num den = 0 ↔ (num / den : ℚ) ≤ 1 / 2 := by
    rw [hround, he, ← quotient_mul_twoPow num den 0, pow_zero, mul_one]
  constructor
  · intro h
    have hkept : kept num den = 0 :=
      (Nat.mul_eq_zero.mp (units_of_nearest? h).1.symm).resolve_right (twoPow_pos _).ne'
    refine (hsame ?_).mp hkept
    by_contra hne
    exact absurd (hkept ▸ le_kept hne) (by decide)
  · intro h
    have hlt : num < den := by
      have : (num / den : ℚ) < 1 := by linarith
      exact_mod_cast (div_lt_one (Nat.cast_pos.mpr hden)).mp this
    have he : exponentFor num den = 0 := by
      rw [exponentFor, Nat.div_eq_of_lt hlt]
      rfl
    have hsome : nearest? num den ≠ none := by
      rw [Ne, nearest?_eq_none_iff_kept, he]
      simp
    obtain ⟨x, hx⟩ := Option.ne_none_iff_exists'.mp hsome
    rw [hx, Option.some.injEq, ← units_eq_zero_iff, (units_of_nearest? hx).1, (hsame he).mpr h,
      Nat.zero_mul]

/-- A greater rational never has a smaller nearest magnitude. -/
theorem units_le_of_nearest? {num' : ℕ} {y : Magnitude} (hle : num ≤ num')
    (hx : nearest? num den = some x) (hy : nearest? num' den = some y) : x.units ≤ y.units := by
  rw [(units_of_nearest? hx).1, (units_of_nearest? hy).1]
  obtain heq | hlt := (@exponentFor_mono num den num' hle).eq_or_lt
  · rw [kept, kept, heq]
    exact Nat.mul_le_mul_right _ (roundHalfEven_mono (den_mul_twoPow_pos hden _) hle)
  · calc
      kept num den * twoPow (exponentFor num den) ≤ twoPow 53 * twoPow (exponentFor num den) :=
        Nat.mul_le_mul_right _ (kept_le num den)
      _ ≤ twoPow 52 * twoPow (exponentFor num' den) := by
        rw [← twoPow_add, ← twoPow_add]
        exact twoPow_le_twoPow (by omega)
      _ ≤ kept num' den * twoPow (exponentFor num' den) :=
        Nat.mul_le_mul_right _ (le_kept (by omega))

end Quotient

end Nearest

/-- Distances between numbers and between units are the same up to the unit. -/
theorem abs_value_sub (x : Magnitude) (v : ℚ) :
    |x.value - v| = |x.units - v * 2 ^ 1074| / 2 ^ 1074 := by
  have hpos : (0 : ℚ) < 2 ^ 1074 := by positivity
  generalize hunit : (2 : ℚ) ^ 1074 = unit at *
  rw [value, hunit, eq_div_iff hpos.ne', ← abs_of_pos hpos, ← abs_mul, abs_of_pos hpos, sub_mul,
    div_mul_cancel₀ _ hpos.ne']

theorem value_le_value_iff {x y : Magnitude} : x.value ≤ y.value ↔ x.units ≤ y.units := by
  have hpos : (0 : ℚ) < 2 ^ 1074 := by positivity
  rw [value, value, div_le_div_iff_of_pos_right hpos, Nat.cast_le]

end Magnitude

end LoxLexer
