import LoxLexer.Binary64.Basic

/-!
# Rounding to the nearest double

A nonnegative rational is a quotient of two naturals, counted in units of `2 ^ -1074`. Its nearest
magnitude keeps 53 significant bits, or all whole units below `2 ^ 53` of them; a half goes to the
even significand. A quotient that rounds past the largest magnitude has none.
-/
namespace LoxLexer

/-- The whole number nearest to `num / den`, a half going to the even neighbour. -/
def roundHalfEven (num den : Nat) : Nat :=
  let floor := num / den
  let rest := num % den
  if 2 * rest < den then floor
  else if den < 2 * rest then floor + 1
  else floor + floor % 2

theorem div_le_roundHalfEven (num den : Nat) : num / den ≤ roundHalfEven num den := by
  unfold roundHalfEven
  dsimp only
  split
  · exact Nat.le_refl _
  · split <;> omega

theorem roundHalfEven_le (num den : Nat) : roundHalfEven num den ≤ num / den + 1 := by
  unfold roundHalfEven
  dsimp only
  split
  · omega
  · split <;> omega

theorem roundHalfEven_mul_self (n den : Nat) (h : 0 < den) :
    roundHalfEven (n * den) den = n := by
  simp [roundHalfEven, Nat.mul_div_cancel n h, h]

namespace Magnitude

/-- The exponent at which `num / den` units have a significand of at most 53 bits. -/
def exponentFor (num den : Nat) : Nat := Nat.log2 (num / den) - 52

theorem normal_of_exponentFor (num den : Nat) :
    exponentFor num den = 0 ∨
      twoPow 52 ≤ roundHalfEven num (den * twoPow (exponentFor num den)) := by
  by_cases h : exponentFor num den = 0
  · exact .inl h
  · refine .inr (Nat.le_trans ?_ (div_le_roundHalfEven _ _))
    have hlog : exponentFor num den + 52 = Nat.log2 (num / den) := by
      unfold exponentFor at h ⊢
      omega
    have hne : num / den ≠ 0 := by
      intro hz
      rw [hz] at hlog
      have : Nat.log2 0 = 0 := by decide
      omega
    rw [← Nat.div_div_eq_div_mul, Nat.le_div_iff_mul_le (twoPow_pos _), ← twoPow_add,
      Nat.add_comm, hlog]
    exact twoPow_log2_le hne

/-- The magnitude nearest to `num / den` units, or nothing when that lies beyond the largest. -/
def nearest? (num den : Nat) : Option Magnitude :=
  let exponent := exponentFor num den
  let significand := roundHalfEven num (den * twoPow exponent)
  if hs : significand < twoPow 53 then
    if he : exponent ≤ 2045 then
      some ⟨significand, exponent, hs, he, normal_of_exponentFor num den⟩
    else none
  else if he : exponent + 1 ≤ 2045 then
    some ⟨twoPow 52, exponent + 1, by decide, he, .inr (Nat.le_refl _)⟩
  else none

end Magnitude

end LoxLexer
