import LoxLexer.Binary64.Round
import Mathlib.Algebra.Order.Field.Rat
import Mathlib.Algebra.Ring.Parity
import Mathlib.Tactic.Linarith
import Mathlib.Tactic.NormNum
import Mathlib.Tactic.Positivity

/-!
# Rounding to a whole number

A quotient is rounded to the whole number nearest to it, and from the midpoint of two whole numbers
to the even one (`abs_roundHalfEven_sub_le_abs`). So where a rounded number goes beyond a whole
number is decided at the midpoint behind that (`lt_roundHalfEven_iff`), and rounding keeps the order
of quotients (`roundHalfEven_mono`).
-/
namespace LoxLexer

variable {num den : ℕ} (hden : 0 < den)
include hden

/-- A quotient is its whole part and the rest over the denominator. -/
theorem div_eq_add_mod_div : (num / den : ℚ) = (num / den : ℕ) + (num % den : ℕ) / (den : ℚ) := by
  have hpos : (0 : ℚ) < den := Nat.cast_pos.mpr hden
  have hsum : (num : ℚ) = den * (num / den : ℕ) + (num % den : ℕ) := by
    exact_mod_cast (Nat.div_add_mod num den).symm
  rw [div_eq_iff hpos.ne', add_mul, div_mul_cancel₀ _ hpos.ne']
  linarith

/-- Rounding moves a quotient by at most a half, and by a half only to an even number. -/
theorem abs_roundHalfEven_sub_le : |(roundHalfEven num den : ℚ) - num / den| ≤ 1 / 2 ∧
    (|(roundHalfEven num den : ℚ) - num / den| = 1 / 2 → Even (roundHalfEven num den)) := by
  have hpos : (0 : ℚ) < den := Nat.cast_pos.mpr hden
  have hlt : ((num % den : ℕ) : ℚ) / den < 1 := by
    rw [div_lt_one hpos]
    exact_mod_cast Nat.mod_lt num hden
  have hnonneg : (0 : ℚ) ≤ ((num % den : ℕ) : ℚ) / den := by positivity
  rw [div_eq_add_mod_div hden, roundHalfEven]
  split
  · rename_i hbelow
    have hhalf : ((num % den : ℕ) : ℚ) / den < 1 / 2 := by
      rw [div_lt_iff₀ hpos]
      have : (2 : ℚ) * (num % den : ℕ) < den := by exact_mod_cast hbelow
      linarith
    rw [sub_add_cancel_left, abs_neg, abs_of_nonneg hnonneg]
    exact ⟨hhalf.le, fun heq => absurd heq hhalf.ne⟩
  · split
    · rename_i habove
      have hhalf : 1 / 2 < ((num % den : ℕ) : ℚ) / den := by
        rw [lt_div_iff₀ hpos]
        have : (den : ℚ) < 2 * (num % den : ℕ) := by exact_mod_cast habove
        linarith
      rw [Nat.cast_add, Nat.cast_one, add_sub_add_left_eq_sub, abs_of_nonneg (by linarith)]
      exact ⟨by linarith, fun heq => absurd heq (by linarith)⟩
    · have hhalf : ((num % den : ℕ) : ℚ) / den = 1 / 2 := by
        rw [div_eq_iff hpos.ne']
        have : (2 : ℚ) * (num % den : ℕ) = den := by
          exact_mod_cast (by omega : 2 * (num % den) = den)
        linarith
      refine ⟨?_, fun _ => Nat.even_iff.mpr (by omega)⟩
      rw [Nat.cast_add, add_sub_add_left_eq_sub, hhalf]
      obtain heven | hodd := Nat.mod_two_eq_zero_or_one (num / den)
      · rw [heven]
        norm_num
      · rw [hodd]
        norm_num

/-- No whole number is nearer than the rounded one, and if another is as near the rounded one is
even. -/
theorem abs_roundHalfEven_sub_le_abs (k : ℕ) :
    |(roundHalfEven num den : ℚ) - num / den| ≤ |(k : ℚ) - num / den| ∧
      (k ≠ roundHalfEven num den →
        |(k : ℚ) - num / den| = |(roundHalfEven num den : ℚ) - num / den| →
        Even (roundHalfEven num den)) := by
  obtain ⟨hhalf, heven⟩ := @abs_roundHalfEven_sub_le num den hden
  by_cases hk : k = roundHalfEven num den
  · rw [hk]
    exact ⟨le_rfl, fun hne => absurd rfl hne⟩
  · -- the two whole numbers are at least one apart, so one of them is at least a half away
    have hapart : (1 : ℚ) ≤ |(k : ℚ) - roundHalfEven num den| := by
      exact_mod_cast Int.one_le_abs (sub_ne_zero.mpr (Nat.cast_injective.ne hk))
    have hsum : |(k : ℚ) - roundHalfEven num den| ≤
        |(k : ℚ) - num / den| + |(roundHalfEven num den : ℚ) - num / den| := by
      rw [abs_sub_comm (roundHalfEven num den : ℚ)]
      exact abs_sub_le _ _ _
    exact ⟨by linarith, fun _ heq => heven (by linarith)⟩

/-- Rounding goes beyond a whole number from the midpoint behind it on, and at the midpoint itself
just if the whole number is odd. -/
theorem lt_roundHalfEven_iff (m : ℕ) :
    m < roundHalfEven num den ↔
      (m + 1 / 2 : ℚ) < num / den ∨ (m + 1 / 2 : ℚ) = num / den ∧ Odd m := by
  obtain ⟨hhalf, heven⟩ := @abs_roundHalfEven_sub_le num den hden
  obtain ⟨hlow, hhigh⟩ := abs_le.mp hhalf
  constructor
  · intro hlt
    have hsucc : (m + 1 : ℚ) ≤ roundHalfEven num den := by exact_mod_cast hlt
    obtain hbelow | htie := (by linarith : (m + 1 / 2 : ℚ) ≤ num / den).lt_or_eq
    · exact .inl hbelow
    · have hnext : roundHalfEven num den = m + 1 := by
        have : (roundHalfEven num den : ℚ) = m + 1 := by linarith
        exact_mod_cast this
      rw [hnext, ← htie, Nat.cast_add, Nat.cast_one, add_sub_add_left_eq_sub, Nat.even_add_one,
        Nat.not_even_iff_odd] at heven
      exact .inr ⟨htie, heven (by norm_num)⟩
  · intro h
    by_contra hge
    have hle : (roundHalfEven num den : ℚ) ≤ m := by exact_mod_cast Nat.le_of_not_lt hge
    obtain hbelow | ⟨htie, hodd⟩ := h
    · linarith
    · have hsame : roundHalfEven num den = m := by
        have : (roundHalfEven num den : ℚ) = m := by linarith
        exact_mod_cast this
      rw [hsame, ← htie, sub_add_cancel_left, abs_neg] at heven
      exact Nat.not_even_iff_odd.mpr hodd (heven (by norm_num))

/-- A greater quotient is never rounded to a smaller number. -/
theorem roundHalfEven_mono {num' : ℕ} (h : num ≤ num') :
    roundHalfEven num den ≤ roundHalfEven num' den := by
  have hquotient : (num / den : ℚ) ≤ num' / den := by gcongr
  refine le_of_forall_lt fun m hm => ?_
  rw [lt_roundHalfEven_iff hden] at hm ⊢
  obtain hbelow | ⟨htie, hodd⟩ := hm
  · exact .inl (hbelow.trans_le hquotient)
  · exact (htie.le.trans hquotient).lt_or_eq.imp_right fun heq => ⟨heq, hodd⟩

end LoxLexer
