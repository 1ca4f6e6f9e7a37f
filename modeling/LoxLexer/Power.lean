/-!
# Powers of two and of ten

The two bases in which numbers are scaled, with the laws that rounding rests on.
-/
namespace LoxLexer

def twoPow (exponent : Nat) : Nat := Nat.pow 2 exponent

def tenPow (exponent : Nat) : Nat := Nat.pow 10 exponent

theorem twoPow_pos (exponent : Nat) : 0 < twoPow exponent := Nat.two_pow_pos exponent

theorem tenPow_pos (exponent : Nat) : 0 < tenPow exponent := Nat.pow_pos (by decide)

theorem twoPow_add (m n : Nat) : twoPow (m + n) = twoPow m * twoPow n := Nat.pow_add 2 m n

theorem twoPow_le_twoPow {m n : Nat} (h : m ≤ n) : twoPow m ≤ twoPow n :=
  Nat.pow_le_pow_right (by decide) h

/-- The logarithm is the exponent of the greatest power that is not above the number. -/
theorem twoPow_log2_le {n : Nat} (h : n ≠ 0) : twoPow n.log2 ≤ n := Nat.log2_self_le h

theorem le_log2_of_twoPow_le {k n : Nat} (hne : n ≠ 0) (h : twoPow k ≤ n) : k ≤ n.log2 :=
  (Nat.le_log2 hne).mpr h

end LoxLexer
