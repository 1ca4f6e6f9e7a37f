import LoxLexer.Power

/-!
# Double-precision numbers

A finite double is a sign and a magnitude, and a magnitude is a whole number of units of
`2 ^ -1074`, the smallest positive double. Significand and exponent of a magnitude are canonical, so
equality of the data is equality of the doubles bit by bit; `Binary64.equal` is the comparison of
their values.
-/
namespace LoxLexer

/-- The absolute value of a finite double: `significand * twoPow exponent` units. -/
structure Magnitude where
  significand : Nat
  exponent : Nat
  significand_lt : significand < twoPow 53
  exponent_le : exponent ≤ 2045
  normal : exponent = 0 ∨ twoPow 52 ≤ significand
deriving DecidableEq

inductive Binary64
  | finite (negative : Bool) (magnitude : Magnitude)
  | infinite (negative : Bool)
  | nan
deriving DecidableEq

namespace Magnitude

def zero : Magnitude := ⟨0, 0, by decide, by decide, .inl rfl⟩

/-- The size of a magnitude in units of `2 ^ -1074`. -/
def units (x : Magnitude) : Nat := x.significand * twoPow x.exponent

theorem units_eq_zero_iff {x : Magnitude} : x.units = 0 ↔ x = zero := by
  constructor
  · intro h
    have hs : x.significand = 0 := by
      rcases Nat.mul_eq_zero.mp h with h | h
      · exact h
      · exact absurd h (Nat.ne_of_gt (twoPow_pos _))
    obtain ⟨significand, exponent, _, _, normal⟩ := x
    simp only at hs
    subst hs
    have he : exponent = 0 := normal.resolve_right (by decide)
    subst he
    rfl
  · rintro rfl
    rfl

end Magnitude

namespace Binary64

/-- Equality of values: the two zeros are equal, and no double equals a `nan`. -/
def equal : Binary64 → Binary64 → Bool
  | finite s x, finite t y => x = y && (s = t || x = Magnitude.zero)
  | infinite s, infinite t => s = t
  | _, _ => false

theorem equal_self {x : Binary64} (h : x ≠ nan) : x.equal x = true := by
  cases x with
  | finite s x => simp [equal]
  | infinite s => simp [equal]
  | nan => exact absurd rfl h

end Binary64

end LoxLexer
