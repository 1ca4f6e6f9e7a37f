import LoxLexer.Binary64.Round

/-!
# Decimal numbers

A decimal is `coefficient * 10 ^ exponent`. Digits with an optional point denote one, and every
decimal has a nearest double.
-/
namespace LoxLexer

structure Decimal where
  coefficient : Nat
  exponent : Int
deriving DecidableEq

namespace Decimal

def numerator (d : Decimal) : Nat := d.coefficient * tenPow d.exponent.toNat

def denominator (d : Decimal) : Nat := tenPow (-d.exponent).toNat

/-- The decimal written as `whole.fraction`. -/
def ofParts (whole fraction : List Char) : Decimal :=
  ⟨Nat.ofDigitChars 10 (whole ++ fraction) 0, -fraction.length⟩

/-- The decimal that digits denote, with at most one point among them. -/
def ofNumeral (text : List Char) : Decimal :=
  ofParts (text.takeWhile Char.isDigit) ((text.dropWhile Char.isDigit).drop 1)

/-- The nearest magnitude, or nothing when the decimal rounds past the largest double. -/
def nearest? (d : Decimal) : Option Magnitude :=
  Magnitude.nearest? (d.numerator * twoPow 1074) d.denominator

/-- How many digits the coefficient has. -/
def digitCount (d : Decimal) : Nat := (Nat.toDigits 10 d.coefficient).length

end Decimal

/-- The double nearest to a decimal with a sign; infinite when there is no finite one. -/
def Binary64.ofDecimal (negative : Bool) (d : Decimal) : Binary64 :=
  d.nearest?.elim (infinite negative) (finite negative)

end LoxLexer
