/-!
# Hexadecimal numbers of a least width

Digits are lower case unless the name says otherwise, and zeros in front fill up the width.
-/
namespace LoxLexer

def hexText (width n : Nat) : List Char := (Nat.toDigits 16 n).leftpad width '0'

def upperHexText (width n : Nat) : List Char := (hexText width n).map Char.toUpper

theorem length_hexText {width n : Nat} (positive : 0 < width) (h : n < Nat.pow 16 width) :
    (hexText width n).length = width := by
  have := (Nat.length_toDigits_le_iff (b := 16) (by decide) positive).mpr h
  simp [hexText, this]

end LoxLexer
