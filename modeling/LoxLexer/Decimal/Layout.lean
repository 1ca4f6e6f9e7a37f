import LoxLexer.Decimal.Basic

/-!
# The written form of a decimal

A decimal whose leading digit stands for `10 ^ -4` up to `10 ^ 15` is written with a point and at
least one digit on either side of it. Any other is written as leading digit, point and further
digits if there are any, and a signed exponent of at least two digits.
-/
namespace LoxLexer.Decimal

/-- The least exponent of a leading digit that lets the point stand in its place. -/
def lowestPositional : Int := -4

/-- The greatest such exponent. -/
def highestPositional : Int := 15

/-- The exponent of the leading digit. -/
def leadingExponent (d : Decimal) : Int := d.exponent + d.digitCount - 1

def isPositional (d : Decimal) : Bool :=
  lowestPositional ≤ d.leadingExponent && d.leadingExponent ≤ highestPositional

/-- Digits with the point `places` digits before their end, filled up with zeros. -/
def insertPoint (digits : List Char) (places : Nat) : List Char :=
  if places < digits.length then
    digits.take (digits.length - places) ++ '.' :: digits.drop (digits.length - places)
  else '0' :: '.' :: List.replicate (places - digits.length) '0' ++ digits

def positional (digits : List Char) (exponent : Int) : List Char :=
  if 0 ≤ exponent then digits ++ List.replicate exponent.toNat '0' ++ ['.', '0']
  else insertPoint digits (-exponent).toNat

/-- An exponent with its sign and at least two digits. -/
def exponentText (exponent : Int) : List Char :=
  (if exponent < 0 then '-' else '+') :: (Nat.toDigits 10 exponent.natAbs).leftpad 2 '0'

def scientific (digits : List Char) (leading : Int) : List Char :=
  match digits with
  | [] => []
  | [digit] => digit :: 'e' :: exponentText leading
  | digit :: more => digit :: '.' :: more ++ 'e' :: exponentText leading

/-- The written form of a decimal, its coefficient taken without zeros at the end. -/
def written (d : Decimal) : List Char :=
  let digits := Nat.toDigits 10 d.coefficient
  if d.isPositional then positional digits d.exponent else scientific digits d.leadingExponent

end LoxLexer.Decimal
