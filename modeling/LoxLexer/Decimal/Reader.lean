import LoxLexer.Decimal.Basic
import LoxLexer.Text.DecimalDigit
import LoxLexer.Text.Quoted
import LoxLexer.Text.WhiteSpace

/-!
# Reading a number

A written number is an optional sign and either digits, with an optional point among or beside them
and an optional exponent, or a word for an infinity or for `nan`. It denotes the nearest double.
White space may stand around it, digits may be those of any script, and an underscore may stand
between two digits.
-/
namespace LoxLexer

/-- A text was refused because it is no written number. -/
structure NotANumber where
  text : String
deriving DecidableEq

def NotANumber.message (fault : NotANumber) : String :=
  s!"could not convert string to float: {quoted fault.text}"

namespace Decimal

/-- A text without its underscores; nothing if one does not stand between two digits. The flag says
whether a digit stands in front of the text. -/
def joinDigits? (afterDigit : Bool) : List Char → Option (List Char)
  | [] => some []
  | c :: rest =>
    if c = '_' then
      if afterDigit && rest.head?.any Char.isDigit then joinDigits? false rest else none
    else (joinDigits? c.isDigit rest).map (c :: ·)

theorem joinDigits?_of_not_mem {text : List Char} (h : '_' ∉ text) (afterDigit : Bool) :
    joinDigits? afterDigit text = some text := by
  induction text generalizing afterDigit with
  | nil => rfl
  | cons c rest ih =>
    rw [List.mem_cons, not_or] at h
    rw [joinDigits?, if_neg (Ne.symm h.1), ih h.2]
    rfl

/-- A sign, if there is one, and what follows it. -/
def takeSign : List Char → Bool × List Char
  | '-' :: rest => (true, rest)
  | '+' :: rest => (false, rest)
  | text => (false, text)

/-- The exponent that an `e` introduces; zero when nothing is left. -/
def readExponent? : List Char → Option Int
  | [] => some 0
  | mark :: rest =>
    let (negative, digits) := takeSign rest
    if (mark = 'e' || mark = 'E') && digits ≠ [] && digits.all Char.isDigit then
      let size : Int := Nat.ofDigitChars 10 digits 0
      some (if negative then -size else size)
    else none

/-- The digits behind a point, if there is one, and what follows them. -/
def takePoint : List Char → List Char × List Char
  | '.' :: rest => (rest.takeWhile Char.isDigit, rest.dropWhile Char.isDigit)
  | text => ([], text)

/-- The decimal of digits, a point and an exponent. -/
def read? (text : List Char) : Option Decimal :=
  let whole := text.takeWhile Char.isDigit
  let (fraction, afterFraction) := takePoint (text.dropWhile Char.isDigit)
  if whole = [] && fraction = [] then none
  else (readExponent? afterFraction).map fun exponent =>
    let parts := ofParts whole fraction
    ⟨parts.coefficient, parts.exponent + exponent⟩

/-- The exponents of a leading digit that no finite double but zero has lie beyond this bound. -/
def exponentBound : Int := 400

end Decimal

namespace Binary64

/-- The double nearest to a decimal, found without its power of ten when that is out of range. -/
def ofAnyDecimal (negative : Bool) (d : Decimal) : Binary64 :=
  if d.coefficient = 0 then finite negative Magnitude.zero
  else if Decimal.exponentBound < d.exponent then infinite negative
  else if d.exponent + d.digitCount < -Decimal.exponentBound then finite negative Magnitude.zero
  else ofDecimal negative d

/-- The double of a number in ASCII, with nothing around or between its characters. -/
def ofPlain? (text : List Char) : Option Binary64 :=
  let (negative, size) := Decimal.takeSign text
  let word := size.map Char.toLower
  if word = "inf".toList || word = "infinity".toList then some (infinite negative)
  else if word = "nan".toList then some nan
  else (Decimal.read? size).map (ofAnyDecimal negative)

/-- The double that a written number denotes. -/
def ofText? (text : String) : Option Binary64 :=
  (Decimal.joinDigits? false ((trim text.toList).map plainDigit)).bind ofPlain?

def ofText (text : String) : Except NotANumber Binary64 :=
  match ofText? text with
  | some x => .ok x
  | none => .error ⟨text⟩

end Binary64

end LoxLexer
