import LoxLexer.Token.Kind

/-!
# Classes of characters

The class of a character decides which lexemes may begin with it. Letters and digits are those of
ASCII, with the underscore among the letters; a character of no other class is foreign to Lox.
-/
namespace LoxLexer

inductive CharClass
  | punctuation (mark : Punctuation)
  | operator (symbol : OperatorSymbol)
  | slash
  | quote
  | blank
  | lineBreak
  | digit
  | letter
  | foreign
deriving DecidableEq

/-- The characters that separate lexemes within a line. -/
def blanks : List Char := [' ', '\r', '\t']

def isBlank (c : Char) : Bool := blanks.contains c

def isLetter (c : Char) : Bool := c.isAlpha || c = '_'

/-- The characters of a word after its first. -/
def isWordChar (c : Char) : Bool := isLetter c || c.isDigit

namespace CharClass

def ofChar (c : Char) : CharClass :=
  match Punctuation.ofChar? c with
  | some mark => punctuation mark
  | none =>
    match OperatorSymbol.ofChar? c with
    | some symbol => operator symbol
    | none =>
      if c = '/' then slash
      else if c = '"' then quote
      else if isBlank c then blank
      else if c = '\n' then lineBreak
      else if c.isDigit then digit
      else if isLetter c then letter
      else foreign

theorem toChar_of_punctuation {c : Char} {mark : Punctuation} (h : ofChar c = punctuation mark) :
    mark.toChar = c := by
  unfold ofChar at h
  split at h
  · rename_i mark' hmark
    cases h
    exact Punctuation.ofChar?_eq_some_iff.mp hmark
  · split at h
    · cases h
    · repeat' split at h
      all_goals cases h

theorem toChar_of_operator {c : Char} {symbol : OperatorSymbol} (h : ofChar c = operator symbol) :
    symbol.toChar = c := by
  unfold ofChar at h
  split at h
  · cases h
  · split at h
    · rename_i symbol' hsymbol
      cases h
      exact OperatorSymbol.ofChar?_eq_some_iff.mp hsymbol
    · repeat' split at h
      all_goals cases h

theorem eq_of_slash {c : Char} (h : ofChar c = slash) : c = '/' := by
  unfold ofChar at h
  repeat' split at h
  all_goals first | assumption | cases h

theorem eq_of_quote {c : Char} (h : ofChar c = quote) : c = '"' := by
  unfold ofChar at h
  repeat' split at h
  all_goals first | assumption | cases h

theorem eq_of_lineBreak {c : Char} (h : ofChar c = lineBreak) : c = '\n' := by
  unfold ofChar at h
  repeat' split at h
  all_goals first | assumption | cases h

end CharClass

end LoxLexer
