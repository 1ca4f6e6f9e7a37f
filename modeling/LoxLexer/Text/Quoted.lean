import LoxLexer.Text.Hex
import LoxLexer.Text.Printable

/-!
# Quoted text

Text between quotation marks. The mark is the apostrophe, or the double quote where the text holds
an apostrophe and no double quote. The mark and the backslash follow a backslash; line feed,
carriage return and tab have a letter, and any other character that is not printable is written by
its code point, in two, four or eight hexadecimal digits.
-/
namespace LoxLexer.Quoted

def apostrophe : Char := '\''

def doubleQuote : Char := '"'

/-- The mark that goes around a text. -/
def markFor (text : List Char) : Char :=
  if text.contains apostrophe && !text.contains doubleQuote then doubleQuote else apostrophe

def codeEscape (code : Nat) : List Char :=
  if code < 0x100 then '\\' :: 'x' :: hexText 2 code
  else if code < 0x10000 then '\\' :: 'u' :: hexText 4 code
  else '\\' :: 'U' :: hexText 8 code

/-- One character between two marks. -/
def escape (mark c : Char) : List Char :=
  if c = mark || c = '\\' then ['\\', c]
  else if c = '\n' then ['\\', 'n']
  else if c = '\r' then ['\\', 'r']
  else if c = '\t' then ['\\', 't']
  else if isPrintable c then [c]
  else codeEscape c.toNat

def encode (text : List Char) : List Char :=
  markFor text :: text.flatMap (escape (markFor text)) ++ [markFor text]

end LoxLexer.Quoted

namespace LoxLexer

/-- A text between quotation marks, with escapes. -/
def quoted (text : String) : String := String.ofList (Quoted.encode text.toList)

end LoxLexer
