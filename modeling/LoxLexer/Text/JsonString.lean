import LoxLexer.Text.Hex

/-!
# JSON strings in ASCII

Characters from the space to the tilde stand for themselves, the double quote and the backslash
after a backslash. Five control characters have a letter; everything else is written by its UTF-16
units, four hexadecimal digits each.
-/
namespace LoxLexer.JsonString

/-- The UTF-16 units of a code point. -/
def units16 (code : Nat) : List Nat :=
  if code < 0x10000 then [code]
  else [0xD800 + (code - 0x10000) / 0x400, 0xDC00 + (code - 0x10000) % 0x400]

/-- The letter that stands for a character after a backslash. -/
def letter? (c : Char) : Option Char :=
  if c = '"' then some '"'
  else if c = '\\' then some '\\'
  else if c = '\n' then some 'n'
  else if c = '\r' then some 'r'
  else if c = '\t' then some 't'
  else if c = '\x08' then some 'b'
  else if c = '\x0c' then some 'f'
  else none

def escape (c : Char) : List Char :=
  match letter? c with
  | some letter => ['\\', letter]
  | none =>
    if 0x20 ≤ c.toNat && c.toNat ≤ 0x7E then [c]
    else (units16 c.toNat).flatMap fun unit => '\\' :: 'u' :: hexText 4 unit

def encode (text : List Char) : List Char := '"' :: text.flatMap escape ++ ['"']

end LoxLexer.JsonString

namespace LoxLexer

/-- A text as a JSON string, with its quotes. -/
def jsonString (text : String) : String := String.ofList (JsonString.encode text.toList)

end LoxLexer
