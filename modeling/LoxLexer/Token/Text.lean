import LoxLexer.Binary64.Text
import LoxLexer.Text.JsonString
import LoxLexer.Text.Quoted
import LoxLexer.Token.Basic

/-!
# Tokens as text

A token is shown in three ways: as words, as the form that would build it, and as a JSON object.
-/
namespace LoxLexer

namespace Literal

/-- A literal among the words of its token: a text as it is. -/
def plainText : Literal → String
  | text value => value
  | number value => value.text

/-- A literal in the form that builds its token: a text between quotation marks. -/
def formText : Literal → String
  | text value => quoted value
  | number value => value.text

def jsonText : Literal → String
  | text value => jsonString value
  | number value => value.textWith NumberWords.json

end Literal

namespace Token

/-- Kind, lexeme and literal with a space between them. -/
def plainText (token : Token) : String :=
  let literal := (token.literal.map Literal.plainText).getD "null"
  s!"{token.kind.name} {token.lexeme} {literal}"

/-- The form that builds the token. The line is written in full: a limit of 4300 digits for integers,
which a runtime may set, is taken as lifted. -/
def formText (token : Token) : String :=
  let literal := (token.literal.map Literal.formText).getD "None"
  s!"Token({token.kind.name}, {quoted token.lexeme}, {literal}, {token.line})"

/-- The token as a JSON object on one line. Here, too, the line of the token is written in full, and
the limit of 4300 digits is taken as lifted. -/
def jsonText (token : Token) : String :=
  let literal := (token.literal.map Literal.jsonText).getD "null"
  "\x7b" ++ s!"\"type\": {jsonString token.kind.name}, \"lexeme\": {jsonString token.lexeme}, " ++
    s!"\"literal\": {literal}, \"line\": {token.line}" ++ "\x7d"

/-- How a token is shown in a dump. -/
def dumpText (token : Token) (asJson : Bool) : String :=
  if asJson then token.jsonText else token.plainText

end Token

end LoxLexer
