import LoxLexer.Text.Quoted
import LoxLexer.Token.Kind

/-!
# Kinds by number and by name

A number outside the table and a name that no kind has are refused, each with its own message.
-/
namespace LoxLexer

inductive LookupFault
  | unknownNumber (number : Int)
  | unknownName (name : String)
deriving DecidableEq

def LookupFault.message : LookupFault → String
  | unknownNumber number => s!"{number} is not a valid TokenType"
  | unknownName name => quoted name

namespace TokenKind

def ofNumber (number : Int) : Except LookupFault TokenKind :=
  match ofNumber? number with
  | some kind => .ok kind
  | none => .error (.unknownNumber number)

def ofName (text : String) : Except LookupFault TokenKind :=
  match ofName? text with
  | some kind => .ok kind
  | none => .error (.unknownName text)

end TokenKind

end LoxLexer
