import LoxLexer.Binary64.Basic
import LoxLexer.Token.Kind

/-!
# Tokens

A token has a kind, the text it was read from, the value of that text if it is a string or a number,
and the line of its first character.
-/
namespace LoxLexer

/-- The value of a string or a number. -/
inductive Literal
  | text (value : String)
  | number (value : Binary64)
deriving DecidableEq

structure Token where
  kind : TokenKind
  lexeme : String
  literal : Option Literal
  line : Int
deriving DecidableEq

/-- Equality of literals: texts as they are, numbers by value. -/
def Literal.equal : Literal → Literal → Bool
  | text s, text t => s = t
  | number x, number y => x.equal y
  | _, _ => false

namespace Token

/-- The token that closes every list of tokens. -/
def endOfInput (line : Int) : Token := ⟨.endOfInput, "", none, line⟩

def isLiteral (token : Token) : Bool := token.kind.isLiteral

def isKeyword (token : Token) : Bool := token.kind.isKeyword

def isOperator (token : Token) : Bool := token.kind.isOperator

/-- Equality of tokens field by field, numbers by value. -/
def equal (a b : Token) : Bool :=
  a.kind = b.kind && a.lexeme = b.lexeme && a.line = b.line &&
    match a.literal, b.literal with
    | none, none => true
    | some x, some y => x.equal y
    | _, _ => false

/-- Equality of lists of tokens, place by place. -/
def equalAll : List Token → List Token → Bool
  | [], [] => true
  | a :: as, b :: bs => a.equal b && equalAll as bs
  | _, _ => false

end Token

end LoxLexer
