import LoxLexer.Token.Kind

/-!
# Lexemes

A lexeme is a piece of source text and what it is: the text of a token, something between tokens, or
something that no Lox text may hold.
-/
namespace LoxLexer

inductive LexemeForm
  | token (kind : TokenKind)
  | blank
  | lineBreak
  | comment
  /-- A character that begins no token. -/
  | foreign (c : Char)
  /-- A string without its closing quote. -/
  | openString
deriving DecidableEq

structure Lexeme where
  form : LexemeForm
  text : List Char
deriving DecidableEq

end LoxLexer
