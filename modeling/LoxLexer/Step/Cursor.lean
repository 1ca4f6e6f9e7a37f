/-!
# Cursors

A cursor stands between two characters of a source text. It knows where the last lexeme began and
ended, and the lines of both places; offsets count characters from zero and lines from one.
-/
namespace LoxLexer

structure Cursor where
  start : Nat
  current : Nat
  line : Nat
  startLine : Nat
deriving DecidableEq

namespace Cursor

/-- The cursor in front of a text. -/
def origin : Cursor := ⟨0, 0, 1, 1⟩

/-- The cursor after a lexeme with this text; a line break or a string may have line feeds in it. -/
def advance (cursor : Cursor) (text : List Char) : Cursor :=
  { start := cursor.current
    current := cursor.current + text.length
    line := cursor.line + text.count '\n'
    startLine := cursor.line }

/-- The cursor back in front of the text; only the line of the last lexeme is kept. -/
def rewind (cursor : Cursor) : Cursor := { origin with startLine := cursor.startLine }

end Cursor

end LoxLexer
