import LoxLexer.Reporter.Basic
import LoxLexer.Step.Tally

/-!
# Documents

A document is a source text under a name, with what its last scan left behind: a cursor, tokens and
diagnostics. A scan starts afresh, whatever was left; if a reporter stops it, the token for the end
of the input is missing.
-/
namespace LoxLexer

structure Document where
  source : String
  filename : String
  cursor : Cursor
  tokens : List Token
  diagnostics : List Diagnostic
deriving DecidableEq

namespace Document

/-- The name of a text that comes from no file. -/
def anonymous : String := "<string>"

/-- A document that has not been scanned. -/
def ofSource (source filename : String) : Document := ⟨source, filename, Cursor.origin, [], []⟩

variable {σ ε : Type}

/-- What some steps, taken from the beginning, leave behind. -/
def settle (document : Document) (steps : List Step) (finished : Bool) : Document :=
  let cursor := Step.lastCursor document.cursor.rewind steps
  let closing := if finished then [Token.endOfInput cursor.line] else []
  { document with
    cursor := cursor
    tokens := Step.tokens steps ++ closing
    diagnostics := Step.diagnostics document.filename steps }

/-- Scans a document before the eyes of a reporter. -/
def scanWith (reporter : Reporter σ ε) (state : σ) (document : Document) :
    Document × σ × Option ε :=
  let seen := reporter.watch state (Step.all document.source)
  (document.settle seen.steps seen.stop.isNone, seen.state, seen.stop)

/-- Scans a document that nobody watches. -/
def scan (document : Document) : Document :=
  (document.scanWith Reporter.silent ()).1

def hasErrors (document : Document) : Bool := !document.diagnostics.isEmpty

/-- The cursor and the numbers of tokens and diagnostics. -/
def tally (document : Document) : Tally :=
  ⟨document.cursor, document.tokens.length, document.diagnostics.length⟩

theorem scan_eq_settle (document : Document) :
    document.scan = document.settle (Step.all document.source) true := by
  rw [scan, scanWith, Reporter.watch_of_never_stops _ fun _ _ => rfl]
  rfl

end Document

end LoxLexer
