import LoxLexer.Step.Basic

/-!
# Tallies

A tally is a cursor together with the numbers of tokens and faults met so far.
-/
namespace LoxLexer

structure Tally where
  cursor : Cursor
  tokens : Nat
  faults : Nat
deriving DecidableEq

namespace Tally

def start (cursor : Cursor) : Tally := ⟨cursor, 0, 0⟩

/-- The tally after one more step. -/
def count (tally : Tally) (step : Step) : Tally :=
  { cursor := step.cursor
    tokens := tally.tokens + if step.token?.isSome then 1 else 0
    faults := tally.faults + if step.fault?.isSome then 1 else 0 }

/-- The tallies after each of some steps. -/
def along (tally : Tally) : List Step → List Tally
  | [] => []
  | step :: rest => tally.count step :: along (tally.count step) rest

end Tally

end LoxLexer
