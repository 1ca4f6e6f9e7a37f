import LoxLexer.Decimal.Basic
import LoxLexer.Fault
import LoxLexer.Lexeme.Split
import LoxLexer.Step.Cursor
import LoxLexer.Token.Basic

/-!
# Steps

A step is a lexeme with the cursor after it. Every lexeme of a text makes one step, and a step
yields a token, a fault or nothing: the tokens and the diagnostics of a text are two views of its
steps.
-/
namespace LoxLexer

structure Step where
  lexeme : Lexeme
  cursor : Cursor
deriving DecidableEq

namespace Step

/-- The steps over lexemes from a cursor on. -/
def along (cursor : Cursor) : List Lexeme → List Step
  | [] => []
  | lexeme :: rest =>
    ⟨lexeme, cursor.advance lexeme.text⟩ :: along (cursor.advance lexeme.text) rest

/-- The steps over a whole text. -/
def all (source : String) : List Step := along Cursor.origin (Lexeme.split source.toList)

/-- The cursor after the last of some steps, which began at the given one. -/
def lastCursor (start : Cursor) (steps : List Step) : Cursor :=
  steps.foldl (fun _ step => step.cursor) start

/-- The value of a token's text: what stands between the quotes of a string, or the double nearest
to a number. -/
def literalOf (kind : TokenKind) (text : List Char) : Option Literal :=
  match kind with
  | .string => some (.text (String.ofList (text.drop 1).dropLast))
  | .number => some (.number (Binary64.ofDecimal false (Decimal.ofNumeral text)))
  | _ => none

/-- The token of a step; its line is that of its first character. -/
def token? (step : Step) : Option Token :=
  match step.lexeme.form with
  | .token kind =>
    some ⟨kind, String.ofList step.lexeme.text, literalOf kind step.lexeme.text,
      step.cursor.startLine⟩
  | _ => none

def fault? (step : Step) : Option Fault :=
  match step.lexeme.form with
  | .foreign c => some (.unexpectedCharacter c)
  | .openString => some .unterminatedString
  | _ => none

/-- The diagnostic of a step; its line is that of the end of the lexeme. -/
def diagnostic? (filename : String) (step : Step) : Option Diagnostic :=
  step.fault?.map (·.diagnostic ⟨filename, step.cursor.line⟩)

def report? (step : Step) : Option Report :=
  step.fault?.map fun fault => ⟨step.cursor.line, fault.message⟩

def tokens (steps : List Step) : List Token := steps.filterMap token?

def diagnostics (filename : String) (steps : List Step) : List Diagnostic :=
  steps.filterMap (diagnostic? filename)

def reports (steps : List Step) : List Report := steps.filterMap report?

theorem report_of_diagnostic? (filename : String) (step : Step) :
    (step.diagnostic? filename).map Diagnostic.report = step.report? := by
  unfold diagnostic? report?
  cases step.fault? with
  | none => rfl
  | some fault =>
    simp [Diagnostic.report, Fault.diagnostic_message, Fault.diagnostic_location]

/-- The reports are the diagnostics in short. -/
theorem map_report_diagnostics (filename : String) (steps : List Step) :
    (diagnostics filename steps).map Diagnostic.report = reports steps := by
  rw [diagnostics, reports, List.map_filterMap]
  exact congrArg (fun f => steps.filterMap f) (funext (report_of_diagnostic? filename))

/-- A diagnostic is that of the fault of some step. -/
theorem exists_fault_of_mem_diagnostics {filename : String} {steps : List Step} {d : Diagnostic}
    (h : d ∈ diagnostics filename steps) :
    ∃ step ∈ steps, ∃ fault, step.fault? = some fault ∧
      d = fault.diagnostic ⟨filename, step.cursor.line⟩ := by
  obtain ⟨step, hstep, hd⟩ := List.mem_filterMap.mp h
  obtain ⟨fault, hfault, rfl⟩ := Option.map_eq_some_iff.mp hd
  exact ⟨step, hstep, fault, hfault, rfl⟩

/-- A step yields a token or a fault, not both. -/
theorem token?_eq_none_of_fault? {step : Step} {fault : Fault} (h : step.fault? = some fault) :
    step.token? = none := by
  cases hf : step.lexeme.form with
  | token kind =>
    rw [fault?, hf] at h
    cases h
  | _ => rw [token?, hf]

end Step

/-- The tokens of a source text, closed by the token for its end. -/
def tokens (source : String) : List Token :=
  let steps := Step.all source
  Step.tokens steps ++ [Token.endOfInput (Step.lastCursor Cursor.origin steps).line]

/-- The diagnostics of a source text that goes by the given name. -/
def diagnostics (filename source : String) : List Diagnostic :=
  Step.diagnostics filename (Step.all source)

def reports (source : String) : List Report := Step.reports (Step.all source)

end LoxLexer
