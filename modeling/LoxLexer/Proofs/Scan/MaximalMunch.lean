import LoxLexer.Proofs.Scan.Progress

/-!
# Maximal munch

Each step of a scan reads the longest match from the front of the unread text, and the form of that
match decides what the step leaves: one token, one fault of which the reporter is told, or nothing.
-/
namespace LoxLexer

/-- What a step leaves behind. -/
inductive Yield
  | token (token : Token)
  | fault (diagnostic : Diagnostic)
  | nothing

/-- What a lexeme with this literal yields between a cursor and the next. -/
def Lexeme.yield (lexeme : Lexeme) (literal : Option Literal) (filename : String)
    (cursor : Cursor) : Yield :=
  match lexeme.form with
  | .token kind => .token ⟨kind, String.ofList lexeme.text, literal, cursor.startLine⟩
  | .blank | .lineBreak | .comment => .nothing
  | .foreign c => .fault ((Fault.unexpectedCharacter c).diagnostic ⟨filename, cursor.line⟩)
  | .openString => .fault (Fault.unterminatedString.diagnostic ⟨filename, cursor.line⟩)

namespace Lexeme

variable {lexeme : Lexeme} {literal : Option Literal} {filename : String} {cursor : Cursor}

theorem yield_eq_token {token : Token} (h : lexeme.yield literal filename cursor = .token token) :
    token.lexeme = String.ofList lexeme.text ∧ token.line = cursor.startLine := by
  unfold yield at h
  split at h
  all_goals cases h
  exact ⟨rfl, rfl⟩

theorem yield_eq_fault {diagnostic : Diagnostic}
    (h : lexeme.yield literal filename cursor = .fault diagnostic) :
    (∃ c, lexeme.form = .foreign c ∧
        diagnostic = (Fault.unexpectedCharacter c).diagnostic ⟨filename, cursor.line⟩) ∨
      (lexeme.form = .openString ∧
        diagnostic = Fault.unterminatedString.diagnostic ⟨filename, cursor.line⟩) := by
  unfold yield at h
  split at h
  all_goals cases h
  · rename_i c hform
    exact .inl ⟨c, hform, rfl⟩
  · rename_i hform
    exact .inr ⟨hform, rfl⟩

end Lexeme

/-- The text that a cursor has just passed. -/
def Cursor.span (cursor : Cursor) (source : List Char) : List Char :=
  (source.take cursor.current).drop cursor.start

variable {σ ε : Type}

namespace Progress

/-- What stands in the lists of the document after a step, and what the reporter was told. Nothing
that stood there before is removed or changed. -/
def Yields (reporter : Reporter σ ε) (before after : Progress σ) : Yield → Prop
  | .token token =>
    after.document.tokens = before.document.tokens ++ [token] ∧
      after.document.diagnostics = before.document.diagnostics ∧ after.state = before.state
  | .fault diagnostic =>
    after.document.tokens = before.document.tokens ∧
      after.document.diagnostics = before.document.diagnostics ++ [diagnostic] ∧
      after.state = (reporter.receive before.state diagnostic.report).1
  | .nothing =>
    after.document.tokens = before.document.tokens ∧
      after.document.diagnostics = before.document.diagnostics ∧ after.state = before.state

/-- Whatever token a step has, it yields. -/
theorem yields_of_token? (reporter : Reporter σ ε) (progress : Progress σ) {step : Step}
    {token : Token} (h : step.token? = some token) :
    Yields reporter progress (progress.proceed reporter step) (.token token) := by
  obtain ⟨kind, hform, -⟩ := Step.exists_kind_of_token? h
  have hfault : step.fault? = none := by rw [Step.fault?, hform]
  simp [Yields, proceed, Step.diagnostic?, Step.report?, h, hfault]

theorem yields_of_fault? (reporter : Reporter σ ε) (progress : Progress σ) {step : Step}
    {fault : Fault} (h : step.fault? = some fault) :
    Yields reporter progress (progress.proceed reporter step)
      (.fault (fault.diagnostic ⟨progress.document.filename, step.cursor.line⟩)) := by
  have htoken := Step.token?_eq_none_of_fault? h
  simp [Yields, proceed, Step.diagnostic?, Step.report?, h, htoken, Diagnostic.report,
    Fault.diagnostic_message, Fault.diagnostic_location]

theorem yields_nothing (reporter : Reporter σ ε) (progress : Progress σ) {step : Step}
    (htoken : step.token? = none) (hfault : step.fault? = none) :
    Yields reporter progress (progress.proceed reporter step) .nothing := by
  simp [Yields, proceed, Step.diagnostic?, Step.report?, htoken, hfault]

/-- The form of its lexeme decides what a step yields. -/
theorem yields_proceed (reporter : Reporter σ ε) (progress : Progress σ) (step : Step) :
    Yields reporter progress (progress.proceed reporter step)
      (step.lexeme.yield step.lexeme.literal progress.document.filename step.cursor) := by
  cases hform : step.lexeme.form with
  | token kind =>
    rw [Lexeme.yield, hform]
    apply yields_of_token?
    simp [Step.token?, Lexeme.literal, hform]
  | foreign c =>
    rw [Lexeme.yield, hform]
    apply yields_of_fault?
    rw [Step.fault?, hform]
  | openString =>
    rw [Lexeme.yield, hform]
    apply yields_of_fault?
    rw [Step.fault?, hform]
  | _ =>
    rw [Lexeme.yield, hform]
    apply yields_nothing
    · rw [Step.token?, hform]
    · rw [Step.fault?, hform]

/-- A step yields one thing only. -/
theorem Yields.unique {reporter : Reporter σ ε} {before after : Progress σ} {a b : Yield}
    (ha : Yields reporter before after a) (hb : Yields reporter before after b) : a = b := by
  cases a <;> cases b <;> simp_all [Yields]

end Progress

namespace Document

/-- What a step over the first lexeme of a text has passed is that lexeme. -/
theorem span_stepOver {cursor : Cursor} {source rest : List Char} {c : Char}
    (h : source.drop cursor.current = c :: rest) :
    (stepOver cursor c rest).cursor.span source = (Lexeme.next c rest).1.text := by
  rw [stepOver, Cursor.span, Cursor.advance, List.drop_take, Nat.add_sub_cancel_left, h]
  exact (List.prefix_iff_eq_take.mp ⟨_, Lexeme.next_append c rest⟩).symm

/-- Each step of a scan reads the longest match of the unread text, of which there is just one, and
yields what the form of that match says. -/
theorem step_reads_longestMatch (reporter : Reporter σ Empty) (state : σ) (document : Document)
    (calls : Nat) (h : (document.progress reporter state calls).document.cursor.current <
      document.source.length) :
    let before := document.progress reporter state calls
    let after := document.progress reporter state (calls + 1)
    ∃ lexeme literal, Lexeme.LongestMatch before.unread lexeme literal ∧
      (∀ other value, Lexeme.LongestMatch before.unread other value →
        other = lexeme ∧ value = literal) ∧
      lexeme.text ≠ [] ∧ after.document.cursor.start = before.document.cursor.current ∧
      after.document.cursor.span document.source.toList = lexeme.text ∧
      Progress.Yields reporter before after
        (lexeme.yield literal document.filename after.document.cursor) := by
  obtain ⟨c, rest, hunread, hsucc⟩ := progress_succ reporter state document calls h
  refine ⟨(Lexeme.next c rest).1, (Lexeme.next c rest).1.literal, ?_, ?_,
    Lexeme.text_next_ne_nil c rest, ?_, ?_, ?_⟩
  · rw [hunread]
    exact Lexeme.longestMatch_next c rest
  · intro other value hother
    rw [hunread] at hother
    exact Lexeme.longestMatch_iff.mp hother
  · rw [hsucc]
    rfl
  · rw [hsucc]
    exact span_stepOver hunread
  · rw [hsucc]
    exact Progress.yields_proceed reporter _ _

/-- The second step over `a==1.` reads both equals signs. -/
theorem step_reads_longestMatch_equal :
    let document := Document.ofSource "a==1." Document.anonymous
    let before := document.progress Reporter.silent () 1
    let after := document.progress Reporter.silent () 2
    before.document.cursor.current < document.source.length ∧
      ∃ lexeme literal, Lexeme.LongestMatch before.unread lexeme literal ∧
        (∀ other value, Lexeme.LongestMatch before.unread other value →
          other = lexeme ∧ value = literal) ∧
        lexeme.text ≠ [] ∧ after.document.cursor.start = before.document.cursor.current ∧
        after.document.cursor.span document.source.toList = lexeme.text ∧
        Progress.Yields Reporter.silent before after
          (lexeme.yield literal document.filename after.document.cursor) := by
  have h : ((Document.ofSource "a==1." Document.anonymous).progress Reporter.silent ()
      1).document.cursor.current < "a==1.".length := by decide +kernel
  exact ⟨h, step_reads_longestMatch Reporter.silent () _ 1 h⟩

end Document

end LoxLexer
