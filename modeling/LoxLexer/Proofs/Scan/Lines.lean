import LoxLexer.Proofs.Lexeme.Alphabet
import LoxLexer.Proofs.Scan.MaximalMunch

/-!
# Lines

A line is one more than the number of line feeds in front of it. The cursor keeps to this after
every step, so a token has the line of its first character, an unexpected character has its own
line, and a string that is never closed has the last line. The lines of tokens and of diagnostics
never go down.
-/
namespace LoxLexer

/-- The line on which the character at an offset stands. -/
def lineAt (source : List Char) (offset : Nat) : Nat := 1 + (source.take offset).count '\n'

theorem lineAt_of_length_le {source : List Char} {offset : Nat} (h : source.length ≤ offset) :
    lineAt source offset = 1 + source.count '\n' := by
  rw [lineAt, List.take_of_length_le h]

namespace Lexeme

/-- The line feeds that count in a lexeme of its form: a line break is one, and strings have those
of their text. -/
def lineFeeds (lexeme : Lexeme) : Nat :=
  match lexeme.form with
  | .lineBreak => 1
  | .token .string | .openString => lexeme.text.count '\n'
  | _ => 0

theorem lineFeeds_of_foreign {lexeme : Lexeme} {c : Char} (h : lexeme.form = .foreign c) :
    lexeme.lineFeeds = 0 := by
  rw [lineFeeds, h]

theorem lineFeeds_of_token {kind : TokenKind} {text : List Char} (h : kind ≠ .string) :
    lineFeeds ⟨.token kind, text⟩ = 0 := by
  cases kind with
  | string => exact absurd rfl h
  | _ => rfl

theorem Matches.count_lineFeed {form : LexemeForm} {text : List Char} {value : Option Literal}
    (h : Matches form text value) : text.count '\n' = lineFeeds ⟨form, text⟩ := by
  cases form with
  | token kind =>
    by_cases hkind : kind = .string
    · rw [hkind]
      rfl
    · have hnone : '\n' ∉ text := h.not_mem_of_not_isSignificant hkind (by decide)
      rw [List.count_eq_zero_of_not_mem hnone, lineFeeds_of_token hkind]
  | blank =>
    cases h with
    | blank hc => obtain rfl | rfl | rfl := hc <;> rfl
  | lineBreak =>
    cases h
    rfl
  | comment =>
    cases h with
    | comment hbody => exact List.count_eq_zero_of_not_mem (by simpa using hbody)
  | foreign c => cases h
  | openString => cases h

namespace LongestMatch

variable {text : List Char} {lexeme : Lexeme} {literal : Option Literal}

theorem count_lineFeed (h : LongestMatch text lexeme literal) :
    lexeme.text.count '\n' = lexeme.lineFeeds := by
  cases h with
  | complete h hp hmax => exact h.count_lineFeed
  | openString h hq => rfl
  | @foreign c rest h hq =>
    have hc : c ≠ '\n' := by
      rintro rfl
      exact h _ _ _ .lineBreak (List.prefix_append ['\n'] rest)
    exact List.count_eq_zero_of_not_mem (by simpa using hc.symm)

/-- A cursor counts lines at line breaks and inside strings, and nowhere else. -/
theorem line_advance (h : LongestMatch text lexeme literal) (cursor : Cursor) :
    (cursor.advance lexeme.text).line = cursor.line + lexeme.lineFeeds :=
  congrArg (cursor.line + ·) h.count_lineFeed

/-- A string that is never closed takes all the text. -/
theorem of_openString (h : LongestMatch text lexeme literal) (hform : lexeme.form = .openString) :
    lexeme.text = text := by
  cases h with
  | complete h hp hmax =>
    rw [hform] at h
    cases h
  | openString h hq => rfl
  | foreign h hq => cases hform

end LongestMatch

end Lexeme

namespace Step

theorem line_of_token? {step : Step} {token : Token} (h : step.token? = some token) :
    token.line = step.cursor.startLine := by
  obtain ⟨kind, -, rfl⟩ := exists_kind_of_token? h
  rfl

theorem line_of_diagnostic? {step : Step} {filename : String} {diagnostic : Diagnostic}
    (h : step.diagnostic? filename = some diagnostic) :
    diagnostic.location.line = step.cursor.line := by
  obtain ⟨fault, -, rfl⟩ := Option.map_eq_some_iff.mp h
  rw [Fault.diagnostic_location]

end Step

/-- Items in the order of their lines, none of them past the given line. -/
structure Ordered {α : Type} (line : α → Int) (items : List α) (last : Int) : Prop where
  pairwise : items.Pairwise fun a b => line a ≤ line b
  le_last : ∀ item ∈ items, line item ≤ last

/-- Order is kept when an item with a line from the last one on is added, if any is. -/
theorem Ordered.append {α : Type} {line : α → Int} {items : List α} {last next : Int}
    (h : Ordered line items last) (added : Option α)
    (hadded : ∀ item, added = some item → last ≤ line item ∧ line item ≤ next)
    (hnext : last ≤ next) : Ordered line (items ++ added.toList) next := by
  cases added with
  | none =>
    rw [Option.toList_none, List.append_nil]
    exact ⟨h.pairwise, fun item hitem => (h.le_last item hitem).trans hnext⟩
  | some new =>
    obtain ⟨hlast, hnew⟩ := hadded new rfl
    constructor
    · refine List.pairwise_append.mpr ⟨h.pairwise, List.pairwise_singleton _ _, ?_⟩
      intro item hitem other hother
      rw [List.mem_singleton.mp hother]
      exact (h.le_last item hitem).trans hlast
    · intro item hitem
      rcases List.mem_append.mp hitem with hitem | hitem
      · exact (h.le_last item hitem).trans hnext
      · rw [List.mem_singleton.mp hitem]
        exact hnew

variable {σ : Type}

/-- The lines of what a step leaves behind, read off the source. -/
structure Progress.LinesExact (reporter : Reporter σ Empty) (before after : Progress σ) : Prop where
  line_eq : after.document.cursor.line =
    lineAt before.document.source.toList after.document.cursor.current
  startLine_eq : after.document.cursor.startLine =
    lineAt before.document.source.toList after.document.cursor.start
  token_line : ∀ token, Yields reporter before after (.token token) →
    token.line = lineAt before.document.source.toList after.document.cursor.start
  fault_line : ∀ diagnostic, Yields reporter before after (.fault diagnostic) →
    (diagnostic.message = Fault.unexpectedMessage ∧ diagnostic.location.line =
        lineAt before.document.source.toList after.document.cursor.start) ∨
      (diagnostic.message = Fault.unterminatedMessage ∧
        diagnostic.location.line = 1 + before.document.source.toList.count '\n')

/-- The lines met so far are in order and do not go past that of the cursor. -/
structure Progress.OrderedLines (progress : Progress σ) : Prop where
  tokens : Ordered Token.line progress.document.tokens progress.document.cursor.line
  diagnostics :
    Ordered (·.location.line) progress.document.diagnostics progress.document.cursor.line

namespace Document

variable (reporter : Reporter σ Empty) (state : σ) (document : Document)

theorem orderedLines_progress (calls : Nat) :
    (document.progress reporter state calls).OrderedLines := by
  refine progress_induction (motive := Progress.OrderedLines) reporter state document ?_ ?_ calls
  · exact ⟨⟨List.Pairwise.nil, List.forall_mem_nil _⟩, ⟨List.Pairwise.nil, List.forall_mem_nil _⟩⟩
  · intro calls c rest ih _
    let cursor := (document.progress reporter state calls).document.cursor
    have hline : (cursor.line : Int) ≤ (stepOver cursor c rest).cursor.line :=
      Int.ofNat_le.mpr (Nat.le_add_right _ _)
    constructor
    · refine ih.tokens.append _ (fun token htoken => ?_) hline
      rw [Step.line_of_token? htoken]
      exact ⟨le_refl _, hline⟩
    · refine ih.diagnostics.append _ (fun diagnostic hdiagnostic => ?_) hline
      rw [Step.line_of_diagnostic? hdiagnostic]
      exact ⟨hline, le_refl _⟩

/-- The line that a step begins on is the one at which the last step ended. -/
theorem startLine_progress_succ {calls : Nat}
    (h : (document.progress reporter state calls).document.cursor.current <
      document.source.length) :
    (document.progress reporter state (calls + 1)).document.cursor.startLine =
      lineAt document.source.toList
        (document.progress reporter state (calls + 1)).document.cursor.start := by
  obtain ⟨c, rest, -, hsucc⟩ := progress_succ reporter state document calls h
  rw [hsucc]
  exact line_progress reporter state document calls

theorem fault_line_progress_succ {calls : Nat} {diagnostic : Diagnostic}
    (h : (document.progress reporter state calls).document.cursor.current <
      document.source.length)
    (hy : (document.progress reporter state calls).Yields reporter
      (document.progress reporter state (calls + 1)) (.fault diagnostic)) :
    (diagnostic.message = Fault.unexpectedMessage ∧
        diagnostic.location.line = lineAt document.source.toList
          (document.progress reporter state (calls + 1)).document.cursor.start) ∨
      (diagnostic.message = Fault.unterminatedMessage ∧
        diagnostic.location.line = 1 + document.source.toList.count '\n') := by
  have hline := line_progress reporter state document (calls + 1)
  have hstart := startLine_progress_succ reporter state document h
  obtain ⟨c, rest, hunread, hsucc⟩ := progress_succ reporter state document calls h
  have hmatch := Lexeme.longestMatch_next c rest
  rw [hsucc] at hy hline hstart ⊢
  rcases Lexeme.yield_eq_fault ((Progress.yields_proceed reporter _ _).unique hy) with
    ⟨d, hform, rfl⟩ | ⟨hform, rfl⟩
  · -- the character is no line feed, so the line at its end is the line at its start
    refine .inl ⟨rfl, ?_⟩
    rw [Fault.diagnostic_location, ← hstart]
    have hfeeds := Lexeme.lineFeeds_of_foreign hform
    exact congrArg Nat.cast ((hmatch.line_advance _).trans (congrArg (_ + ·) hfeeds))
  · -- the string takes all that is left, so the cursor stands at the end of the source
    refine .inr ⟨rfl, ?_⟩
    have hlength := congrArg List.length hunread
    rw [Progress.unread, source_progress, List.length_drop] at hlength
    have hcurrent : document.source.toList.length ≤
        (document.progress reporter state calls).document.cursor.current +
          (Lexeme.next c rest).1.text.length := by
      rw [hmatch.of_openString hform]
      omega
    rw [Fault.diagnostic_location, ← Nat.cast_one, ← Nat.cast_add,
      ← lineAt_of_length_le hcurrent]
    exact congrArg Nat.cast hline

theorem linesExact_progress_succ {calls : Nat}
    (h : (document.progress reporter state calls).document.cursor.current <
      document.source.length) :
    (document.progress reporter state calls).LinesExact reporter
      (document.progress reporter state (calls + 1)) where
  line_eq := line_progress reporter state document (calls + 1)
  startLine_eq := startLine_progress_succ reporter state document h
  token_line token hy := by
    rw [source_progress, ← startLine_progress_succ reporter state document h]
    obtain ⟨c, rest, -, hsucc⟩ := progress_succ reporter state document calls h
    rw [hsucc] at hy ⊢
    exact (Lexeme.yield_eq_token ((Progress.yields_proceed reporter _ _).unique hy)).2
  fault_line diagnostic hy := fault_line_progress_succ reporter state document h hy

/-- Every token that a scan has left is what one of its steps yielded. -/
theorem exists_yields_token {calls : Nat} {token : Token}
    (h : token ∈ (document.progress reporter state calls).document.tokens) :
    ∃ k, (document.progress reporter state k).document.cursor.current < document.source.length ∧
      (document.progress reporter state k).Yields reporter
        (document.progress reporter state (k + 1)) (.token token) := by
  obtain ⟨k, c, rest, hlt, hsucc, hstep⟩ := exists_step_of_mem reporter state document
    (fun progress => progress.document.tokens) (fun _ step => step.token?) rfl (fun _ _ => rfl) h
  refine ⟨k, hlt, ?_⟩
  rw [hsucc]
  exact Progress.yields_of_token? reporter _ hstep

theorem exists_yields_fault {calls : Nat} {diagnostic : Diagnostic}
    (h : diagnostic ∈ (document.progress reporter state calls).document.diagnostics) :
    ∃ k, (document.progress reporter state k).document.cursor.current < document.source.length ∧
      (document.progress reporter state k).Yields reporter
        (document.progress reporter state (k + 1)) (.fault diagnostic) := by
  obtain ⟨k, c, rest, hlt, hsucc, hstep⟩ := exists_step_of_mem reporter state document
    (fun progress => progress.document.diagnostics)
    (fun progress step => step.diagnostic? progress.document.filename) rfl (fun _ _ => rfl) h
  obtain ⟨fault, hfault, rfl⟩ := Option.map_eq_some_iff.mp hstep
  refine ⟨k, hlt, ?_⟩
  rw [hsucc]
  exact Progress.yields_of_fault? reporter _ hfault

/-- Lines are exact after every step, for every token and for every fault, and they never go
down. -/
theorem scan_lines_exact :
    let progress := document.progress reporter state
    let final := (document.scanWith reporter state).1
    (∀ calls, (progress calls).document.cursor.current < document.source.length →
        (progress calls).LinesExact reporter (progress (calls + 1))) ∧
      (∀ token ∈ final.tokens, token.kind ≠ .endOfInput → ∃ calls,
        (progress calls).document.cursor.current < document.source.length ∧
          (progress calls).Yields reporter (progress (calls + 1)) (.token token)) ∧
      (∀ diagnostic ∈ final.diagnostics, ∃ calls,
        (progress calls).document.cursor.current < document.source.length ∧
          (progress calls).Yields reporter (progress (calls + 1)) (.fault diagnostic)) ∧
      final.tokens.getLast? =
        some (Token.endOfInput (1 + document.source.toList.count '\n')) ∧
      (final.tokens.Pairwise fun a b => a.line ≤ b.line) ∧
      final.diagnostics.Pairwise fun a b => a.location.line ≤ b.location.line := by
  have hordered := orderedLines_progress reporter state document (Step.all document.source).length
  have hline := line_progress reporter state document (Step.all document.source).length
  rw [current_progress_all, ← String.length_toList, List.take_length] at hline
  rw [scanWith_eq_finish]
  refine ⟨fun calls h => linesExact_progress_succ reporter state document h, ?_,
    fun _ h => exists_yields_fault reporter state document h, ?_, ?_, hordered.diagnostics.pairwise⟩
  · intro token htoken hkind
    rcases List.mem_append.mp htoken with htoken | htoken
    · exact exists_yields_token reporter state document htoken
    · rw [List.mem_singleton.mp htoken] at hkind
      exact absurd rfl hkind
  · simp [Progress.finish, hline]
  · exact (hordered.tokens.append
      (some (Token.endOfInput _)) (fun _ h => by cases h; exact ⟨le_refl _, le_refl _⟩)
      (le_refl _)).pairwise

end Document

end LoxLexer
