import LoxLexer.Proofs.Scan.LineBreaks
import LoxLexer.Source.Newlines

/-!
# Texts line by line

A text without a line feed is all on the first line. Unless a line ends in an open string, a scan of
a text yields what the scans of its lines yield one after the other, as far as it does not matter
where it stands (`Step.filterMap_all_lines`); in particular the reports are the same but for their
lines (`reports_lines`).
-/
namespace LoxLexer

namespace Step

/-- Lexemes without a line feed leave the line as it is. -/
theorem line_of_mem_along {cursor : Cursor} {lexemes : List Lexeme} {step : Step}
    (h : ∀ lexeme ∈ lexemes, '\n' ∉ lexeme.text) (hstep : step ∈ along cursor lexemes) :
    step.cursor.line = cursor.line ∧ step.cursor.startLine = cursor.line := by
  induction lexemes generalizing cursor with
  | nil => cases hstep
  | cons lexeme rest ih =>
    obtain ⟨hlexeme, hrest⟩ := List.forall_mem_cons.mp h
    have hline : (cursor.advance lexeme.text).line = cursor.line := by
      simp [Cursor.advance, List.count_eq_zero_of_not_mem hlexeme]
    rcases List.mem_cons.mp hstep with rfl | hstep
    · exact ⟨hline, rfl⟩
    · rw [← hline]
      exact ih hrest hstep

theorem line_of_mem_all {source : String} {step : Step} (h : '\n' ∉ source.toList)
    (hstep : step ∈ all source) : step.cursor.line = 1 ∧ step.cursor.startLine = 1 := by
  have hlexemes : ∀ lexeme ∈ Lexeme.split source.toList, '\n' ∉ lexeme.text := by
    intro lexeme hlexeme hmem
    rw [← Lexeme.flatMap_text_split source.toList] at h
    exact h (List.mem_flatMap.mpr ⟨lexeme, hlexeme, hmem⟩)
  exact line_of_mem_along hlexemes hstep

end Step

theorem line_of_mem_tokens {source : String} {token : Token} (h : '\n' ∉ source.toList)
    (htoken : token ∈ tokens source) : token.line = 1 := by
  rw [tokens_eq, List.count_eq_zero_of_not_mem h] at htoken
  rcases List.mem_append.mp htoken with htoken | htoken
  · obtain ⟨step, hstep, hyield⟩ := List.mem_filterMap.mp htoken
    obtain ⟨kind, -, rfl⟩ := Step.exists_kind_of_token? hyield
    exact congrArg Nat.cast (Step.line_of_mem_all h hstep).2
  · rw [List.mem_singleton.mp htoken]
    rfl

theorem line_of_mem_reports {source : String} {report : Report} (h : '\n' ∉ source.toList)
    (hreport : report ∈ reports source) : report.line = 1 := by
  obtain ⟨step, hstep, hyield⟩ := List.mem_filterMap.mp hreport
  obtain ⟨fault, -, rfl⟩ := Option.map_eq_some_iff.mp hyield
  exact congrArg Nat.cast (Step.line_of_mem_all h hstep).1

/-- What steps yield without regard to their place, they yield line by line. -/
theorem Step.filterMap_all_lines {α : Type} {yield : Step → Option α}
    (hmoved : ∀ characters lines step, yield (moved characters lines step) = yield step)
    (hbreak : ∀ cursor, yield ⟨⟨.lineBreak, ['\n']⟩, cursor⟩ = none) {text : List Char}
    (h : ∀ line ∈ linesOf text, ∀ report ∈ LoxLexer.reports (String.ofList line),
      report.message ≠ Fault.unterminatedMessage) :
    (all (String.ofList text)).filterMap yield =
      (linesOf text).flatMap fun line => (all (String.ofList line)).filterMap yield := by
  have hsame (characters lines : Nat) (step : Step) : yield (moved characters lines step) =
      (yield step).map ((fun _ => id : Nat → α → α) lines) := by
    simp [hmoved]
  induction text using lines_induction with
  | nil => simp [all, Lexeme.split, along, linesOf_nil]
  | last line hne hline => rw [linesOf_of_not_mem hne hline, List.flatMap_singleton]
  | cons line rest hline ih =>
    have htext : String.ofList (line ++ '\n' :: rest) =
        String.ofList line ++ "\n" ++ String.ofList rest := by
      simp [← String.toList_inj]
    rw [linesOf_append_lineBreak hline] at h ⊢
    obtain ⟨hfirst, hrest⟩ := List.forall_mem_cons.mp h
    have happend := filterMap_all_append_lineBreak hsame hbreak (String.ofList rest) hfirst
    rw [htext, happend, List.map_id, ih hrest, List.flatMap_cons]

/-- The same report about the first line. -/
def Report.onFirstLine (report : Report) : Report := { report with line := 1 }

/-- The reports of a text are those of its lines, the places apart. -/
theorem reports_lines {text : List Char}
    (h : ∀ line ∈ linesOf text, ∀ report ∈ reports (String.ofList line),
      report.message ≠ Fault.unterminatedMessage) :
    (reports (String.ofList text)).map Report.onFirstLine =
      (linesOf text).flatMap fun line => reports (String.ofList line) := by
  have hmap (source : String) : (reports source).map Report.onFirstLine =
      (Step.all source).filterMap fun step => step.report?.map Report.onFirstLine :=
    List.map_filterMap
  have hmoved (characters lines : Nat) (step : Step) :
      (step.moved characters lines).report?.map Report.onFirstLine =
        step.report?.map Report.onFirstLine := by
    rw [Step.report?_moved, Option.map_map]
    rfl
  rw [hmap, Step.filterMap_all_lines hmoved (fun _ => rfl) h]
  refine List.flatMap_congr fun line hline => ?_
  have hone : '\n' ∉ (String.ofList line).toList := by
    rw [String.toList_ofList]
    exact not_mem_of_mem_linesOf hline
  rw [← hmap]
  refine (List.map_congr_left fun report hreport => ?_).trans (List.map_id _)
  rw [Report.onFirstLine, ← line_of_mem_reports hone hreport]
  rfl

end LoxLexer
