import LoxLexer.Proofs.Lexeme.Lookahead
import LoxLexer.Proofs.Scan.Layout
import LoxLexer.Reporter.Kinds

/-!
# Texts joined by a line feed

No lexeme goes beyond the end of its line but a string. Unless the first text ends in an open
string, a line feed therefore keeps two texts apart: the second one is read as if it stood alone,
only that many characters and lines further on (`Step.all_append_lineBreak`).
-/
namespace LoxLexer

/-- A cursor so many characters and lines further on. -/
def Cursor.moved (characters lines : Nat) (cursor : Cursor) : Cursor :=
  ⟨cursor.start + characters, cursor.current + characters, cursor.line + lines,
    cursor.startLine + lines⟩

def Step.moved (characters lines : Nat) (step : Step) : Step :=
  ⟨step.lexeme, step.cursor.moved characters lines⟩

/-- A token so many lines further down. -/
def Token.lowered (lines : Nat) (token : Token) : Token := { token with line := token.line + lines }

def Report.lowered (lines : Nat) (report : Report) : Report :=
  { report with line := report.line + lines }

def Diagnostic.lowered (lines : Nat) (diagnostic : Diagnostic) : Diagnostic :=
  { diagnostic with
    location := { diagnostic.location with line := diagnostic.location.line + lines } }

namespace Cursor

theorem advance_moved (characters lines : Nat) (cursor : Cursor) (text : List Char) :
    (cursor.moved characters lines).advance text =
      (cursor.advance text).moved characters lines := by
  simp only [advance, moved, Nat.add_right_comm]

end Cursor

theorem Fault.lowered_diagnostic (fault : Fault) (filename : String) (line lines : Nat) :
    (fault.diagnostic ⟨filename, line⟩).lowered lines =
      fault.diagnostic ⟨filename, (line + lines : Nat)⟩ := by
  cases fault <;> rfl

namespace Step

variable (characters lines : Nat)

theorem along_moved (cursor : Cursor) (lexemes : List Lexeme) :
    along (cursor.moved characters lines) lexemes =
      (along cursor lexemes).map (moved characters lines) := by
  induction lexemes generalizing cursor with
  | nil => rfl
  | cons lexeme rest ih =>
    rw [along, along, List.map_cons, Cursor.advance_moved, ih]
    rfl

theorem token?_moved (step : Step) :
    (step.moved characters lines).token? = step.token?.map (Token.lowered lines) := by
  obtain ⟨⟨form, text⟩, cursor⟩ := step
  cases form <;> rfl

theorem report?_moved (step : Step) :
    (step.moved characters lines).report? = step.report?.map (Report.lowered lines) := by
  obtain ⟨⟨form, text⟩, cursor⟩ := step
  cases form <;> rfl

theorem diagnostic?_moved (filename : String) (step : Step) :
    (step.moved characters lines).diagnostic? filename =
      (step.diagnostic? filename).map (Diagnostic.lowered lines) := by
  obtain ⟨⟨form, text⟩, cursor⟩ := step
  cases form <;> simp [diagnostic?, fault?, moved, Fault.lowered_diagnostic, Cursor.moved]

/-- What moved steps leave is what the steps leave, so many lines further down. -/
theorem filterMap_map_moved {α : Type} {yield : Step → Option α} {lower : α → α}
    (h : ∀ step, yield (moved characters lines step) = (yield step).map lower)
    (steps : List Step) :
    (steps.map (moved characters lines)).filterMap yield = (steps.filterMap yield).map lower := by
  rw [List.filterMap_map, List.map_filterMap]
  exact congrArg (fun f => steps.filterMap f) (funext h)

end Step

namespace Lexeme

variable {form : LexemeForm} {text rest : List Char}

/-- A line feed ends every lexeme that could go on. -/
theorem stops_lineBreak (form : LexemeForm) (text more : List Char) :
    Stops form text ('\n' :: more) := by
  cases form with
  | token kind => exact stops_of_isSpace (forall_head?_cons (.inr (.inr (.inr rfl))))
  | comment => exact forall_head?_cons rfl
  | _ => trivial

theorem Stops.append_lineBreak (h : Stops form text rest) (more : List Char) :
    Stops form text (rest ++ '\n' :: more) := by
  by_cases hnil : rest = []
  · rw [hnil]
    exact stops_lineBreak form text more
  · by_cases hpoint : form = .token .number ∧ rest = ['.']
    · obtain ⟨rfl, rfl⟩ := hpoint
      refine ⟨h.1, .inr ?_⟩
      rw [takeFraction_eq_self_iff]
      rintro d tail heq
      cases heq
      rfl
    · exact h.append hnil (fun hform _ hrest => hpoint ⟨hform, hrest⟩) _

/-- A line feed keeps the lexemes of two texts apart, if the first does not end in an open
string. -/
theorem split_append_lineBreak {first : List Char} (second : List Char)
    (h : ∀ lexeme ∈ split first, lexeme.form ≠ .openString) :
    split (first ++ '\n' :: second) = split first ++ ⟨.lineBreak, ['\n']⟩ :: split second := by
  fun_induction split first with
  | case1 => exact split_append_of_matches .lineBreak trivial
  | case2 c rest ih =>
    obtain ⟨hopen, hrest⟩ := List.forall_mem_cons.mp h
    have hnext := next_append_right (Prod.mk.eta (p := next c rest)).symm hopen
      ((stops_next c rest).append_lineBreak second)
    rw [List.cons_append, split, hnext, ih hrest, List.cons_append]

end Lexeme

namespace Step

/-- If no open string is reported, none of the lexemes is one. -/
theorem form_ne_openString_of_reports {source : String}
    (h : ∀ report ∈ LoxLexer.reports source, report.message ≠ Fault.unterminatedMessage) :
    ∀ lexeme ∈ Lexeme.split source.toList, lexeme.form ≠ .openString := by
  intro lexeme hlexeme hform
  obtain ⟨step, hstep, rfl⟩ := exists_mem_along Cursor.origin hlexeme
  have hreport : step.report? = some ⟨step.cursor.line, Fault.unterminatedMessage⟩ := by
    rw [report?, fault?, hform]
    rfl
  exact h _ (List.mem_filterMap.mpr ⟨step, hstep, hreport⟩) rfl

/-- Behind a line feed the steps are those over the second text alone, moved on. -/
theorem all_append_lineBreak {first : String} (second : String)
    (h : ∀ report ∈ LoxLexer.reports first, report.message ≠ Fault.unterminatedMessage) :
    all (first ++ "\n" ++ second) = all first ++
      ⟨⟨.lineBreak, ['\n']⟩, (lastCursor Cursor.origin (all first)).advance ['\n']⟩ ::
        (all second).map (moved (first.length + 1) (1 + first.toList.count '\n')) := by
  have hchars : (first ++ "\n" ++ second).toList = first.toList ++ '\n' :: second.toList := by
    simp [String.toList_append]
  have hplace := lastCursor_of_along (List.append_nil (all first)).symm
  rw [consumed_all, String.length_toList] at hplace
  have hcurrent : ((lastCursor Cursor.origin (all first)).advance ['\n']).current =
      (Cursor.origin.moved (first.length + 1) (1 + first.toList.count '\n')).current := by
    change (lastCursor Cursor.origin (all first)).current + 1 = _
    rw [hplace.1]
    rfl
  have hline : ((lastCursor Cursor.origin (all first)).advance ['\n']).line =
      (Cursor.origin.moved (first.length + 1) (1 + first.toList.count '\n')).line := by
    change (lastCursor Cursor.origin (all first)).line + 1 = 1 + (1 + first.toList.count '\n')
    rw [hplace.2]
    change 1 + first.toList.count '\n' + 1 = 1 + (1 + first.toList.count '\n')
    omega
  have hsecond := along_of_same_place hcurrent hline (Lexeme.split second.toList)
  rw [along_moved] at hsecond
  rw [all, hchars, Lexeme.split_append_lineBreak _ (form_ne_openString_of_reports h), along_append,
    along]
  exact congrArg (fun more => all first ++ _ :: more) hsecond

/-- What steps leave falls apart in the same way; the line feed leaves nothing. -/
theorem filterMap_all_append_lineBreak {α : Type} {yield : Step → Option α} {lower : Nat → α → α}
    (hmoved : ∀ characters lines step,
      yield (moved characters lines step) = (yield step).map (lower lines))
    (hbreak : ∀ cursor, yield ⟨⟨.lineBreak, ['\n']⟩, cursor⟩ = none)
    {first : String} (second : String)
    (h : ∀ report ∈ LoxLexer.reports first, report.message ≠ Fault.unterminatedMessage) :
    (all (first ++ "\n" ++ second)).filterMap yield = (all first).filterMap yield ++
      ((all second).filterMap yield).map (lower (1 + first.toList.count '\n')) := by
  rw [all_append_lineBreak second h, List.filterMap_append, List.filterMap_cons_none (hbreak _),
    filterMap_map_moved _ _ (hmoved _ _)]

end Step

/-- A scan of two texts with a line feed between them is the scan of the first, and behind it that
of the second with all lines counted on from the first. -/
theorem scan_append_lineBreak {σ : Type} (reporter : Reporter σ Empty) (state : σ)
    (filename : String) {first : String} (second : String)
    (h : ∀ report ∈ reports first, report.message ≠ Fault.unterminatedMessage) :
    let lines := 1 + first.toList.count '\n'
    let scanned (source : String) := (Document.ofSource source filename).scanWith reporter state
    (scanned (first ++ "\n" ++ second)).1.tokens =
        (scanned first).1.tokens.dropLast ++ (scanned second).1.tokens.map (Token.lowered lines) ∧
      (scanned (first ++ "\n" ++ second)).1.diagnostics = (scanned first).1.diagnostics ++
        (scanned second).1.diagnostics.map (Diagnostic.lowered lines) ∧
      reports (first ++ "\n" ++ second) =
        reports first ++ (reports second).map (Report.lowered lines) ∧
      (scanned (first ++ "\n" ++ second)).2.1 =
        ((reports second).map (Report.lowered lines)).foldl (fun s r => (reporter.receive s r).1)
          (scanned first).2.1 := by
  intro lines scanned
  have htokens := Step.filterMap_all_append_lineBreak Step.token?_moved (fun _ => rfl) second h
  have hdiagnostics := Step.filterMap_all_append_lineBreak
    (fun _ _ step => Step.diagnostic?_moved _ _ filename step) (fun _ => rfl) second h
  have hreports : reports (first ++ "\n" ++ second) =
      reports first ++ (reports second).map (Report.lowered lines) :=
    Step.filterMap_all_append_lineBreak Step.report?_moved (fun _ => rfl) second h
  simp only [scanned, Document.scanWith_eq, Document.ofSource]
  refine ⟨?_, hdiagnostics, hreports, ?_⟩
  · have hcount : (first ++ "\n" ++ second).toList.count '\n' =
        first.toList.count '\n' + 1 + second.toList.count '\n' := by
      rw [String.toList_append, String.toList_append, List.count_append, List.count_append]
      rfl
    have hlast : (Token.endOfInput ((1 + second.toList.count '\n' : Nat) : Int)).lowered lines =
        Token.endOfInput ((1 + (first ++ "\n" ++ second).toList.count '\n' : Nat) : Int) := by
      simp only [Token.lowered, Token.endOfInput, hcount, lines, Token.mk.injEq, true_and]
      omega
    rw [tokens_eq, tokens_eq, tokens_eq, htokens, List.dropLast_concat, List.map_append,
      List.map_singleton, hlast, List.append_assoc]
  · rw [hreports, List.foldl_append]

/-- A point that no digit follows, and a foreign character in each of the two texts. -/
theorem scan_append_lineBreak_point :
    let first := "a@1."
    let second := "5 \"x\ny\" &"
    let lines := 1 + first.toList.count '\n'
    let scanned (source : String) :=
      (Document.ofSource source "f.lox").scanWith LineWriter.reporter LineWriter.empty
    (∀ report ∈ reports first, report.message ≠ Fault.unterminatedMessage) ∧
      (scanned (first ++ "\n" ++ second)).1.tokens =
        (scanned first).1.tokens.dropLast ++ (scanned second).1.tokens.map (Token.lowered lines) ∧
      (scanned (first ++ "\n" ++ second)).1.diagnostics = (scanned first).1.diagnostics ++
        (scanned second).1.diagnostics.map (Diagnostic.lowered lines) ∧
      reports (first ++ "\n" ++ second) =
        reports first ++ (reports second).map (Report.lowered lines) ∧
      (scanned (first ++ "\n" ++ second)).2.1 =
        ((reports second).map (Report.lowered lines)).foldl
          (fun s r => (LineWriter.reporter.receive s r).1) (scanned first).2.1 := by
  have h : ∀ report ∈ reports "a@1.", report.message ≠ Fault.unterminatedMessage := by
    decide +kernel
  exact ⟨h, scan_append_lineBreak LineWriter.reporter LineWriter.empty "f.lox" _ h⟩

end LoxLexer
