import LoxLexer.Proofs.Json.Written
import LoxLexer.Proofs.Scan.Blanking
import LoxLexer.Source.Newlines

/-!
# Diagnostics are safe to print

Whatever characters a text has, its diagnostics show printable ones alone, if its name does
(`Fault.isPrintable_of_mem_lines`): a character that cannot be printed is named by its code point.
Nor do two characters get the same help text (`Fault.unexpectedHelp_injective`).
-/
namespace LoxLexer

/-! ## Code points -/

theorem map_toLower_upperHexText (width n : Nat) :
    (upperHexText width n).map Char.toLower = hexText width n := by
  have hcase : ∀ c ∈ hexText width n, c.toUpper.toLower = c :=
    Json.forall_mem_hexText (by decide) width n
  rw [upperHexText, List.map_map]
  exact (List.map_congr_left hcase).trans (List.map_id _)

/-- A number is read off its upper-case digits, however many there are. -/
theorem upperHexText_injective {width n m : Nat} (h : upperHexText width n = upperHexText width m) :
    n = m := by
  have htext := congrArg (List.map Char.toLower) h
  rw [map_toLower_upperHexText, map_toLower_upperHexText] at htext
  have hread := congrArg Json.hexNumber? htext
  rw [Json.hexNumber?_hexText, Json.hexNumber?_hexText] at hread
  exact Option.some.inj hread

/-! ## The help about a character -/

theorem isPrintable_of_isPrintableAscii {c : Char} (h : Json.IsPrintableAscii c) :
    isPrintable c = true :=
  isPrintable_of_ascii h.1 h.2

theorem isPrintable_of_all {text : List Char}
    (h : (text.all fun c => decide (Json.IsPrintableAscii c)) = true) :
    ∀ c ∈ text, isPrintable c = true :=
  fun c hc => isPrintable_of_isPrintableAscii (Json.isPrintableAscii_of_all h c hc)

theorem isPrintable_upperHexText (width n : Nat) :
    ∀ c ∈ upperHexText width n, isPrintable c = true := by
  rw [upperHexText, List.forall_mem_map]
  exact fun c hc => isPrintable_of_isPrintableAscii
    (Json.forall_mem_hexText (p := fun d => Json.IsPrintableAscii d.toUpper) (by decide) width n c hc)

namespace Fault

theorem toList_shownHelp (c : Char) :
    (shownHelp (String.singleton c)).toList =
      "The character '".toList ++ c :: "' is not valid in Lox source code.".toList := by
  have htext : shownHelp (String.singleton c) =
      "The character '" ++ (String.singleton c ++ "' is not valid in Lox source code.") :=
    String.append_assoc
  simp only [htext, String.toList_append, String.toList_singleton, List.singleton_append]

theorem toList_hiddenHelp (c : Char) :
    (hiddenHelp c).toList =
      "Non-printable character (Unicode: U+".toList ++
        (upperHexText 4 c.toNat ++ ") is not allowed.".toList) := by
  have htext : hiddenHelp c = "Non-printable character (Unicode: U+" ++
      (String.ofList (upperHexText 4 c.toNat) ++ ") is not allowed.") := String.append_assoc
  simp only [htext, String.toList_append, String.toList_ofList]

theorem isPrintable_unexpectedHelp (c : Char) :
    ∀ d ∈ (unexpectedHelp c).toList, isPrintable d = true := by
  rw [unexpectedHelp]
  split
  · rename_i hc
    rw [toList_shownHelp, List.forall_mem_append, List.forall_mem_cons]
    exact ⟨isPrintable_of_all (by decide), hc, isPrintable_of_all (by decide)⟩
  · rw [toList_hiddenHelp, List.forall_mem_append, List.forall_mem_append]
    exact ⟨isPrintable_of_all (by decide), isPrintable_upperHexText 4 c.toNat,
      isPrintable_of_all (by decide)⟩

theorem shownHelp_injective {c d : Char}
    (h : shownHelp (String.singleton c) = shownHelp (String.singleton d)) : c = d := by
  have htext := congrArg String.toList h
  rw [toList_shownHelp, toList_shownHelp, List.append_cancel_left_eq] at htext
  exact (List.cons.inj htext).1

/-- The digits of a code point tell it, however many there are. -/
theorem hiddenHelp_injective {c d : Char} (h : hiddenHelp c = hiddenHelp d) : c = d := by
  have htext := congrArg String.toList h
  rw [toList_hiddenHelp, toList_hiddenHelp, List.append_cancel_left_eq,
    List.append_cancel_right_eq] at htext
  exact Char.toNat_inj.mp (upperHexText_injective htext)

theorem shownHelp_ne_hiddenHelp (c d : Char) :
    shownHelp (String.singleton c) ≠ hiddenHelp d := by
  intro h
  have htext := congrArg String.toList h
  rw [toList_shownHelp, toList_hiddenHelp] at htext
  exact absurd (List.cons.inj htext).1 (by decide)

/-- The help says which character it is about, be it shown or not. -/
theorem unexpectedHelp_injective : Function.Injective unexpectedHelp := by
  intro c d h
  unfold unexpectedHelp at h
  split at h <;> split at h
  · exact shownHelp_injective h
  · exact absurd h (shownHelp_ne_hiddenHelp c d)
  · exact absurd h.symm (shownHelp_ne_hiddenHelp d c)
  · exact hiddenHelp_injective h

/-! ## The lines of a diagnostic -/

theorem unexpectedHelp_ne_empty (c : Char) : unexpectedHelp c ≠ "" := by
  rw [unexpectedHelp, Ne, ← String.toList_eq_nil_iff]
  split
  · simp [toList_shownHelp]
  · simp [toList_hiddenHelp]

/-- The lines in which a fault is shown. -/
def lines (location : Location) : Fault → List String
  | unexpectedCharacter c =>
    ["ERROR: Unexpected character.", s!"  --> {location.text}", s!"  help: {unexpectedHelp c}"]
  | unterminatedString =>
    ["ERROR: Unterminated string.", s!"  --> {location.text}",
      "  help: String literals must be closed with a matching \" quote.", "  suggestions:",
      "    - Add a closing \" quote"]

theorem lines_diagnostic (fault : Fault) (location : Location) :
    (fault.diagnostic location).lines = fault.lines location := by
  have hseverity : uppercase Diagnostic.errorSeverity = "ERROR" := by decide
  cases fault with
  | unexpectedCharacter c =>
    simp only [diagnostic, unexpectedDiagnostic, Diagnostic.lines, Diagnostic.helpLines,
      Diagnostic.suggestionLines, if_neg (unexpectedHelp_ne_empty c), hseverity]
    rfl
  | unterminatedString =>
    simp only [diagnostic, Diagnostic.lines, hseverity]
    rfl

theorem isPrintable_location {location : Location}
    (h : ∀ c ∈ location.filename.toList, isPrintable c = true) :
    ∀ c ∈ s!"  --> {location.text}".toList, isPrintable c = true := by
  have hline : ∀ c ∈ location.line.repr.toList, isPrintable c = true :=
    fun c hc => isPrintable_of_isPrintableAscii (Json.isPrintableAscii_repr _ c hc)
  simp only [Location.text, toString, String.toList_append, List.forall_mem_append]
  exact ⟨isPrintable_of_all (by decide), ⟨h, isPrintable_of_all (by decide)⟩, hline⟩

/-- A fault is shown in printable characters, if the name of the text is. -/
theorem isPrintable_of_mem_lines {location : Location}
    (h : ∀ c ∈ location.filename.toList, isPrintable c = true) (fault : Fault) :
    ∀ line ∈ fault.lines location, ∀ c ∈ line.toList, isPrintable c = true := by
  have hlocation := isPrintable_location h
  cases fault with
  | unexpectedCharacter c =>
    have hhelp : ∀ d ∈ s!"  help: {unexpectedHelp c}".toList, isPrintable d = true := by
      simp only [toString, String.toList_append, List.forall_mem_append]
      exact ⟨isPrintable_of_all (by decide), isPrintable_unexpectedHelp c⟩
    rw [lines, List.forall_mem_cons, List.forall_mem_cons, List.forall_mem_singleton]
    exact ⟨isPrintable_of_all (by decide), hlocation, hhelp⟩
  | unterminatedString =>
    rw [lines, List.forall_mem_cons, List.forall_mem_cons]
    refine ⟨isPrintable_of_all (by decide), hlocation, fun line hline => isPrintable_of_all ?_⟩
    revert line
    decide

end Fault

/-- A diagnostic is shown in the given lines: its text is these lines, each ended by a line feed, and
apart from the line feeds at their ends all of it can be printed. -/
structure Diagnostic.IsShownAs (d : Diagnostic) (lines : List String) : Prop where
  text_eq : d.text = String.join (lines.map (· ++ "\n"))
  linesOf_text : linesOf d.text.toList = lines.map String.toList
  printable : ∀ c ∈ d.text.toList, isPrintable c = true ∨ c = '\n'

theorem Diagnostic.isShownAs_lines {d : Diagnostic}
    (h : ∀ line ∈ d.lines, ∀ c ∈ line.toList, isPrintable c = true) : d.IsShownAs d.lines where
  text_eq := rfl
  linesOf_text := linesOf_join_of_not_mem fun line hline hmem =>
    absurd (h line hline '\n' hmem) (by decide)
  printable := by
    rw [text, String.toList_join, List.forall_mem_flatMap, List.forall_mem_map]
    intro line hline c hc
    rw [String.toList_append, List.mem_append] at hc
    exact hc.imp (h line hline c) List.mem_singleton.mp

theorem Fault.isShownAs_lines {location : Location}
    (h : ∀ c ∈ location.filename.toList, isPrintable c = true) (fault : Fault) :
    (fault.diagnostic location).IsShownAs (fault.lines location) := by
  rw [← fault.lines_diagnostic location]
  apply Diagnostic.isShownAs_lines
  rw [fault.lines_diagnostic location]
  exact fault.isPrintable_of_mem_lines h

theorem Step.mem_of_unexpectedCharacter {source : String} {step : Step} (h : step ∈ all source)
    {c : Char} (hfault : step.fault? = some (.unexpectedCharacter c)) : c ∈ source.toList := by
  have hform : step.lexeme.form = .foreign c := by
    obtain ⟨⟨form, text⟩, cursor⟩ := step
    cases form <;> cases hfault
    rfl
  have htext := (Lexeme.text_of_foreign (lexeme_mem_of_mem_along h) hform).1
  rw [← consumed_all source]
  exact List.mem_flatMap.mpr ⟨step, h, htext ▸ List.mem_singleton_self c⟩

namespace Document

variable {σ ε : Type}

/-- Whatever a text holds, and whoever watches the scan, a recorded diagnostic is shown in printable
characters and the line feeds that end its lines, if the name of the text is printable. There are
three lines about an unexpected character, which is one of the text, and five about a string without
its closing quote. The help texts about different characters are different. -/
theorem scan_diagnostics_printable (reporter : Reporter σ ε) (state : σ) (document : Document)
    (h : ∀ c ∈ document.filename.toList, isPrintable c = true) :
    (∀ d ∈ (document.scanWith reporter state).1.diagnostics,
      (d.code = some "L001" ∧ ∃ c ∈ document.source.toList, d.help = some (Fault.unexpectedHelp c) ∧
        d.IsShownAs ["ERROR: Unexpected character.",
          s!"  --> {document.filename}:{d.location.line}",
          s!"  help: {Fault.unexpectedHelp c}"]) ∨
      (d.code = some "L002" ∧
        d.IsShownAs ["ERROR: Unterminated string.",
          s!"  --> {document.filename}:{d.location.line}",
          "  help: String literals must be closed with a matching \" quote.",
          "  suggestions:",
          "    - Add a closing \" quote"])) ∧
    ∀ (c c' : Char) (location location' : Location), c ≠ c' →
      ((Fault.unexpectedCharacter c).diagnostic location).help ≠
        ((Fault.unexpectedCharacter c').diagnostic location').help := by
  refine ⟨fun d hd => ?_, fun c c' location location' hne hhelp =>
    hne (Fault.unexpectedHelp_injective (Option.some.inj hhelp))⟩
  obtain ⟨step, hstep, fault, hfault, rfl⟩ := Step.exists_fault_of_mem_diagnostics hd
  have hall := (reporter.watch_steps_prefix state (Step.all document.source)).subset hstep
  have hshown : (fault.diagnostic ⟨document.filename, step.cursor.line⟩).IsShownAs _ :=
    fault.isShownAs_lines h
  cases fault with
  | unexpectedCharacter c =>
    exact .inl ⟨rfl, c, Step.mem_of_unexpectedCharacter hall hfault, rfl, hshown⟩
  | unterminatedString => exact .inr ⟨rfl, hshown⟩

/-- A separator of lines that is not shown, a letter that is, and a string left open. -/
theorem scan_diagnostics_printable_separator :
    let document := ofSource "\u2028é\n\"" "näme.lox"
    let found := document.scan.diagnostics
    (∀ c ∈ document.filename.toList, isPrintable c = true) ∧
      found.map Diagnostic.text =
        ["ERROR: Unexpected character.\n  --> näme.lox:1\n" ++
            "  help: Non-printable character (Unicode: U+2028) is not allowed.\n",
          "ERROR: Unexpected character.\n  --> näme.lox:1\n" ++
            "  help: The character 'é' is not valid in Lox source code.\n",
          "ERROR: Unterminated string.\n  --> näme.lox:2\n" ++
            "  help: String literals must be closed with a matching \" quote.\n" ++
            "  suggestions:\n    - Add a closing \" quote\n"] ∧
      (∀ d ∈ found, ∃ lines, d.IsShownAs lines ∧ (lines.length = 3 ∨ lines.length = 5)) ∧
      ((Fault.unexpectedCharacter '\u2028').diagnostic ⟨"näme.lox", 1⟩).help ≠
        ((Fault.unexpectedCharacter '\u2029').diagnostic ⟨"näme.lox", 1⟩).help := by
  intro document found
  have hname : ∀ c ∈ document.filename.toList, isPrintable c = true :=
    List.all_eq_true.mp (by decide +kernel)
  obtain ⟨hshown, hhelp⟩ := scan_diagnostics_printable Reporter.silent () document hname
  refine ⟨hname, by decide +kernel, fun d hd => ?_, hhelp _ _ _ _ (by decide)⟩
  obtain ⟨-, c, -, -, hlines⟩ | ⟨-, hlines⟩ := hshown d hd
  · exact ⟨_, hlines, .inl rfl⟩
  · exact ⟨_, hlines, .inr rfl⟩

end Document

end LoxLexer
