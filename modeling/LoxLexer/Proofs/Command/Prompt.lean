import LoxLexer.Proofs.Command.Script
import LoxLexer.Proofs.Scan.LineByLine

/-!
# Lines typed at a prompt

A prompt shows the tokens of each line by itself, and one writer that goes from line to line writes
the same as a fresh one for each. Unless a line ends in an open string, all lines together show what
a script with the same text shows; only the lines that the messages name differ (`dump_lines`,
`reports_lines`).
-/
namespace LoxLexer.Command

/-- A line of a dump that is not in JSON does not say on which line its token stands. -/
theorem dumpLine_lowered (lines : Nat) (token : Token) :
    dumpLine false (token.lowered lines) = dumpLine false token := by
  have hplain : (token.lowered lines).plainText = token.plainText := rfl
  exact congrArg (· ++ "\n") hplain

/-- The plain dump of a text, without its end, is that of its lines. -/
theorem dump_lines {text : List Char}
    (h : ∀ line ∈ linesOf text, ∀ report ∈ reports (String.ofList line),
      report.message ≠ Fault.unterminatedMessage) :
    String.join ((linesOf text).map fun line =>
        dump ⟨false, false⟩ (tokens (String.ofList line))) =
      dump ⟨false, false⟩ (tokens (String.ofList text)) := by
  have hdump (source : String) : dump ⟨false, false⟩ (tokens source) =
      String.join ((Step.all source).filterMap fun step => step.token?.map (dumpLine false)) := by
    rw [dump_tokens, List.map_filterMap]
    simp
  have hmoved (characters lines : Nat) (step : Step) :
      (step.moved characters lines).token?.map (dumpLine false) =
        step.token?.map (dumpLine false) := by
    have hline : dumpLine false ∘ Token.lowered lines = dumpLine false :=
      funext (dumpLine_lowered lines)
    rw [Step.token?_moved, Option.map_map, hline]
  simp only [hdump]
  rw [Step.filterMap_all_lines hmoved (fun _ => rfl) h]
  induction linesOf text with
  | nil => rfl
  | cons line lines ih =>
    rw [List.map_cons, String.join_cons, ih, List.flatMap_cons, String.join_append]

/-- The lines of a prompt before the eyes of one writer, which forgets after each that there was an
error: what is dumped, and the writer at the end. -/
def dumpLines (format : DumpFormat) (writer : LineWriter) : List String → String × LineWriter
  | [] => (promptText ++ "\n", writer)
  | line :: lines =>
    let (document, told, _) :=
      (Document.ofSource line promptFilename).scanWith LineWriter.reporter writer
    let (rest, last) := dumpLines format told.resetError lines
    (promptText ++ dump format document.tokens ++ rest, last)

theorem dumpLines_eq (format : DumpFormat) (text : String) (lines : List String) :
    dumpLines format ⟨false, text⟩ lines =
      (String.join (lines.map fun line => promptText ++ dump format (tokens line)) ++
          (promptText ++ "\n"),
        ⟨false, text ++ String.join ((lines.flatMap reports).map LineWriter.lineOf)⟩) := by
  induction lines generalizing text with
  | nil => simp [dumpLines]
  | cons line lines ih =>
    have htold : ((reports line).foldl (fun s r => (LineWriter.reporter.receive s r).1)
        ⟨false, text⟩).resetError =
          ⟨false, text ++ String.join ((reports line).map LineWriter.lineOf)⟩ :=
      congrArg LineWriter.resetError (LineWriter.foldl_receive ⟨false, text⟩ (reports line))
    simp only [dumpLines, Document.scanWith_eq, Document.ofSource, htold, ih]
    simp [String.append_assoc]

theorem runLines_eq (format : DumpFormat) (lines : List (List Char)) :
    runLines format lines =
      ⟨.code exitOk,
        String.join ((lines.map String.ofList).map fun line =>
          promptText ++ dump format (tokens line)) ++ (promptText ++ "\n"),
        String.join (((lines.map String.ofList).flatMap reports).map LineWriter.lineOf)⟩ := by
  induction lines with
  | nil => simp [runLines]
  | cons line lines ih =>
    simp only [runLines, runScript_eq, ih]
    simp [String.append_assoc]

/-- What a prompt shows of its lines: each is scanned by itself, and nothing goes over from one to
the next, be the writer the same for all of them or not. -/
structure ShowsLines (format : DumpFormat) (lines : List String) (outcome : Outcome) : Prop where
  ending_eq : outcome.ending = .code exitOk
  stdout_eq : outcome.stdout =
    String.join (lines.map fun line => "> " ++ dump format (tokens line)) ++ "> \n"
  stderr_eq : outcome.stderr = String.join ((lines.flatMap reports).map LineWriter.lineOf)
  oneWriter : dumpLines format LineWriter.empty lines =
    (outcome.stdout, ⟨false, outcome.stderr⟩)
  line_tokens : ∀ line ∈ lines, ∀ token ∈ tokens line, token.line = 1
  line_reports : ∀ line ∈ lines, ∀ report ∈ reports line, report.line = 1

theorem showsLines_runLines (format : DumpFormat) (text : List Char) :
    ShowsLines format ((linesOf text).map String.ofList) (runLines format (linesOf text)) := by
  have hline : ∀ line ∈ (linesOf text).map String.ofList, '\n' ∉ line.toList := by
    intro line hmem
    obtain ⟨characters, hcharacters, rfl⟩ := List.mem_map.mp hmem
    rw [String.toList_ofList]
    exact not_mem_of_mem_linesOf hcharacters
  rw [runLines_eq]
  exact
    { ending_eq := rfl
      stdout_eq := rfl
      stderr_eq := rfl
      oneWriter := by simp only [LineWriter.empty, dumpLines_eq, String.empty_append]
      line_tokens := fun line hmem token htoken => line_of_mem_tokens (hline line hmem) htoken
      line_reports := fun line hmem report hreport =>
        line_of_mem_reports (hline line hmem) hreport }

/-- A run with flags alone ends well whatever is typed and shows its lines one by one. If none of
them ends in an open string, the plain dumps of the lines make up that of a script with the same
text, and the messages are those for the script, each about the first line. -/
theorem run_prompt (read : FileReader) (typed : String) :
    let lines := (linesOf typed.toList).map String.ofList
    (∀ flags, (∀ flag ∈ flags, IsDumpFlag flag) →
        ShowsLines (formatOf flags) lines (run read typed flags)) ∧
      ((∀ line ∈ lines, ∀ report ∈ reports line, report.message ≠ Fault.unterminatedMessage) →
        ∀ path,
          let file := runScript ⟨false, false⟩ path typed
          let messages := reports typed
          String.join (lines.map fun line => dump ⟨false, false⟩ (tokens line)) = file.stdout ∧
            file.stderr = String.join (messages.map LineWriter.lineOf) ∧
            (run read typed ["--no-eof"]).stderr =
              String.join ((messages.map Report.onFirstLine).map LineWriter.lineOf)) := by
  intro lines
  have hshows (flags : List String) (hflags : ∀ flag ∈ flags, IsDumpFlag flag) :
      ShowsLines (formatOf flags) lines (run read typed flags) := by
    rw [run, planOf_flags hflags]
    exact showsLines_runLines (formatOf flags) typed.toList
  refine ⟨hshows, ?_⟩
  intro hclosed path file messages
  have hclosed : ∀ line ∈ linesOf typed.toList, ∀ report ∈ reports (String.ofList line),
      report.message ≠ Fault.unterminatedMessage :=
    fun line hline => hclosed _ (List.mem_map_of_mem hline)
  have hdump := dump_lines hclosed
  have hreports := reports_lines hclosed
  rw [String.ofList_toList] at hdump hreports
  have hfile : file = _ := runScript_eq ⟨false, false⟩ path typed
  have hstderr := (hshows ["--no-eof"] (by simp [IsDumpFlag])).stderr_eq
  rw [hfile, hstderr]
  refine ⟨?_, rfl, ?_⟩
  · rw [List.map_map]
    exact hdump
  · rw [hreports, List.flatMap_map]

/-- Four lines, one of them empty and one with a carriage return at its end, and a foreign character
on two of them. -/
theorem run_prompt_four_lines :
    let typed := "var x;\n$ \"a\"\r\n\n@ (1."
    let lines := (linesOf typed.toList).map String.ofList
    let outcome := run (fun _ => .error .notFound) typed ["--no-eof"]
    let file := runScript ⟨false, false⟩ "f.lox" typed
    (∀ flag ∈ ["--no-eof"], IsDumpFlag flag) ∧
      (∀ line ∈ lines, ∀ report ∈ reports line, report.message ≠ Fault.unterminatedMessage) ∧
      lines = ["var x;", "$ \"a\"\r", "", "@ (1."] ∧ ShowsLines ⟨false, false⟩ lines outcome ∧
      String.join (lines.map fun line => dump ⟨false, false⟩ (tokens line)) = file.stdout ∧
      file.stderr =
        "[line 2] Error: Unexpected character.\n[line 4] Error: Unexpected character.\n" ∧
      outcome.stderr =
        "[line 1] Error: Unexpected character.\n[line 1] Error: Unexpected character.\n" := by
  intro typed lines outcome file
  have hflags : ∀ flag ∈ ["--no-eof"], IsDumpFlag flag := by simp [IsDumpFlag]
  have hclosed : ∀ line ∈ lines, ∀ report ∈ reports line,
      report.message ≠ Fault.unterminatedMessage := by decide +kernel
  obtain ⟨hshows, hfile⟩ := run_prompt (fun _ => .error .notFound) typed
  obtain ⟨hdump, hstderr, hfirst⟩ := hfile hclosed "f.lox"
  refine ⟨hflags, hclosed, by decide +kernel, hshows _ hflags, hdump, ?_, ?_⟩
  · exact hstderr.trans (by decide +kernel)
  · exact hfirst.trans (by decide +kernel)

end LoxLexer.Command
