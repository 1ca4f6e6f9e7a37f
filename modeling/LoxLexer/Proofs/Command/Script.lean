import LoxLexer.Proofs.Command.Flags
import LoxLexer.Proofs.Scan.Tiling
import LoxLexer.Strict

/-!
# Runs over a script

A run over a script dumps the tokens of its text and writes one line for each report
(`runScript_eq`). Over the file at a path it says the same as the strict reading of the file, which
gives all tokens or the first fault: the exit code tells which of them there is, and the streams
show what is in it, whatever the flags (`matchesTokens_runPath`, `runPath_format`).
-/
namespace LoxLexer

theorem tokensOrDiagnostic_eq (source filename : String) :
    tokensOrDiagnostic source filename =
      match diagnostics filename source with
      | [] => .ok (tokens source)
      | first :: _ => .error first := by
  rw [tokensOrDiagnostic, Document.scan, Document.scanWith_eq]
  rfl

/-- The steps of a text leave no token for its end. -/
theorem Step.kind_ne_endOfInput {source : String} {token : Token}
    (h : token ∈ (all source).filterMap token?) : token.kind ≠ .endOfInput := by
  have hprogress := Document.tokens_progress Reporter.silent () (Document.ofSource source "")
    (all source).length token
  rw [Document.progress_eq, Document.ofSource, List.take_length] at hprogress
  exact (hprogress (List.mem_append_left _ h)).1

theorem Step.filename_of_mem_diagnostics {filename : String} {steps : List Step}
    {diagnostic : Diagnostic} (h : diagnostic ∈ Step.diagnostics filename steps) :
    diagnostic.location.filename = filename := by
  obtain ⟨step, -, fault, -, rfl⟩ := exists_fault_of_mem_diagnostics h
  rw [Fault.diagnostic_location]

namespace Command

/-- The line of a dump that shows a token. -/
def dumpLine (asJson : Bool) (token : Token) : String := token.dumpText asJson ++ "\n"

theorem dump_eq (format : DumpFormat) (tokens : List Token) :
    dump format tokens =
      String.join ((tokens.filter format.shows).map (dumpLine format.asJson)) := rfl

/-- The dump of a text shows its tokens, and behind them, if it is asked for, that for the end. -/
theorem dump_tokens (format : DumpFormat) (source : String) :
    dump format (tokens source) =
      String.join (((Step.all source).filterMap Step.token?).map (dumpLine format.asJson)) ++
        if format.includeEnd then
          dumpLine format.asJson (.endOfInput (1 + source.toList.count '\n' : Nat))
        else "" := by
  have hshown : ((Step.all source).filterMap Step.token?).filter format.shows =
      (Step.all source).filterMap Step.token? := by
    rw [List.filter_eq_self]
    intro token htoken
    simp [DumpFormat.shows, Step.kind_ne_endOfInput htoken]
  rw [dump_eq, tokens_eq, List.filter_append, hshown, List.map_append, String.join_append]
  cases hend : format.includeEnd with
  | true => simp [DumpFormat.shows, hend]
  | false => simp [DumpFormat.shows, hend, Token.endOfInput]

theorem runScript_eq (format : DumpFormat) (filename source : String) :
    runScript format filename source =
      ⟨.code (if (reports source).isEmpty then exitOk else exitDataError),
        dump format (tokens source),
        String.join ((reports source).map LineWriter.lineOf)⟩ := by
  have hwriter : (reports source).foldl (fun s r => (LineWriter.reporter.receive s r).1)
      LineWriter.empty =
        ⟨!(reports source).isEmpty, String.join ((reports source).map LineWriter.lineOf)⟩ := by
    refine (LineWriter.foldl_receive _ _).trans ?_
    simp [LineWriter.empty]
  rw [runScript, Document.scanWith_eq]
  simp only [Document.ofSource, hwriter]
  cases (reports source).isEmpty <;> rfl

/-- What a run over the file at a path has to do with the strict reading of that file. -/
structure MatchesTokens (read : FileReader) (path : String) (format : DumpFormat)
    (outcome : Outcome) : Prop where
  ok_iff : outcome.ending = .code exitOk ↔ ∃ tokens, read.tokens path = .ok tokens
  dataError_iff :
    outcome.ending = .code exitDataError ↔ ∃ d, read.tokens path = .error (.lexical d)
  refused_iff :
    outcome.ending = .code exitRefused ↔ ∃ fault, read.tokens path = .error (.read fault)
  of_ok : ∀ tokens, read.tokens path = .ok tokens →
    outcome.stdout = dump format tokens ∧ outcome.stderr = ""
  of_dataError : ∀ d, read.tokens path = .error (.lexical d) →
    d.location.filename = path ∧
      ∃ source more, read.source path = .ok source ∧ diagnostics path source = d :: more ∧
        outcome.stdout = dump format (tokens source) ∧
        outcome.stderr = String.join
          ((d :: more).map fun d => s!"[line {d.location.line}] Error: {d.message}\n")
  of_refused : ∀ fault, read.tokens path = .error (.read fault) →
    outcome.stdout = "" ∧
      outcome.stderr = usageText ++ s!"loxscan: error: {fault.message}\n"

variable {read : FileReader} {path : String}

theorem runPath_of_ok (format : DumpFormat) {source : String} (h : read.source path = .ok source) :
    runPath format read path = runScript format path source := by
  rw [runPath, h]

theorem eq_error_of_source {name : String} {fault : PathFault}
    (h : read.source path = .error (.path name fault)) : read path = .error fault := by
  rw [FileReader.source] at h
  split at h
  · rename_i cause hcause
    cases h
    exact hcause
  · split at h <;> cases h

/-- Every fault of reading is handled but one. -/
theorem runPath_of_error (format : DumpFormat) {fault : ReadFault}
    (h : read.source path = .error fault) (hnull : read path ≠ .error .embeddedNull) :
    runPath format read path = refusal fault.message := by
  rw [runPath, h]
  cases fault with
  | encoding fault => rfl
  | path name cause =>
    cases cause with
    | embeddedNull => exact absurd (eq_error_of_source h) hnull
    | _ => rfl

theorem matchesTokens_runPath (format : DumpFormat) (hnull : read path ≠ .error .embeddedNull) :
    MatchesTokens read path format (runPath format read path) := by
  cases hsource : read.source path with
  | error fault =>
    have htokens : read.tokens path = .error (.read fault) := by rw [FileReader.tokens, hsource]
    rw [runPath_of_error format hsource hnull]
    constructor <;> simp [htokens, refusal, exitOk, exitDataError, exitRefused]
  | ok source =>
    have hreports : reports source = (diagnostics path source).map Diagnostic.report :=
      (Step.map_report_diagnostics path (Step.all source)).symm
    rw [runPath_of_ok format hsource, runScript_eq, hreports]
    cases hfound : diagnostics path source with
    | nil =>
      have htokens : read.tokens path = .ok (tokens source) := by
        simp only [FileReader.tokens, hsource, tokensOrDiagnostic_eq, hfound]
      constructor <;> simp [htokens, exitOk, exitDataError, exitRefused]
    | cons d more =>
      have htokens : read.tokens path = .error (.lexical d) := by
        simp only [FileReader.tokens, hsource, tokensOrDiagnostic_eq, hfound]
      have hfilename : d.location.filename = path :=
        Step.filename_of_mem_diagnostics (hfound ▸ List.mem_cons_self)
      constructor
      case of_dataError =>
        intro first hfirst
        obtain rfl : d = first := by simpa [htokens] using hfirst
        exact ⟨hfilename, source, more, hsource, hfound, rfl, by rw [List.map_map]; rfl⟩
      all_goals simp [htokens, exitOk, exitDataError, exitRefused]

/-- The format of a dump decides about neither the exit code nor the messages. -/
theorem runPath_format (format other : DumpFormat) (hnull : read path ≠ .error .embeddedNull) :
    (runPath format read path).ending = (runPath other read path).ending ∧
      (runPath format read path).stderr = (runPath other read path).stderr := by
  cases hsource : read.source path with
  | error fault => simp only [runPath_of_error _ hsource hnull, and_self]
  | ok source => simp only [runPath_of_ok _ hsource, runScript_eq, and_self]

theorem run_path_eq_runPath {flags : List String} (h : ∀ flag ∈ flags, IsDumpFlag flag)
    (hdash : path.toList.head? ≠ some '-') (input : String) :
    run read input (path :: flags) = runPath (formatOf flags) read path := by
  rw [run, planOf_path_flags h hdash]

/-- A run over the file at a path ends well just if the file gives its tokens, and dumps them; it
ends in the one or the other way just if the file gives the one or the other fault, and says so.
The flags change nothing but the dump, and that without the end of the input is the full one without
the line of the last token. -/
theorem run_path_flags {flags : List String}
    (hread : ∀ path, '\x00' ∉ path.toList → read path ≠ .error .embeddedNull)
    (hnul : '\x00' ∉ path.toList) (hdash : path.toList.head? ≠ some '-')
    (hflags : ∀ flag ∈ flags, IsDumpFlag flag) (input : String) :
    let outcome := run read input (path :: flags)
    MatchesTokens read path (formatOf flags) outcome ∧
      ∀ others, (∀ flag ∈ others, IsDumpFlag flag) →
        let other := run read input (path :: others)
        other.ending = outcome.ending ∧ other.stderr = outcome.stderr ∧
          ("--no-eof" ∉ flags → "--no-eof" ∈ others → ("--json" ∈ others ↔ "--json" ∈ flags) →
            ∀ source, read.source path = .ok source →
              ∃ last, (tokens source).getLast? = some last ∧
                outcome.stdout = other.stdout ++ dumpLine (flags.contains "--json") last) := by
  intro outcome
  have hnull := hread path hnul
  have houtcome : outcome = runPath (formatOf flags) read path :=
    run_path_eq_runPath hflags hdash input
  rw [houtcome]
  refine ⟨matchesTokens_runPath (formatOf flags) hnull, ?_⟩
  intro others hothers other
  have hother : other = runPath (formatOf others) read path :=
    run_path_eq_runPath hothers hdash input
  rw [hother]
  obtain ⟨hending, hstderr⟩ := runPath_format (formatOf others) (formatOf flags) hnull
  refine ⟨hending, hstderr, ?_⟩
  intro hfull hshort hjson source hsource
  have hjson : others.contains "--json" = flags.contains "--json" := by
    rw [Bool.eq_iff_iff]
    simpa using hjson
  refine ⟨.endOfInput (1 + source.toList.count '\n' : Nat), by simp [tokens_eq], ?_⟩
  simp only [runPath_of_ok _ hsource, runScript_eq, dump_tokens, formatOf, hjson]
  simp [hfull, hshort]

/-- A file with two faults, and a carriage return in front of the line feed between them. -/
theorem run_path_flags_two_faults :
    let tree : FileTree := ⟨[("lib/a.lox", .file [0x78, 0x20, 0x40, 0x0D, 0x0A, 0x22])]⟩
    let path := "lib/../lib/a.lox"
    let outcome := run tree.read "" [path, "--json"]
    let other := run tree.read "" [path, "--no-eof", "--json", "--no-eof"]
    '\x00' ∉ path.toList ∧ path.toList.head? ≠ some '-' ∧
      tree.read path = .ok [0x78, 0x20, 0x40, 0x0D, 0x0A, 0x22] ∧
      MatchesTokens tree.read path ⟨true, true⟩ outcome ∧
      outcome.ending = .code 65 ∧ other.ending = outcome.ending ∧
      other.stderr =
        "[line 1] Error: Unexpected character.\n[line 2] Error: Unterminated string.\n" ∧
      other.stderr = outcome.stderr ∧
      outcome.stdout = other.stdout ++ dumpLine true (.endOfInput 2) := by
  intro tree path outcome other
  have hnul : '\x00' ∉ path.toList := by decide
  have hdash : path.toList.head? ≠ some '-' := by decide
  have hread : ∀ path, '\x00' ∉ path.toList → tree.read path ≠ .error .embeddedNull :=
    fun _ => tree.read_ne_embeddedNull
  have hflags : ∀ flag ∈ ["--json"], IsDumpFlag flag := by simp [IsDumpFlag]
  obtain ⟨hmatches, hothers⟩ := run_path_flags hread hnul hdash hflags ""
  obtain ⟨hending, hstderr, hstdout⟩ := hothers ["--no-eof", "--json", "--no-eof"]
    (by simp [IsDumpFlag])
  have hsource : FileReader.source tree.read path = .ok "x @\n\"" := by decide +kernel
  obtain ⟨last, hlast, hshort⟩ := hstdout (by decide) (by decide) (by decide) _ hsource
  have hend : (tokens "x @\n\"").getLast? = some (.endOfInput 2) := by decide +kernel
  obtain rfl : last = .endOfInput 2 := Option.some.inj (hlast.symm.trans hend)
  exact ⟨hnul, hdash, by decide +kernel, hmatches, by decide +kernel, hending,
    by decide +kernel, hstderr, hshort⟩

end Command

end LoxLexer
