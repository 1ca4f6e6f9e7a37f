import LoxLexer.Proofs.Command.Script
import LoxLexer.Proofs.Scan.LineEndings

/-!
# Line endings of a script

Reading a file turns all line endings into line feeds before the text is scanned. To the exit code
and to the messages that makes no difference, if no return stands alone in the file: a run over the
text as it is gives the same ones (`scan_foldReturns`).
-/
namespace LoxLexer

theorem FileReader.source_of_paired {read : FileReader} {path : String} {bytes : List UInt8}
    {source : String} (hread : read path = .ok bytes)
    (hdecode : Utf8.decode bytes = .ok source.toList) (h : PairedReturns source.toList) :
    read.source path = .ok (foldReturnsIn source) := by
  simp only [FileReader.source, hread, sourceOfBytes, hdecode, foldNewlines_eq_foldReturns h,
    foldReturnsIn]

namespace Command

/-- How lines end is not seen in the exit code and the messages of a run. -/
theorem runScript_foldReturnsIn (format other : DumpFormat) (filename : String) {source : String}
    (h : PairedReturns source.toList) :
    (runScript format filename (foldReturnsIn source)).ending =
        (runScript other filename source).ending ∧
      (runScript format filename (foldReturnsIn source)).stderr =
        (runScript other filename source).stderr := by
  simp only [runScript_eq, reports_foldReturnsIn h, and_self]

end Command

/-- A source in which every return has a line feed behind it is scanned like the one in which each
such pair is a line feed: the tokens are the same and on the same lines, but for the pairs within
strings, and so are the reports. A run over a file with the one text, which is read as the other,
therefore has the exit code and the messages of a run over the text as it is. -/
theorem scan_foldReturns {σ : Type} (reporter : Reporter σ Empty) (state : σ) (filename : String)
    {source : String} (h : PairedReturns source.toList) :
    let scanned (text : String) := (Document.ofSource text filename).scanWith reporter state
    let folded := foldReturnsIn source
    (scanned folded).1.tokens = (scanned source).1.tokens.map Token.foldReturns ∧
      (scanned folded).1.diagnostics = (scanned source).1.diagnostics ∧
      reports folded = reports source ∧ (scanned folded).2 = (scanned source).2 ∧
      ∀ (read : FileReader) (path : String) (bytes : List UInt8) (flags : List String)
          (format : Command.DumpFormat) (input : String),
        read path = .ok bytes → Utf8.decode bytes = .ok source.toList →
        path.toList.head? ≠ some '-' → (∀ flag ∈ flags, Command.IsDumpFlag flag) →
        let outcome := Command.run read input (path :: flags)
        let direct := Command.runScript format path source
        outcome.ending = direct.ending ∧ outcome.stderr = direct.stderr := by
  intro scanned folded
  have hreports := reports_foldReturnsIn h
  refine ⟨?_, ?_, hreports, ?_, ?_⟩
  · simp only [scanned, Document.scanWith_eq, Document.ofSource]
    exact tokens_foldReturnsIn h
  · simp only [scanned, Document.scanWith_eq, Document.ofSource]
    exact diagnostics_foldReturnsIn h filename
  · simp only [scanned, Document.scanWith_eq, Document.ofSource, folded, hreports]
  · intro read path bytes flags format input hread hdecode hdash hflags outcome direct
    have hsource := FileReader.source_of_paired hread hdecode h
    have houtcome : outcome = Command.runScript (Command.formatOf flags) path folded := by
      rw [← Command.runPath_of_ok _ hsource]
      exact Command.run_path_eq_runPath hflags hdash input
    rw [houtcome]
    exact Command.runScript_foldReturnsIn (Command.formatOf flags) format path h

/-- Pairs behind a point, at the end of a comment, within a string and within one that is not
closed. -/
theorem scan_foldReturns_pairs :
    let source := "1.\r\n// @\r\n\"a\r\n\"\r\n\"b\r\n"
    let bytes : List UInt8 := source.toList.map fun c => UInt8.ofNat c.toNat
    let tree : FileTree := ⟨[("a.lox", .file bytes)]⟩
    let scanned (text : String) :=
      (Document.ofSource text "a.lox").scanWith LineWriter.reporter LineWriter.empty
    let folded := foldReturnsIn source
    let outcome := Command.run tree.read "" ["a.lox", "--json"]
    let direct := Command.runScript ⟨false, false⟩ "a.lox" source
    PairedReturns source.toList ∧ tree.read "a.lox" = .ok bytes ∧
      Utf8.decode bytes = .ok source.toList ∧
      (scanned folded).1.tokens = (scanned source).1.tokens.map Token.foldReturns ∧
      (scanned folded).1.tokens =
        [⟨.number, "1", some (Lexeme.numberLiteral ['1'] []), 1⟩, ⟨.punctuation .dot, ".", none, 1⟩,
          ⟨.string, "\"a\n\"", some (.text "a\n"), 3⟩, .endOfInput 6] ∧
      outcome.ending = .code 65 ∧ outcome.ending = direct.ending ∧
      outcome.stderr = direct.stderr ∧
      direct.stderr = "[line 6] Error: Unterminated string.\n" := by
  intro source bytes tree scanned folded outcome direct
  have h : PairedReturns source.toList := by decide
  have hread : tree.read "a.lox" = .ok bytes := by decide +kernel
  have hdecode : Utf8.decode bytes = .ok source.toList := by decide +kernel
  obtain ⟨htokens, -, -, -, hrun⟩ := scan_foldReturns LineWriter.reporter LineWriter.empty "a.lox" h
  obtain ⟨hending, hstderr⟩ := hrun tree.read "a.lox" bytes ["--json"] ⟨false, false⟩ "" hread
    hdecode (by decide) (by simp [Command.IsDumpFlag])
  exact ⟨h, hread, hdecode, htokens, by decide +kernel, by decide +kernel, hending, hstderr,
    by decide +kernel⟩

end LoxLexer
