import LoxLexer.Proofs.Command.Script
import LoxLexer.Proofs.Scan.LineEndings
import LoxLexer.Proofs.Source.Decoding

/-!
# The encoding of a script

The bytes of a file that encode a text are read as that text with line feeds for all line endings,
and that is all that is done to them: a byte order mark is a character like any other. Bytes that
encode no text are refused before anything is scanned, and the message says where they go wrong.
-/
namespace LoxLexer

/-- A text in which each return and line feed in a row, and then each return that is left, is
replaced by a line feed. -/
def replaceReturns (text : List Char) : List Char :=
  (foldReturns text).map fun c => if c = '\r' then '\n' else c

theorem foldNewlines_eq_replaceReturns (text : List Char) :
    foldNewlines text = replaceReturns text := by
  rw [replaceReturns]
  fun_induction foldReturns text with
  | case1 => rfl
  | case2 rest ih =>
    rw [foldNewlines, ih]
    rfl
  | case3 c rest hnext ih =>
    by_cases hc : c = '\r'
    · rw [hc, foldNewlines, ih]
      · rfl
      · exact fun more => hnext more hc
    · rw [foldNewlines, ih]
      · simp [hc]
      · exact hnext
      · exact hc

variable {read : FileReader} {path : String} {bytes : List UInt8}

theorem FileReader.source_of_text (hread : read path = .ok bytes) {source : String}
    (h : Utf8.encode source.toList = bytes) :
    read.source path = .ok (String.ofList (replaceReturns source.toList)) := by
  simp only [FileReader.source, hread, sourceOfBytes, Utf8.decode_eq_ok_iff.mpr h,
    foldNewlines_eq_replaceReturns]

theorem FileReader.source_of_fault (hread : read path = .ok bytes) {fault : Utf8.Fault}
    (h : Utf8.IsFault bytes fault) : read.source path = .error (.encoding fault) := by
  simp only [FileReader.source, hread, sourceOfBytes, Utf8.decode_eq_error_iff.mpr h]

/-- A file that holds the bytes of a text is taken as that text with line feeds for all line
endings. Of one that holds none nothing is scanned: the run is refused for the fault in its
bytes. -/
theorem Command.run_bytes (hread : read path = .ok bytes) (hdash : path.toList.head? ≠ some '-')
    (input : String) :
    (∀ source : String, Utf8.encode source.toList = bytes →
      let text := String.ofList (replaceReturns source.toList)
      read.tokens path = (tokensOrDiagnostic text path).mapError .lexical ∧
        run read input [path] = runScript ⟨true, false⟩ path text) ∧
      (¬Utf8.IsWellFormed bytes → ∃ fault, Utf8.IsFault bytes fault ∧
        read.tokens path = .error (.read (.encoding fault)) ∧
        run read input [path] =
          ⟨.code 2, "", usageText ++ s!"loxscan: error: {fault.message}\n"⟩) := by
  have hrun : run read input [path] = runPath (formatOf []) read path :=
    run_path_eq_runPath (List.forall_mem_nil _) hdash input
  rw [hrun]
  constructor
  · intro source h text
    have hsource : read.source path = .ok text := FileReader.source_of_text hread h
    refine ⟨?_, runPath_of_ok _ hsource⟩
    simp only [FileReader.tokens, hsource]
    cases tokensOrDiagnostic text path <;> rfl
  · intro h
    obtain ⟨fault, hfault⟩ := Utf8.exists_isFault h
    have hsource := FileReader.source_of_fault hread hfault
    refine ⟨fault, hfault, by rw [FileReader.tokens, hsource], ?_⟩
    rw [runPath_of_error _ hsource (by simp [hread])]
    rfl

/-- A file with a byte order mark, two kinds of line ending and a letter of two bytes, and one in
which the last byte of three is wrong. -/
theorem Command.run_bytes_two_files :
    let source := "\uFEFF1\r\r\n\u00E9"
    let right := source.toUTF8.data.toList
    let wrong : List UInt8 := [0x6F, 0x6B, 0xE2, 0x82, 0x28]
    let tree : FileTree := ⟨[("a.lox", .file right), ("b.lox", .file wrong)]⟩
    let fault : Utf8.Fault := ⟨2, 2, 0xE2, .invalidContinuation⟩
    tree.read "a.lox" = .ok right ∧ tree.read "b.lox" = .ok wrong ∧ ¬Utf8.IsWellFormed wrong ∧
      run tree.read "" ["a.lox"] = runScript ⟨true, false⟩ "a.lox" "\uFEFF1\n\n\u00E9" ∧
      Utf8.IsFault wrong fault ∧
      FileReader.tokens tree.read "b.lox" = .error (.read (.encoding fault)) ∧
      run tree.read "" ["b.lox"] =
        ⟨.code 2, "", usageText ++ "loxscan: error: 'utf-8' codec can't decode bytes in " ++
          "position 2-3: invalid continuation byte\n"⟩ := by
  intro source right wrong tree fault
  have hright : tree.read "a.lox" = .ok right := by decide +kernel
  have hwrong : tree.read "b.lox" = .ok wrong := by decide +kernel
  have hfault : Utf8.IsFault wrong fault := Utf8.decode_eq_error_iff.mp (by decide +kernel)
  have hnot : ¬Utf8.IsWellFormed wrong := by
    rintro ⟨text, htext⟩
    have hdecode := Utf8.decode_eq_ok_iff.mpr htext
    cases hdecode.symm.trans (Utf8.decode_eq_error_iff.mpr hfault)
  obtain ⟨htext, -⟩ := run_bytes hright (by decide) ""
  obtain ⟨-, hbytes⟩ := run_bytes hwrong (by decide) ""
  obtain ⟨other, hother, htokens, hrun⟩ := hbytes hnot
  obtain rfl : fault = other := by
    have h := (Utf8.decode_eq_error_iff.mpr hfault).symm.trans (Utf8.decode_eq_error_iff.mpr hother)
    exact Except.error.inj h
  have hreplaced : String.ofList (replaceReturns source.toList) = "\uFEFF1\n\n\u00E9" := by
    decide +kernel
  have hscript := (htext source (Utf8.encode_toList source)).2
  simp only [hreplaced] at hscript
  refine ⟨hright, hwrong, hnot, hscript, hfault, htokens, hrun.trans ?_⟩
  decide +kernel

end LoxLexer
