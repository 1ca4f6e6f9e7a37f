import LoxLexer.Proofs.Scan.Progress

/-!
# Reporters that observe

A reporter comes from a function that is called with each report; the value of a call is dropped.
`Reporter.reasonAt` says at which call of a series the reporter has a reason to stop. Where it has
none, a scan is the scan that nobody watches, after every step as well as at the end
(`Document.scan_observed`): the reporter is told of each diagnostic when it is found, and all that
the name of the document decides is the place that the diagnostics name.
-/
namespace LoxLexer

variable {σ ε ρ : Type}

/-- The same diagnostic about a text that goes by another name. -/
def Diagnostic.renamed (filename : String) (diagnostic : Diagnostic) : Diagnostic :=
  { diagnostic with location := { diagnostic.location with filename := filename } }

namespace Reporter

/-- The reporter behind a function that changes a state and gives a value, or raises instead. -/
def ofCall (call : σ → Report → σ × Except ε ρ) : Reporter σ ε where
  receive state report :=
    ((call state report).1,
      match (call state report).2 with
      | .ok _ => none
      | .error stop => some stop)

variable (reporter : Reporter σ ε) (state : σ)

/-- The state of a reporter after some calls. -/
def told (calls : List Report) : σ := calls.foldl (fun s r => (reporter.receive s r).1) state

/-- The reason to stop that a reporter gives at one call of a series, the first having the number
zero, when it has been told of the calls before. -/
def reasonAt (calls : List Report) (number : Nat) : Option ε :=
  calls[number]?.bind fun report =>
    (reporter.receive (reporter.told state (calls.take number)) report).2

theorem told_cons (report : Report) (calls : List Report) :
    reporter.told state (report :: calls) =
      reporter.told (reporter.receive state report).1 calls := rfl

/-- A function that always gives a value makes a reporter that never stops a scan. -/
theorem reasonAt_ofCall_eq_none (call : σ → Report → σ × Except ε ρ)
    (h : ∀ state report, ∃ value, (call state report).2 = .ok value) (calls : List Report)
    (number : Nat) : (ofCall call).reasonAt state calls number = none := by
  unfold reasonAt
  cases calls[number]? with
  | none => rfl
  | some report =>
    obtain ⟨value, hvalue⟩ := h ((ofCall call).told state (calls.take number)) report
    simp only [Option.bind_some, ofCall] at hvalue ⊢
    rw [hvalue]

/-- Calls still to come do not change what a reporter says to those before. -/
theorem reasonAt_append_eq_none {calls more : List Report}
    (h : ∀ number, reporter.reasonAt state (calls ++ more) number = none) (number : Nat) :
    reporter.reasonAt state calls number = none := by
  by_cases hn : number < calls.length
  · have happend := h number
    rw [reasonAt, List.getElem?_append_left hn, List.take_append_of_le_length hn.le] at happend
    exact happend
  · rw [reasonAt, List.getElem?_eq_none (Nat.not_lt.mp hn), Option.bind_none]

/-- A reporter without a reason to stop sees all steps. -/
theorem watch_of_quiet {steps : List Step}
    (h : ∀ number, reporter.reasonAt state (Step.reports steps) number = none) :
    reporter.watch state steps = ⟨steps, reporter.told state (Step.reports steps), none⟩ := by
  induction steps generalizing state with
  | nil => rfl
  | cons step rest ih =>
    cases hr : step.report? with
    | none =>
      have hreports : Step.reports (step :: rest) = Step.reports rest :=
        List.filterMap_cons_none hr
      rw [hreports] at h ⊢
      rw [watch_cons_of_no_fault reporter state hr, ih state h]
    | some report =>
      have hreports : Step.reports (step :: rest) = report :: Step.reports rest :=
        List.filterMap_cons_some hr
      rw [hreports] at h ⊢
      have hpass : (reporter.receive state report).2 = none := h 0
      rw [watch_cons_of_pass hr hpass, ih _ fun number => h (number + 1), told_cons]

end Reporter

theorem Fault.renamed_diagnostic (fault : Fault) (location : Location) (filename : String) :
    (fault.diagnostic location).renamed filename =
      fault.diagnostic { location with filename := filename } := by
  cases fault <;> rfl

theorem Step.diagnostics_renamed (filename other : String) (steps : List Step) :
    diagnostics other steps = (diagnostics filename steps).map (Diagnostic.renamed other) := by
  rw [diagnostics, diagnostics, List.map_filterMap]
  congr 1
  funext step
  rw [diagnostic?, diagnostic?, Option.map_map]
  congr 1
  funext fault
  exact (fault.renamed_diagnostic ⟨filename, step.cursor.line⟩ other).symm

namespace Document

theorem settle_renamed (document : Document) (filename : String) (steps : List Step)
    (finished : Bool) :
    { document with filename := filename }.settle steps finished =
      { document.settle steps finished with
        filename := filename
        diagnostics := (document.settle steps finished).diagnostics.map
          (Diagnostic.renamed filename) } := by
  simp only [settle, Step.diagnostics_renamed document.filename filename]

/-- The diagnostics that steps leave are the reports of the steps in full. -/
theorem map_report_settle (document : Document) (steps : List Step) (finished : Bool) :
    (document.settle steps finished).diagnostics.map Diagnostic.report = Step.reports steps :=
  Step.map_report_diagnostics document.filename steps

/-- A reporter that never raises during a scan changes nothing about it: the document is left as it
is when nobody watches, after any number of steps and at the end, and the reporter has been called
once for each diagnostic found so far, in their order, whatever its calls give. Under another name
the diagnostics are the same but for that name, and all the rest is the same. -/
theorem scan_observed (call : σ → Report → σ × Except ε ρ) (state : σ) (document : Document)
    (h : ∀ number,
      (Reporter.ofCall call).reasonAt state (reports document.source) number = none) :
    let reporter := Reporter.ofCall call
    let called (found : List Diagnostic) : σ :=
      (found.map fun d => ⟨d.location.line, d.message⟩).foldl (fun s r => (call s r).1) state
    document.scanWith reporter state =
        (document.scan, called document.scan.diagnostics, none) ∧
      (∀ steps,
        let alone := (document.progress Reporter.silent () steps).document
        document.progress reporter state steps = ⟨alone, called alone.diagnostics⟩) ∧
      ∀ filename, { document with filename := filename }.scanWith reporter state =
        ({ document.scan with
            filename := filename
            diagnostics := document.scan.diagnostics.map (Diagnostic.renamed filename) },
          called document.scan.diagnostics, none) := by
  intro reporter called
  have hcalled (steps : List Step) (finished : Bool) :
      called (document.settle steps finished).diagnostics =
        reporter.told state (Step.reports steps) := by
    have hmap := document.map_report_settle steps finished
    rw [← hmap]
    rfl
  have hwatch := reporter.watch_of_quiet state h
  refine ⟨?_, ?_, ?_⟩
  · rw [scan_eq_settle, hcalled, scanWith, hwatch]
    rfl
  · intro steps alone
    have happend : Step.reports ((Step.all document.source).take steps) ++
        Step.reports ((Step.all document.source).drop steps) = reports document.source := by
      rw [Step.reports, Step.reports, ← List.filterMap_append, List.take_append_drop]
      rfl
    rw [← happend] at h
    have hquiet := reporter.watch_of_quiet state (reporter.reasonAt_append_eq_none state h)
    have halone : alone = document.settle ((Step.all document.source).take steps) false := by
      simp only [alone, progress_eq]
    rw [halone, hcalled, progress, hquiet]
  · intro filename
    rw [scan_eq_settle, hcalled, scanWith, hwatch]
    exact congrArg (·, _) (document.settle_renamed filename _ _)

/-- A reporter that keeps its calls and gives their number each time has kept both faults. -/
theorem scan_observed_counting :
    let call (log : List Report) (report : Report) : List Report × Except Empty Nat :=
      (log ++ [report], .ok log.length)
    let document := ofSource "a @\n\"b" "f.lox"
    (∀ number,
        (Reporter.ofCall call).reasonAt [] (reports document.source) number = none) ∧
      document.scanWith (Reporter.ofCall call) [] =
        (document.scan, [⟨1, "Unexpected character."⟩, ⟨2, "Unterminated string."⟩], none) := by
  intro call document
  have h := Reporter.reasonAt_ofCall_eq_none [] call (fun log _ => ⟨log.length, rfl⟩)
    (reports document.source)
  refine ⟨h, (scan_observed call [] document h).1.trans ?_⟩
  exact congrArg (fun log => (document.scan, log, none)) (by decide +kernel)

end Document

end LoxLexer
