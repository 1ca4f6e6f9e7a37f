import LoxLexer.Proofs.Scan.Observation
import LoxLexer.Proofs.Scan.Tiling
import LoxLexer.Reporter.Kinds

/-!
# Scans that are stopped

A reporter that stops a scan does so at the step of the diagnostic it is told of, and the document
is left as the scan that nobody watches leaves it after that step (`Reporter.watch_of_stop`). What
is left, by a scan that was stopped or by any other, has no part in the next scan but for the line
on which the last lexeme began, and that only if there is no text to scan (`Document.settle_eq`).
-/
namespace LoxLexer

variable {σ ε : Type}

namespace Reporter

/-- The same reporter, which also writes down each of its calls. -/
def logged (reporter : Reporter σ ε) : Reporter (σ × List Report) ε where
  receive state report :=
    (((reporter.receive state.1 report).1, state.2 ++ [report]),
      (reporter.receive state.1 report).2)

variable (reporter : Reporter σ ε) (state : σ)

/-- The reporter lets so many calls pass and gives a reason to stop at the next. -/
structure StopsAfter (calls : List Report) (passed : Nat) (stop : ε) : Prop where
  quiet : ∀ number < passed, reporter.reasonAt state calls number = none
  stops : reporter.reasonAt state calls passed = some stop

theorem told_logged (log calls : List Report) :
    reporter.logged.told (state, log) calls = (reporter.told state calls, log ++ calls) := by
  induction calls generalizing state log with
  | nil => rw [List.append_nil, told, told, List.foldl_nil, List.foldl_nil]
  | cons report calls ih =>
    rw [told_cons, told_cons, List.append_cons]
    exact ih _ _

theorem reasonAt_logged (log calls : List Report) (number : Nat) :
    reporter.logged.reasonAt (state, log) calls number = reporter.reasonAt state calls number := by
  simp only [reasonAt, told_logged]
  rfl

variable {reporter state}

theorem StopsAfter.logged {calls : List Report} {passed : Nat} {stop : ε}
    (h : reporter.StopsAfter state calls passed stop) (log : List Report) :
    reporter.logged.StopsAfter (state, log) calls passed stop where
  quiet number hn := (reporter.reasonAt_logged state log calls number).trans (h.quiet number hn)
  stops := (reporter.reasonAt_logged state log calls passed).trans h.stops

/-- There is a call at which the reporter stops. -/
theorem StopsAfter.lt_length {calls : List Report} {passed : Nat} {stop : ε}
    (h : reporter.StopsAfter state calls passed stop) : passed < calls.length := by
  by_contra hle
  have hstops := h.stops
  rw [reasonAt, List.getElem?_eq_none (Nat.not_lt.mp hle)] at hstops
  cases hstops

/-- After the first call one call less is left to pass. -/
theorem StopsAfter.of_cons {report : Report} {calls : List Report} {passed : Nat} {stop : ε}
    (h : reporter.StopsAfter state (report :: calls) (passed + 1) stop) :
    (reporter.receive state report).2 = none ∧
      reporter.StopsAfter (reporter.receive state report).1 calls passed stop where
  left := h.quiet 0 (Nat.zero_lt_succ passed)
  right :=
    { quiet := fun number hn => h.quiet (number + 1) (Nat.succ_lt_succ hn)
      stops := h.stops }

/-- A reporter that stops a scan has seen the steps up to that of the fault it was told of last. -/
theorem watch_of_stop {steps : List Step} {passed : Nat} {stop : ε}
    (h : reporter.StopsAfter state (Step.reports steps) passed stop) :
    ∃ before step after report, steps = before ++ step :: after ∧
      step.report? = some report ∧ (Step.reports before).length = passed ∧
      reporter.watch state steps =
        ⟨before ++ [step], reporter.told state ((Step.reports steps).take (passed + 1)),
          some stop⟩ := by
  induction steps generalizing state passed with
  | nil => exact absurd h.lt_length (Nat.not_lt_zero passed)
  | cons step rest ih =>
    cases hr : step.report? with
    | none =>
      have hcons (more : List Step) : Step.reports (step :: more) = Step.reports more :=
        List.filterMap_cons_none hr
      rw [hcons] at h ⊢
      obtain ⟨before, last, after, report, hsteps, hlast, hlength, hwatch⟩ := ih h
      refine ⟨step :: before, last, after, report, ?_, hlast, ?_, ?_⟩
      · rw [hsteps, List.cons_append]
      · rw [hcons, hlength]
      · rw [watch_cons_of_no_fault reporter state hr, hwatch, List.cons_append]
    | some first =>
      have hcons (more : List Step) :
          Step.reports (step :: more) = first :: Step.reports more :=
        List.filterMap_cons_some hr
      rw [hcons] at h ⊢
      cases passed with
      | zero =>
        -- the reporter stops at the very first fault
        have hstop : (reporter.receive state first).2 = some stop := h.stops
        exact ⟨[], step, rest, first, rfl, hr, rfl, watch_cons_of_stop hr hstop rest⟩
      | succ passed =>
        obtain ⟨hpass, hrest⟩ := h.of_cons
        obtain ⟨before, last, after, report, hsteps, hlast, hlength, hwatch⟩ := ih hrest
        refine ⟨step :: before, last, after, report, ?_, hlast, ?_, ?_⟩
        · rw [hsteps, List.cons_append]
        · rw [hcons, List.length_cons, hlength]
        · rw [watch_cons_of_pass hr hpass, hwatch, List.cons_append]
          rfl

/-- Where there are steps, some are seen. -/
theorem watch_steps_ne_nil (reporter : Reporter σ ε) (state : σ) {steps : List Step}
    (h : steps ≠ []) : (reporter.watch state steps).steps ≠ [] := by
  cases steps with
  | nil => exact absurd rfl h
  | cons step rest =>
    rw [watch]
    split
    · exact List.cons_ne_nil _ _
    · split <;> exact List.cons_ne_nil _ _

end Reporter

theorem Step.all_ne_nil {source : String} (h : source ≠ "") : all source ≠ [] := by
  intro hnil
  have hconsumed := consumed_all source
  rw [hnil] at hconsumed
  exact h (String.toList_eq_nil_iff.mp hconsumed.symm)

theorem Step.start_lastCursor_rewind (cursor : Cursor) (steps : List Step) :
    (lastCursor cursor.rewind steps).start = (lastCursor Cursor.origin steps).start := by
  cases steps <;> rfl

theorem Step.lastCursor_of_ne_nil (first second : Cursor) {steps : List Step} (h : steps ≠ []) :
    lastCursor first steps = lastCursor second steps := by
  cases steps with
  | nil => exact absurd rfl h
  | cons step rest => rfl

namespace Document

/-- A scan leaves a document as it leaves the unscanned one, the cursor apart. -/
theorem settle_eq (document : Document) (steps : List Step) (finished : Bool) :
    document.settle steps finished =
      { (ofSource document.source document.filename).settle steps finished with
        cursor := Step.lastCursor document.cursor.rewind steps } := by
  have hline := (Step.lastCursor_rewind document.cursor steps).2
  simp only [settle, hline]
  rfl

theorem scanWith_eq_ofSource (reporter : Reporter σ ε) (state : σ) (document : Document) :
    document.scanWith reporter state =
      ({ ((ofSource document.source document.filename).scanWith reporter state).1 with
          cursor := Step.lastCursor document.cursor.rewind
            (reporter.watch state (Step.all document.source)).steps },
        ((ofSource document.source document.filename).scanWith reporter state).2) := by
  rw [scanWith, settle_eq]
  rfl

/-- If there is text to scan, nothing at all is left of what a document held before. -/
theorem scanWith_eq_ofSource_of_ne (reporter : Reporter σ ε) (state : σ) {document : Document}
    (h : document.source ≠ "") :
    document.scanWith reporter state =
      (ofSource document.source document.filename).scanWith reporter state := by
  have hsteps := reporter.watch_steps_ne_nil state (Step.all_ne_nil h)
  rw [scanWith_eq_ofSource, Step.lastCursor_of_ne_nil _ Cursor.origin hsteps]
  rfl

/-- What is left of a scan that its reporter stops after so many calls: the undisturbed scan, cut
right behind the step whose diagnostic is the last one reported. -/
structure CutAfter (document : Document) (passed : Nat) (left : Document) : Prop where
  diagnostics_eq : left.diagnostics = document.scan.diagnostics.take (passed + 1)
  length_eq : left.diagnostics.length = passed + 1
  no_end : ∀ token ∈ left.tokens, token.kind ≠ .endOfInput
  exists_step : ∃ steps,
    (document.progress Reporter.silent () steps).document.cursor.current <
        document.source.length ∧
      (document.progress Reporter.silent () steps).document.diagnostics =
        document.scan.diagnostics.take passed ∧
      left.tokens = (document.progress Reporter.silent () steps).document.tokens ∧
      left = (document.progress Reporter.silent () (steps + 1)).document

/-- The first steps leave as many diagnostics as they make reports. -/
theorem diagnostics_settle_eq_take (document : Document) {steps : List Step} {count : Nat}
    (hsteps : steps <+: Step.all document.source) (h : (Step.reports steps).length = count)
    (finished : Bool) :
    (document.settle steps finished).diagnostics = document.scan.diagnostics.take count := by
  obtain ⟨more, hmore⟩ := hsteps
  have hlength := congrArg List.length (document.map_report_settle steps finished)
  rw [List.length_map, h] at hlength
  have happend : document.scan.diagnostics =
      (document.settle steps finished).diagnostics ++
        Step.diagnostics document.filename more := by
    rw [scan_eq_settle, ← hmore]
    exact List.filterMap_append
  rw [happend, List.take_left' hlength]

variable {reporter : Reporter σ ε} {state : σ} {document : Document} {passed : Nat} {stop : ε}

theorem cutAfter_of_stopsAfter
    (h : reporter.StopsAfter state (reports document.source) passed stop) :
    document.CutAfter passed (document.scanWith reporter state).1 ∧
      (document.scanWith reporter state).2 =
        (reporter.told state ((reports document.source).take (passed + 1)), some stop) := by
  obtain ⟨before, step, after, report, hsteps, hreport, hlength, hwatch⟩ :=
    Reporter.watch_of_stop h
  have hscan : document.scanWith reporter state =
      (document.settle (before ++ [step]) false,
        reporter.told state ((reports document.source).take (passed + 1)), some stop) := by
    rw [scanWith, hwatch]
    rfl
  have hconcat : before ++ [step] ++ after = Step.all document.source := by
    rw [hsteps, List.append_assoc, List.singleton_append]
  have hbefore : document.progress Reporter.silent () before.length =
      ⟨document.settle before false, ()⟩ := by
    rw [progress_eq, hsteps, List.take_left]
  have hlast : document.progress Reporter.silent () (before.length + 1) =
      ⟨document.settle (before ++ [step]) false, ()⟩ := by
    have hsize : (before ++ [step]).length = before.length + 1 := List.length_append
    rw [progress_eq, ← hconcat, List.take_left' hsize]
  have hlastLength : (Step.reports (before ++ [step])).length = passed + 1 := by
    rw [Step.reports, Step.filterMap_concat, hreport, List.length_append, ← Step.reports, hlength]
    rfl
  -- a step that is reported yields no token
  obtain ⟨fault, hfault, -⟩ := Option.map_eq_some_iff.mp hreport
  have htoken : step.token? = none := Step.token?_eq_none_of_fault? hfault
  rw [hscan]
  refine ⟨⟨?_, ?_, ?_, before.length, ?_, ?_, ?_, ?_⟩, rfl⟩
  · exact document.diagnostics_settle_eq_take ⟨after, hconcat⟩ hlastLength false
  · rw [← hlastLength, ← document.map_report_settle (before ++ [step]) false, List.length_map]
  · intro token hmem
    have hprogress := tokens_progress Reporter.silent () document (before.length + 1) token
    rw [hlast] at hprogress
    exact (hprogress hmem).1
  · rw [current_progress_lt_iff, hsteps, List.length_append, List.length_cons]
    omega
  · rw [hbefore]
    exact document.diagnostics_settle_eq_take ⟨step :: after, hsteps.symm⟩ hlength false
  · rw [hbefore, settle_concat, htoken]
    exact List.append_nil _
  · rw [hlast]

/-- A reporter that stops a scan at one of its calls has been called for the diagnostics up to then,
and the document is left as the undisturbed scan leaves it after the step of the last of them.
Whatever a document holds when a scan of it begins, the scan is that of the unscanned document: it
calls the reporter in the same way and ends at the same place with the same tokens and diagnostics.
Only without any text to scan may the line differ on which the last lexeme began. -/
theorem scan_stopped_or_repeated (reporter : Reporter σ ε) (state : σ) (document : Document) :
    let result := document.scanWith reporter state
    let fresh := (ofSource document.source document.filename).scanWith reporter state
    (∀ passed stop, reporter.StopsAfter state (reports document.source) passed stop →
      document.CutAfter passed result.1 ∧
        result.2 =
          (reporter.told state ((reports document.source).take (passed + 1)), some stop) ∧
        (document.scanWith reporter.logged (state, [])).2 =
          ((result.2.1, (reports document.source).take (passed + 1)), some stop)) ∧
      result.2 = fresh.2 ∧ result.1.tokens = fresh.1.tokens ∧
      result.1.diagnostics = fresh.1.diagnostics ∧
      result.1.cursor.start = fresh.1.cursor.start ∧
      result.1.cursor.current = fresh.1.cursor.current ∧
      result.1.cursor.line = fresh.1.cursor.line ∧
      (document.source ≠ "" → result = fresh) := by
  intro result fresh
  have hresult := document.scanWith_eq_ofSource reporter state
  have hplace := Step.lastCursor_rewind document.cursor
    (reporter.watch state (Step.all document.source)).steps
  refine ⟨?_, congrArg (·.2) hresult, congrArg (·.1.tokens) hresult,
    congrArg (·.1.diagnostics) hresult, Step.start_lastCursor_rewind _ _, hplace.1, hplace.2,
    scanWith_eq_ofSource_of_ne reporter state⟩
  intro passed stop h
  obtain ⟨hcut, hcalls⟩ := cutAfter_of_stopsAfter h
  refine ⟨hcut, hcalls, ?_⟩
  have hstate : result.2.1 =
      reporter.told state ((reports document.source).take (passed + 1)) :=
    congrArg Prod.fst hcalls
  rw [(cutAfter_of_stopsAfter (h.logged [])).2, Reporter.told_logged, hstate, List.nil_append]

/-- A recorder with room for one call stops at the second of three faults; what it leaves is scanned
again in full. -/
theorem scan_stopped_by_full_recorder :
    let recorder := Listener.recorder (Recorder.empty (some 1))
    let document := ofSource "a @ b\n# \"x" "f.lox"
    let left := (document.scanWith Listener.reporter recorder).1
    Listener.reporter.StopsAfter recorder (reports document.source) 1 ⟨2⟩ ∧
      document.CutAfter 1 left ∧
      (document.scanWith Listener.reporter.logged (recorder, [])).2.1.2 =
        [⟨1, "Unexpected character."⟩, ⟨2, "Unexpected character."⟩] ∧
      left.scanWith Listener.reporter recorder =
        document.scanWith Listener.reporter recorder := by
  intro recorder document left
  have h : Listener.reporter.StopsAfter recorder (reports document.source) 1 ⟨2⟩ :=
    { quiet := by
        intro number hnumber
        obtain rfl : number = 0 := Nat.lt_one_iff.mp hnumber
        decide +kernel
      stops := by decide +kernel }
  obtain ⟨hcut, -, hlogged⟩ :=
    (scan_stopped_or_repeated Listener.reporter recorder document).1 1 ⟨2⟩ h
  obtain ⟨-, -, -, -, -, -, -, hsame⟩ :=
    scan_stopped_or_repeated Listener.reporter recorder left
  refine ⟨h, hcut, ?_, hsame (by decide)⟩
  rw [hlogged]
  decide +kernel

end Document

end LoxLexer
