import LoxLexer.Proofs.Scan.Progress
import LoxLexer.Session

/-!
# Shared listeners

Documents may share one listener: they are scanned in any order, each as often as one likes, and in
between the listener is cleared or its error flag is reset. What a document holds right after its
scan (`Shared.shown`) is what the listener was told during that scan, so a collector and the
documents always agree (`Shared.collector_run_since`), and a line writer has written a line for each
diagnostic (`Shared.exists_lineWriter_run_since`).
-/
namespace LoxLexer

/-- A diagnostic without its help text and its suggestions. -/
def Diagnostic.brief (d : Diagnostic) : Diagnostic := { d with help := none, suggestions := none }

/-- The short form of a fault's diagnostic is what a collector makes of the report of the fault. -/
theorem Fault.brief_diagnostic (fault : Fault) (location : Location) :
    (fault.diagnostic location).brief =
      Collector.diagnosticOf location.filename ⟨location.line, fault.message⟩ := by
  rw [Collector.diagnosticOf, Fault.codeOfMessage?_message]
  cases fault <;> rfl

theorem Fault.isError_diagnostic (fault : Fault) (location : Location) :
    (fault.diagnostic location).isError = true := by
  cases fault <;> rfl

theorem Step.isError_of_mem_diagnostics {filename : String} {steps : List Step} {d : Diagnostic}
    (h : d ∈ Step.diagnostics filename steps) : d.isError = true := by
  obtain ⟨step, -, fault, -, rfl⟩ := exists_fault_of_mem_diagnostics h
  exact fault.isError_diagnostic _

theorem map_diagnosticOf_reports (filename source : String) :
    (reports source).map (Collector.diagnosticOf filename) =
      (diagnostics filename source).map Diagnostic.brief := by
  rw [reports, Step.reports, diagnostics, Step.diagnostics, List.map_filterMap, List.map_filterMap]
  refine congrArg (List.filterMap · (Step.all source)) (funext fun step => ?_)
  rw [Step.report?, Step.diagnostic?, Option.map_map, Option.map_map]
  exact congrArg (Option.map · step.fault?)
    (funext fun fault => (fault.brief_diagnostic ⟨filename, step.cursor.line⟩).symm)

section Wrapped

variable {σ τ ε : Type} {reporter : Reporter σ ε} {wrap : τ → σ} {receive : τ → Report → τ}

/-- A reporter that only ever passes on reports to one that cannot stop a scan sees all steps. -/
theorem Reporter.watch_wrapped
    (h : ∀ state report, reporter.receive (wrap state) report = (wrap (receive state report), none))
    (state : τ) (steps : List Step) :
    reporter.watch (wrap state) steps =
      ⟨steps, wrap ((Step.reports steps).foldl receive state), none⟩ := by
  induction steps generalizing state with
  | nil => rfl
  | cons step rest ih =>
    cases hr : step.report? with
    | none =>
      rw [watch_cons_of_no_fault reporter _ hr, ih, Step.reports, Step.reports,
        List.filterMap_cons_none hr]
    | some report =>
      have hpass : (reporter.receive (wrap state) report).2 = none := by rw [h]
      rw [watch_cons_of_pass hr hpass, h, ih, Step.reports, Step.reports,
        List.filterMap_cons_some hr, List.foldl_cons]

theorem Document.scanWith_wrapped
    (h : ∀ state report, reporter.receive (wrap state) report = (wrap (receive state report), none))
    (state : τ) (document : Document) :
    document.scanWith reporter (wrap state) =
      (document.scan, wrap ((reports document.source).foldl receive state), none) := by
  rw [scanWith, Reporter.watch_wrapped h, scan_eq_settle]
  rfl

end Wrapped

/-- Collectors and line writers stop no scan. -/
def Listener.NeverStops : Listener → Prop
  | collector _ | lineWriter _ => True
  | recorder _ => False

theorem Listener.NeverStops.clear {listener : Listener} (h : listener.NeverStops) :
    (Session.clearListener listener).NeverStops := by
  cases listener <;> exact h

theorem Listener.NeverStops.reset {listener : Listener} (h : listener.NeverStops) :
    (Session.resetListener listener).NeverStops := by
  cases listener <;> exact h

namespace Document

theorem scanWith_collector (document : Document) (collector : Collector) :
    document.scanWith Listener.reporter (.collector collector) =
      (document.scan,
        .collector ((reports document.source).foldl Collector.receive collector), none) :=
  document.scanWith_wrapped (fun _ _ => rfl) collector

theorem scanWith_lineWriter (document : Document) (writer : LineWriter) :
    document.scanWith Listener.reporter (.lineWriter writer) =
      (document.scan,
        .lineWriter ((reports document.source).foldl LineWriter.receive writer), none) :=
  document.scanWith_wrapped (fun _ _ => rfl) writer

/-- A listener that stops no scan leaves the document as it is when nobody watches. -/
theorem exists_scanWith {listener : Listener} (h : listener.NeverStops) (document : Document) :
    ∃ next, next.NeverStops ∧
      document.scanWith Listener.reporter listener = (document.scan, next, none) := by
  cases listener with
  | collector collector => exact ⟨.collector _, trivial, document.scanWith_collector collector⟩
  | lineWriter writer => exact ⟨.lineWriter _, trivial, document.scanWith_lineWriter writer⟩
  | recorder recorder => exact h.elim

theorem diagnostics_scan (document : Document) :
    document.scan.diagnostics = LoxLexer.diagnostics document.filename document.source := by
  rw [scan_eq_settle]
  rfl

end Document

/-- What happens to documents that share a listener. -/
inductive SharedEvent (ι : Type)
  | scan (which : ι)
  | clear
  | resetError

/-- Documents and the listener that they share. -/
structure Shared (ι : Type) where
  documents : ι → Document
  listener : Listener

namespace Shared

variable {ι : Type} [DecidableEq ι]

def after (shared : Shared ι) : SharedEvent ι → Shared ι
  | .scan which =>
    let (document, listener, _) :=
      (shared.documents which).scanWith Listener.reporter shared.listener
    ⟨Function.update shared.documents which document, listener⟩
  | .clear => { shared with listener := Session.clearListener shared.listener }
  | .resetError => { shared with listener := Session.resetListener shared.listener }

def run (shared : Shared ι) (events : List (SharedEvent ι)) : Shared ι := events.foldl after shared

/-- The diagnostics that each scan leaves in its document, one scan after the other. -/
def shown (shared : Shared ι) : List (SharedEvent ι) → List Diagnostic
  | [] => []
  | .scan which :: events =>
    ((shared.after (.scan which)).documents which).diagnostics ++
      (shared.after (.scan which)).shown events
  | event :: events => (shared.after event).shown events

theorem run_cons (shared : Shared ι) (event : SharedEvent ι) (events : List (SharedEvent ι)) :
    shared.run (event :: events) = (shared.after event).run events := rfl

theorem run_append (shared : Shared ι) (first second : List (SharedEvent ι)) :
    shared.run (first ++ second) = (shared.run first).run second := List.foldl_append

/-- Whatever happens, documents keep their texts and their names. -/
theorem source_after (shared : Shared ι) (event : SharedEvent ι) (which : ι) :
    ((shared.after event).documents which).source = (shared.documents which).source ∧
      ((shared.after event).documents which).filename = (shared.documents which).filename := by
  cases event with
  | scan other =>
    by_cases h : which = other
    · subst h
      simp [after, Document.scanWith, Document.settle]
    · simp [after, h]
  | clear => exact ⟨rfl, rfl⟩
  | resetError => exact ⟨rfl, rfl⟩

theorem source_run (shared : Shared ι) (events : List (SharedEvent ι)) (which : ι) :
    ((shared.run events).documents which).source = (shared.documents which).source ∧
      ((shared.run events).documents which).filename = (shared.documents which).filename := by
  induction events generalizing shared with
  | nil => exact ⟨rfl, rfl⟩
  | cons event events ih =>
    obtain ⟨hsource, hfilename⟩ := ih (shared.after event)
    obtain ⟨hsource', hfilename'⟩ := shared.source_after event which
    exact ⟨hsource.trans hsource', hfilename.trans hfilename'⟩

/-- Only a scan of its own changes a document. -/
theorem documents_run_of_not_mem {events : List (SharedEvent ι)} {which : ι}
    (h : .scan which ∉ events) (shared : Shared ι) :
    (shared.run events).documents which = shared.documents which := by
  induction events generalizing shared with
  | nil => rfl
  | cons event events ih =>
    rw [run_cons, ih (List.not_mem_of_not_mem_cons h)]
    cases event with
    | scan other =>
      have hne : which ≠ other := by
        rintro rfl
        exact List.ne_of_not_mem_cons h rfl
      exact Function.update_of_ne hne _ _
    | clear => rfl
    | resetError => rfl

theorem shown_cons (shared : Shared ι) (event : SharedEvent ι) (events : List (SharedEvent ι)) :
    shared.shown (event :: events) =
      shared.shown [event] ++ (shared.after event).shown events := by
  cases event <;> simp [shown]

theorem isError_of_mem_shown (shared : Shared ι) (events : List (SharedEvent ι)) {d : Diagnostic}
    (h : d ∈ shared.shown events) : d.isError = true := by
  induction events generalizing shared with
  | nil => cases h
  | cons event events ih =>
    cases event with
    | scan which =>
      obtain hnow | hlater := List.mem_append.mp h
      · simp only [after, Function.update_self] at hnow
        exact Step.isError_of_mem_diagnostics hnow
      · exact ih _ hlater
    | clear => exact ih _ h
    | resetError => exact ih _ h

variable {shared : Shared ι}

/-- A scan before the eyes of a listener that stops no scan is the one that nobody watches. -/
theorem documents_after_scan (h : shared.listener.NeverStops) (which : ι) :
    (shared.after (.scan which)).documents which = (shared.documents which).scan := by
  obtain ⟨next, -, hscan⟩ := (shared.documents which).exists_scanWith h
  simp only [after, hscan, Function.update_self]

theorem neverStops_after (h : shared.listener.NeverStops) (event : SharedEvent ι) :
    (shared.after event).listener.NeverStops := by
  cases event with
  | scan which =>
    obtain ⟨next, hnext, hscan⟩ := (shared.documents which).exists_scanWith h
    simpa only [after, hscan] using hnext
  | clear => exact h.clear
  | resetError => exact h.reset

theorem neverStops_run (h : shared.listener.NeverStops) (events : List (SharedEvent ι)) :
    (shared.run events).listener.NeverStops := by
  induction events generalizing shared with
  | nil => exact h
  | cons event events ih => exact ih (neverStops_after h event)

/-- After its last scan a document is what that scan has left. -/
theorem documents_run_scan (h : shared.listener.NeverStops) {which : ι}
    {later : List (SharedEvent ι)} (hlater : .scan which ∉ later)
    (earlier : List (SharedEvent ι)) :
    (shared.run (earlier ++ .scan which :: later)).documents which =
      ((shared.run earlier).documents which).scan := by
  rw [run_append, run_cons, documents_run_of_not_mem hlater,
    documents_after_scan (neverStops_run h earlier)]

section Collector

variable {collector : Collector}

theorem collector_after (h : shared.listener = .collector collector)
    (hname : ∀ which, (shared.documents which).filename = collector.filename)
    {event : SharedEvent ι} (hevent : event ≠ .clear) :
    (shared.after event).listener = .collector { collector with
      diagnostics := collector.diagnostics ++ (shared.shown [event]).map Diagnostic.brief } := by
  cases event with
  | scan which =>
    have hreports := map_diagnosticOf_reports collector.filename (shared.documents which).source
    have hnever : shared.listener.NeverStops := by
      rw [h]
      trivial
    simp only [shown, List.append_nil, documents_after_scan hnever, Document.diagnostics_scan,
      hname, ← hreports]
    simp only [after, h, Document.scanWith_collector, Collector.foldl_receive]
  | clear => exact absurd rfl hevent
  | resetError => simp [after, h, Session.resetListener, shown]

/-- Between two clearings a collector keeps what each scan leaves in its document. -/
theorem collector_run (h : shared.listener = .collector collector)
    (hname : ∀ which, (shared.documents which).filename = collector.filename)
    {events : List (SharedEvent ι)} (hevents : .clear ∉ events) :
    (shared.run events).listener = .collector { collector with
      diagnostics := collector.diagnostics ++ (shared.shown events).map Diagnostic.brief } := by
  induction events generalizing shared collector with
  | nil => simpa [run, shown] using h
  | cons event events ih =>
    have hafter := collector_after h hname (List.ne_of_not_mem_cons hevents).symm
    have hname' (which : ι) :
        ((shared.after event).documents which).filename = collector.filename :=
      (shared.source_after event which).2.trans (hname which)
    rw [run_cons, ih hafter hname' (List.not_mem_of_not_mem_cons hevents),
      shown_cons shared event events, List.map_append, List.append_assoc]

/-- A listener that is a collector stays one under the same name. -/
theorem exists_collector_run (h : shared.listener = .collector collector)
    (events : List (SharedEvent ι)) :
    ∃ last, (shared.run events).listener = .collector last ∧
      last.filename = collector.filename := by
  induction events generalizing shared collector with
  | nil => exact ⟨collector, h, rfl⟩
  | cons event events ih =>
    have hafter : ∃ next, (shared.after event).listener = .collector next ∧
        next.filename = collector.filename := by
      cases event with
      | scan which =>
        simp only [after, h, Document.scanWith_collector, Collector.foldl_receive]
        exact ⟨_, rfl, rfl⟩
      | clear => exact ⟨collector.clear, by simp [after, h, Session.clearListener], rfl⟩
      | resetError => exact ⟨collector, by simp [after, h, Session.resetListener], rfl⟩
    obtain ⟨next, hnext, hfilename⟩ := hafter
    obtain ⟨last, hlast, hlastname⟩ := ih hnext
    exact ⟨last, hlast, hlastname.trans hfilename⟩

end Collector

section LineWriter

variable {writer : LineWriter}

/-- The lines that a line writer writes for diagnostics. -/
def lines (found : List Diagnostic) : String :=
  String.join (found.map fun d => s!"[line {d.location.line}] Error: {d.message}\n")

theorem lines_append (first second : List Diagnostic) :
    lines (first ++ second) = lines first ++ lines second := by
  rw [lines, List.map_append, String.join_append]
  rfl

theorem lineWriter_after (h : shared.listener = .lineWriter writer) {event : SharedEvent ι}
    (hevent : event ≠ .resetError) :
    (shared.after event).listener = .lineWriter
      ⟨writer.hadError || !(shared.shown [event]).isEmpty,
        writer.text ++ lines (shared.shown [event])⟩ := by
  cases event with
  | scan which =>
    have hreports := Step.map_report_diagnostics (shared.documents which).filename
      (Step.all (shared.documents which).source)
    have hscan : (shared.after (.scan which)).documents which = (shared.documents which).scan :=
      documents_after_scan (by rw [h]; trivial) which
    simp only [shown, List.append_nil, hscan, Document.diagnostics_scan]
    simp only [after, h, Document.scanWith_lineWriter, LineWriter.foldl_receive, reports, ← hreports,
      List.isEmpty_map, List.map_map]
    rfl
  | clear => simp [after, h, Session.clearListener, shown, lines]
  | resetError => exact absurd rfl hevent

/-- As long as nobody resets it, the error flag tells of every diagnostic. -/
theorem lineWriter_run (h : shared.listener = .lineWriter writer)
    {events : List (SharedEvent ι)} (hevents : .resetError ∉ events) :
    (shared.run events).listener = .lineWriter
      ⟨writer.hadError || !(shared.shown events).isEmpty,
        writer.text ++ lines (shared.shown events)⟩ := by
  induction events generalizing shared writer with
  | nil => simpa [run, shown, lines] using h
  | cons event events ih =>
    have hafter := lineWriter_after h (List.ne_of_not_mem_cons hevents).symm
    rw [run_cons, ih hafter (List.not_mem_of_not_mem_cons hevents),
      shown_cons shared event events, lines_append, String.append_assoc, Bool.or_assoc]
    cases shared.shown [event] <;> simp

/-- Whatever happens, a line writer keeps what it has written, and goes on behind it. -/
theorem exists_lineWriter_run (h : shared.listener = .lineWriter writer)
    (events : List (SharedEvent ι)) :
    ∃ last, (shared.run events).listener = .lineWriter last ∧
      last.text = writer.text ++ lines (shared.shown events) := by
  induction events generalizing shared writer with
  | nil => exact ⟨writer, h, by simp [shown, lines]⟩
  | cons event events ih =>
    have hafter : ∃ next, (shared.after event).listener = .lineWriter next ∧
        next.text = writer.text ++ lines (shared.shown [event]) := by
      cases event with
      | resetError =>
        exact ⟨writer.resetError, by simp [after, h, Session.resetListener],
          by simp [LineWriter.resetError, shown, lines]⟩
      | _ => exact ⟨_, lineWriter_after h (by simp), rfl⟩
    obtain ⟨next, hnext, htext⟩ := hafter
    obtain ⟨last, hlast, hlasttext⟩ := ih hnext
    refine ⟨last, hlast, ?_⟩
    rw [hlasttext, htext, shown_cons shared event events, lines_append, String.append_assoc]

end LineWriter

/-- The events from the last one of a kind on, or all of them if there is none of the kind. -/
def Since (event : SharedEvent ι) (earlier later : List (SharedEvent ι)) : Prop :=
  (earlier = [] ∨ earlier.getLast? = some event) ∧ event ∉ later

theorem run_of_getLast? {earlier : List (SharedEvent ι)} {event : SharedEvent ι}
    (h : earlier.getLast? = some event) (shared : Shared ι) :
    ∃ before, shared.run earlier = (shared.run before).after event := by
  obtain ⟨before, rfl⟩ := List.getLast?_eq_some_iff.mp h
  exact ⟨before, run_append shared before [event]⟩

/-- Since it was last cleared a collector has kept what each scan has left in its document. -/
theorem collector_run_since {documents : ι → Document} {filename : String}
    (hname : ∀ which, (documents which).filename = filename)
    {earlier later : List (SharedEvent ι)} (hsince : Since .clear earlier later) :
    let start : Shared ι := ⟨documents, .collector (Collector.empty filename)⟩
    (start.run (earlier ++ later)).listener =
      .collector ⟨filename, ((start.run earlier).shown later).map Diagnostic.brief⟩ := by
  intro start
  have hempty : (start.run earlier).listener = .collector (Collector.empty filename) := by
    obtain rfl | hlast := hsince.1
    · rfl
    · obtain ⟨before, hbefore⟩ := run_of_getLast? hlast start
      have hstart : start.listener = .collector (Collector.empty filename) := rfl
      obtain ⟨kept, hkept, rfl⟩ := exists_collector_run hstart before
      simp [hbefore, after, hkept, Session.clearListener, Collector.clear, Collector.empty]
  have hname' (which : ι) : ((start.run earlier).documents which).filename = filename :=
    (start.source_run earlier which).2.trans (hname which)
  rw [run_append, collector_run hempty hname' hsince.2, Collector.empty, List.nil_append]

/-- A line writer has written a line for every diagnostic there was, and its error flag tells of
those since it was last reset. -/
theorem exists_lineWriter_run_since (documents : ι → Document)
    (earlier later : List (SharedEvent ι)) :
    let start : Shared ι := ⟨documents, .lineWriter LineWriter.empty⟩
    ∃ writer, (start.run (earlier ++ later)).listener = .lineWriter writer ∧
      writer.text = lines (start.shown (earlier ++ later)) ∧
      (Since .resetError earlier later →
        writer.hadError = !((start.run earlier).shown later).isEmpty) := by
  intro start
  have hstart : start.listener = .lineWriter LineWriter.empty := rfl
  obtain ⟨last, hlast, htext⟩ := exists_lineWriter_run hstart (earlier ++ later)
  refine ⟨last, hlast, htext.trans (String.empty_append), fun hsince => ?_⟩
  obtain ⟨writer, hwriter, hflag⟩ : ∃ writer,
      (start.run earlier).listener = .lineWriter writer ∧ writer.hadError = false := by
    obtain rfl | hreset := hsince.1
    · exact ⟨_, rfl, rfl⟩
    · obtain ⟨before, hbefore⟩ := run_of_getLast? hreset start
      obtain ⟨writer, hwriter, -⟩ := exists_lineWriter_run hstart before
      exact ⟨writer.resetError, by simp [hbefore, after, hwriter, Session.resetListener], rfl⟩
  rw [run_append, lineWriter_run hwriter hsince.2] at hlast
  cases hlast
  simp [hflag]

end Shared

/-- Documents that share a collector, or a line writer, and it agree about every diagnostic. What
the collector holds is what the scans since it was last cleared have left in their documents, one
after the other, the help apart. What the line writer has written is a line for each of them, and
its error flag is set just if there was one since it was last reset. A document itself knows of its
last scan only. -/
theorem shared_listener_agrees {ι : Type} [DecidableEq ι] (documents : ι → Document)
    (filename : String) (earlier later : List (SharedEvent ι)) :
    let collected : Shared ι := ⟨documents, .collector (Collector.empty filename)⟩
    let written : Shared ι := ⟨documents, .lineWriter LineWriter.empty⟩
    ((∀ which, (documents which).filename = filename) → Shared.Since .clear earlier later →
        ∃ collector, (collected.run (earlier ++ later)).listener = .collector collector ∧
          let found := (collected.run earlier).shown later
          collector.diagnostics =
              found.map (fun d => { d with help := none, suggestions := none }) ∧
            collector.diagnostics.length = found.length ∧
            (collector.hasErrors = true ↔ collector.diagnostics.length ≠ 0)) ∧
      (∃ writer, (written.run (earlier ++ later)).listener = .lineWriter writer ∧
        writer.text = String.join ((written.shown (earlier ++ later)).map fun d =>
          s!"[line {d.location.line}] Error: {d.message}\n") ∧
        (Shared.Since .resetError earlier later →
          (writer.hadError = true ↔ (written.run earlier).shown later ≠ []))) ∧
      ∀ shared ∈ [collected, written], ∀ which,
        (((shared.run earlier).documents which).scanWith Listener.reporter
            (shared.run earlier).listener).2.2 = none ∧
          (SharedEvent.scan which ∉ later →
            let document := (shared.run (earlier ++ .scan which :: later)).documents which
            document = (shared.run (earlier ++ [.scan which])).documents which ∧
              document.diagnostics =
                diagnostics (documents which).filename (documents which).source ∧
              (document.hasErrors = true ↔ document.diagnostics ≠ [])) := by
  intro collected written
  refine ⟨fun hname hsince => ?_, ?_, ?_⟩
  · refine ⟨_, Shared.collector_run_since hname hsince, rfl, List.length_map _, ?_⟩
    have herror : ∀ d ∈ (collected.run earlier).shown later, d.isError = true :=
      fun d => (collected.run earlier).isError_of_mem_shown later
    rw [Collector.hasErrors, List.any_map, List.any_eq_true, List.length_map,
      ← Nat.pos_iff_ne_zero, List.length_pos_iff_exists_mem]
    exact exists_congr fun d => ⟨And.left, fun hmem => ⟨hmem, herror d hmem⟩⟩
  · obtain ⟨writer, hwriter, htext, hflag⟩ :=
      Shared.exists_lineWriter_run_since documents earlier later
    refine ⟨writer, hwriter, htext, fun hsince => ?_⟩
    rw [hflag hsince, Bool.not_eq_true', List.isEmpty_eq_false_iff]
  · intro shared hshared which
    obtain ⟨hstart, hdocuments⟩ :
        shared.listener.NeverStops ∧ shared.documents = documents := by
      obtain rfl | rfl := by simpa using hshared
      · exact ⟨trivial, rfl⟩
      · exact ⟨trivial, rfl⟩
    obtain ⟨next, -, hscan⟩ := ((shared.run earlier).documents which).exists_scanWith
      (Shared.neverStops_run hstart earlier)
    refine ⟨by rw [hscan], fun hlater => ?_⟩
    obtain ⟨hsource, hfilename⟩ := shared.source_run earlier which
    intro document
    have hdocument : document = ((shared.run earlier).documents which).scan :=
      Shared.documents_run_scan hstart hlater earlier
    refine ⟨?_, ?_, ?_⟩
    · rw [hdocument, Shared.documents_run_scan hstart (List.not_mem_nil) earlier]
    · rw [hdocument, Document.diagnostics_scan, hsource, hfilename, hdocuments]
    · simp [Document.hasErrors]

/-- The collector forgets the first scan, and keeps what both documents hold after it is cleared. -/
example :
    let documents (second : Bool) : Document := .ofSource (if second then "\n@" else "\"") "a.lox"
    let start : Shared Bool := ⟨documents, .collector (Collector.empty "a.lox")⟩
    (start.run [.scan false, .clear, .scan true, .scan false]).listener = .collector ⟨"a.lox",
      [⟨"Unexpected character.", ⟨"a.lox", 2⟩, "error", some "L001", none, none⟩,
        ⟨"Unterminated string.", ⟨"a.lox", 1⟩, "error", some "L002", none, none⟩]⟩ := by
  decide +kernel

end LoxLexer
