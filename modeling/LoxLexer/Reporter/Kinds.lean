import LoxLexer.Reporter.Basic

/-!
# Kinds of reporter

A collector keeps diagnostics, a line writer writes a line for each report, and a recorder keeps the
reports themselves and can be told to stop a scan after a number of them.
-/
namespace LoxLexer

structure Collector where
  filename : String
  diagnostics : List Diagnostic
deriving DecidableEq

structure LineWriter where
  hadError : Bool
  text : String
deriving DecidableEq

structure Recorder where
  limit : Option Nat
  calls : List Report
deriving DecidableEq

/-- A recorder was full when it was told of a fault on this line. -/
structure Stopped where
  line : Int
deriving DecidableEq

def Stopped.message (stopped : Stopped) : String := s!"reporter stopped at line {stopped.line}"

namespace Collector

def empty (filename : String) : Collector := ⟨filename, []⟩

def add (collector : Collector) (diagnostic : Diagnostic) : Collector :=
  { collector with diagnostics := collector.diagnostics ++ [diagnostic] }

/-- The diagnostic that a report becomes: an error, with a code if its message is known. -/
def diagnosticOf (filename : String) (report : Report) : Diagnostic :=
  ⟨report.message, ⟨filename, report.line⟩, Diagnostic.errorSeverity,
    Fault.codeOfMessage? report.message, none, none⟩

def receive (collector : Collector) (report : Report) : Collector :=
  collector.add (diagnosticOf collector.filename report)

def clear (collector : Collector) : Collector := { collector with diagnostics := [] }

def hasErrors (collector : Collector) : Bool := collector.diagnostics.any Diagnostic.isError

/-- A collector has kept a diagnostic for each report it has received. -/
theorem foldl_receive (collector : Collector) (calls : List Report) :
    calls.foldl receive collector =
      { collector with
        diagnostics := collector.diagnostics ++ calls.map (diagnosticOf collector.filename) } := by
  induction calls generalizing collector with
  | nil => simp
  | cons report calls ih =>
    rw [List.foldl_cons, ih, receive, add]
    simp

end Collector

namespace LineWriter

def empty : LineWriter := ⟨false, ""⟩

/-- The line written for a report. -/
def lineOf (report : Report) : String := s!"[line {report.line}] Error: {report.message}\n"

def receive (writer : LineWriter) (report : Report) : LineWriter :=
  ⟨true, writer.text ++ lineOf report⟩

def resetError (writer : LineWriter) : LineWriter := { writer with hadError := false }

def reporter : Reporter LineWriter Empty := ⟨fun writer report => (writer.receive report, none)⟩

/-- A line writer has written a line for each report it has received. -/
theorem foldl_receive (writer : LineWriter) (calls : List Report) :
    calls.foldl receive writer =
      ⟨writer.hadError || !calls.isEmpty, writer.text ++ String.join (calls.map lineOf)⟩ := by
  induction calls generalizing writer with
  | nil => simp
  | cons report calls ih =>
    rw [List.foldl_cons, ih, receive, List.map_cons, String.join_cons, String.append_assoc]
    simp

end LineWriter

namespace Recorder

def empty (limit : Option Nat) : Recorder := ⟨limit, []⟩

def isFull (recorder : Recorder) : Bool :=
  match recorder.limit with
  | some limit => limit ≤ recorder.calls.length
  | none => false

/-- A full recorder records nothing and stops. -/
def receive (recorder : Recorder) (report : Report) : Recorder × Option Stopped :=
  if recorder.isFull then (recorder, some ⟨report.line⟩)
  else ({ recorder with calls := recorder.calls ++ [report] }, none)

end Recorder

/-- A reporter of one of the three kinds. -/
inductive Listener
  | collector (collector : Collector)
  | lineWriter (writer : LineWriter)
  | recorder (recorder : Recorder)
deriving DecidableEq

namespace Listener

def receive (listener : Listener) (report : Report) : Listener × Option Stopped :=
  match listener with
  | collector c => (collector (c.receive report), none)
  | lineWriter w => (lineWriter (w.receive report), none)
  | recorder r => ((recorder (r.receive report).1), (r.receive report).2)

def reporter : Reporter Listener Stopped := ⟨receive⟩

end Listener

end LoxLexer
