import LoxLexer.Document
import LoxLexer.Reporter.Kinds

/-!
# Sessions

A session holds listeners, documents and saved lists of tokens under names, and answers requests. A
name can be given again: documents keep the listener they were opened with, so listeners have
numbers of their own.
-/
namespace LoxLexer

/-- Values under names, each name at most once. -/
abbrev Named (α : Type) := List (String × α)

namespace Named

variable {α : Type}

def get? (table : Named α) (name : String) : Option α := table.lookup name

/-- The table with a value under a name, in place of one that was there. -/
def put (table : Named α) (name : String) (value : α) : Named α :=
  (name, value) :: table.filter (·.1 ≠ name)

theorem get?_put_self (table : Named α) (name : String) (value : α) :
    (table.put name value).get? name = some value := by
  simp [put, get?]

end Named

/-- A document together with the number of the listener that watches its scans. -/
structure WatchedDocument where
  document : Document
  listener : Option Nat

structure Session where
  listeners : Array Listener
  listenerNumbers : Named Nat
  documents : Named WatchedDocument
  saved : Named (List Token)

/-- What a session can be asked to do. -/
inductive Request
  | openListener (name : String) (listener : Listener)
  | report (name : String) (report : Report)
  | showListener (name : String)
  | clear (name : String)
  | add (name : String) (diagnostic : Diagnostic)
  | resetError (name : String)
  | scanSource (source : String) (listener : Option String)
  | openDocument (name source filename : String) (listener : Option String)
  | scanDocument (name : String) (save : Option String)
  | showSaved (name : String)
  | compareSaved (first second : String)
  | showDocument (name : String)
  | showTokens (name : String)
  | showHasErrors (name : String)
  | showDiagnostics (name : String)
  | setSource (name source : String)
  | setFilename (name filename : String)
  | setListener (name : String) (listener : Option String)

/-- What a session shows in answer to a request. -/
inductive Reply
  | listener (listener : Listener)
  | tokens (tokens : List Token)
  | state (tally : Tally)
  | flag (value : Bool)
  | diagnostics (diagnostics : List Diagnostic)

/-- Why a request fails: nothing has the name, or a listener stopped a scan. -/
inductive SessionFault
  | unknownName (name : String)
  | stopped (stopped : Stopped)

namespace Session

def empty : Session := ⟨#[], [], [], []⟩

/-- The number and the state of the listener with this name. -/
def listener (session : Session) (name : String) : Except SessionFault (Nat × Listener) :=
  match session.listenerNumbers.get? name with
  | none => .error (.unknownName name)
  | some number =>
    match session.listeners[number]? with
    | none => .error (.unknownName name)
    | some listener => .ok (number, listener)

/-- The number of the listener with this name, if a name is given. -/
def listenerNumber (session : Session) : Option String → Except SessionFault (Option Nat)
  | none => .ok none
  | some name => (session.listener name).map fun found => some found.1

def document (session : Session) (name : String) : Except SessionFault WatchedDocument :=
  match session.documents.get? name with
  | none => .error (.unknownName name)
  | some document => .ok document

def savedTokens (session : Session) (name : String) : Except SessionFault (List Token) :=
  match session.saved.get? name with
  | none => .error (.unknownName name)
  | some tokens => .ok tokens

def setListenerState (session : Session) (number : Nat) (listener : Listener) : Session :=
  { session with listeners := session.listeners.setIfInBounds number listener }

def putDocument (session : Session) (name : String) (document : WatchedDocument) : Session :=
  { session with documents := session.documents.put name document }

/-- Scans a document before the eyes of the listener with the given number, if there is one. -/
def scan (session : Session) (document : Document) (number : Option Nat) :
    Session × Document × Option Stopped :=
  match number with
  | none => (session, document.scan, none)
  | some number =>
    match session.listeners[number]? with
    | none => (session, document.scan, none)
    | some listener =>
      let (document, listener, stop) := document.scanWith Listener.reporter listener
      (session.setListenerState number listener, document, stop)

/-- Changes a listener and shows it; a listener that the change is not meant for stays as it is. -/
def changeListener (session : Session) (name : String) (change : Listener → Listener) :
    Session × Except SessionFault Reply :=
  match session.listener name with
  | .error fault => (session, .error fault)
  | .ok (number, listener) =>
    (session.setListenerState number (change listener), .ok (.listener (change listener)))

/-- Changes a document and shows its state. -/
def changeDocument (session : Session) (name : String)
    (change : WatchedDocument → WatchedDocument) : Session × Except SessionFault Reply :=
  match session.document name with
  | .error fault => (session, .error fault)
  | .ok found =>
    (session.putDocument name (change found), .ok (.state (change found).document.tally))

/-- Shows something of a document. -/
def showOf (session : Session) (name : String) (view : Document → Reply) :
    Session × Except SessionFault Reply :=
  (session, (session.document name).map fun found => view found.document)

def openListener (session : Session) (name : String) (listener : Listener) :
    Session × Except SessionFault Reply :=
  ({ session with
      listeners := session.listeners.push listener
      listenerNumbers := session.listenerNumbers.put name session.listeners.size },
    .ok (.listener listener))

def report (session : Session) (name : String) (report : Report) :
    Session × Except SessionFault Reply :=
  match session.listener name with
  | .error fault => (session, .error fault)
  | .ok (number, listener) =>
    let (listener, stop) := listener.receive report
    (session.setListenerState number listener,
      match stop with
      | some stopped => .error (.stopped stopped)
      | none => .ok (.listener listener))

def scanSource (session : Session) (source : String) (listener : Option String) :
    Session × Except SessionFault Reply :=
  match session.listenerNumber listener with
  | .error fault => (session, .error fault)
  | .ok number =>
    let (session, document, stop) :=
      session.scan (Document.ofSource source Document.anonymous) number
    (session,
      match stop with
      | some stopped => .error (.stopped stopped)
      | none => .ok (.tokens document.tokens))

def openDocument (session : Session) (name source filename : String) (listener : Option String) :
    Session × Except SessionFault Reply :=
  match session.listenerNumber listener with
  | .error fault => (session, .error fault)
  | .ok number =>
    let document := Document.ofSource source filename
    (session.putDocument name ⟨document, number⟩, .ok (.state document.tally))

def saveTokens (session : Session) (tokens : List Token) : Option String → Session
  | none => session
  | some name => { session with saved := session.saved.put name tokens }

def scanDocument (session : Session) (name : String) (save : Option String) :
    Session × Except SessionFault Reply :=
  match session.document name with
  | .error fault => (session, .error fault)
  | .ok found =>
    let (session, document, stop) := session.scan found.document found.listener
    let session := session.putDocument name { found with document := document }
    match stop with
    | some stopped => (session, .error (.stopped stopped))
    | none => (session.saveTokens document.tokens save, .ok (.tokens document.tokens))

def compareSaved (session : Session) (first second : String) : Except SessionFault Reply :=
  match session.savedTokens first, session.savedTokens second with
  | .ok a, .ok b => .ok (.flag (Token.equalAll a b))
  | .error fault, _ => .error fault
  | _, .error fault => .error fault

def setListener (session : Session) (name : String) (listener : Option String) :
    Session × Except SessionFault Reply :=
  match session.listenerNumber listener with
  | .error fault => (session, .error fault)
  | .ok number => session.changeDocument name ({ · with listener := number })

def clearListener : Listener → Listener
  | .collector c => .collector c.clear
  | other => other

def addToListener (diagnostic : Diagnostic) : Listener → Listener
  | .collector c => .collector (c.add diagnostic)
  | other => other

def resetListener : Listener → Listener
  | .lineWriter w => .lineWriter w.resetError
  | other => other

/-- Answers a request. A scan that a listener stops still leaves its traces in the session. -/
def answer (session : Session) : Request → Session × Except SessionFault Reply
  | .openListener name listener => session.openListener name listener
  | .report name report => session.report name report
  | .showListener name => session.changeListener name id
  | .clear name => session.changeListener name clearListener
  | .add name diagnostic => session.changeListener name (addToListener diagnostic)
  | .resetError name => session.changeListener name resetListener
  | .scanSource source listener => session.scanSource source listener
  | .openDocument name source filename listener =>
    session.openDocument name source filename listener
  | .scanDocument name save => session.scanDocument name save
  | .showSaved name => (session, (session.savedTokens name).map .tokens)
  | .compareSaved first second => (session, session.compareSaved first second)
  | .showDocument name => session.showOf name (.state ·.tally)
  | .showTokens name => session.showOf name (.tokens ·.tokens)
  | .showHasErrors name => session.showOf name (.flag ·.hasErrors)
  | .showDiagnostics name => session.showOf name (.diagnostics ·.diagnostics)
  | .setSource name source =>
    session.changeDocument name fun found =>
      { found with document := { found.document with source := source } }
  | .setFilename name filename =>
    session.changeDocument name fun found =>
      { found with document := { found.document with filename := filename } }
  | .setListener name listener => session.setListener name listener

/-- Answers requests one after the other. -/
def answerAll (session : Session) : List Request → List (Except SessionFault Reply)
  | [] => []
  | request :: rest =>
    let (session, reply) := session.answer request
    reply :: session.answerAll rest

end Session

end LoxLexer
