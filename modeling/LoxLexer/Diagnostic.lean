import LoxLexer.Text.Uppercase

/-!
# Diagnostics

A diagnostic says what is wrong, where, and how bad it is; it may carry a code, a help text and
suggestions. A report is the short form of one: a line and a message.
-/
namespace LoxLexer

structure Location where
  filename : String
  line : Int
deriving DecidableEq

structure Diagnostic where
  message : String
  location : Location
  severity : String
  code : Option String
  help : Option String
  suggestions : Option (List String)
deriving DecidableEq

structure Report where
  line : Int
  message : String
deriving DecidableEq

def Location.text (location : Location) : String := s!"{location.filename}:{location.line}"

namespace Diagnostic

/-- The severity of everything that is wrong with a source text. -/
def errorSeverity : String := "error"

/-- The line of a help text; an empty one is left out. -/
def helpLines : Option String → List String
  | some help => if help = "" then [] else [s!"  help: {help}"]
  | none => []

/-- The lines of suggestions under their title; an empty list has no title. -/
def suggestionLines : Option (List String) → List String
  | some (first :: more) => "  suggestions:" :: (first :: more).map fun text => s!"    - {text}"
  | _ => []

def lines (d : Diagnostic) : List String :=
  s!"{uppercase d.severity}: {d.message}" :: s!"  --> {d.location.text}" ::
    (helpLines d.help ++ suggestionLines d.suggestions)

/-- The lines of a diagnostic, each ended by a line feed. -/
def text (d : Diagnostic) : String := String.join (d.lines.map (· ++ "\n"))

def report (d : Diagnostic) : Report := ⟨d.location.line, d.message⟩

/-- Whether a diagnostic stands for something wrong, and not for a mere warning. -/
def isError (d : Diagnostic) : Bool := d.severity = errorSeverity

end Diagnostic

end LoxLexer
