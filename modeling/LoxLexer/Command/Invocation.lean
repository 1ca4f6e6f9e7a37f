import LoxLexer.Command.Words

/-!
# Invocations

The words of a command line, taken from left to right, ask for the help text or for the dump of one
script; the first operand is the script. Unknown options and further operands are left over.
-/
namespace LoxLexer.Command

/-- Which tokens a dump shows, and how. -/
structure DumpFormat where
  includeEnd : Bool
  asJson : Bool
deriving DecidableEq

/-- What the words read so far ask for. -/
structure Settings where
  script : Option String
  format : DumpFormat
  hasExtra : Bool
deriving DecidableEq

inductive Invocation
  | help
  | settings (settings : Settings)
deriving DecidableEq

namespace Settings

def default : Settings := ⟨none, ⟨true, false⟩, false⟩

def addExtra (settings : Settings) : Settings := { settings with hasExtra := true }

/-- Takes an operand as the script if there is none yet. -/
def addOperand (settings : Settings) (text : String) : Settings :=
  match settings.script with
  | none => { settings with script := some text }
  | some _ => settings.addExtra

end Settings

/-- What an option does: it ends the reading for the help text, or changes the format. -/
def applyFlag (settings : Settings) : Flag → Option Settings
  | .help => none
  | .noEof => some { settings with format := { settings.format with includeEnd := false } }
  | .json => some { settings with format := { settings.format with asJson := true } }

/-- A text attached to the short help option must be the same option again and again. -/
def checkAttached : List Char → Except OptionFault Unit
  | ['h'] => .ok ()
  | 'h' :: attached => checkAttached attached
  | attached => .error (.ignoredArgument .help attached)

/-- An option takes no text, but short options can be joined. -/
def checkOption (flag : Flag) (isShort : Bool) : Option (List Char) → Except OptionFault Unit
  | none => .ok ()
  | some attached =>
    if isShort then checkAttached attached else .error (.ignoredArgument flag attached)

/-- Reads words from left to right. A double dash is dropped right behind the script and wherever
there is no script yet. -/
def readWords (settings : Settings) : List Word → Except OptionFault Invocation
  | [] => .ok (.settings settings)
  | .operand text :: .terminator :: rest =>
    if settings.script.isNone then readWords (settings.addOperand text) rest
    else readWords settings.addExtra rest
  | .operand text :: rest => readWords (settings.addOperand text) rest
  | .terminator :: rest =>
    if settings.script.isNone then readWords settings rest else readWords settings.addExtra rest
  | .unknown _ :: rest => readWords settings.addExtra rest
  | .option flag isShort attached :: rest =>
    match checkOption flag isShort attached with
    | .error fault => .error fault
    | .ok () =>
      match applyFlag settings flag with
      | none => .ok .help
      | some settings => readWords settings rest

/-- What a command line asks for. -/
def invocationOf (arguments : List String) : Except OptionFault Invocation :=
  match wordsOf arguments with
  | .error fault => .error fault
  | .ok words => readWords Settings.default words

end LoxLexer.Command
