import LoxLexer.Command.Dump
import LoxLexer.Document
import LoxLexer.Reporter.Kinds
import LoxLexer.Source.Reading

/-!
# Runs of the command

A run ends with an exit code, or with a fault that the command does not handle, and has written to
two streams. It dumps the tokens of a script, or of the lines typed at a prompt.
-/
namespace LoxLexer.Command

/-- The version of the command. -/
def version : String := "0.1.0"

/-- Exit code of a run without faults. -/
def exitOk : Nat := 0

/-- Exit code of a command line that cannot be read and of a script that cannot be opened. -/
def exitRefused : Nat := 2

/-- Exit code of a command line with too much on it. -/
def exitUsage : Nat := 64

/-- Exit code of a script with lexical faults. -/
def exitDataError : Nat := 65

inductive Ending
  | code (code : Nat)
  | unhandled (fault : PathFault)
deriving DecidableEq

structure Outcome where
  ending : Ending
  stdout : String
  stderr : String
deriving DecidableEq

def usageText : String := "usage: loxscan [-h] [--no-eof] [--json] [script]\n"

def helpText : String :=
  usageText ++ "\n" ++
  "Scan Lox source and print its tokens\n" ++
  "\n" ++
  "positional arguments:\n" ++
  "  script      Lox source file to scan (omit for a prompt)\n" ++
  "\n" ++
  "options:\n" ++
  "  -h, --help  show this help message and exit\n" ++
  "  --no-eof    Leave the EOF token out of the dump\n" ++
  "  --json      Output one JSON object per token\n" ++
  "\n" ++
  "Examples:\n" ++
  "    loxscan script.lox            # Dump the tokens of a script\n" ++
  "    loxscan script.lox --json     # Same, one JSON object per token\n" ++
  "    loxscan                       # Interactive prompt\n" ++
  "        \n"

/-- The end of a run that a message explains. -/
def refusal (message : String) : Outcome :=
  ⟨.code exitRefused, "", usageText ++ s!"loxscan: error: {message}\n"⟩

/-- Dumps the tokens of a script; faults go to the other stream. -/
def runScript (format : DumpFormat) (filename source : String) : Outcome :=
  let (document, writer, _) :=
    (Document.ofSource source filename).scanWith LineWriter.reporter LineWriter.empty
  ⟨.code (if writer.hadError then exitDataError else exitOk), dump format document.tokens,
    writer.text⟩

def promptText : String := "> "

/-- The name of the lines that are typed. -/
def promptFilename : String := "<stdin>"

/-- Dumps the tokens of each line by itself, with a prompt before each and before the end. -/
def runLines (format : DumpFormat) : List (List Char) → Outcome
  | [] => ⟨.code exitOk, promptText ++ "\n", ""⟩
  | line :: lines =>
    let first := runScript format promptFilename (String.ofList line)
    let rest := runLines format lines
    ⟨rest.ending, promptText ++ first.stdout ++ rest.stdout, first.stderr ++ rest.stderr⟩

/-- Answers what is typed line by line; a line feed ends a line, and a carriage return does not. -/
def runPrompt (format : DumpFormat) (typed : String) : Outcome :=
  runLines format (linesOf typed.toList)

/-- Dumps the script at a path. -/
def runPath (format : DumpFormat) (read : FileReader) (path : String) : Outcome :=
  match read.source path with
  | .ok source => runScript format path source
  | .error (.path _ .embeddedNull) => ⟨.unhandled .embeddedNull, "", ""⟩
  | .error fault => refusal fault.message

/-- What is left to do once the arguments are read. -/
inductive Plan
  | finish (outcome : Outcome)
  | prompt (format : DumpFormat)
  | script (format : DumpFormat) (path : String)

def planOf (arguments : List String) : Plan :=
  match invocationOf arguments with
  | .error fault => .finish (refusal fault.message)
  | .ok .help => .finish ⟨.code exitOk, helpText, ""⟩
  | .ok (.settings settings) =>
    if settings.hasExtra then .finish ⟨.code exitUsage, "", usageText⟩
    else
      match settings.script with
      | none => .prompt settings.format
      | some path => .script settings.format path

/-- A run with the given files, typed text and arguments. -/
def run (read : FileReader) (typed : String) (arguments : List String) : Outcome :=
  match planOf arguments with
  | .finish outcome => outcome
  | .prompt format => runPrompt format typed
  | .script format path => runPath format read path

end LoxLexer.Command
