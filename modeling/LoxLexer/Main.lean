import LoxLexer.Command.Run

/-!
# The command

The thin layer between the runs of the command and the streams and files of the system.
-/
open LoxLexer LoxLexer.Command

/-- The number of an error of the system, whose codes come with either sign. -/
def errorNumber (code : UInt32) : UInt32 := if code < 0x80000000 then code else 0 - code

/-- The fault of a path behind an error of the system. -/
def pathFaultOf (path : String) : IO.Error → PathFault
  | .noFileOrDirectory .. => .notFound
  | .inappropriateType _ code _ => if errorNumber code = 21 then .isDirectory else .notDirectory
  | .permissionDenied _ code text | .invalidArgument _ code text =>
    .other s!"[Errno {errorNumber code}] {text}: {quoted path}"
  | error => .other (toString error)

/-- Writes what a run has written and gives its exit code. -/
def conclude (outcome : Outcome) : IO UInt32 := do
  IO.print outcome.stdout
  IO.eprint outcome.stderr
  match outcome.ending with
  | .code code => return UInt32.ofNat code
  | .unhandled fault =>
    IO.eprintln (fault.message "")
    return 1

/-- Dumps the script at a path of the system. -/
def dumpPath (format : DumpFormat) (path : String) : IO UInt32 := do
  if path.toList.contains '\x00' then conclude (runPath format (fun _ => .error .embeddedNull) path)
  else
    match ← (IO.FS.readBinFile path).toBaseIO with
    | .ok bytes => conclude (runPath format (fun _ => .ok bytes.toList) path)
    | .error error => conclude (runPath format (fun _ => .error (pathFaultOf path error)) path)

/-- Answers typed lines until there are no more. -/
partial def promptLoop (format : DumpFormat) (input : IO.FS.Stream) : IO UInt32 := do
  IO.print promptText
  (← IO.getStdout).flush
  let typed ← input.getLine
  if typed.isEmpty then
    IO.print "\n"
    return UInt32.ofNat exitOk
  let line := typed.toList.takeWhile (· ≠ '\n')
  let _ ← conclude (runScript format promptFilename (String.ofList line))
  promptLoop format input

def main (arguments : List String) : IO UInt32 := do
  match planOf arguments with
  | .finish outcome => conclude outcome
  | .prompt format => promptLoop format (← IO.getStdin)
  | .script format path => dumpPath format path
