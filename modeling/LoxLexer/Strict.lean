import LoxLexer.Document
import LoxLexer.Source.Reading

/-!
# All or nothing

Where a source text must be free of faults, the first one is the answer in place of the tokens. The
text of a file must be there in the first place.
-/
namespace LoxLexer

/-- The tokens of a faultless text, or the first diagnostic of any other. -/
def tokensOrDiagnostic (source filename : String) : Except Diagnostic (List Token) :=
  let document := (Document.ofSource source filename).scan
  match document.diagnostics with
  | [] => .ok document.tokens
  | first :: _ => .error first

/-- Why a file gives no tokens: it has no text that can be read, or a text with a fault. -/
inductive FileFault
  | read (fault : ReadFault)
  | lexical (diagnostic : Diagnostic)
deriving DecidableEq

/-- The tokens of the file at a path. -/
def FileReader.tokens (read : FileReader) (path : String) : Except FileFault (List Token) :=
  match read.source path with
  | .error fault => .error (.read fault)
  | .ok source =>
    match tokensOrDiagnostic source path with
    | .error diagnostic => .error (.lexical diagnostic)
    | .ok tokens => .ok tokens

end LoxLexer
