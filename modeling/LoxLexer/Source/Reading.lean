import LoxLexer.Source.FileTree
import LoxLexer.Source.Newlines
import LoxLexer.Source.Utf8

/-!
# Reading source files

The bytes of a source file are UTF-8, and any line ending in them becomes a line feed.
-/
namespace LoxLexer

/-- Why there is no source text at a path. -/
inductive ReadFault
  | path (path : String) (fault : PathFault)
  | encoding (fault : Utf8.Fault)
deriving DecidableEq

namespace ReadFault

def message : ReadFault → String
  | path name fault => fault.message name
  | encoding fault => fault.message

end ReadFault

/-- The source text in the bytes of a file. -/
def sourceOfBytes (bytes : List UInt8) : Except Utf8.Fault String :=
  match Utf8.decode bytes with
  | .error fault => .error fault
  | .ok text => .ok (String.ofList (foldNewlines text))

/-- What finds the bytes of the file at a path. -/
abbrev FileReader := String → Except PathFault (List UInt8)

/-- The source text at a path. -/
def FileReader.source (read : FileReader) (path : String) : Except ReadFault String :=
  match read path with
  | .error fault => .error (.path path fault)
  | .ok bytes =>
    match sourceOfBytes bytes with
    | .error fault => .error (.encoding fault)
    | .ok source => .ok source

end LoxLexer
