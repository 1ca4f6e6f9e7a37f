import LoxLexer.Command.Invocation
import LoxLexer.Token.Text

/-!
# Dumps

A dump shows tokens one after the other, each followed by a line feed.
-/
namespace LoxLexer.Command

/-- Whether a dump in this format shows a token. -/
def DumpFormat.shows (format : DumpFormat) (token : Token) : Bool :=
  format.includeEnd || token.kind ≠ .endOfInput

/-- The text of a dump. -/
def dump (format : DumpFormat) (tokens : List Token) : String :=
  String.join ((tokens.filter format.shows).map fun token => token.dumpText format.asJson ++ "\n")

end LoxLexer.Command
