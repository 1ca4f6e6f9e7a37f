import LoxLexer.Decimal.Shortest
import LoxLexer.Decimal.Layout

/-!
# The text of a double

A finite double is written as its shortest decimal. The words for infinity and `nan` depend on where
the text stands: `NumberWords` holds them.
-/
namespace LoxLexer

/-- How the doubles that have no digits are written. -/
structure NumberWords where
  infinity : String
  nan : String

namespace NumberWords

def plain : NumberWords := ⟨"inf", "nan"⟩

def json : NumberWords := ⟨"Infinity", "NaN"⟩

end NumberWords

namespace Binary64

def signText (negative : Bool) : String := if negative then "-" else ""

def textWith (words : NumberWords) : Binary64 → String
  | finite negative x => signText negative ++ String.ofList x.shortest.written
  | infinite negative => signText negative ++ words.infinity
  | nan => words.nan

/-- The text of a double where no other rule holds. -/
def text (x : Binary64) : String := x.textWith NumberWords.plain

end Binary64

end LoxLexer
