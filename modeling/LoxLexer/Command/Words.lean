import LoxLexer.Text.DecimalDigit
import LoxLexer.Text.Quoted

/-!
# Words of the command line

Each argument is an operand, a known option, perhaps with a text attached to it, or an unknown
option. A long option may be cut short as long as one option alone begins that way. From the first
double dash on, every argument is an operand.
-/
namespace LoxLexer.Command

inductive Flag
  | help
  | noEof
  | json
deriving DecidableEq

inductive Word
  | operand (text : String)
  | terminator
  | option (flag : Flag) (isShort : Bool) (attached : Option (List Char))
  | unknown (text : String)
deriving DecidableEq

/-- What makes a command line unreadable. -/
inductive OptionFault
  | ambiguous (argument : String) (candidates : List String)
  | ignoredArgument (flag : Flag) (attached : List Char)
deriving DecidableEq

namespace Flag

/-- The name of a flag in messages. -/
def title : Flag → String
  | help => "-h/--help"
  | noEof => "--no-eof"
  | json => "--json"

def longName : Flag → List Char
  | help => "--help".toList
  | noEof => "--no-eof".toList
  | json => "--json".toList

/-- All flags, in the order in which messages list them. -/
def all : List Flag := [help, noEof, json]

end Flag

def OptionFault.message : OptionFault → String
  | ambiguous argument candidates =>
    let list := ", ".intercalate candidates
    s!"ambiguous option: {argument} could match {list}"
  | ignoredArgument flag attached =>
    let shown := quoted (String.ofList attached)
    s!"argument {flag.title}: ignored explicit argument {shown}"

/-- The short option. -/
def shortHelp : List Char := ['-', 'h']

/-- The option with exactly this name, and whether the name is the short one. -/
def exactOption? (name : List Char) : Option (Flag × Bool) :=
  if name = shortHelp then some (.help, true)
  else (Flag.all.find? (·.longName = name)).map fun flag => (flag, false)

/-- What stands before the first equals sign, and what stands after it if there is one. -/
def splitAtEquals (text : List Char) : List Char × Option (List Char) :=
  match text.dropWhile (· ≠ '=') with
  | [] => (text, none)
  | _ :: attached => (text.takeWhile (· ≠ '='), some attached)

/-- Digits, perhaps behind other digits and a point. -/
def isNumeralBody (text : List Char) : Bool :=
  match text.dropWhile isDecimalDigit with
  | [] => text ≠ []
  | '.' :: fraction => fraction ≠ [] && fraction.all isDecimalDigit
  | _ => false

/-- Whether a text is a dash and a number; a line feed may end it. -/
def isNegativeNumber (text : List Char) : Bool :=
  match text with
  | '-' :: body =>
    isNumeralBody body || (body.getLast? = some '\n' && isNumeralBody body.dropLast)
  | _ => false

/-- An argument that is no option. -/
def nonOption (text : List Char) : Word :=
  if isNegativeNumber text || text.contains ' ' then .operand (String.ofList text)
  else .unknown (String.ofList text)

/-- An argument that begins with two dashes and is no complete option. -/
def abbreviation (text : List Char) : Except OptionFault Word :=
  let (name, attached) := splitAtEquals text
  match Flag.all.filter (name.isPrefixOf ·.longName) with
  | [] => .ok (nonOption text)
  | [flag] => .ok (.option flag false attached)
  | flags =>
    .error (.ambiguous (String.ofList text) (flags.map fun flag => String.ofList flag.longName))

/-- An argument with a dash in front that is neither an option's name nor a name and a text. -/
def inexact (text : List Char) : Except OptionFault Word :=
  match text with
  | '-' :: '-' :: _ => abbreviation text
  | '-' :: 'h' :: attached => .ok (.option .help true (some attached))
  | _ => .ok (nonOption text)

/-- What an argument before the double dash is. -/
def wordOf (argument : String) : Except OptionFault Word :=
  let text := argument.toList
  if text.head? ≠ some '-' then .ok (.operand argument)
  else
    match exactOption? text with
    | some (flag, isShort) => .ok (.option flag isShort none)
    | none =>
      if text.length = 1 then .ok (.operand argument)
      else
        match splitAtEquals text with
        | (name, some attached) =>
          match exactOption? name with
          | some (flag, isShort) => .ok (.option flag isShort (some attached))
          | none => inexact text
        | (_, none) => inexact text

/-- The words of a command line. -/
def wordsOf : List String → Except OptionFault (List Word)
  | [] => .ok []
  | argument :: rest =>
    if argument = "--" then .ok (.terminator :: rest.map .operand)
    else
      match wordOf argument, wordsOf rest with
      | .error fault, _ => .error fault
      | _, .error fault => .error fault
      | .ok word, .ok words => .ok (word :: words)

end LoxLexer.Command
