import LoxLexer.Diagnostic
import LoxLexer.Text.Hex
import LoxLexer.Text.Printable

/-!
# Lexical faults

Two things can be wrong with a source text: a character that begins no token, and a string without
its closing quote. Each has a message, a code and a help text, and gives a diagnostic at a location.
-/
namespace LoxLexer

inductive Fault
  | unexpectedCharacter (c : Char)
  | unterminatedString
deriving DecidableEq

/-- A text was refused as the name of one character, because of its length. -/
structure NotOneCharacter where
  length : Nat
deriving DecidableEq

def NotOneCharacter.message (fault : NotOneCharacter) : String :=
  s!"ord() expected a character, but string of length {fault.length} found"

namespace Fault

def unexpectedMessage : String := "Unexpected character."

def unterminatedMessage : String := "Unterminated string."

def message : Fault → String
  | unexpectedCharacter _ => unexpectedMessage
  | unterminatedString => unterminatedMessage

def code : Fault → String
  | unexpectedCharacter _ => "L001"
  | unterminatedString => "L002"

/-- Every code with its title. -/
def codeTitles : List (String × String) :=
  [("L001", "Unexpected character"), ("L002", "Unterminated string literal")]

/-- Every message with its code. -/
def messageCodes : List (String × String) :=
  [(unexpectedMessage, "L001"), (unterminatedMessage, "L002")]

/-- The code that belongs to a message, if the message is that of a fault. -/
def codeOfMessage? (message : String) : Option String := messageCodes.lookup message

theorem codeOfMessage?_message (fault : Fault) :
    codeOfMessage? fault.message = some fault.code := by
  cases fault with
  | unexpectedCharacter c =>
    exact (by decide : codeOfMessage? unexpectedMessage = some "L001")
  | unterminatedString => decide

/-- The help about a text that can be shown. -/
def shownHelp (text : String) : String :=
  s!"The character '{text}' is not valid in Lox source code."

/-- The help about a character that cannot be shown, which names its code point. -/
def hiddenHelp (c : Char) : String :=
  let code := String.ofList (upperHexText 4 c.toNat)
  s!"Non-printable character (Unicode: U+{code}) is not allowed."

def unexpectedHelp (c : Char) : String :=
  if isPrintable c then shownHelp (String.singleton c) else hiddenHelp c

/-- The help about a text where one character is expected: shown if all of it can be shown. -/
def helpForText (text : String) : Except NotOneCharacter String :=
  if text.toList.all isPrintable then .ok (shownHelp text)
  else
    match text.toList with
    | [c] => .ok (hiddenHelp c)
    | characters => .error ⟨characters.length⟩

theorem helpForText_singleton (c : Char) :
    helpForText (String.singleton c) = .ok (unexpectedHelp c) := by
  cases h : isPrintable c <;> simp [helpForText, unexpectedHelp, h]

def unterminatedHelp : String := "String literals must be closed with a matching \" quote."

def unterminatedSuggestion : String := "Add a closing \" quote"

/-- The diagnostic for a character, or a text in its place, with the given help. -/
def unexpectedDiagnostic (help : String) (location : Location) : Diagnostic :=
  ⟨unexpectedMessage, location, Diagnostic.errorSeverity, some "L001", some help, none⟩

def diagnostic (fault : Fault) (location : Location) : Diagnostic :=
  match fault with
  | unexpectedCharacter c => unexpectedDiagnostic (unexpectedHelp c) location
  | unterminatedString =>
    ⟨unterminatedMessage, location, Diagnostic.errorSeverity, some "L002", some unterminatedHelp,
      some [unterminatedSuggestion]⟩

theorem diagnostic_message (fault : Fault) (location : Location) :
    (fault.diagnostic location).message = fault.message := by
  cases fault <;> rfl

theorem diagnostic_location (fault : Fault) (location : Location) :
    (fault.diagnostic location).location = location := by
  cases fault <;> rfl

theorem diagnostic_code (fault : Fault) (location : Location) :
    (fault.diagnostic location).code = some fault.code := by
  cases fault <;> rfl

end Fault

end LoxLexer
