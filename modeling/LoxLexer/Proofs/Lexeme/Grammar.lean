import LoxLexer.Proofs.Lexeme.Classes
import LoxLexer.Step.Basic
import Mathlib.Data.List.TakeWhile

/-!
# The grammar of lexemes

`Matches` says which texts have which form, and which literal such a text stands for; it looks at
one text alone. `LongestMatch` chooses among the beginnings of a longer text: the longest that the
grammar has, and one of the two faults where it has none.
-/
namespace LoxLexer.Lexeme

/-- Digits, at least one. -/
def IsDigits (text : List Char) : Prop := text ≠ [] ∧ ∀ c ∈ text, IsDigit c

/-- A letter with letters and digits behind it. -/
def IsWord (text : List Char) : Prop :=
  ∃ c rest, text = c :: rest ∧ IsLetter c ∧ ∀ d ∈ rest, IsLetter d ∨ IsDigit d

/-- The literal of a number: the double nearest to what its digits denote. -/
def numberLiteral (whole fraction : List Char) : Literal :=
  .number (Binary64.ofDecimal false (Decimal.ofParts whole fraction))

/-- The complete lexemes, with the literals of those that have one. -/
inductive Matches : LexemeForm → List Char → Option Literal → Prop
  | punctuation (mark : Punctuation) : Matches (.token (.punctuation mark)) [mark.toChar] none
  | operator (symbol : OperatorSymbol) :
      Matches (.token (.operator symbol false)) [symbol.toChar] none
  | operatorEqual (symbol : OperatorSymbol) :
      Matches (.token (.operator symbol true)) [symbol.toChar, '='] none
  | slash : Matches (.token .slash) ['/'] none
  | comment {body : List Char} (h : '\n' ∉ body) : Matches .comment ('/' :: '/' :: body) none
  | blank {c : Char} (h : c = ' ' ∨ c = '\r' ∨ c = '\t') : Matches .blank [c] none
  | lineBreak : Matches .lineBreak ['\n'] none
  | integer {whole : List Char} (h : IsDigits whole) :
      Matches (.token .number) whole (some (numberLiteral whole []))
  | fraction {whole fraction : List Char} (hw : IsDigits whole) (hf : IsDigits fraction) :
      Matches (.token .number) (whole ++ '.' :: fraction) (some (numberLiteral whole fraction))
  | keyword (word : Keyword) : Matches (.token (.keyword word)) word.spelling.toList none
  | identifier {text : List Char} (h : IsWord text)
      (hk : ∀ word : Keyword, word.spelling.toList ≠ text) : Matches (.token .identifier) text none
  | string {body : List Char} (h : '"' ∉ body) :
      Matches (.token .string) ('"' :: body ++ ['"']) (some (.text (String.ofList body)))

/-- No beginning of the text is a complete lexeme. -/
def NoMatch (text : List Char) : Prop :=
  ∀ form beginning literal, Matches form beginning literal → ¬ beginning <+: text

/-- The lexeme that the front of a text must give, with its literal. -/
inductive LongestMatch : List Char → Lexeme → Option Literal → Prop
  | complete {text : List Char} {lexeme : Lexeme} {literal : Option Literal}
      (h : Matches lexeme.form lexeme.text literal) (hp : lexeme.text <+: text)
      (hmax : ∀ form beginning value, Matches form beginning value → beginning <+: text →
        beginning.length ≤ lexeme.text.length) :
      LongestMatch text lexeme literal
  | openString {rest : List Char} (h : NoMatch ('"' :: rest)) (hq : '"' ∉ rest) :
      LongestMatch ('"' :: rest) ⟨.openString, '"' :: rest⟩ none
  | foreign {c : Char} {rest : List Char} (h : NoMatch (c :: rest)) (hq : c ≠ '"') :
      LongestMatch (c :: rest) ⟨.foreign c, [c]⟩ none

/-- The literal of a lexeme; only strings and numbers have one. -/
def literal (lexeme : Lexeme) : Option Literal :=
  match lexeme.form with
  | .token kind => Step.literalOf kind lexeme.text
  | _ => none

theorem IsDigits.isDigit {text : List Char} (h : IsDigits text) :
    ∀ c ∈ text, c.isDigit = true := fun c hc => isDigit_iff.mpr (h.2 c hc)

theorem isDigits_cons_iff {c : Char} {rest : List Char} :
    IsDigits (c :: rest) ↔ c.isDigit = true ∧ ∀ d ∈ rest, d.isDigit = true := by
  simp [IsDigits, isDigit_iff]

/-- Digits begin with a digit. -/
theorem IsDigits.exists_cons {text : List Char} (h : IsDigits text) :
    ∃ c tail, text = c :: tail ∧ c.isDigit = true ∧ ∀ d ∈ tail, d.isDigit = true := by
  cases text with
  | nil => exact absurd rfl h.1
  | cons c tail => exact ⟨c, tail, rfl, isDigits_cons_iff.mp h⟩

theorem isWord_cons_iff {c : Char} {rest : List Char} :
    IsWord (c :: rest) ↔ isLetter c = true ∧ ∀ d ∈ rest, isWordChar d = true := by
  simp only [isLetter_iff, isWordChar_iff]
  constructor
  · rintro ⟨_, _, heq, hc, hrest⟩
    cases heq
    exact ⟨hc, hrest⟩
  · rintro ⟨hc, hrest⟩
    exact ⟨c, rest, rfl, hc, hrest⟩

/-- A word begins with a letter. -/
theorem IsWord.exists_cons {text : List Char} (h : IsWord text) :
    ∃ c tail, text = c :: tail ∧ isLetter c = true ∧ ∀ d ∈ tail, isWordChar d = true := by
  cases text with
  | nil =>
    obtain ⟨_, _, heq, -⟩ := h
    cases heq
  | cons c tail => exact ⟨c, tail, rfl, isWord_cons_iff.mp h⟩

theorem isWord_of_all {c : Char} {rest : List Char} (hc : isLetter c = true)
    (hrest : rest.all isWordChar = true) : IsWord (c :: rest) :=
  isWord_cons_iff.mpr ⟨hc, List.all_eq_true.mp hrest⟩

theorem isWord_spelling (word : Keyword) : IsWord word.spelling.toList := by
  obtain ⟨c, rest, h, hc, hrest⟩ : ∃ c rest, word.spelling.toList = c :: rest ∧
      isLetter c = true ∧ rest.all isWordChar = true := by
    cases word <;> exact ⟨_, _, rfl, rfl, rfl⟩
  rw [h]
  exact isWord_of_all hc hrest

/-- A text of digits is read off as the whole part of a number. -/
theorem ofNumeral_integer {whole : List Char} (h : IsDigits whole) :
    Decimal.ofNumeral whole = Decimal.ofParts whole [] := by
  rw [Decimal.ofNumeral, List.takeWhile_eq_self_iff.mpr h.isDigit,
    List.dropWhile_eq_nil_iff.mpr h.isDigit, List.drop_nil]

theorem ofNumeral_fraction {whole fraction : List Char} (h : IsDigits whole) :
    Decimal.ofNumeral (whole ++ '.' :: fraction) = Decimal.ofParts whole fraction := by
  rw [Decimal.ofNumeral, List.takeWhile_append_of_pos h.isDigit,
    List.dropWhile_append_of_pos h.isDigit]
  simp

/-- The literal that the grammar gives is the one read off the text. -/
theorem Matches.literal_eq {lexeme : Lexeme} {value : Option Literal}
    (h : Matches lexeme.form lexeme.text value) : lexeme.literal = value := by
  obtain ⟨form, text⟩ := lexeme
  cases h with
  | integer h => simp [literal, Step.literalOf, ofNumeral_integer h, numberLiteral]
  | fraction hw hf => simp [literal, Step.literalOf, ofNumeral_fraction hw, numberLiteral]
  | string h => simp [literal, Step.literalOf]
  | _ => rfl

/-- A string is its text between two quotes. -/
theorem Matches.exists_body {text : List Char} {value : Option Literal}
    (h : Matches (.token .string) text value) :
    ∃ body, '"' ∉ body ∧ text = '"' :: body ++ ['"'] ∧
      value = some (.text (String.ofList body)) := by
  cases h with
  | string h => exact ⟨_, h, rfl, rfl⟩

end LoxLexer.Lexeme
