import LoxLexer.Lexeme.CharClass
import Mathlib.Tactic

/-!
# What a class of characters holds

The class of a character is read off the character itself: each class but the foreign one is given
by the characters that it holds.
-/
namespace LoxLexer

/-- The digits of ASCII. -/
def IsDigit (c : Char) : Prop := '0' ≤ c ∧ c ≤ '9'

/-- The letters of ASCII and the underscore. -/
def IsLetter (c : Char) : Prop := ('a' ≤ c ∧ c ≤ 'z') ∨ ('A' ≤ c ∧ c ≤ 'Z') ∨ c = '_'

/-- A character that may stand between two lexemes: a space, a return, a tab or a line feed. -/
def IsSpace (c : Char) : Prop := c = ' ' ∨ c = '\r' ∨ c = '\t' ∨ c = '\n'

/-- A character that begins no lexeme, and that only a string or a comment may hold. -/
def IsForeign (c : Char) : Prop :=
  ¬IsSpace c ∧ c ≠ '"' ∧ c ≠ '/' ∧ ¬IsLetter c ∧ ¬IsDigit c ∧
    (∀ mark ∈ Punctuation.all, mark.toChar ≠ c) ∧ ∀ symbol ∈ OperatorSymbol.all, symbol.toChar ≠ c

instance : DecidablePred IsDigit := fun _ => inferInstanceAs (Decidable (_ ∧ _))

instance : DecidablePred IsLetter := fun _ => inferInstanceAs (Decidable (_ ∨ _))

instance : DecidablePred IsSpace := fun _ => inferInstanceAs (Decidable (_ ∨ _))

instance : DecidablePred IsForeign := fun _ => inferInstanceAs (Decidable (_ ∧ _))

theorem isDigit_iff {c : Char} : c.isDigit = true ↔ IsDigit c := by
  simp [Char.isDigit, IsDigit, Char.le_def]

theorem isUpper_iff {c : Char} : c.isUpper = true ↔ 'A' ≤ c ∧ c ≤ 'Z' := by
  change decide (c.val ≥ 'A'.val ∧ c.val ≤ 'Z'.val) = true ↔ _
  rw [decide_eq_true_iff, Char.le_def, Char.le_def]

theorem isLower_iff {c : Char} : c.isLower = true ↔ 'a' ≤ c ∧ c ≤ 'z' := by
  change (decide (c.val ≥ 'a'.val) && decide (c.val ≤ 'z'.val)) = true ↔ _
  rw [Bool.and_eq_true, decide_eq_true_iff, decide_eq_true_iff, Char.le_def, Char.le_def]

theorem isLetter_iff {c : Char} : isLetter c = true ↔ IsLetter c := by
  have halpha : c.isAlpha = (c.isUpper || c.isLower) := rfl
  rw [isLetter, halpha, Bool.or_eq_true, Bool.or_eq_true, isUpper_iff, isLower_iff,
    decide_eq_true_iff, IsLetter]
  tauto

theorem isWordChar_iff {c : Char} : isWordChar c = true ↔ IsLetter c ∨ IsDigit c := by
  rw [isWordChar, Bool.or_eq_true, isLetter_iff, isDigit_iff]

theorem isBlank_iff {c : Char} : isBlank c = true ↔ c = ' ' ∨ c = '\r' ∨ c = '\t' := by
  simp [isBlank, blanks]

theorem not_isWordChar_of_isSpace {c : Char} (h : IsSpace c) : isWordChar c = false := by
  rcases h with rfl | rfl | rfl | rfl <;> decide

namespace CharClass

@[simp] theorem ofChar_mark (mark : Punctuation) : ofChar mark.toChar = punctuation mark := by
  cases mark <;> decide

@[simp] theorem ofChar_symbol (symbol : OperatorSymbol) : ofChar symbol.toChar = operator symbol := by
  cases symbol <;> decide

theorem ofChar_slash : ofChar '/' = slash := by decide

theorem ofChar_quote : ofChar '"' = quote := by decide

theorem ofChar_lineBreak : ofChar '\n' = lineBreak := by decide

theorem ofChar_of_isBlank {c : Char} (h : isBlank c = true) : ofChar c = blank := by
  rcases isBlank_iff.mp h with rfl | rfl | rfl <;> decide

/-- The class of a character that is none of the marks of Lox. -/
theorem ofChar_of_no_mark {c : Char} (hmark : ∀ mark : Punctuation, mark.toChar ≠ c)
    (hsymbol : ∀ symbol : OperatorSymbol, symbol.toChar ≠ c) (hslash : c ≠ '/')
    (hquote : c ≠ '"') (hblank : isBlank c = false) (hbreak : c ≠ '\n') :
    ofChar c = if c.isDigit then digit else if isLetter c then letter else foreign := by
  have hm : Punctuation.ofChar? c = none := by
    cases h : Punctuation.ofChar? c with
    | none => rfl
    | some mark => exact absurd (Punctuation.ofChar?_eq_some_iff.mp h) (hmark mark)
  have ho : OperatorSymbol.ofChar? c = none := by
    cases h : OperatorSymbol.ofChar? c with
    | none => rfl
    | some symbol => exact absurd (OperatorSymbol.ofChar?_eq_some_iff.mp h) (hsymbol symbol)
  simp [ofChar, hm, ho, hslash, hquote, hblank, hbreak]

/-- No mark of Lox belongs to a word or a number. -/
theorem ofChar_of_isWordChar {c : Char} (h : isWordChar c = true) :
    ofChar c = if c.isDigit then digit else letter := by
  have hne {d : Char} (hd : isWordChar d = false) : d ≠ c := by
    rintro rfl
    rw [h] at hd
    cases hd
  rw [ofChar_of_no_mark (fun mark => hne (by cases mark <;> decide))
    (fun symbol => hne (by cases symbol <;> decide)) (hne (by decide)).symm
    (hne (by decide)).symm ?_ (hne (by decide)).symm]
  · cases hd : c.isDigit with
    | true => rfl
    | false =>
      have hl : isLetter c = true := by simpa [isWordChar, hd] using h
      simp [hl]
  · by_contra hb
    rcases isBlank_iff.mp (by simpa using hb) with rfl | rfl | rfl
    all_goals exact absurd h (by decide)

theorem ofChar_of_isDigit {c : Char} (h : c.isDigit = true) : ofChar c = digit := by
  rw [ofChar_of_isWordChar (by simp [isWordChar, h]), if_pos h]

theorem not_isDigit_of_isLetter {c : Char} (h : isLetter c = true) : c.isDigit = false := by
  rw [isLetter_iff, IsLetter] at h
  by_contra hd
  have hd : IsDigit c := isDigit_iff.mp (by simpa using hd)
  rcases h with ⟨ha, -⟩ | ⟨ha, -⟩ | rfl
  · exact absurd (Char.le_trans ha hd.2) (by decide)
  · exact absurd (Char.le_trans ha hd.2) (by decide)
  · exact absurd hd.2 (by decide)

theorem ofChar_of_isLetter {c : Char} (h : isLetter c = true) : ofChar c = letter := by
  rw [ofChar_of_isWordChar (by simp [isWordChar, h]), if_neg]
  simp [not_isDigit_of_isLetter h]

theorem isBlank_of_blank {c : Char} (h : ofChar c = blank) : isBlank c = true := by
  unfold ofChar at h
  repeat' split at h
  all_goals first | assumption | cases h

theorem isDigit_of_digit {c : Char} (h : ofChar c = digit) : c.isDigit = true := by
  unfold ofChar at h
  repeat' split at h
  all_goals first | assumption | cases h

theorem isLetter_of_letter {c : Char} (h : ofChar c = letter) : isLetter c = true := by
  unfold ofChar at h
  repeat' split at h
  all_goals first | assumption | cases h

/-- The characters of no other class are the foreign ones. -/
theorem ofChar_eq_foreign_iff {c : Char} : ofChar c = foreign ↔ IsForeign c := by
  constructor
  · intro h
    have hne {d : Char} (hd : ofChar d ≠ foreign) : c ≠ d := by
      rintro rfl
      exact hd h
    refine ⟨?_, hne (by decide), hne (by decide), ?_, ?_, fun mark _ => ?_, fun symbol _ => ?_⟩
    · rintro (rfl | rfl | rfl | rfl) <;> exact absurd h (by decide)
    · intro hletter
      rw [ofChar_of_isLetter (isLetter_iff.mpr hletter)] at h
      cases h
    · intro hdigit
      rw [ofChar_of_isDigit (isDigit_iff.mpr hdigit)] at h
      cases h
    · exact (hne (by simp)).symm
    · exact (hne (by simp)).symm
  · rintro ⟨hspace, hquote, hslash, hletter, hdigit, hmark, hsymbol⟩
    have hblank : isBlank c = false := by
      by_contra hb
      rcases isBlank_iff.mp (by simpa using hb) with rfl | rfl | rfl
      all_goals exact hspace (by decide)
    have hbreak : c ≠ '\n' := by
      rintro rfl
      exact hspace (by decide)
    rw [ofChar_of_no_mark (fun mark => hmark mark (Punctuation.mem_all mark))
      (fun symbol => hsymbol symbol (OperatorSymbol.mem_all symbol)) hslash hquote hblank hbreak,
      if_neg (fun h => hdigit (isDigit_iff.mp h)), if_neg (fun h => hletter (isLetter_iff.mp h))]

end CharClass

end LoxLexer
