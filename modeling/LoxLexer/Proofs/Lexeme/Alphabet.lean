import LoxLexer.Proofs.Lexeme.Lookahead

/-!
# The alphabet of tokens

A string or a comment may hold nearly any character. All other tokens are made of letters, digits,
slashes, marks and operator characters (`Lexeme.Matches.isSignificant`), and these are just the
characters that are neither foreign nor spaces nor quotes (`isSignificant_iff`).
-/
namespace LoxLexer

/-- A character of which tokens are made, strings apart. -/
def IsSignificant (c : Char) : Prop :=
  IsLetter c ∨ IsDigit c ∨ c = '/' ∨ (∃ mark ∈ Punctuation.all, mark.toChar = c) ∨
    ∃ symbol ∈ OperatorSymbol.all, symbol.toChar = c

instance : DecidablePred IsSignificant := fun _ => inferInstanceAs (Decidable (_ ∨ _))

theorem isSignificant_iff {c : Char} :
    IsSignificant c ↔ ¬IsForeign c ∧ ¬IsSpace c ∧ c ≠ '"' := by
  constructor
  · intro h
    refine ⟨?_, ?_, ?_⟩
    · rintro ⟨-, -, hslash, hletter, hdigit, hmark, hsymbol⟩
      rcases h with h | h | h | ⟨mark, hmem, h⟩ | ⟨symbol, hmem, h⟩
      · exact hletter h
      · exact hdigit h
      · exact hslash h
      · exact hmark mark hmem h
      · exact hsymbol symbol hmem h
    · rintro (rfl | rfl | rfl | rfl) <;> exact absurd h (by decide)
    · rintro rfl
      exact absurd h (by decide)
  · rintro ⟨hforeign, hspace, hquote⟩
    by_contra h
    simp only [IsSignificant, not_or, not_exists, not_and] at h
    obtain ⟨hletter, hdigit, hslash, hmark, hsymbol⟩ := h
    exact hforeign ⟨hspace, hquote, hslash, hletter, hdigit, hmark, hsymbol⟩

theorem isSignificant_mark (mark : Punctuation) : IsSignificant mark.toChar :=
  .inr (.inr (.inr (.inl ⟨mark, mark.mem_all, rfl⟩)))

theorem isSignificant_symbol (symbol : OperatorSymbol) : IsSignificant symbol.toChar :=
  .inr (.inr (.inr (.inr ⟨symbol, symbol.mem_all, rfl⟩)))

namespace Lexeme

theorem IsDigits.isSignificant {text : List Char} (h : IsDigits text) :
    ∀ c ∈ text, IsSignificant c := fun c hc => .inr (.inl (h.2 c hc))

theorem IsWord.isSignificant {text : List Char} (h : IsWord text) :
    ∀ c ∈ text, IsSignificant c := by
  obtain ⟨first, rest, rfl, hfirst, hrest⟩ := h
  refine List.forall_mem_cons.mpr ⟨.inl hfirst, fun c hc => ?_⟩
  rcases hrest c hc with hletter | hdigit
  · exact .inl hletter
  · exact .inr (.inl hdigit)

/-- Only strings among the tokens hold characters that are not significant. -/
theorem Matches.isSignificant {kind : TokenKind} {text : List Char} {value : Option Literal}
    (h : Matches (.token kind) text value) (hkind : kind ≠ .string) :
    ∀ c ∈ text, IsSignificant c := by
  cases h with
  | punctuation mark => exact List.forall_mem_singleton.mpr (isSignificant_mark mark)
  | operator symbol => exact List.forall_mem_singleton.mpr (isSignificant_symbol symbol)
  | operatorEqual symbol =>
    exact List.forall_mem_cons.mpr ⟨isSignificant_symbol symbol,
      List.forall_mem_singleton.mpr (isSignificant_symbol .equal)⟩
  | slash => exact List.forall_mem_singleton.mpr (.inr (.inr (.inl rfl)))
  | integer h => exact h.isSignificant
  | fraction hw hf =>
    rw [List.forall_mem_append, List.forall_mem_cons]
    exact ⟨hw.isSignificant, isSignificant_mark .dot, hf.isSignificant⟩
  | keyword word => exact (isWord_spelling word).isSignificant
  | identifier h hk => exact h.isSignificant
  | string h => exact absurd rfl hkind

theorem Matches.not_mem_of_not_isSignificant {kind : TokenKind} {text : List Char}
    {value : Option Literal} {c : Char} (h : Matches (.token kind) text value)
    (hkind : kind ≠ .string) (hc : ¬IsSignificant c) : c ∉ text :=
  fun hmem => hc (h.isSignificant hkind c hmem)

/-- Strings and comments apart, a lexeme is a space or holds significant characters alone. -/
theorem Matches.isSpace_or_isSignificant {form : LexemeForm} {text : List Char}
    {value : Option Literal} (h : Matches form text value) (hstring : form ≠ .token .string)
    (hcomment : form ≠ .comment) : (∃ c, IsSpace c ∧ text = [c]) ∨ ∀ c ∈ text, IsSignificant c := by
  cases form with
  | token kind => exact .inr (h.isSignificant fun hkind => hstring (congrArg _ hkind))
  | blank =>
    cases h with
    | blank hc => exact .inl ⟨_, hc.imp_right (Or.imp_right .inl), rfl⟩
  | lineBreak =>
    cases h
    exact .inl ⟨'\n', .inr (.inr (.inr rfl)), rfl⟩
  | comment => exact absurd rfl hcomment
  | foreign c => cases h
  | openString => cases h

end Lexeme

end LoxLexer
