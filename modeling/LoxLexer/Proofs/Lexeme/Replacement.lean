import LoxLexer.Proofs.Lexeme.Lookahead

/-!
# Replaced characters

No lexeme but a string or a comment goes on over a space or over a foreign character. Behind a
lexeme, therefore, foreign characters may be replaced by one another and by spaces, and the lexeme
stops where it did (`Stops.replaced`).
-/
namespace LoxLexer.Lexeme

variable {form : LexemeForm} {text rest : List Char}

/-- A character that may stand in the place of another: the same one, or for a foreign one a space
or another foreign one. -/
def MayReplace (d c : Char) : Prop := d = c ∨ IsForeign c ∧ (d = ' ' ∨ IsForeign d)

theorem not_isWordChar_of_replacement {d : Char} (h : d = ' ' ∨ IsForeign d) :
    isWordChar d = false := by
  rcases h with rfl | h
  · decide
  · by_contra hword
    rcases isWordChar_iff.mp (by simpa using hword) with hletter | hdigit
    · exact h.2.2.2.1 hletter
    · exact h.2.2.2.2.1 hdigit

theorem not_isDigit_of_replacement {d : Char} (h : d = ' ' ∨ IsForeign d) : d.isDigit = false :=
  (Bool.or_eq_false_iff.mp (not_isWordChar_of_replacement h)).2

theorem stops_of_replacement {d : Char} (hd : d = ' ' ∨ IsForeign d) (hform : form ≠ .comment) :
    Stops form text (d :: rest) := by
  have hne (c : Char) (hspace : c ≠ ' ') (hforeign : ¬IsForeign c) : d ≠ c := by
    rintro rfl
    exact hd.elim hspace hforeign
  have hhead {c : Char} (hc : d ≠ c) : (d :: rest).head? ≠ some c := by simpa using hc
  unfold Stops
  split
  · exact hhead (hne '=' (by decide) (by decide))
  · exact hhead (hne '/' (by decide) (by decide))
  · exact absurd rfl hform
  · refine ⟨forall_head?_cons (not_isDigit_of_replacement hd), .inr ?_⟩
    rw [takeFraction_eq_self_iff]
    intro e more heq
    exact absurd (List.cons.inj heq).1 (hne '.' (by decide) (by decide))
  · exact forall_head?_cons (not_isWordChar_of_replacement hd)
  · exact forall_head?_cons (not_isWordChar_of_replacement hd)
  · trivial

/-- A point that no digit followed is followed by none after replacements. -/
theorem takeFraction_replaced {c : Char} {after after' : List Char}
    (h : takeFraction (c :: after) = ([], c :: after))
    (hafter : List.Forall₂ MayReplace after' after) :
    takeFraction (c :: after') = ([], c :: after') := by
  rw [takeFraction_eq_self_iff] at h ⊢
  rintro d more ⟨⟩
  cases hafter with
  | cons hd hmore =>
    rcases hd with rfl | ⟨-, hd⟩
    · exact h _ _ rfl
    · exact not_isDigit_of_replacement hd

theorem Stops.replaced {rest' : List Char} (h : Stops form text rest)
    (hrest : List.Forall₂ MayReplace rest' rest) : Stops form text rest' := by
  cases hrest with
  | nil => exact h
  | @cons d c after' after hd hafter =>
    rcases hd with rfl | ⟨hc, hd⟩
    · exact h.of_cons fun hnone => takeFraction_replaced hnone hafter
    · apply stops_of_replacement hd
      rintro rfl
      obtain rfl := h c rfl
      exact hc.1 (.inr (.inr (.inr rfl)))

end LoxLexer.Lexeme
