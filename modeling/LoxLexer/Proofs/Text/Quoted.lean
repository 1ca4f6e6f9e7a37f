import LoxLexer.Proofs.Json.Strings

/-!
# Quoted text delimits itself

One character between marks is read back, be it written as it is or by an escape of two, four, six
or ten characters (`takeCharacter?_escape`). So a quoted text tells where it ends and which text it
is, whatever stands behind it (`quoted_append_inj`), although the mark around it depends on the text.
-/
namespace LoxLexer

namespace Quoted

/-- The marks that go around texts. -/
def IsMark (c : Char) : Prop := c = apostrophe ∨ c = doubleQuote

instance (c : Char) : Decidable (IsMark c) := inferInstanceAs (Decidable (_ ∨ _))

/-- The character whose code point has the given number of digits, and what stands behind them. -/
def takeCode? (width : Nat) (text : List Char) : Option (Char × List Char) :=
  (Json.hexNumber? (text.take width)).map fun code => (Char.ofNat code, text.drop width)

/-- The character at the front of a text between marks, and what stands behind it. -/
def takeCharacter? : List Char → Option (Char × List Char)
  | '\\' :: 'n' :: rest => some ('\n', rest)
  | '\\' :: 'r' :: rest => some ('\r', rest)
  | '\\' :: 't' :: rest => some ('\t', rest)
  | '\\' :: 'x' :: rest => takeCode? 2 rest
  | '\\' :: 'u' :: rest => takeCode? 4 rest
  | '\\' :: 'U' :: rest => takeCode? 8 rest
  | '\\' :: c :: rest => some (c, rest)
  | c :: rest => some (c, rest)
  | [] => none

variable {mark c d : Char} {rest more : List Char}

theorem takeCode?_hexText {width : Nat} (c : Char) (hwidth : 0 < width)
    (h : c.toNat < Nat.pow 16 width) (rest : List Char) :
    takeCode? width (hexText width c.toNat ++ rest) = some (c, rest) := by
  have hlength := length_hexText hwidth h
  rw [takeCode?, List.take_left' hlength, List.drop_left' hlength, Json.hexNumber?_hexText,
    Option.map_some, Char.ofNat_toNat]

theorem takeCharacter?_codeEscape (c : Char) (rest : List Char) :
    takeCharacter? (codeEscape c.toNat ++ rest) = some (c, rest) := by
  have hvalid := Json.toNat_valid c
  rw [codeEscape]
  split
  · exact takeCode?_hexText c (by decide) (by simpa using ‹_›) rest
  · split
    · exact takeCode?_hexText c (by decide) (by simpa using ‹_›) rest
    · exact takeCode?_hexText c (by decide) (by simp; omega) rest

/-- A character that follows a backslash in place of an escape. -/
theorem takeCharacter?_masked (h : IsMark c ∨ c = '\\') (rest : List Char) :
    takeCharacter? ('\\' :: c :: rest) = some (c, rest) := by
  obtain (rfl | rfl) | rfl := h <;> rfl

theorem takeCharacter?_bare (h : c ≠ '\\') (rest : List Char) :
    takeCharacter? (c :: rest) = some (c, rest) := by
  rw [takeCharacter?.eq_def]
  split
  all_goals simp_all

/-- What is written for a character is read as that character. -/
theorem takeCharacter?_escape (hmark : IsMark mark) (c : Char) (rest : List Char) :
    takeCharacter? (escape mark c ++ rest) = some (c, rest) := by
  rw [escape]
  split
  · rename_i hmasked
    rw [Bool.or_eq_true, decide_eq_true_eq, decide_eq_true_eq] at hmasked
    refine takeCharacter?_masked (hmasked.imp_left ?_) rest
    rintro rfl
    exact hmark
  · rename_i hplain
    rw [Bool.or_eq_true, decide_eq_true_eq, decide_eq_true_eq, not_or] at hplain
    split
    · rename_i h
      rw [h]
      rfl
    · split
      · rename_i h
        rw [h]
        rfl
      · split
        · rename_i h
          rw [h]
          rfl
        · split
          · exact takeCharacter?_bare hplain.2 rest
          · exact takeCharacter?_codeEscape c rest

theorem escape_append_inj (hmark : IsMark mark)
    (h : escape mark c ++ rest = escape mark d ++ more) : c = d ∧ rest = more := by
  have hread := congrArg takeCharacter? h
  rw [takeCharacter?_escape hmark, takeCharacter?_escape hmark] at hread
  exact Prod.mk.inj (Option.some.inj hread)

/-- Nothing that is written for a character begins like the mark behind all of them. -/
theorem escape_append_ne (hmark : IsMark mark) (c : Char) (rest more : List Char) :
    escape mark c ++ rest ≠ mark :: more := by
  intro h
  have hread := congrArg takeCharacter? h
  have hbare : mark ≠ '\\' := by
    rintro rfl
    revert hmark
    decide
  rw [takeCharacter?_escape hmark, takeCharacter?_bare hbare] at hread
  obtain ⟨rfl, rfl⟩ := Prod.mk.inj (Option.some.inj hread)
  simp [escape] at h

theorem flatMap_escape_append_inj (hmark : IsMark mark) {text other : List Char}
    (h : text.flatMap (escape mark) ++ mark :: rest = other.flatMap (escape mark) ++ mark :: more) :
    text = other ∧ rest = more := by
  induction text generalizing other with
  | nil =>
    cases other with
    | nil => exact ⟨rfl, (List.cons.inj h).2⟩
    | cons d other =>
      rw [List.flatMap_cons, List.append_assoc] at h
      exact absurd h.symm (escape_append_ne hmark d _ _)
  | cons c text ih =>
    cases other with
    | nil =>
      rw [List.flatMap_cons, List.append_assoc] at h
      exact absurd h (escape_append_ne hmark c _ _)
    | cons d other =>
      rw [List.flatMap_cons, List.flatMap_cons, List.append_assoc, List.append_assoc] at h
      obtain ⟨rfl, hrest⟩ := escape_append_inj hmark h
      obtain ⟨rfl, hmore⟩ := ih hrest
      exact ⟨rfl, hmore⟩

theorem isMark_markFor (text : List Char) : IsMark (markFor text) := by
  rw [markFor]
  split
  · exact .inr rfl
  · exact .inl rfl

end Quoted

theorem toList_quoted (s : String) :
    (quoted s).toList = Quoted.markFor s.toList ::
      (s.toList.flatMap (Quoted.escape (Quoted.markFor s.toList)) ++
        [Quoted.markFor s.toList]) := by
  rw [quoted, String.toList_ofList, Quoted.encode, List.cons_append]

/-- A quoted text ends where its mark comes back, and says which text it is. -/
theorem quoted_append_inj {s t : String} {rest more : List Char}
    (h : (quoted s).toList ++ rest = (quoted t).toList ++ more) : s = t ∧ rest = more := by
  rw [toList_quoted, toList_quoted, List.cons_append, List.cons_append, List.append_assoc,
    List.append_assoc] at h
  obtain ⟨hmark, hbody⟩ := List.cons.inj h
  rw [hmark] at hbody
  obtain ⟨htext, hrest⟩ :=
    Quoted.flatMap_escape_append_inj (Quoted.isMark_markFor t.toList) hbody
  exact ⟨String.toList_inj.mp htext, hrest⟩

end LoxLexer
