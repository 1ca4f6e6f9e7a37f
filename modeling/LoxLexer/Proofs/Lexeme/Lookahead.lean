import LoxLexer.Proofs.Lexeme.Longest

/-!
# Lookahead

How far `Lexeme.next` looks beyond the lexeme that it takes. What it leaves cannot make the lexeme
longer (`stops_next`), and to know this one character is enough, or two behind a number without a
fraction (`Stops.append`). Where text put behind another text cannot make the last lexeme longer, it
is taken up later and on its own (`next_append_right`).
-/
namespace LoxLexer.Lexeme

variable {form : LexemeForm} {text rest : List Char}

/-- Where dropping stops, the condition fails. -/
theorem not_of_head?_dropWhile {p : Char → Bool} :
    ∀ c, (rest.dropWhile p).head? = some c → p c = false := by
  intro c hc
  have h := List.head?_dropWhile_not p rest
  rw [hc] at h
  exact h

/-- No fraction is taken unless a point with a digit behind it comes first. -/
theorem takeFraction_eq_self_iff :
    takeFraction rest = ([], rest) ↔ ∀ d more, rest = '.' :: d :: more → d.isDigit = false := by
  constructor
  · rintro h d more rfl
    by_contra hd
    simp [takeFraction, hd] at h
  · intro h
    unfold takeFraction
    split
    · rename_i d more
      rw [if_neg (by simp [h d more rfl])]
    · rfl

/-- Two characters decide whether a fraction follows. -/
theorem takeFraction_append_right (h : takeFraction rest = ([], rest)) (hne : rest ≠ [])
    (hpoint : rest ≠ ['.']) (more : List Char) :
    takeFraction (rest ++ more) = ([], rest ++ more) := by
  rw [takeFraction_eq_self_iff] at h ⊢
  intro d tail heq
  match rest with
  | [] => exact absurd rfl hne
  | [c] =>
    rw [List.singleton_append, List.cons.injEq] at heq
    exact absurd (by rw [heq.1]) hpoint
  | c :: e :: tail' =>
    simp only [List.cons_append, List.cons.injEq] at heq
    obtain ⟨rfl, rfl, -⟩ := heq
    exact h e tail' rfl

/-- Behind a fraction stands no further digit. -/
theorem not_isDigit_head?_takeFraction (h : ∀ c, rest.head? = some c → c.isDigit = false) :
    ∀ c, (takeFraction rest).2.head? = some c → c.isDigit = false := by
  unfold takeFraction
  split
  · split
    · exact not_of_head?_dropWhile
    · exact h
  · exact h

theorem stops_nextOperator (symbol : OperatorSymbol) (c : Char) (rest : List Char) :
    Stops (nextOperator symbol c rest).1.form (nextOperator symbol c rest).1.text
      (nextOperator symbol c rest).2 := by
  unfold nextOperator
  split
  · trivial
  · rename_i h
    intro hhead
    obtain ⟨tail, rfl⟩ := List.head?_eq_some_iff.mp hhead
    exact h tail rfl

theorem stops_nextSlash (rest : List Char) :
    Stops (nextSlash rest).1.form (nextSlash rest).1.text (nextSlash rest).2 := by
  unfold nextSlash
  split
  · intro c hc
    simpa using not_of_head?_dropWhile c hc
  · rename_i h
    intro hhead
    obtain ⟨tail, rfl⟩ := List.head?_eq_some_iff.mp hhead
    exact h tail rfl

theorem stops_nextString (rest : List Char) :
    Stops (nextString rest).1.form (nextString rest).1.text (nextString rest).2 := by
  unfold nextString
  split <;> trivial

theorem stops_nextNumber (c : Char) (rest : List Char) :
    Stops (nextNumber c rest).1.form (nextNumber c rest).1.text (nextNumber c rest).2 := by
  refine ⟨not_isDigit_head?_takeFraction not_of_head?_dropWhile, ?_⟩
  rcases takeFraction_cases (rest.dropWhile Char.isDigit) with h | ⟨fraction, -, h⟩
  · right
    simp [nextNumber, h]
  · left
    simp [nextNumber, h]

theorem stops_nextWord (c : Char) (rest : List Char) :
    Stops (nextWord c rest).1.form (nextWord c rest).1.text (nextWord c rest).2 := by
  rw [nextWord, wordKind]
  split <;> exact not_of_head?_dropWhile

/-- What is left behind a lexeme does not make it longer. -/
theorem stops_next (c : Char) (rest : List Char) :
    Stops (next c rest).1.form (next c rest).1.text (next c rest).2 := by
  unfold next
  split
  · trivial
  · exact stops_nextOperator _ _ _
  · exact stops_nextSlash _
  · exact stops_nextString _
  · trivial
  · trivial
  · exact stops_nextNumber _ _
  · exact stops_nextWord _ _
  · trivial

/-- What stops a lexeme goes on to do so whatever is put behind it, unless it is the last point of
a text, behind a number without a fraction. -/
theorem Stops.append (h : Stops form text rest) (hne : rest ≠ [])
    (hpoint : form = .token .number → '.' ∉ text → rest ≠ ['.']) (more : List Char) :
    Stops form text (rest ++ more) := by
  have hhead : (rest ++ more).head? = rest.head? := List.head?_append_of_ne_nil rest hne
  unfold Stops at h ⊢
  rw [hhead]
  split at h
  · exact h
  · exact h
  · exact h
  · refine ⟨h.1, ?_⟩
    by_cases hin : '.' ∈ text
    · exact .inl hin
    · exact .inr (takeFraction_append_right (h.2.resolve_left hin) hne (hpoint rfl hin) more)
  · exact h
  · exact h
  · exact h

/-- Of what stops a lexeme only the first character counts, and what may make a fraction of it. -/
theorem Stops.of_cons {c : Char} {after other : List Char} (h : Stops form text (c :: after))
    (hfraction : takeFraction (c :: after) = ([], c :: after) →
      takeFraction (c :: other) = ([], c :: other)) : Stops form text (c :: other) := by
  unfold Stops at h ⊢
  split at h
  · exact h
  · exact h
  · exact h
  · exact ⟨h.1, h.2.imp_right hfraction⟩
  · exact h
  · exact h
  · exact h

/-- What stops a lexeme does so even if the text ends soon behind it. -/
theorem Stops.of_append {more : List Char} (h : Stops form text (rest ++ more)) :
    Stops form text rest := by
  cases rest with
  | nil => exact stops_nil form text
  | cons c after =>
    refine Stops.of_cons h fun hnone => ?_
    rw [takeFraction_eq_self_iff] at hnone ⊢
    intro d tail heq
    exact hnone d (tail ++ more) (congrArg (· ++ more) heq)

/-- Of its own text, a lexeme that stops has only to keep the point. -/
theorem Stops.of_point {other : List Char} (h : Stops form text rest)
    (hpoint : '.' ∈ text → '.' ∈ other) : Stops form other rest := by
  unfold Stops at h ⊢
  split at h
  · exact h
  · exact h
  · exact h
  · exact ⟨h.1, h.2.imp_left hpoint⟩
  · exact h
  · exact h
  · exact h

theorem next_foreign {c : Char} (h : CharClass.ofChar c = .foreign) (rest : List Char) :
    next c rest = (⟨.foreign c, [c]⟩, rest) := by
  rw [next, h]

/-- Only a foreign character makes a foreign lexeme. -/
theorem ofChar_of_next_foreign {c d : Char} (h : (next c rest).1.form = .foreign d) :
    CharClass.ofChar c = .foreign := by
  unfold next nextOperator nextSlash nextString nextNumber nextWord at h
  repeat' split at h
  all_goals first | assumption | cases h

/-- What `next` makes of a text that is not empty: a complete lexeme that cannot go on, a string
that is never closed, or a foreign character. -/
inductive Taken (c : Char) (rest : List Char) : Lexeme → List Char → Prop
  | complete {lexeme : Lexeme} {after : List Char} {value : Option Literal}
      (h : Matches lexeme.form lexeme.text value) (htext : lexeme.text ++ after = c :: rest)
      (hs : Stops lexeme.form lexeme.text after) : Taken c rest lexeme after
  | openString (hc : c = '"') (h : '"' ∉ rest) : Taken c rest ⟨.openString, c :: rest⟩ []
  | foreign (h : IsForeign c) : Taken c rest ⟨.foreign c, [c]⟩ rest

theorem next_cases (c : Char) (rest : List Char) :
    ∃ lexeme after, next c rest = (lexeme, after) ∧ Taken c rest lexeme after := by
  refine ⟨(next c rest).1, (next c rest).2, rfl, ?_⟩
  have htext := next_append c rest
  have hstops := stops_next c rest
  have hmatch := longestMatch_next c rest
  have hforeign {d : Char} : (next c rest).1.form = .foreign d → IsForeign c := fun hform =>
    CharClass.ofChar_eq_foreign_iff.mp (ofChar_of_next_foreign hform)
  generalize (next c rest).2 = after at *
  generalize (next c rest).1 = lexeme at *
  generalize lexeme.literal = literal at hmatch
  cases hmatch with
  | complete hm hp hmax => exact .complete hm htext hstops
  | openString hm hq =>
    obtain rfl : after = [] := List.append_right_eq_self.mp htext
    exact .openString rfl hq
  | foreign hm hq =>
    obtain rfl : after = rest := (List.cons.inj htext).2
    exact .foreign (hforeign rfl)

/-- Text put behind another text is not taken up with the first lexeme of that text, if it does not
make the lexeme longer. -/
theorem next_append_right {c : Char} {lexeme : Lexeme} {after more : List Char}
    (h : next c rest = (lexeme, after)) (hopen : lexeme.form ≠ .openString)
    (hs : Stops lexeme.form lexeme.text (after ++ more)) :
    next c (rest ++ more) = (lexeme, after ++ more) := by
  obtain ⟨first, left, hnext, htaken⟩ := next_cases c rest
  obtain ⟨rfl, rfl⟩ := Prod.mk.inj (hnext.symm.trans h)
  cases htaken with
  | complete hm htext =>
    obtain ⟨d, tail, hcons, hlonger⟩ := next_of_matches hm hs
    rw [hcons, List.cons_append, List.cons.injEq] at htext
    obtain ⟨rfl, rfl⟩ := htext
    rw [List.append_assoc, hlonger]
  | openString => exact absurd rfl hopen
  | foreign hc => exact next_foreign (CharClass.ofChar_eq_foreign_iff.mpr hc) _

theorem exists_next_of_mem_split {lexeme : Lexeme} {source : List Char}
    (h : lexeme ∈ split source) : ∃ c rest, lexeme = (next c rest).1 := by
  fun_induction split source with
  | case1 => cases h
  | case2 c rest ih =>
    rcases List.mem_cons.mp h with rfl | h
    · exact ⟨c, rest, rfl⟩
    · exact ih h

/-- A token of a text has a complete lexeme. -/
theorem matches_of_mem_split {lexeme : Lexeme} {source : List Char} {kind : TokenKind}
    (h : lexeme ∈ split source) (hform : lexeme.form = .token kind) :
    Matches lexeme.form lexeme.text lexeme.literal := by
  obtain ⟨c, rest, rfl⟩ := exists_next_of_mem_split h
  have hmatch := longestMatch_next c rest
  generalize (next c rest).1 = lexeme at *
  generalize lexeme.literal = literal at *
  cases hmatch with
  | complete h hp hmax => exact h
  | openString h hq => cases hform
  | foreign h hq => cases hform

/-- A complete lexeme is the first of its text just if what follows does not make it longer. -/
theorem split_append_eq_cons_iff {value : Option Literal} {more : List Lexeme}
    (h : Matches form text value) :
    split (text ++ rest) = ⟨form, text⟩ :: more ↔ Stops form text rest ∧ split rest = more := by
  constructor
  · intro hsplit
    obtain ⟨c, tail, rfl, -⟩ := h.begins
    have happend := next_append c (tail ++ rest)
    have hstops := stops_next c (tail ++ rest)
    rw [List.cons_append, split, List.cons.injEq] at hsplit
    obtain ⟨hnext, hsplit⟩ := hsplit
    rw [hnext] at happend hstops
    have hrest : (next c (tail ++ rest)).2 = rest := List.append_cancel_left happend
    rw [hrest] at hstops hsplit
    exact ⟨hstops, hsplit⟩
  · rintro ⟨hstops, rfl⟩
    exact split_append_of_matches h hstops

end LoxLexer.Lexeme
