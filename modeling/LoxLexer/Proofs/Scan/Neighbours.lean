import LoxLexer.Proofs.Lexeme.Lookahead
import LoxLexer.Proofs.Scan.Layout

/-!
# Neighbours that fuse

Written down with nothing between them, some neighbours are read as something else: the first grows
over the second, or makes a comment with it. `Fuses` lists them, and `stops_iff_not_fuses` says that
the list is complete and holds nothing more.
-/
namespace LoxLexer

/-- The class of the characters with which the tokens of a kind begin. -/
def TokenKind.opening : TokenKind → CharClass
  | .punctuation mark => .punctuation mark
  | .slash => .slash
  | .operator symbol _ => .operator symbol
  | .identifier => .letter
  | .keyword _ => .letter
  | .string => .quote
  | .number => .digit
  | .endOfInput => .foreign

/-- An identifier or a keyword. -/
def TokenKind.IsWord (kind : TokenKind) : Prop := kind = .identifier ∨ kind.isKeyword

/-- The text of tokens with nothing between them. -/
def joined (items : List Token) : List Char := items.flatMap fun token => token.lexeme.toList

/-- The neighbours at the front of a list that are not read as they were written. -/
inductive Fuses : List Token → Prop
  | word {a b : Token} {rest : List Token} (ha : a.kind.IsWord)
      (hb : b.kind.IsWord ∨ b.kind = .number) : Fuses (a :: b :: rest)
  | digits {a b : Token} {rest : List Token} (ha : a.kind = .number) (hb : b.kind = .number) :
      Fuses (a :: b :: rest)
  | fraction {a b c : Token} {rest : List Token} (ha : a.kind = .number)
      (hwhole : '.' ∉ a.lexeme.toList) (hb : b.kind = .punctuation .dot) (hc : c.kind = .number) :
      Fuses (a :: b :: c :: rest)
  | equal {a b : Token} {rest : List Token} {symbol : OperatorSymbol} {withEqual : Bool}
      (ha : a.kind = .operator symbol false) (hb : b.kind = .operator .equal withEqual) :
      Fuses (a :: b :: rest)
  | comment {a b : Token} {rest : List Token} (ha : a.kind = .slash) (hb : b.kind = .slash) :
      Fuses (a :: b :: rest)

/-- Some of the tokens cannot be written down without a space. -/
def NeedSeparator (items : List Token) : Prop := ∃ tail, tail <:+ items ∧ Fuses tail

namespace TokenKind

variable {kind : TokenKind}

theorem opening_eq_punctuation_iff {mark : Punctuation} :
    kind.opening = .punctuation mark ↔ kind = .punctuation mark := by
  cases kind <;> simp [opening]

theorem opening_eq_operator_iff {symbol : OperatorSymbol} :
    kind.opening = .operator symbol ↔ ∃ withEqual, kind = .operator symbol withEqual := by
  cases kind <;> simp [opening]

theorem opening_eq_slash_iff : kind.opening = .slash ↔ kind = .slash := by
  cases kind <;> simp [opening]

theorem opening_eq_digit_iff : kind.opening = .digit ↔ kind = .number := by
  cases kind <;> simp [opening]

theorem opening_eq_letter_iff : kind.opening = .letter ↔ kind.IsWord := by
  cases kind <;> simp [opening, IsWord, isKeyword]

end TokenKind

theorem joined_cons (token : Token) (items : List Token) :
    joined (token :: items) = token.lexeme.toList ++ joined items := List.flatMap_cons

theorem not_needSeparator_nil : ¬NeedSeparator [] := by
  rintro ⟨tail, htail, hfuses⟩
  rw [List.suffix_nil.mp htail] at hfuses
  cases hfuses

theorem needSeparator_cons {token : Token} {items : List Token} :
    NeedSeparator (token :: items) ↔ Fuses (token :: items) ∨ NeedSeparator items := by
  constructor
  · rintro ⟨tail, htail, hfuses⟩
    rcases List.suffix_cons_iff.mp htail with rfl | htail
    · exact .inl hfuses
    · exact .inr ⟨tail, htail, hfuses⟩
  · rintro (hfuses | ⟨tail, htail, hfuses⟩)
    · exact ⟨_, List.suffix_refl _, hfuses⟩
    · exact ⟨tail, List.suffix_cons_iff.mpr (.inr htail), hfuses⟩

namespace CharClass

theorem ofChar_eq_operator_iff {c : Char} {symbol : OperatorSymbol} :
    ofChar c = operator symbol ↔ c = symbol.toChar := by
  constructor
  · intro h
    exact (toChar_of_operator h).symm
  · rintro rfl
    exact ofChar_symbol symbol

theorem ofChar_eq_digit_iff {c : Char} : ofChar c = digit ↔ c.isDigit = true :=
  ⟨isDigit_of_digit, ofChar_of_isDigit⟩

theorem ofChar_eq_letter_iff {c : Char} : ofChar c = letter ↔ isLetter c = true :=
  ⟨isLetter_of_letter, ofChar_of_isLetter⟩

theorem isWordChar_iff_ofChar {c : Char} :
    isWordChar c = true ↔ ofChar c = letter ∨ ofChar c = digit := by
  rw [isWordChar, Bool.or_eq_true, ofChar_eq_letter_iff, ofChar_eq_digit_iff]

end CharClass

/-- A token that a character begins is of a kind that opens with the class of the character. -/
theorem Lexeme.opening_of_begins {first : CharClass} {kind : TokenKind}
    (h : Begins first (.token kind)) : first = kind.opening := by
  cases first with
  | operator symbol =>
    obtain ⟨withEqual, h⟩ := h
    cases h
    rfl
  | slash =>
    rcases h with h | h
    · cases h
      rfl
    · cases h
  | letter =>
    rcases h with h | ⟨word, h⟩
    · cases h
      rfl
    · cases h
      rfl
  | blank => cases h
  | lineBreak => cases h
  | foreign => cases h
  | _ =>
    cases h
    rfl

namespace Token.WellFormed

variable {token : Token}

/-- A well-formed token begins with a character of the class that its kind asks for. -/
theorem exists_cons (h : token.WellFormed) :
    ∃ c tail, token.lexeme.toList = c :: tail ∧ CharClass.ofChar c = token.kind.opening := by
  obtain ⟨c, tail, htext, hbegins⟩ := Lexeme.Matches.begins h
  exact ⟨c, tail, htext, Lexeme.opening_of_begins hbegins⟩

/-- The token of a point holds nothing else. -/
theorem lexeme_of_dot (h : token.WellFormed) (hkind : token.kind = .punctuation .dot) :
    token.lexeme.toList = ['.'] := by
  rw [Token.WellFormed, hkind] at h
  generalize token.lexeme.toList = text, token.literal = literal at h
  cases h
  rfl

end Token.WellFormed

section Stops

variable {token : Token} {items : List Token}

/-- The text behind a token begins with a character of the class that the next token opens with. -/
theorem exists_head?_joined {next : Token} (h : next.WellFormed) (items : List Token) :
    ∃ c, (joined (next :: items)).head? = some c ∧ CharClass.ofChar c = next.kind.opening := by
  obtain ⟨c, tail, htext, hclass⟩ := h.exists_cons
  refine ⟨c, ?_, hclass⟩
  rw [joined_cons, htext]
  rfl

/-- Where a text of tokens begins, a token begins that opens with the class of the first
character. -/
theorem exists_cons_of_head?_joined (h : ∀ token ∈ items, token.WellFormed) {c : Char}
    (hc : (joined items).head? = some c) :
    ∃ next rest, items = next :: rest ∧ next.kind.opening = CharClass.ofChar c := by
  cases items with
  | nil => cases hc
  | cons next rest =>
    obtain ⟨d, hd, hclass⟩ := exists_head?_joined (List.forall_mem_cons.mp h).1 rest
    rw [hc, Option.some.injEq] at hd
    exact ⟨next, rest, rfl, by rw [hd, hclass]⟩

/-- A point and a digit behind it are a token of their own and the beginning of a number. -/
theorem exists_number_of_joined (h : ∀ token ∈ items, token.WellFormed) {d : Char}
    {more : List Char} (htext : joined items = '.' :: d :: more) (hd : d.isDigit = true) :
    ∃ point number rest, items = point :: number :: rest ∧ point.kind = .punctuation .dot ∧
      number.kind = .number := by
  obtain ⟨point, rest, rfl, hopening⟩ := exists_cons_of_head?_joined h (by rw [htext]; rfl)
  have hpoint : point.kind = .punctuation .dot :=
    TokenKind.opening_eq_punctuation_iff.mp (hopening.trans (CharClass.ofChar_mark .dot))
  obtain ⟨hwell, hrest⟩ := List.forall_mem_cons.mp h
  rw [joined_cons, hwell.lexeme_of_dot hpoint, List.singleton_append, List.cons.injEq] at htext
  obtain ⟨number, rest, rfl, hopening⟩ :=
    exists_cons_of_head?_joined hrest (by rw [htext.2]; rfl)
  rw [CharClass.ofChar_of_isDigit hd] at hopening
  exact ⟨point, number, rest, rfl, hpoint, TokenKind.opening_eq_digit_iff.mp hopening⟩

/-- A word ends where no letter and no digit follows. -/
theorem Lexeme.stops_word_iff {kind : TokenKind} (h : kind.IsWord) {text rest : List Char} :
    Stops (.token kind) text rest ↔ ∀ c, rest.head? = some c → isWordChar c = false := by
  rcases h with rfl | h
  · exact Iff.rfl
  · cases kind with
    | keyword word => exact Iff.rfl
    | _ => cases h

/-- The first of neighbours that fuse grows over what stands behind it. -/
theorem Fuses.not_stops (h : ∀ t ∈ token :: items, t.WellFormed) (hfuses : Fuses (token :: items)) :
    ¬Lexeme.Stops (.token token.kind) token.lexeme.toList (joined items) := by
  intro hstops
  obtain ⟨-, hitems⟩ := List.forall_mem_cons.mp h
  cases hfuses with
  | @word _ b rest ha hb =>
    obtain ⟨c, hc, hclass⟩ := exists_head?_joined (List.forall_mem_cons.mp hitems).1 rest
    have hword : isWordChar c = true := by
      rw [CharClass.isWordChar_iff_ofChar, hclass, TokenKind.opening_eq_letter_iff,
        TokenKind.opening_eq_digit_iff]
      exact hb
    rw [(Lexeme.stops_word_iff ha).mp hstops c hc] at hword
    cases hword
  | @digits _ b rest ha hb =>
    obtain ⟨c, hc, hclass⟩ := exists_head?_joined (List.forall_mem_cons.mp hitems).1 rest
    have hdigit : c.isDigit = true := by
      rw [← CharClass.ofChar_eq_digit_iff, hclass, TokenKind.opening_eq_digit_iff]
      exact hb
    rw [ha] at hstops
    rw [hstops.1 c hc] at hdigit
    cases hdigit
  | @fraction _ b number rest ha hwhole hb hnumber =>
    obtain ⟨hpoint, hrest⟩ := List.forall_mem_cons.mp hitems
    obtain ⟨c, hc, hclass⟩ := exists_head?_joined (List.forall_mem_cons.mp hrest).1 rest
    obtain ⟨more, hmore⟩ := List.head?_eq_some_iff.mp hc
    have hdigit : c.isDigit = true := by
      rw [← CharClass.ofChar_eq_digit_iff, hclass, TokenKind.opening_eq_digit_iff]
      exact hnumber
    rw [ha, joined_cons, hpoint.lexeme_of_dot hb, hmore] at hstops
    have hnone := Lexeme.takeFraction_eq_self_iff.mp (hstops.2.resolve_left hwhole) c more rfl
    rw [hnone] at hdigit
    cases hdigit
  | @equal _ b rest symbol withEqual ha hb =>
    obtain ⟨c, hc, hclass⟩ := exists_head?_joined (List.forall_mem_cons.mp hitems).1 rest
    have hequal : c = '=' := by
      rw [hb] at hclass
      exact CharClass.ofChar_eq_operator_iff.mp hclass
    rw [ha] at hstops
    exact hstops (by rw [hc, hequal])
  | @comment _ b rest ha hb =>
    obtain ⟨c, hc, hclass⟩ := exists_head?_joined (List.forall_mem_cons.mp hitems).1 rest
    have hslash : c = '/' := by
      rw [hb] at hclass
      exact CharClass.eq_of_slash hclass
    rw [ha] at hstops
    exact hstops (by rw [hc, hslash])

/-- Where nothing fuses, what stands behind a token does not make it longer. -/
theorem stops_of_not_fuses (h : ∀ t ∈ items, t.WellFormed) (hfuses : ¬Fuses (token :: items)) :
    Lexeme.Stops (.token token.kind) token.lexeme.toList (joined items) := by
  have hword : token.kind.IsWord → ∀ c, (joined items).head? = some c → isWordChar c = false := by
    intro hkind c hc
    by_contra hin
    obtain ⟨next, rest, rfl, hopening⟩ := exists_cons_of_head?_joined h hc
    have hin : isWordChar c = true := by simpa using hin
    rw [CharClass.isWordChar_iff_ofChar, ← hopening, TokenKind.opening_eq_letter_iff,
      TokenKind.opening_eq_digit_iff] at hin
    exact hfuses (.word hkind hin)
  cases hkind : token.kind with
  | operator symbol withEqual =>
    cases withEqual with
    | false =>
      intro hhead
      obtain ⟨next, rest, rfl, hopening⟩ := exists_cons_of_head?_joined h hhead
      obtain ⟨withEqual, hnext⟩ := TokenKind.opening_eq_operator_iff.mp
        (hopening.trans (CharClass.ofChar_symbol .equal))
      exact hfuses (.equal hkind hnext)
    | true => trivial
  | slash =>
    intro hhead
    obtain ⟨next, rest, rfl, hopening⟩ := exists_cons_of_head?_joined h hhead
    exact hfuses (.comment hkind (TokenKind.opening_eq_slash_iff.mp hopening))
  | number =>
    constructor
    · intro c hc
      by_contra hdigit
      obtain ⟨next, rest, rfl, hopening⟩ := exists_cons_of_head?_joined h hc
      rw [CharClass.ofChar_of_isDigit (by simpa using hdigit)] at hopening
      exact hfuses (.digits hkind (TokenKind.opening_eq_digit_iff.mp hopening))
    · by_cases hwhole : '.' ∈ token.lexeme.toList
      · exact .inl hwhole
      · right
        rw [Lexeme.takeFraction_eq_self_iff]
        intro d more htext
        by_contra hdigit
        obtain ⟨point, number, rest, rfl, hpoint, hnumber⟩ :=
          exists_number_of_joined h htext (by simpa using hdigit)
        exact hfuses (.fraction hkind hwhole hpoint hnumber)
  | identifier => exact hword (.inl hkind)
  | keyword word => exact hword (.inr (by rw [hkind]; rfl))
  | _ => trivial

/-- The list of neighbours that fuse is complete, and holds nothing more. -/
theorem stops_iff_not_fuses (h : ∀ t ∈ token :: items, t.WellFormed) :
    Lexeme.Stops (.token token.kind) token.lexeme.toList (joined items) ↔
      ¬Fuses (token :: items) := by
  constructor
  · intro hstops hfuses
    exact hfuses.not_stops h hstops
  · exact stops_of_not_fuses (List.forall_mem_cons.mp h).2

end Stops

end LoxLexer
