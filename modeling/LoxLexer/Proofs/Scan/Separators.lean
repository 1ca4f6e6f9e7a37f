import LoxLexer.Proofs.Scan.Neighbours

/-!
# Tokens with nothing between them

The lexemes of well-formed tokens may be written down one right behind the other, and a scan gives
the tokens back, just if no neighbours fuse (`scan_join_iff`). What else a scan might make of the
text, it cannot make the same tokens by chance: their lexemes fill the whole text, so there is no
room for a comment or anything else between them (`map_ofContent_of_length_le`). The well-formed
tokens are those that scans give (`wellFormed_iff_exists_source`).
-/
namespace LoxLexer

/-- What a token says, wherever it stands. -/
def Token.content (token : Token) : TokenKind × String × Option Literal :=
  (token.kind, token.lexeme, token.literal)

/-- The lexeme from which a token was read. -/
def Token.toLexeme (token : Token) : Lexeme := ⟨.token token.kind, token.lexeme.toList⟩

namespace Lexeme

/-- What the token of a lexeme says, if the lexeme makes a token. -/
def content? (lexeme : Lexeme) : Option (TokenKind × String × Option Literal) :=
  match lexeme.form with
  | .token kind => some (kind, String.ofList lexeme.text, Step.literalOf kind lexeme.text)
  | _ => none

/-- The lexeme of a token that says this. -/
def ofContent (content : TokenKind × String × Option Literal) : Lexeme :=
  ⟨.token content.1, content.2.1.toList⟩

theorem ofContent_of_content? {lexeme : Lexeme} {content : TokenKind × String × Option Literal}
    (h : lexeme.content? = some content) : ofContent content = lexeme := by
  obtain ⟨form, text⟩ := lexeme
  cases form with
  | token kind =>
    cases h
    simp [ofContent]
  | _ => cases h

/-- The token of a lexeme that a text splits into is well formed. -/
theorem wellFormed_of_content? {lexeme : Lexeme} {source : List Char} {token : Token}
    (hmem : lexeme ∈ split source) (h : lexeme.content? = some token.content) :
    token.WellFormed := by
  rw [← ofContent_of_content? h] at hmem h
  have hm := matches_of_mem_split hmem rfl
  have hliteral : (ofContent token.content).literal = token.literal :=
    (Prod.mk.inj (Prod.mk.inj (Option.some.inj h)).2).2
  rw [hliteral] at hm
  exact hm

theorem content?_toLexeme {token : Token} (h : token.WellFormed) :
    token.toLexeme.content? = some token.content := by
  have hliteral : Step.literalOf token.kind token.lexeme.toList = token.literal :=
    @Matches.literal_eq token.toLexeme _ h
  simp [Token.toLexeme, content?, Token.content, hliteral]

/-- The tokens of lexemes fill no more than the text of the lexemes. -/
theorem length_flatMap_ofContent_le (lexemes : List Lexeme) :
    (((lexemes.filterMap content?).map ofContent).flatMap text).length ≤
      (lexemes.flatMap text).length := by
  induction lexemes with
  | nil => exact Nat.le_refl _
  | cons lexeme rest ih =>
    cases hcontent : lexeme.content? with
    | none =>
      rw [List.filterMap_cons_none hcontent, List.flatMap_cons, List.length_append]
      omega
    | some content =>
      rw [List.filterMap_cons_some hcontent, List.map_cons, ofContent_of_content? hcontent]
      simp only [List.flatMap_cons, List.length_append]
      omega

/-- If the tokens of lexemes fill the whole text, there are no other lexemes. -/
theorem map_ofContent_of_length_le {lexemes : List Lexeme}
    (hne : ∀ lexeme ∈ lexemes, lexeme.text ≠ [])
    (hlength : (lexemes.flatMap text).length ≤
      (((lexemes.filterMap content?).map ofContent).flatMap text).length) :
    (lexemes.filterMap content?).map ofContent = lexemes := by
  induction lexemes with
  | nil => rfl
  | cons lexeme rest ih =>
    obtain ⟨hfirst, hrest⟩ := List.forall_mem_cons.mp hne
    cases hcontent : lexeme.content? with
    | none =>
      -- the text of this lexeme would be missing from the text of the tokens
      have hle := length_flatMap_ofContent_le rest
      have hpos := List.length_pos_iff.mpr hfirst
      rw [List.filterMap_cons_none hcontent, List.flatMap_cons, List.length_append] at hlength
      omega
    | some content =>
      rw [List.filterMap_cons_some hcontent, List.map_cons, ofContent_of_content? hcontent]
        at hlength ⊢
      simp only [List.flatMap_cons, List.length_append] at hlength
      rw [ih hrest (by omega)]

variable {items : List Token}

theorem flatMap_text_toLexeme (items : List Token) :
    (items.map Token.toLexeme).flatMap text = joined items := by
  rw [List.flatMap_map]
  rfl

/-- Joined tokens split into their lexemes just if none of them fuse. -/
theorem split_joined_iff (h : ∀ token ∈ items, token.WellFormed) :
    split (joined items) = items.map Token.toLexeme ↔ ¬NeedSeparator items := by
  induction items with
  | nil =>
    rw [joined, List.flatMap_nil, split]
    simp [not_needSeparator_nil]
  | cons token items ih =>
    obtain ⟨hfirst, hrest⟩ := List.forall_mem_cons.mp h
    rw [needSeparator_cons, not_or, ← stops_iff_not_fuses h, ← ih hrest, joined_cons, List.map_cons]
    exact split_append_eq_cons_iff hfirst

theorem filterMap_content?_toLexeme (h : ∀ token ∈ items, token.WellFormed) :
    (items.map Token.toLexeme).filterMap content? = items.map Token.content := by
  induction items with
  | nil => rfl
  | cons token items ih =>
    obtain ⟨hfirst, hrest⟩ := List.forall_mem_cons.mp h
    rw [List.map_cons, List.filterMap_cons_some (content?_toLexeme hfirst), ih hrest, List.map_cons]

/-- Joined tokens come back just if none of them fuse. -/
theorem filterMap_content?_split_joined_iff (h : ∀ token ∈ items, token.WellFormed) :
    (split (joined items)).filterMap content? = items.map Token.content ↔
      ¬NeedSeparator items := by
  rw [← split_joined_iff h]
  constructor
  · intro hcontent
    have hback : (items.map Token.content).map ofContent = items.map Token.toLexeme :=
      List.map_map
    have hmap : ((split (joined items)).filterMap content?).map ofContent =
        split (joined items) := by
      apply map_ofContent_of_length_le
      · intro lexeme hlexeme
        exact text_ne_nil_of_mem_split hlexeme
      · rw [hcontent, hback, flatMap_text_toLexeme, flatMap_text_split]
    rw [← hmap, hcontent, hback]
  · intro hsplit
    rw [hsplit, filterMap_content?_toLexeme h]

end Lexeme

namespace Step

theorem map_content_token? (step : Step) :
    step.token?.map Token.content = step.lexeme.content? := by
  obtain ⟨⟨form, text⟩, cursor⟩ := step
  cases form <;> rfl

/-- What the tokens of lexemes say does not depend on where the lexemes stand. -/
theorem map_content_tokens_along (cursor : Cursor) (lexemes : List Lexeme) :
    (tokens (along cursor lexemes)).map Token.content = lexemes.filterMap Lexeme.content? := by
  induction lexemes generalizing cursor with
  | nil => rfl
  | cons lexeme rest ih =>
    have hstep := map_content_token? ⟨lexeme, cursor.advance lexeme.text⟩
    rw [along, tokens, List.filterMap_cons, List.filterMap_cons, ← hstep, ← ih]
    cases token? ⟨lexeme, cursor.advance lexeme.text⟩ <;> rfl

end Step

/-- One token alone needs nothing behind it. -/
theorem not_needSeparator_singleton (token : Token) : ¬NeedSeparator [token] := by
  rw [needSeparator_cons, not_or]
  exact ⟨by rintro ⟨⟩, not_needSeparator_nil⟩

/-- The well-formed tokens are those that scans give, the end of the input apart. -/
theorem wellFormed_iff_exists_source {token : Token} :
    token.WellFormed ↔ ∃ source, ∃ scanned ∈ tokens source,
      scanned.kind ≠ .endOfInput ∧ scanned.content = token.content := by
  constructor
  · intro h
    have hcontents := (Lexeme.filterMap_content?_split_joined_iff
      (List.forall_mem_singleton.mpr h)).mpr (not_needSeparator_singleton token)
    rw [← Step.map_content_tokens_along Cursor.origin, joined, List.flatMap_singleton] at hcontents
    have hin : token.content ∈ [token].map Token.content := List.mem_singleton_self _
    rw [← hcontents] at hin
    obtain ⟨scanned, hmem, hcontent⟩ := List.mem_map.mp hin
    refine ⟨token.lexeme, scanned, List.mem_append_left _ hmem, ?_, hcontent⟩
    have hkind : scanned.kind = token.kind := congrArg Prod.fst hcontent
    rw [hkind]
    intro heof
    rw [Token.WellFormed, heof] at h
    cases h
  · rintro ⟨source, scanned, hmem, hkind, hcontent⟩
    rcases List.mem_append.mp hmem with hmem | hmem
    · have hmem := List.mem_map_of_mem (f := Token.content) hmem
      rw [Step.all, Step.map_content_tokens_along, hcontent] at hmem
      obtain ⟨lexeme, hlexeme, hsome⟩ := List.mem_filterMap.mp hmem
      exact Lexeme.wellFormed_of_content? hlexeme hsome
    · rw [List.mem_singleton.mp hmem] at hkind
      exact absurd rfl hkind

/-- A reporter that does not stop a scan has seen all of it. -/
theorem Reporter.steps_watch_of_stop_eq_none {σ ε : Type} (reporter : Reporter σ ε) {state : σ}
    {steps : List Step} (h : (reporter.watch state steps).stop = none) :
    (reporter.watch state steps).steps = steps := by
  induction steps generalizing state with
  | nil => rfl
  | cons step rest ih =>
    rw [watch] at h ⊢
    split at h
    · exact congrArg (step :: ·) (ih h)
    · split at h
      · cases h
      · exact congrArg (step :: ·) (ih h)

theorem toList_join_lexeme (items : List Token) :
    (String.join (items.map Token.lexeme)).toList = joined items := by
  rw [String.toList_join, List.flatMap_map]
  rfl

/-- What the tokens of a finished scan say, with the end of the input last. -/
theorem Document.map_content_settle (document : Document) :
    (document.settle (Step.all document.source) true).tokens.map Token.content =
      (Lexeme.split document.source.toList).filterMap Lexeme.content? ++
        [(.endOfInput, "", none)] := by
  simp only [settle, if_true, List.map_append, List.map_singleton]
  rw [Step.all, Step.map_content_tokens_along]
  rfl

/-- A step over the lexeme of a token makes no fault. -/
theorem Step.fault?_of_mem_along_toLexeme {items : List Token} {cursor : Cursor} {step : Step}
    (h : step ∈ along cursor (items.map Token.toLexeme)) : step.fault? = none := by
  induction items generalizing cursor with
  | nil => cases h
  | cons token items ih =>
    rcases List.mem_cons.mp h with rfl | h
    · rfl
    · exact ih h

/-- A scan of the lexemes of well-formed tokens, one right behind the other, finds no fault and
gives the tokens back just if no neighbours fuse. -/
theorem scan_join_iff {σ ε : Type} (reporter : Reporter σ ε) (state : σ) (filename : String)
    {items : List Token} (h : ∀ token ∈ items, token.WellFormed) :
    let text := String.join (items.map Token.lexeme)
    let result := (Document.ofSource text filename).scanWith reporter state
    (result.1.diagnostics = [] ∧ result.2 = (state, none) ∧
        result.1.tokens.map Token.content =
          items.map Token.content ++ [(.endOfInput, "", none)]) ↔
      ¬NeedSeparator items := by
  intro text result
  have hcontents := (Document.ofSource text filename).map_content_settle
  have hiff := Lexeme.filterMap_content?_split_joined_iff h
  rw [← toList_join_lexeme items] at hiff
  constructor
  · rintro ⟨-, hstate, htokens⟩
    have hstop : (reporter.watch state (Step.all text)).stop = none := congrArg Prod.snd hstate
    have hresult : result.1 = (Document.ofSource text filename).settle (Step.all text) true := by
      change (Document.ofSource text filename).settle
        (reporter.watch state (Step.all text)).steps
        (reporter.watch state (Step.all text)).stop.isNone = _
      rw [reporter.steps_watch_of_stop_eq_none hstop, hstop, Option.isNone_none]
    rw [hresult] at htokens
    exact hiff.mp (List.append_cancel_right (hcontents.symm.trans htokens))
  · intro hneed
    have hsplit := (Lexeme.split_joined_iff h).mpr hneed
    have hfaults : ∀ step ∈ Step.all text, step.fault? = none := by
      intro step hstep
      rw [Step.all, toList_join_lexeme, hsplit] at hstep
      exact Step.fault?_of_mem_along_toLexeme hstep
    obtain ⟨hresult, -, hdiagnostics, -⟩ :=
      Document.scanWith_of_no_fault reporter state filename hfaults
    refine ⟨hdiagnostics, congrArg Prod.snd hresult, ?_⟩
    rw [← hiff.mpr hneed]
    exact (congrArg (·.1.tokens.map Token.content) hresult).trans hcontents

/-- A point between two digits makes one number of them. -/
theorem scan_join_point_between_digits :
    let items : List Token :=
      [⟨.number, "1", some (Lexeme.numberLiteral ['1'] []), 1⟩,
        ⟨.punctuation .dot, ".", none, 1⟩,
        ⟨.number, "5", some (Lexeme.numberLiteral ['5'] []), 1⟩]
    let text := String.join (items.map Token.lexeme)
    let result := (Document.ofSource text "f.lox").scanWith Reporter.silent ()
    (∀ token ∈ items, token.WellFormed) ∧ NeedSeparator items ∧
      ((result.1.diagnostics = [] ∧ result.2 = ((), none) ∧
          result.1.tokens.map Token.content =
            items.map Token.content ++ [(.endOfInput, "", none)]) ↔
        ¬NeedSeparator items) := by
  intro items text result
  have hone : Lexeme.IsDigits ['1'] := Lexeme.isDigits_cons_iff.mpr ⟨rfl, List.forall_mem_nil _⟩
  have hfive : Lexeme.IsDigits ['5'] := Lexeme.isDigits_cons_iff.mpr ⟨rfl, List.forall_mem_nil _⟩
  have h : ∀ token ∈ items, token.WellFormed := by
    intro token htoken
    simp only [items, List.mem_cons, List.not_mem_nil, or_false] at htoken
    rcases htoken with rfl | rfl | rfl
    · exact .integer hone
    · exact .punctuation .dot
    · exact .integer hfive
  have hneed : NeedSeparator items :=
    ⟨items, List.suffix_refl _, .fraction rfl (by decide) rfl rfl⟩
  exact ⟨h, hneed, scan_join_iff Reporter.silent () "f.lox" h⟩

end LoxLexer
