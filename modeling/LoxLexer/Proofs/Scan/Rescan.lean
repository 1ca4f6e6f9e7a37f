import LoxLexer.Proofs.Decimal.ReadBack
import LoxLexer.Proofs.Lexeme.Alphabet
import LoxLexer.Proofs.Scan.Layout
import LoxLexer.Reporter.Kinds

/-!
# Tokens and their lexemes

All that a token says but its line can be read off its lexeme. The literal is the text between the
quotes, or what the reader of numbers makes of the digits; the kind tells a keyword, an operator or
a literal just if the lexeme is one (`Token.Consistent`). So a token is found again in its lexeme,
taken out of the text around it.
-/
namespace LoxLexer

namespace Lexeme

/-- Digits, or digits with a point between them. -/
def IsNumber (text : List Char) : Prop :=
  IsDigits text ∨
    ∃ whole fraction, IsDigits whole ∧ IsDigits fraction ∧ text = whole ++ '.' :: fraction

variable {text : List Char} {value : Option Literal} {kind : TokenKind}

theorem Matches.isNumber (h : Matches (.token .number) text value) : IsNumber text := by
  cases h with
  | integer h => exact .inl h
  | fraction hw hf => exact .inr ⟨_, _, hw, hf, rfl⟩

/-- The literal of a number is what the reader of numbers makes of its text. -/
theorem Matches.ofText_number (h : Matches (.token .number) text value) :
    ∃ x, value = some (.number x) ∧ Binary64.ofText (String.ofList text) = .ok x := by
  obtain ⟨n, hw, hf, htext, hvalue⟩ : ∃ n : Decimal.Numeral, IsDigits n.whole ∧
      (∀ c ∈ n.fraction, c.isDigit = true) ∧ n.text = text ∧
      value = some (.number (.ofDecimal false n.toDecimal)) := by
    cases h with
    | integer h =>
      refine ⟨⟨text, [], none⟩, h, List.forall_mem_nil _, ?_, ?_⟩
      · simp [Decimal.Numeral.text, Decimal.Numeral.fractionText, Decimal.Numeral.scaleText]
      · simp [numberLiteral, Decimal.ofParts, Decimal.Numeral.toDecimal]
    | @fraction whole fraction hw hf =>
      refine ⟨⟨whole, fraction, none⟩, hw, hf.isDigit, ?_, ?_⟩
      · simp [Decimal.Numeral.text, Decimal.Numeral.fractionText, Decimal.Numeral.scaleText, hf.1]
      · simp [numberLiteral, Decimal.ofParts, Decimal.Numeral.toDecimal]
  exact ⟨_, hvalue, htext ▸ Binary64.ofText_numeral hw hf⟩

theorem Matches.keyword_iff (h : Matches (.token kind) text value) (word : Keyword) :
    kind = .keyword word ↔ word.spelling.toList = text := by
  constructor
  · rintro rfl
    cases h
    rfl
  · rintro rfl
    exact LexemeForm.token.inj (h.unique (.keyword word)).1

theorem Matches.operator_iff (h : Matches (.token kind) text value) :
    kind.isOperator = true ↔
      ∃ symbol : OperatorSymbol, text = [symbol.toChar] ∨ text = [symbol.toChar, '='] := by
  constructor
  · intro hkind
    cases h with
    | operator symbol => exact ⟨symbol, .inl rfl⟩
    | operatorEqual symbol => exact ⟨symbol, .inr rfl⟩
    | _ => cases hkind
  · rintro ⟨symbol, rfl | rfl⟩
    · rw [LexemeForm.token.inj (h.unique (.operator symbol)).1]
      rfl
    · rw [LexemeForm.token.inj (h.unique (.operatorEqual symbol)).1]
      rfl

theorem Matches.isLiteral_iff (h : Matches (.token kind) text value) :
    kind.isLiteral = true ↔ value ≠ none := by
  cases h <;> simp [TokenKind.isLiteral]

end Lexeme

/-- The parts of a token agree: its lexeme decides about its kind and its literal. -/
structure Token.Consistent (token : Token) : Prop where
  literal_eq_none : token.kind ≠ .string → token.kind ≠ .number → token.literal = none
  string : token.kind = .string → ∃ body : String, '"' ∉ body.toList ∧
    token.literal = some (.text body) ∧ token.lexeme = "\"" ++ body ++ "\""
  number : token.kind = .number → Lexeme.IsNumber token.lexeme.toList ∧
    ∃ x, token.literal = some (.number x) ∧ Binary64.ofText token.lexeme = .ok x
  keyword_iff : ∀ word, token.kind = .keyword word ↔ Keyword.ofSpelling? token.lexeme = some word
  isLiteral_iff : token.isLiteral = true ↔ token.literal ≠ none
  isKeyword_iff : token.isKeyword = true ↔ ∃ word : Keyword, word.spelling = token.lexeme
  isOperator_iff : token.isOperator = true ↔ ∃ symbol : OperatorSymbol,
    token.lexeme.toList = [symbol.toChar] ∨ token.lexeme.toList = [symbol.toChar, '=']

theorem TokenKind.isKeyword_iff {kind : TokenKind} :
    kind.isKeyword = true ↔ ∃ word, kind = .keyword word := by
  cases kind <;> simp [isKeyword]

theorem Token.WellFormed.consistent {token : Token} (h : token.WellFormed) : token.Consistent where
  literal_eq_none hstring hnumber := by
    by_contra hne
    have hliteral := (Lexeme.Matches.isLiteral_iff h).mpr hne
    generalize token.kind = kind at *
    cases kind <;> simp_all [TokenKind.isLiteral]
  string hkind := by
    rw [WellFormed, hkind] at h
    obtain ⟨body, hbody, hlexeme, hliteral⟩ := h.exists_body
    refine ⟨String.ofList body, by rwa [String.toList_ofList], hliteral, ?_⟩
    rw [← String.toList_inj, hlexeme]
    simp
  number hkind := by
    rw [WellFormed, hkind] at h
    exact ⟨h.isNumber, by simpa using h.ofText_number⟩
  keyword_iff word := by
    rw [Lexeme.Matches.keyword_iff h word, String.toList_inj, Keyword.ofSpelling?_eq_some_iff]
  isLiteral_iff := Lexeme.Matches.isLiteral_iff h
  isKeyword_iff := by
    rw [isKeyword, TokenKind.isKeyword_iff]
    simp only [Lexeme.Matches.keyword_iff h, String.toList_inj]
  isOperator_iff := Lexeme.Matches.operator_iff h

theorem Step.wellFormed_of_token? {source : String} {step : Step} {token : Token}
    (hmem : step ∈ all source) (h : step.token? = some token) : token.WellFormed := by
  obtain ⟨kind, hform, rfl⟩ := exists_kind_of_token? h
  have hm := Lexeme.matches_of_mem_split (lexeme_mem_of_mem_along hmem) hform
  have hliteral : step.lexeme.literal = literalOf kind step.lexeme.text := by
    rw [Lexeme.literal, hform]
  rw [hform, hliteral] at hm
  rw [Token.WellFormed, String.toList_ofList]
  exact hm

variable {σ ε : Type}

/-- What a scan leaves are well-formed tokens, be it stopped or not, and at most the token for the
end behind them. -/
theorem Document.wellFormed_of_mem_scanWith {reporter : Reporter σ ε} {state : σ}
    {document : Document} {token : Token}
    (hmem : token ∈ (document.scanWith reporter state).1.tokens)
    (hkind : token.kind ≠ .endOfInput) : token.WellFormed := by
  rcases List.mem_append.mp hmem with htoken | hclosing
  · obtain ⟨step, hstep, htoken⟩ := List.mem_filterMap.mp htoken
    have hseen := reporter.watch_steps_prefix state (Step.all document.source)
    exact Step.wellFormed_of_token? (hseen.subset hstep) htoken
  · split at hclosing
    · rw [List.mem_singleton.mp hclosing] at hkind
      exact absurd rfl hkind
    · cases hclosing

/-- A scan of nothing but the lexeme of a well-formed token finds the token and no fault. -/
theorem Token.WellFormed.rescan {token : Token} (h : token.WellFormed) (reporter : Reporter σ ε)
    (state : σ) (filename : String) :
    let result := (Document.ofSource token.lexeme filename).scanWith reporter state
    result.1.tokens =
        [{ token with line := 1 }, .endOfInput (1 + token.lexeme.toList.count '\n')] ∧
      result.1.diagnostics = [] ∧ result.2 = (state, none) ∧ reports token.lexeme = [] := by
  intro result
  have hlaidOut : LaidOut true [([], token)] [] := ⟨.lead .nil, h, .nothing⟩
  have htext : layOut [([], token)] [] = token.lexeme.toList := by simp [layOut]
  obtain ⟨htokens, hfaults⟩ := Step.along_split_layOut hlaidOut [] Cursor.origin rfl
  rw [htext] at htokens hfaults
  obtain ⟨hresult, hscanned, hdiagnostics, hreports⟩ :=
    Document.scanWith_of_no_fault reporter state filename hfaults
  refine ⟨?_, hdiagnostics, congrArg Prod.snd hresult, hreports⟩
  have hall : (Step.all token.lexeme).filterMap Step.token? = [{ token with line := 1 }] := htokens
  rw [hscanned, tokens_eq, hall, Nat.cast_add, Nat.cast_one]
  rfl

/-- Every token of a scan, the end of the input apart, is found again by a scan of its lexeme alone:
on the first line, with the end of the input behind its line feeds and without a fault. Its kind and
its literal agree with the lexeme. -/
theorem scan_lexeme {σ' ε' : Type} (reporter : Reporter σ ε) (state : σ) (document : Document)
    (again : Reporter σ' ε') (start : σ') (filename : String) :
    ∀ token ∈ (document.scanWith reporter state).1.tokens, token.kind ≠ .endOfInput →
      let result := (Document.ofSource token.lexeme filename).scanWith again start
      result.1.tokens =
          [{ token with line := 1 }, .endOfInput (1 + token.lexeme.toList.count '\n')] ∧
        result.1.diagnostics = [] ∧ result.2 = (start, none) ∧ reports token.lexeme = [] ∧
        token.Consistent := by
  intro token hmem hkind result
  have hwell : token.WellFormed := Document.wellFormed_of_mem_scanWith hmem hkind
  obtain ⟨htokens, hdiagnostics, hstate, hreports⟩ := hwell.rescan again start filename
  exact ⟨htokens, hdiagnostics, hstate, hreports, hwell.consistent⟩

/-- A keyword, a line feed and two slashes within a string, between a keyword and a number. -/
theorem scan_lexeme_string :
    let document := Document.ofSource "@\nor\"or\n//\"1" "f.lox"
    let token : Token := ⟨.string, "\"or\n//\"", some (.text "or\n//"), 2⟩
    let result := (Document.ofSource token.lexeme "g.lox").scanWith LineWriter.reporter
      LineWriter.empty
    token ∈ (document.scanWith Reporter.silent ()).1.tokens ∧ token.kind ≠ .endOfInput ∧
      result.1.tokens = [{ token with line := 1 }, .endOfInput 2] ∧
      result.1.diagnostics = [] ∧ result.2 = (LineWriter.empty, none) ∧
      reports token.lexeme = [] ∧ token.Consistent := by
  intro document token result
  have hmem : token ∈ (document.scanWith Reporter.silent ()).1.tokens := by decide +kernel
  have hkind : token.kind ≠ .endOfInput := by decide
  obtain ⟨htokens, hrest⟩ := scan_lexeme Reporter.silent () document LineWriter.reporter
    LineWriter.empty "g.lox" token hmem hkind
  exact ⟨hmem, hkind, htokens.trans (by decide +kernel), hrest⟩

end LoxLexer
