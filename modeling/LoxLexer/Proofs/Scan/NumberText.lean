import LoxLexer.Proofs.Decimal.Fewest
import LoxLexer.Proofs.Scan.Numbers
import LoxLexer.Token.Text

/-!
# The text of a number, scanned

The text that a number is shown with denotes its literal with the fewest significant digits. It has
an exponent just if its leading digit stands for less than `10 ^ -4` or more than `10 ^ 15`
(`Decimal.isPositional_iff`). Without an exponent it is the lexeme of a number with the same literal
(`Decimal.Numeral.wellFormed_token`); with one it is not, since Lox numbers have no exponents, and a
scan finds four tokens in it (`Decimal.Numeral.split_text`).
-/
namespace LoxLexer

/-- A token is shown with this text in the place of its literal, whichever way it is shown. -/
structure Token.Shows (token : Token) (text : String) : Prop where
  plainText : token.plainText = s!"{token.kind.name} {token.lexeme} {text}"
  formText : token.formText =
    s!"Token({token.kind.name}, {quoted token.lexeme}, {text}, {token.line})"
  jsonText : token.jsonText = "\x7b" ++
    s!"\"type\": {jsonString token.kind.name}, \"lexeme\": {jsonString token.lexeme}, " ++
    s!"\"literal\": {text}, \"line\": {token.line}" ++ "\x7d"

/-- The words for other doubles are not in the text of a finite one. -/
theorem Token.shows_of_finite {token : Token} {negative : Bool} {size : Magnitude}
    (h : token.literal = some (.number (.finite negative size))) :
    token.Shows (Binary64.finite negative size).text := by
  constructor
  · rw [plainText, h]
    rfl
  · rw [formText, h]
    rfl
  · rw [jsonText, h]
    rfl

namespace Decimal

variable {d : Decimal}

/-- A number is written without an exponent if it is zero or within these bounds. -/
theorem isPositional_iff (h : d.coefficient = 0 → d.exponent = 0) :
    d.isPositional = true ↔
      d.coefficient = 0 ∨ (10 : ℚ) ^ (-4 : ℤ) ≤ d.value ∧ d.value < 10 ^ 16 := by
  have hpositional : d.isPositional = true ↔ -4 ≤ d.leadingExponent ∧ d.leadingExponent ≤ 15 := by
    rw [isPositional, Bool.and_eq_true, decide_eq_true_eq, decide_eq_true_eq]
    rfl
  rw [hpositional]
  by_cases hzero : d.coefficient = 0
  · rw [leadingExponent, digitCount, h hzero, hzero]
    simp
  · have hlow := tenPow_leadingExponent_le hzero
    have hhigh := d.value_lt_tenPow
    have hone : (1 : ℚ) < 10 := by norm_num
    have hbelow : (10 : ℚ) ^ (-4 : ℤ) ≤ d.value ↔ -4 ≤ d.leadingExponent := by
      rw [← Int.lt_add_one_iff]
      exact ⟨fun h => (zpow_lt_zpow_iff_right₀ hone).mp (h.trans_lt hhigh), fun h =>
        (zpow_le_zpow_right₀ hone.le (Int.lt_add_one_iff.mp h)).trans hlow⟩
    have habove : d.value < (10 : ℚ) ^ (16 : ℤ) ↔ d.leadingExponent ≤ 15 := by
      rw [← Int.lt_add_one_iff]
      exact ⟨fun h => (zpow_lt_zpow_iff_right₀ hone).mp (hlow.trans_lt h), fun h =>
        hhigh.trans_le (zpow_le_zpow_right₀ hone.le h)⟩
    rw [hbelow, ← zpow_ofNat, habove, or_iff_right hzero]

theorem exponent_numeral (d : Decimal) :
    d.numeral.exponent = if d.isPositional then none else some d.leadingExponent := by
  simp only [numeral]
  split
  · split
    · rfl
    · split <;> rfl
  · rfl

namespace Numeral

variable {n : Numeral}

/-- The mark of an exponent is found nowhere else in a numeral. -/
theorem mark_mem_text_iff (h : n.WellFormed) : 'e' ∈ n.text ↔ n.exponent ≠ none := by
  have hdigits {text : List Char} (h : ∀ c ∈ text, c.isDigit = true) : 'e' ∉ text := fun hmem =>
    absurd (h 'e' hmem) (by decide)
  have hfraction : 'e' ∉ n.fractionText := by
    rw [fractionText]
    split
    · exact List.not_mem_nil
    · simp [hdigits h.isDigit_fraction]
  rw [text, List.mem_append, List.mem_append, or_iff_right (hdigits h.isDigits_whole.isDigit),
    or_iff_right hfraction, scaleText]
  cases n.exponent <;> simp

/-- What stands in front of the exponent is the lexeme of a number. -/
theorem matches_mantissa (h : n.WellFormed) :
    Lexeme.Matches (.token .number) (n.whole ++ n.fractionText)
      (some (Lexeme.numberLiteral n.whole n.fraction)) := by
  rw [fractionText]
  split
  · rename_i hnil
    rw [hnil, List.append_nil]
    exact .integer h.isDigits_whole
  · rename_i hne
    exact .fraction h.isDigits_whole (isDigits_of_isDigit hne h.isDigit_fraction)

/-- A numeral without an exponent is the lexeme of a number. -/
theorem wellFormed_token (h : n.WellFormed) (hexponent : n.exponent = none) :
    Token.WellFormed ⟨.number, String.ofList n.text,
      some (.number (.ofDecimal false n.toDecimal)), 1⟩ := by
  have hmatches := matches_mantissa h
  have hliteral : Lexeme.numberLiteral n.whole n.fraction =
      .number (.ofDecimal false n.toDecimal) := by
    rw [Lexeme.numberLiteral, ofParts, toDecimal, hexponent, Option.getD_none, add_zero]
  rw [Token.WellFormed, String.toList_ofList, text, scaleText, hexponent, Option.elim_none,
    List.append_nil, ← hliteral]
  exact hmatches

/-- A scan of a numeral without an exponent finds nothing but a number. -/
theorem tokens_scanWith {σ ε : Type} (h : n.WellFormed) (hexponent : n.exponent = none)
    (reporter : Reporter σ ε) (state : σ) (filename : String) :
    let result := (Document.ofSource (String.ofList n.text) filename).scanWith reporter state
    result.1.tokens = [⟨.number, String.ofList n.text,
        some (.number (.ofDecimal false n.toDecimal)), 1⟩, .endOfInput 1] ∧
      result.1.diagnostics = [] ∧ result.2 = (state, none) := by
  intro result
  obtain ⟨htokens, hdiagnostics, hstate, -⟩ :=
    (wellFormed_token h hexponent).rescan reporter state filename
  have hbreaks : (String.ofList n.text).toList.count '\n' = 0 := by
    rw [String.toList_ofList, List.count_eq_zero]
    intro hmem
    have hbare := (Binary64.isBare_text h.isDigits_whole h.isDigit_fraction _ hmem).1
    exact absurd hbare (by decide)
  rw [hbreaks] at htokens
  exact ⟨htokens, hdiagnostics, hstate⟩

/-- The sign of an exponent is a punctuation mark. -/
def exponentMark (exponent : ℤ) : Punctuation := if exponent < 0 then .minus else .plus

/-- A numeral with an exponent splits into a number, a word, a mark and another number. -/
theorem split_text (h : n.WellFormed) {exponent : ℤ} (hexponent : n.exponent = some exponent) :
    Lexeme.split n.text =
      [⟨.token .number, n.whole ++ n.fractionText⟩, ⟨.token .identifier, ['e']⟩,
        ⟨.token (.punctuation (exponentMark exponent)), [(exponentMark exponent).toChar]⟩,
        ⟨.token .number, (Nat.toDigits 10 exponent.natAbs).leftpad 2 '0'⟩] := by
  have hword : Lexeme.IsWord ['e'] := Lexeme.isWord_of_all rfl rfl
  have hnot : ∀ word : Keyword, word.spelling.toList ≠ ['e'] := by
    intro word
    cases word <;> decide
  have hmark : (if exponent < 0 then '-' else '+') = (exponentMark exponent).toChar := by
    rw [exponentMark]
    split <;> rfl
  have hnotWord : isWordChar (exponentMark exponent).toChar = false := by
    rw [exponentMark]
    split <;> rfl
  obtain ⟨mark, hmarkEq⟩ : ∃ mark, exponentMark exponent = mark := ⟨_, rfl⟩
  rw [text, scaleText, hexponent, Option.elim_some, exponentText, hmark]
  rw [hmarkEq] at hnotWord ⊢
  have hdigits := isDigits_exponent exponent
  generalize (Nat.toDigits 10 exponent.natAbs).leftpad 2 '0' = digits at *
  have hfirst : Lexeme.split (n.whole ++ n.fractionText ++ 'e' :: mark.toChar :: digits) =
      ⟨.token .number, n.whole ++ n.fractionText⟩ ::
        Lexeme.split ('e' :: mark.toChar :: digits) :=
    Lexeme.split_append_of_matches (matches_mantissa h) ⟨Lexeme.forall_head?_cons rfl, .inr rfl⟩
  have hsecond : Lexeme.split ('e' :: mark.toChar :: digits) =
      ⟨.token .identifier, ['e']⟩ :: Lexeme.split (mark.toChar :: digits) :=
    Lexeme.split_append_of_matches (.identifier hword hnot) (Lexeme.forall_head?_cons hnotWord)
  have hthird : Lexeme.split (mark.toChar :: digits) =
      ⟨.token (.punctuation mark), [mark.toChar]⟩ :: Lexeme.split digits :=
    Lexeme.split_append_of_matches (.punctuation mark) trivial
  have hfourth := Lexeme.split_append_of_matches (.integer hdigits) (Lexeme.stops_nil _ _)
  rw [List.append_nil, Lexeme.split] at hfourth
  rw [hfirst, hsecond, hthird, hfourth]

/-- A scan of a numeral with an exponent finds four tokens and no fault. -/
theorem map_kind_scanWith {σ ε : Type} (h : n.WellFormed) {exponent : ℤ}
    (hexponent : n.exponent = some exponent) (reporter : Reporter σ ε) (state : σ)
    (filename : String) :
    let result := (Document.ofSource (String.ofList n.text) filename).scanWith reporter state
    result.1.tokens.map Token.kind =
        [.number, .identifier, .punctuation (exponentMark exponent), .number, .endOfInput] ∧
      result.1.diagnostics = [] ∧ result.2 = (state, none) := by
  intro result
  have hsteps :
      Step.all (String.ofList n.text) = Step.along Cursor.origin (Lexeme.split n.text) := by
    rw [Step.all, String.toList_ofList]
  rw [split_text h hexponent] at hsteps
  have hfaults : ∀ step ∈ Step.all (String.ofList n.text), step.fault? = none := by
    intro step hstep
    simp only [hsteps, Step.along, List.mem_cons, List.not_mem_nil, or_false] at hstep
    obtain rfl | rfl | rfl | rfl := hstep <;> rfl
  obtain ⟨hresult, hscanned, hdiagnostics, -⟩ :=
    Document.scanWith_of_no_fault reporter state filename hfaults
  refine ⟨?_, hdiagnostics, congrArg Prod.snd hresult⟩
  rw [hscanned, tokens, hsteps]
  rfl

end Numeral

end Decimal

variable {σ ε σ' ε' : Type}

/-- Whichever way a number with a finite literal is shown, the text in the place of the literal
reads back as the literal, and no decimal that does so has fewer significant digits. The text has an
exponent just if the literal is not zero and its leading digit stands for less than `10 ^ -4` or
more than `10 ^ 15`. A scan of a text without an exponent gives a number with the same literal, and
nothing but the end of the input behind it; a scan of a text with one gives four tokens. -/
theorem scan_number_text (reporter : Reporter σ ε) (state : σ) (document : Document)
    (again : Reporter σ' ε') (start : σ') (filename : String) :
    ∀ token ∈ (document.scanWith reporter state).1.tokens, token.kind = .number →
      ∀ negative size, token.literal = some (.number (.finite negative size)) →
        let text := (Binary64.finite negative size).text
        let result := (Document.ofSource text filename).scanWith again start
        token.Shows text ∧ Binary64.ofText text = .ok (.finite negative size) ∧
          ∃ d, Decimal.read? text.toList = some d ∧
            (∀ other, Binary64.ofDecimal negative other = .finite negative size →
              d.significantDigits ≤ other.significantDigits) ∧
            ('e' ∉ text.toList ↔
              size = .zero ∨ (10 : ℚ) ^ (-4 : ℤ) ≤ d.value ∧ d.value < 10 ^ 16) ∧
            (result.1.tokens = [⟨.number, text, token.literal, 1⟩, .endOfInput 1] ∧
              result.1.diagnostics = [] ∧ result.2 = (start, none) ↔ 'e' ∉ text.toList) ∧
            ('e' ∈ text.toList → ∃ mark, result.1.tokens.map Token.kind =
              [.number, .identifier, .punctuation mark, .number, .endOfInput]) := by
  intro token hmem hkind negative size hliteral text result
  have hwell : token.WellFormed := Document.wellFormed_of_mem_scanWith hmem (by
    rw [hkind]
    exact TokenKind.noConfusion)
  obtain ⟨-, hrounded⟩ := hwell.number hkind
  rw [hliteral, Option.some.injEq, Literal.number.injEq] at hrounded
  obtain rfl : negative = false := (Binary64.ofDecimal_eq_finite_iff.mp hrounded.symm).1.symm
  have hn := Binary64.wellFormed_shortest size
  have htext : text = String.ofList size.shortest.numeral.text := by
    rw [← String.toList_inj, String.toList_ofList]
    exact Binary64.toList_textWith_finite NumberWords.plain false size
  have hchars : text.toList = size.shortest.numeral.text := by rw [htext, String.toList_ofList]
  have hvalue := Decimal.value_numeral size.shortest
  have hreads : Binary64.ofText text = .ok (.finite false size) := by
    rw [htext, Binary64.ofText_numeral hn.isDigits_whole hn.isDigit_fraction,
      Binary64.ofDecimal_numeral_shortest]
  have hexponent : 'e' ∈ text.toList ↔ size.shortest.numeral.exponent ≠ none := by
    rw [hchars, Decimal.Numeral.mark_mem_text_iff hn]
  have hmark : 'e' ∉ text.toList ↔ size.shortest.isPositional = true := by
    rw [hexponent, not_not, Decimal.exponent_numeral]
    split <;> simp_all
  have hscientific (hmem : 'e' ∈ text.toList) : ∃ mark, result.1.tokens.map Token.kind =
      [.number, .identifier, .punctuation mark, .number, .endOfInput] := by
    obtain ⟨exponent, hsome⟩ := Option.ne_none_iff_exists'.mp (hexponent.mp hmem)
    have hkinds := (Decimal.Numeral.map_kind_scanWith hn hsome again start filename).1
    rw [← htext] at hkinds
    exact ⟨_, hkinds⟩
  have hpositional := Decimal.isPositional_iff (d := size.shortest) fun h => by
    rw [size.shortest_of_coefficient_eq_zero h]
  refine ⟨Token.shows_of_finite hliteral, hreads, size.shortest.numeral.toDecimal,
    ?_, ?_, ?_, ?_, ?_⟩
  · rw [hchars, Decimal.Numeral.read?_text hn.isDigits_whole hn.isDigit_fraction]
  · intro other hother
    rw [Decimal.significantDigits_congr hvalue]
    exact Magnitude.significantDigits_shortest_le (Binary64.ofDecimal_eq_finite_iff.mp hother).2
  · rw [hmark, hpositional, Magnitude.coefficient_shortest_eq_zero_iff, hvalue]
  · constructor
    · rintro ⟨htokens, -, -⟩ hmem
      obtain ⟨mark, hkinds⟩ := hscientific hmem
      rw [htokens] at hkinds
      cases hkinds
    · intro hmem
      rw [hexponent, not_not] at hmem
      have hscan := Decimal.Numeral.tokens_scanWith hn hmem again start filename
      rw [Binary64.ofDecimal_numeral_shortest, ← htext, ← hliteral] at hscan
      exact hscan
  · exact hscientific

/-- The least power of ten that is shown with an exponent. -/
theorem scan_number_text_exponent :
    let size : Magnitude :=
      ⟨5000000000000000, 1075, by decide +kernel, by decide, .inr (by decide +kernel)⟩
    let token : Token :=
      ⟨.number, "10000000000000000.0", some (.number (.finite false size)), 2⟩
    let tokensOf (source : String) :=
      ((Document.ofSource source "f.lox").scanWith Reporter.silent ()).1.tokens
    token ∈ tokensOf "\n10000000000000000.0;" ∧ token.Shows "1e+16" ∧
      Binary64.ofText "1e+16" = .ok (.finite false size) ∧
      (∃ d, Decimal.read? "1e+16".toList = some d ∧
        ∀ other, Binary64.ofDecimal false other = .finite false size →
          d.significantDigits ≤ other.significantDigits) ∧
      ∃ mark, (tokensOf "1e+16").map Token.kind =
        [.number, .identifier, .punctuation mark, .number, .endOfInput] := by
  intro size token tokensOf
  have hmem : token ∈ tokensOf "\n10000000000000000.0;" := by decide +kernel
  have htext : (Binary64.finite false size).text = "1e+16" := by decide +kernel
  obtain ⟨hshows, hreads, d, hd, hfewest, -, -, hscan⟩ := scan_number_text Reporter.silent ()
    (Document.ofSource "\n10000000000000000.0;" "f.lox") Reporter.silent () "f.lox" token hmem rfl
    false size rfl
  rw [htext] at hshows hreads hd hscan
  exact ⟨hmem, hshows, hreads, ⟨d, hd, hfewest⟩, hscan (by decide)⟩

end LoxLexer
