import LoxLexer.Proofs.Decimal.Rounded
import LoxLexer.Proofs.Scan.Rescan

/-!
# The values of numbers

A number denotes the sum of its digits, each times the power of ten that its place stands for
(`Lexeme.numberValue`), and the literal of its token is that sum rounded once to a double. The
literal therefore depends on nothing but the sum, and keeps its order.
-/
namespace LoxLexer

namespace Lexeme

/-- What a digit counts. -/
def digitValue (c : Char) : ℕ := c.toNat - '0'.toNat

/-- The number that digits in front of the point denote: each digit moves the ones before it up. -/
def wholeValue (digits : List Char) : ℚ :=
  digits.foldl (fun value c => 10 * value + digitValue c) 0

/-- The number that digits behind the point denote: each digit moves the ones after it down. -/
def fractionValue (digits : List Char) : ℚ :=
  digits.foldr (fun c value => (digitValue c + value) / 10) 0

/-- The number that digits denote, with a point among them or without. -/
def numberValue (text : List Char) : ℚ :=
  wholeValue (text.takeWhile (· ≠ '.')) + fractionValue ((text.dropWhile (· ≠ '.')).drop 1)

variable {whole fraction text : List Char}

theorem ne_point_of_isDigits (h : IsDigits whole) : ∀ c ∈ whole, decide (c ≠ '.') = true := by
  intro c hc
  rw [decide_eq_true_eq]
  rintro rfl
  exact absurd (h.isDigit '.' hc) (by decide)

theorem numberValue_integer (h : IsDigits whole) : numberValue whole = wholeValue whole := by
  rw [numberValue, List.takeWhile_eq_self_iff.mpr (ne_point_of_isDigits h),
    List.dropWhile_eq_nil_iff.mpr (ne_point_of_isDigits h)]
  exact add_zero _

theorem numberValue_fraction (h : IsDigits whole) :
    numberValue (whole ++ '.' :: fraction) = wholeValue whole + fractionValue fraction := by
  rw [numberValue, List.takeWhile_append_of_pos (ne_point_of_isDigits h),
    List.dropWhile_append_of_pos (ne_point_of_isDigits h)]
  simp

theorem wholeValue_eq (digits : List Char) : wholeValue digits = Nat.ofDigitChars 10 digits 0 := by
  have hfold (start : ℕ) :
      digits.foldl (fun value c => 10 * value + (digitValue c : ℚ)) (start : ℚ) =
        Nat.ofDigitChars 10 digits start := by
    induction digits generalizing start with
    | nil => rfl
    | cons c digits ih =>
      rw [List.foldl_cons, Nat.ofDigitChars_cons, ← ih]
      push_cast
      rfl
  exact_mod_cast hfold 0

/-- Digits behind the point count as if they stood in front of it and were scaled back. -/
theorem add_fractionValue (start : ℕ) (digits : List Char) :
    (start : ℚ) + fractionValue digits =
      Nat.ofDigitChars 10 digits start * 10 ^ (-digits.length : ℤ) := by
  induction digits generalizing start with
  | nil => simp [fractionValue]
  | cons c digits ih =>
    have hsplit : (start : ℚ) + fractionValue (c :: digits) =
        ((10 * start + digitValue c : ℕ) + fractionValue digits) / 10 := by
      rw [fractionValue, List.foldr_cons, ← fractionValue]
      push_cast
      ring
    have hexponent : (-(c :: digits).length : ℤ) = -digits.length - 1 := by
      rw [List.length_cons]
      push_cast
      ring
    rw [hsplit, ih, Nat.ofDigitChars_cons, hexponent, zpow_sub_one₀ (by norm_num), ← mul_assoc,
      ← div_eq_mul_inv, digitValue]

theorem value_ofParts (whole fraction : List Char) :
    (Decimal.ofParts whole fraction).value = wholeValue whole + fractionValue fraction := by
  rw [wholeValue_eq, add_fractionValue, Decimal.value, Decimal.ofParts, Nat.ofDigitChars_append]

/-- The decimal that is read off a number is the number that its digits denote. -/
theorem value_ofNumeral (h : IsNumber text) :
    (Decimal.ofNumeral text).value = numberValue text := by
  obtain hwhole | ⟨whole, fraction, hwhole, -, rfl⟩ := h
  · rw [ofNumeral_integer hwhole, value_ofParts, numberValue_integer hwhole]
    exact add_zero _
  · rw [ofNumeral_fraction hwhole, value_ofParts, numberValue_fraction hwhole]

theorem wholeValue_zeros_append (zeros : ℕ) (digits : List Char) :
    wholeValue (List.replicate zeros '0' ++ digits) = wholeValue digits := by
  rw [wholeValue_eq, wholeValue_eq, Decimal.ofDigitChars_zeros_append]

theorem fractionValue_append_zeros (digits : List Char) (zeros : ℕ) :
    fractionValue (digits ++ List.replicate zeros '0') = fractionValue digits := by
  have hzeros : fractionValue (List.replicate zeros '0') = 0 := by
    induction zeros with
    | zero => rfl
    | succ zeros ih =>
      rw [List.replicate_succ, fractionValue, List.foldr_cons, ← fractionValue, ih]
      norm_num [digitValue]
  rw [fractionValue, List.foldr_append, ← fractionValue, hzeros, fractionValue]

/-- Zeros in front of a number and behind its fraction do not count. -/
theorem numberValue_zeros (h : IsNumber text) {leading trailing : ℕ}
    (htrailing : trailing = 0 ∨ '.' ∈ text) :
    numberValue (List.replicate leading '0' ++ text ++ List.replicate trailing '0') =
      numberValue text := by
  have hzeros {whole : List Char} (hwhole : IsDigits whole) :
      IsDigits (List.replicate leading '0' ++ whole) :=
    Decimal.isDigits_of_isDigit (List.append_ne_nil_of_right_ne_nil _ hwhole.1)
      (List.forall_mem_append.mpr ⟨Decimal.isDigit_replicate_zero leading, hwhole.isDigit⟩)
  obtain hwhole | ⟨whole, fraction, hwhole, -, rfl⟩ := h
  · have hpoint : '.' ∉ text := fun hmem => absurd (hwhole.isDigit '.' hmem) (by decide)
    rw [htrailing.resolve_right hpoint, List.replicate_zero, List.append_nil,
      numberValue_integer (hzeros hwhole), numberValue_integer hwhole, wholeValue_zeros_append]
  · rw [← List.append_assoc, List.append_assoc _ ('.' :: fraction), List.cons_append,
      numberValue_fraction (hzeros hwhole), numberValue_fraction hwhole, wholeValue_zeros_append,
      fractionValue_append_zeros]

/-- The literal of a number is the double read off its text. -/
theorem Matches.literal_number {value : Option Literal} (h : Matches (.token .number) text value) :
    value = some (.number (.ofDecimal false (Decimal.ofNumeral text))) :=
  (@Matches.literal_eq ⟨.token .number, text⟩ _ h).symm

end Lexeme

/-- A number among the tokens of a scan, and its literal. -/
theorem Token.WellFormed.number {token : Token} (h : token.WellFormed)
    (hkind : token.kind = .number) :
    Lexeme.IsNumber token.lexeme.toList ∧ token.literal =
      some (.number (.ofDecimal false (Decimal.ofNumeral token.lexeme.toList))) := by
  rw [WellFormed, hkind] at h
  exact ⟨h.isNumber, h.literal_number⟩

variable {σ ε σ' ε' : Type}

/-- The literal of a number is the double nearest to what its digits denote, a tie going to the even
significand: infinite from the midpoint of the largest double and `2 ^ 1024` on, zero up to half the
least positive double, and never negative or `nan`. Numbers of any two scans have literals in the
order of what they denote, so zeros in front of a number and behind its fraction do not change its
literal. -/
theorem scan_numbers_rounded (reporter : Reporter σ ε) (state : σ) (document : Document)
    (again : Reporter σ' ε') (start : σ') (other : Document) :
    ∀ token ∈ (document.scanWith reporter state).1.tokens, token.kind = .number →
      let text := token.lexeme.toList
      Lexeme.IsNumber text ∧ ∃ x : Binary64, token.literal = some (.number x) ∧
        x.IsRounded (Lexeme.numberValue text) ∧
        ∀ second ∈ (other.scanWith again start).1.tokens, second.kind = .number →
          ∃ y : Binary64, second.literal = some (.number y) ∧
            (Lexeme.numberValue text ≤ Lexeme.numberValue second.lexeme.toList → x.le y = true) ∧
            (Lexeme.numberValue text = Lexeme.numberValue second.lexeme.toList → x = y) ∧
            ∀ leading trailing, trailing = 0 ∨ '.' ∈ text →
              second.lexeme.toList =
                List.replicate leading '0' ++ text ++ List.replicate trailing '0' → x = y := by
  have hnumber {σ ε : Type} {reporter : Reporter σ ε} {state : σ} {document : Document}
      {token : Token} (hmem : token ∈ (document.scanWith reporter state).1.tokens)
      (hkind : token.kind = .number) :=
    (Document.wellFormed_of_mem_scanWith hmem (by rw [hkind]; exact TokenKind.noConfusion)).number
      hkind
  intro token hmem hkind text
  obtain ⟨hshape, hliteral⟩ := hnumber hmem hkind
  have hvalue := Lexeme.value_ofNumeral hshape
  refine ⟨hshape, _, hliteral, hvalue ▸ Binary64.isRounded_ofDecimal _, ?_⟩
  intro second hmem' hkind'
  obtain ⟨hshape', hliteral'⟩ := hnumber hmem' hkind'
  have hvalue' := Lexeme.value_ofNumeral hshape'
  have heq (h : Lexeme.numberValue text = Lexeme.numberValue second.lexeme.toList) :
      Binary64.ofDecimal false (Decimal.ofNumeral text) =
        .ofDecimal false (Decimal.ofNumeral second.lexeme.toList) := by
    rw [Binary64.ofDecimal, Decimal.nearest?_eq_of_value_eq (hvalue.trans (h.trans hvalue'.symm)),
      ← Binary64.ofDecimal]
  refine ⟨_, hliteral', fun hle => ?_, heq, fun leading trailing htrailing htext => ?_⟩
  · exact Binary64.le_ofDecimal (by rwa [hvalue, hvalue'])
  · refine heq ?_
    rw [htext, Lexeme.numberValue_zeros hshape htrailing]

/-- A number half way between two doubles, written with and without further zeros: it goes to the
even one. -/
theorem scan_numbers_rounded_tie :
    let token : Token := ⟨.number, "9007199254740993.0",
      some (.number (.ofDecimal false ⟨90071992547409930, -1⟩)), 1⟩
    let second : Token := ⟨.number, "009007199254740993.000",
      some (.number (.ofDecimal false ⟨9007199254740993000, -3⟩)), 2⟩
    let tokensOf (source : String) :=
      ((Document.ofSource source "f.lox").scanWith Reporter.silent ()).1.tokens
    token ∈ tokensOf "9007199254740993.0" ∧ second ∈ tokensOf "@\n009007199254740993.000;" ∧
      Lexeme.IsNumber token.lexeme.toList ∧ ∃ x : Binary64, token.literal = some (.number x) ∧
        x.IsRounded (Lexeme.numberValue token.lexeme.toList) ∧ x.text = "9007199254740992.0" ∧
        second.literal = some (.number x) := by
  intro token second tokensOf
  have hmem : token ∈ tokensOf "9007199254740993.0" := by decide +kernel
  have hmem' : second ∈ tokensOf "@\n009007199254740993.000;" := by decide +kernel
  obtain ⟨hshape, x, hliteral, hrounded, hsecond⟩ := scan_numbers_rounded Reporter.silent ()
    (Document.ofSource "9007199254740993.0" "f.lox") Reporter.silent ()
    (Document.ofSource "@\n009007199254740993.000;" "f.lox") token hmem rfl
  obtain ⟨y, hliteral', -, -, hzeros⟩ := hsecond second hmem' rfl
  have hsame : x = y := hzeros 2 2 (.inr (by decide)) (by decide)
  have hx : Binary64.ofDecimal false ⟨90071992547409930, -1⟩ = x :=
    Literal.number.inj (Option.some.inj hliteral)
  refine ⟨hmem, hmem', hshape, x, hliteral, hrounded, ?_, hsame ▸ hliteral'⟩
  rw [← hx]
  decide +kernel

end LoxLexer
