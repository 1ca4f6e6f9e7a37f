import LoxLexer.Binary64.Text
import LoxLexer.Proofs.Decimal.Numeral
import LoxLexer.Proofs.Decimal.Rounded
import LoxLexer.Proofs.Decimal.Shortest
import Mathlib.Data.Bool.AllAny

/-!
# A double reads back

The reader of numbers sets aside decimals whose power of ten is far out of range before it rounds
them; that changes no result (`Binary64.ofAnyDecimal_eq_ofDecimal`). So the text of a finite double
reads back as that double, bit by bit (`Binary64.ofPlain?_text_finite`), and any numeral is read as
the double nearest to its decimal (`Binary64.ofText_numeral`).
-/
namespace LoxLexer

theorem trim_eq_self {text : List Char} (h : ∀ c ∈ text, isWhiteSpace c = false) :
    trim text = text := by
  have hdrop {text : List Char} (h : ∀ c ∈ text, isWhiteSpace c = false) :
      text.dropWhile isWhiteSpace = text := by
    cases text with
    | nil => rfl
    | cons c rest => rw [List.dropWhile_cons_of_neg (by simp [h c List.mem_cons_self])]
  rw [trim, hdrop h, hdrop fun c hc => h c (List.mem_reverse.mp hc), List.reverse_reverse]

theorem isWhiteSpace_of_isDigit {c : Char} (h : c.isDigit = true) : isWhiteSpace c = false := by
  obtain ⟨hzero, hnine⟩ := isDigit_iff.mp h
  have low : 0x30 ≤ c.toNat := hzero
  have high : c.toNat ≤ 0x39 := hnine
  have hfirst : ¬c.toNat ≤ 0xD := by omega
  rw [isWhiteSpace, whiteSpaceRanges, inRanges, inRanges_eq_false_of_between (by omega) (by omega)]
  simp [hfirst]

namespace Decimal

variable {d : Decimal}

theorem coefficient_lt (d : Decimal) : d.coefficient < tenPow d.digitCount :=
  (Nat.length_toDigits_le_iff (by decide) Nat.length_toDigits_pos).mp (Nat.le_refl _)

theorem pow_length_toDigits_le {n : ℕ} (hn : n ≠ 0) :
    10 ^ ((Nat.toDigits 10 n).length - 1) ≤ n := by
  obtain hone | hmore := Nat.eq_zero_or_pos ((Nat.toDigits 10 n).length - 1)
  · rw [hone]
    exact Nat.pos_of_ne_zero hn
  · by_contra hlt
    have hlength := (Nat.length_toDigits_le_iff (by decide) hmore).mpr (Nat.lt_of_not_le hlt)
    omega

theorem tenPow_leadingExponent_succ (d : Decimal) :
    (10 : ℚ) ^ (d.leadingExponent + 1) = (10 ^ d.digitCount : ℕ) * 10 ^ d.exponent := by
  have hexponent : d.leadingExponent + 1 = d.digitCount + d.exponent := by
    rw [leadingExponent]
    omega
  rw [hexponent, zpow_add₀ (by norm_num), zpow_natCast, Nat.cast_pow, Nat.cast_ofNat]

/-- The leading digit of a decimal stands for the power of ten below it. -/
theorem tenPow_leadingExponent_le (h : d.coefficient ≠ 0) :
    (10 : ℚ) ^ d.leadingExponent ≤ d.value := by
  have hlength : 0 < d.digitCount := Nat.length_toDigits_pos
  have hexponent : d.leadingExponent = (d.digitCount - 1 : ℕ) + d.exponent := by
    rw [leadingExponent]
    omega
  rw [hexponent, zpow_add₀ (by norm_num), zpow_natCast, value]
  gcongr
  exact_mod_cast pow_length_toDigits_le h

theorem value_lt_tenPow (d : Decimal) : d.value < 10 ^ (d.leadingExponent + 1) := by
  rw [tenPow_leadingExponent_succ, value]
  gcongr
  exact d.coefficient_lt

theorem cast_tenPow (n : ℕ) : ((tenPow n : ℕ) : ℚ) = 10 ^ n := Nat.cast_pow 10 n

theorem twoPow_le_tenPow : (2 ^ 1075 : ℚ) ≤ 10 ^ 401 := by
  have h : twoPow 1075 ≤ tenPow 401 := by decide +kernel
  rw [← cast_twoPow, ← cast_tenPow]
  exact Nat.cast_le.mpr h

theorem nearest?_of_exponent_lt (hne : d.coefficient ≠ 0) (h : exponentBound < d.exponent) :
    d.nearest? = none := by
  have hlength : 0 < d.digitCount := Nat.length_toDigits_pos
  have hleading : 401 ≤ d.leadingExponent := by
    rw [exponentBound] at h
    rw [leadingExponent]
    omega
  rw [nearest?_eq_none_iff]
  calc
    (2 ^ 1024 - 2 ^ 970 : ℚ) ≤ 2 ^ 1024 := sub_le_self _ (by positivity)
    _ ≤ 2 ^ 1075 := pow_le_pow_right₀ one_le_two (by decide)
    _ ≤ 10 ^ (401 : ℤ) := twoPow_le_tenPow
    _ ≤ 10 ^ d.leadingExponent := zpow_le_zpow_right₀ (by norm_num) hleading
    _ ≤ d.value := tenPow_leadingExponent_le hne

theorem nearest?_of_lt_exponent (h : d.exponent + d.digitCount < -exponentBound) :
    d.nearest? = some Magnitude.zero := by
  have hleading : d.leadingExponent + 1 ≤ -401 := by
    rw [exponentBound] at h
    rw [leadingExponent]
    omega
  rw [nearest?_eq_zero_iff]
  calc
    d.value ≤ 10 ^ (d.leadingExponent + 1) := d.value_lt_tenPow.le
    _ ≤ 10 ^ (-401 : ℤ) := zpow_le_zpow_right₀ (by norm_num) hleading
    _ = 1 / 10 ^ 401 := by rw [zpow_neg, one_div]; rfl
    _ ≤ 1 / 2 ^ 1075 := one_div_le_one_div_of_le (by positivity) twoPow_le_tenPow

theorem takeSign_of_isDigit {c : Char} (h : c.isDigit = true) (tail : List Char) :
    takeSign (c :: tail) = (false, c :: tail) := by
  rw [takeSign.eq_def]
  split
  · rename_i heq
    cases heq
    exact absurd h (by decide)
  · rename_i heq
    cases heq
    exact absurd h (by decide)
  · rfl

theorem toLower_of_isDigit {c : Char} (h : c.isDigit = true) : c.toLower = c := by
  refine dif_neg ?_
  rintro ⟨hupper, -⟩
  have hupper : 'A' ≤ c := hupper
  exact absurd (Char.le_trans hupper (isDigit_iff.mp h).2) (by decide)

end Decimal

namespace Binary64

/-- What the reader finds without a power of ten is what rounding gives. -/
theorem ofAnyDecimal_eq_ofDecimal (negative : Bool) (d : Decimal) :
    ofAnyDecimal negative d = ofDecimal negative d := by
  rw [ofAnyDecimal]
  split
  · rename_i hzero
    rw [ofDecimal, Decimal.nearest?_of_coefficient_eq_zero hzero, Option.elim_some]
  · rename_i hne
    split
    · rename_i hlarge
      rw [ofDecimal, Decimal.nearest?_of_exponent_lt hne hlarge, Option.elim_none]
    · split
      · rename_i hsmall
        rw [ofDecimal, Decimal.nearest?_of_lt_exponent hsmall, Option.elim_some]
      · rfl

variable (words : NumberWords) (negative : Bool) (x : Magnitude)

theorem wellFormed_shortest : x.shortest.numeral.WellFormed :=
  Decimal.wellFormed_numeral fun h => by rw [x.shortest_of_coefficient_eq_zero h]

/-- The text of a finite double: a sign and a numeral. -/
theorem toList_textWith_finite :
    ((finite negative x).textWith words).toList =
      (signText negative).toList ++ x.shortest.numeral.text := by
  rw [textWith, String.toList_append, String.toList_ofList, Decimal.text_numeral]

/-- A numeral without a sign is no word. -/
theorem ofPlain?_text {n : Decimal.Numeral} (hw : Lexeme.IsDigits n.whole)
    (hf : ∀ c ∈ n.fraction, c.isDigit = true) :
    ofPlain? ((signText negative).toList ++ n.text) = some (ofDecimal negative n.toDecimal) := by
  obtain ⟨c, tail, htext, hc⟩ : ∃ c tail, n.text = c :: tail ∧ c.isDigit = true := by
    obtain ⟨c, more, hwhole, hc, -⟩ := hw.exists_cons
    exact ⟨c, _, by rw [Decimal.Numeral.text, hwhole]; rfl, hc⟩
  have hsign : Decimal.takeSign ((signText negative).toList ++ n.text) = (negative, n.text) := by
    cases negative with
    | true => rfl
    | false =>
      rw [htext]
      exact Decimal.takeSign_of_isDigit hc tail
  have hword {word : List Char} (hhead : ∀ d, word.head? = some d → d.isDigit = false) :
      n.text.map Char.toLower ≠ word := by
    intro heq
    have hlower := hhead c (by rw [← heq, htext, List.map_cons, Decimal.toLower_of_isDigit hc]; rfl)
    rw [hc] at hlower
    cases hlower
  have hinf : n.text.map Char.toLower ≠ "inf".toList := hword (Lexeme.forall_head?_cons rfl)
  have hinfinity : n.text.map Char.toLower ≠ "infinity".toList :=
    hword (Lexeme.forall_head?_cons rfl)
  have hnan : n.text.map Char.toLower ≠ "nan".toList := hword (Lexeme.forall_head?_cons rfl)
  simp only [ofPlain?, hsign, hinf, hinfinity, hnan, Decimal.Numeral.read?_text hw hf, decide_false,
    Bool.or_self, Bool.false_eq_true, if_false, Option.map_some, ofAnyDecimal_eq_ofDecimal]

/-- The numeral of a finite double denotes it. -/
theorem ofDecimal_numeral_shortest :
    ofDecimal negative x.shortest.numeral.toDecimal = finite negative x := by
  rw [ofDecimal, Decimal.nearest?_eq_of_value_eq (Decimal.value_numeral _), ← ofDecimal,
    ofDecimal_shortest]

/-- The text of a finite double reads back as that double. -/
theorem ofPlain?_text_finite :
    ofPlain? ((finite negative x).textWith words).toList = some (finite negative x) := by
  have h := wellFormed_shortest x
  rw [toList_textWith_finite, ofPlain?_text negative h.isDigits_whole h.isDigit_fraction,
    ofDecimal_numeral_shortest]

/-- The text of any double reads back as that double. -/
theorem ofPlain?_toList_text (x : Binary64) : ofPlain? x.text.toList = some x := by
  cases x with
  | finite negative x => exact ofPlain?_text_finite NumberWords.plain negative x
  | infinite negative => cases negative <;> decide
  | nan => decide

/-- What holds of the digits, the marks between them and the words holds of all characters of the
text of a double. -/
theorem forall_mem_textWith {words : NumberWords} {p : Char → Prop}
    (hdigit : ∀ c, c.isDigit = true → p c) (hmark : ∀ c ∈ ['.', 'e', '-', '+'], p c)
    (hword : ∀ c ∈ words.infinity.toList ++ words.nan.toList, p c) (x : Binary64) :
    ∀ c ∈ (x.textWith words).toList, p c := by
  have hsign (negative : Bool) : ∀ c ∈ (signText negative).toList, p c := by
    cases negative with
    | true => exact List.forall_mem_singleton.mpr (hmark '-' (by decide))
    | false => exact List.forall_mem_nil _
  rw [List.forall_mem_append] at hword
  cases x with
  | finite negative x =>
    have hformed := wellFormed_shortest x
    rw [toList_textWith_finite, List.forall_mem_append]
    exact ⟨hsign negative, Decimal.Numeral.forall_mem_text hdigit hmark
      hformed.isDigits_whole.isDigit hformed.isDigit_fraction⟩
  | infinite negative =>
    rw [textWith, String.toList_append, List.forall_mem_append]
    exact ⟨hsign negative, hword.1⟩
  | nan => exact hword.2

/-- A character that a reader of numbers takes as it is. -/
def IsBare (c : Char) : Prop := isWhiteSpace c = false ∧ plainDigit c = c ∧ c ≠ '_'

theorem isBare_of_isDigit {c : Char} (h : c.isDigit = true) : IsBare c :=
  ⟨isWhiteSpace_of_isDigit h, plainDigit_of_isDigit h, by rintro rfl; cases h⟩

/-- Nothing is taken away in front of the reading where there is nothing to take away. -/
theorem ofText?_of_isBare {text : List Char} (h : ∀ c ∈ text, IsBare c) :
    ofText? (String.ofList text) = ofPlain? text := by
  have hplain : text.map plainDigit = text :=
    (List.map_congr_left fun c hc => (h c hc).2.1).trans (List.map_id' text)
  have hjoined : '_' ∉ text := fun hmem => (h '_' hmem).2.2 rfl
  rw [ofText?, String.toList_ofList, trim_eq_self fun c hc => (h c hc).1, hplain,
    Decimal.joinDigits?_of_not_mem hjoined, Option.bind_some]

theorem isBare_text {n : Decimal.Numeral} (hw : Lexeme.IsDigits n.whole)
    (hf : ∀ c ∈ n.fraction, c.isDigit = true) : ∀ c ∈ n.text, IsBare c := by
  have hmark : ∀ c ∈ ['.', 'e', '-', '+'],
      isWhiteSpace c = false ∧ plainDigit c = c ∧ c ≠ '_' :=
    List.all_iff_forall_prop.mp (by decide)
  exact n.forall_mem_text (fun _ => isBare_of_isDigit) hmark hw.isDigit hf

/-- A numeral denotes the double nearest to its decimal. -/
theorem ofText_numeral {n : Decimal.Numeral} (hw : Lexeme.IsDigits n.whole)
    (hf : ∀ c ∈ n.fraction, c.isDigit = true) :
    ofText (String.ofList n.text) = .ok (ofDecimal false n.toDecimal) := by
  have hread : ofPlain? n.text = some (ofDecimal false n.toDecimal) := ofPlain?_text false hw hf
  rw [ofText, ofText?_of_isBare (isBare_text hw hf), hread]

end Binary64

end LoxLexer
