import LoxLexer.Decimal.Layout
import LoxLexer.Decimal.Reader
import LoxLexer.Proofs.Decimal.Value
import LoxLexer.Proofs.Lexeme.Longest

/-!
# Numerals

A numeral is a written number in its parts: whole part, fraction and exponent. The written form of a
decimal is the text of a numeral (`text_numeral`) that denotes the same number (`value_numeral`), and
a reader that takes such a text apart finds that number again (`read?_text`).
-/
namespace LoxLexer.Decimal

structure Numeral where
  whole : List Char
  fraction : List Char
  exponent : Option Int

namespace Numeral

/-- The fraction with its point; nothing if there are no digits. -/
def fractionText (n : Numeral) : List Char := if n.fraction = [] then [] else '.' :: n.fraction

/-- The exponent with its mark, if there is one. -/
def scaleText (n : Numeral) : List Char := n.exponent.elim [] fun e => 'e' :: exponentText e

def text (n : Numeral) : List Char := n.whole ++ n.fractionText ++ n.scaleText

/-- The decimal that a numeral denotes. -/
def toDecimal (n : Numeral) : Decimal :=
  ⟨Nat.ofDigitChars 10 (n.whole ++ n.fraction) 0, -n.fraction.length + n.exponent.getD 0⟩

/-- Digits where digits must stand, no zero in front of others, and something behind the whole part
to tell the number from an integer. -/
structure WellFormed (n : Numeral) : Prop where
  isDigits_whole : Lexeme.IsDigits n.whole
  whole_eq_of_zero : n.whole.head? = some '0' → n.whole = ['0']
  isDigit_fraction : ∀ c ∈ n.fraction, c.isDigit = true
  not_integer : n.fraction ≠ [] ∨ n.exponent ≠ none

end Numeral

/-- The numeral that is written for a decimal. -/
def numeral (d : Decimal) : Numeral :=
  let digits := Nat.toDigits 10 d.coefficient
  if d.isPositional then
    if 0 ≤ d.exponent then ⟨digits ++ List.replicate d.exponent.toNat '0', ['0'], none⟩
    else
      let places := (-d.exponent).toNat
      if places < digits.length then
        ⟨digits.take (digits.length - places), digits.drop (digits.length - places), none⟩
      else ⟨['0'], List.replicate (places - digits.length) '0' ++ digits, none⟩
  else ⟨digits.take 1, digits.drop 1, some d.leadingExponent⟩

theorem text_numeral (d : Decimal) : d.numeral.text = d.written := by
  have hne : Nat.toDigits 10 d.coefficient ≠ [] := Nat.toDigits_ne_nil
  simp only [numeral, written]
  split
  · rw [positional]
    split
    · simp [Numeral.text, Numeral.fractionText, Numeral.scaleText]
    · rw [insertPoint]
      split
      · rename_i hnegative hplaces
        have hdrop : (Nat.toDigits 10 d.coefficient).drop
            ((Nat.toDigits 10 d.coefficient).length - (-d.exponent).toNat) ≠ [] := by
          rw [← List.length_pos_iff, List.length_drop]
          omega
        simp [Numeral.text, Numeral.fractionText, Numeral.scaleText, hdrop]
      · simp [Numeral.text, Numeral.fractionText, Numeral.scaleText, hne]
  · obtain ⟨digit, more, hdigits⟩ := List.exists_cons_of_ne_nil hne
    rw [hdigits, scientific.eq_def]
    cases more <;> simp [Numeral.text, Numeral.fractionText, Numeral.scaleText]

theorem ofDigitChars_zeros_append (zeros : Nat) (digits : List Char) :
    Nat.ofDigitChars 10 (List.replicate zeros '0' ++ digits) 0 = Nat.ofDigitChars 10 digits 0 := by
  rw [Nat.ofDigitChars_append, Nat.ofDigitChars_replicate_zero, Nat.mul_zero]

/-- A numeral with the digits of a decimal denotes it if its point and its exponent agree. -/
theorem toDecimal_eq {d : Decimal} {n : Numeral}
    (hdigits : Nat.ofDigitChars 10 (n.whole ++ n.fraction) 0 = d.coefficient)
    (hexponent : -n.fraction.length + n.exponent.getD 0 = d.exponent) : n.toDecimal = d := by
  rw [Numeral.toDecimal, hdigits, hexponent]

/-- The numeral of a decimal denotes the same number. -/
theorem value_numeral (d : Decimal) : d.numeral.toDecimal.value = d.value := by
  have hdigits : Nat.ofDigitChars 10 (Nat.toDigits 10 d.coefficient) 0 = d.coefficient :=
    Nat.ofDigitChars_ten_toDigits
  have hlength : 0 < (Nat.toDigits 10 d.coefficient).length := Nat.length_toDigits_pos
  simp only [numeral]
  split
  · split
    · rename_i hexponent
      -- zeros are put in front of the point, and one behind it
      obtain ⟨zeros, hzeros⟩ := Int.eq_ofNat_of_zero_le hexponent
      have hcoefficient : Nat.ofDigitChars 10 (Nat.toDigits 10 d.coefficient ++
          List.replicate zeros '0' ++ ['0']) 0 = 10 ^ (zeros + 1) * d.coefficient := by
        rw [List.append_assoc, ← List.replicate_succ', Nat.ofDigitChars_append, hdigits,
          Nat.ofDigitChars_replicate_zero]
      simp only [Numeral.toDecimal, value, hzeros, Int.toNat_natCast, hcoefficient,
        List.length_singleton, Option.getD_none, add_zero, zpow_natCast]
      push_cast
      rw [pow_succ, zpow_neg, zpow_one]
      field_simp
    · split
      · refine congrArg value (toDecimal_eq ?_ ?_)
        · rw [List.take_append_drop, hdigits]
        · simp only [List.length_drop, Option.getD_none]
          omega
      · refine congrArg value (toDecimal_eq ?_ ?_)
        · rw [List.singleton_append, ← List.cons_append, ← List.replicate_succ,
            ofDigitChars_zeros_append, hdigits]
        · simp only [List.length_append, List.length_replicate, Option.getD_none]
          omega
  · refine congrArg value (toDecimal_eq ?_ ?_)
    · rw [List.take_append_drop, hdigits]
    · simp only [List.length_drop, Option.getD_some, leadingExponent, digitCount]
      omega

theorem isDigit_toDigits (n : Nat) : ∀ c ∈ Nat.toDigits 10 n, c.isDigit = true :=
  fun _ hc => Nat.isDigit_of_mem_toDigits (by decide) (by decide) hc

/-- Only zero is written with a zero in front. -/
theorem head?_toDigits_ne {n : Nat} (h : n ≠ 0) : (Nat.toDigits 10 n).head? ≠ some '0' := by
  induction n using Nat.strong_induction_on with
  | _ n ih =>
    rw [Nat.toDigits_eq_if (by decide)]
    split
    · simpa using h
    · rename_i hbase
      rw [List.head?_append_of_ne_nil _ Nat.toDigits_ne_nil]
      exact ih (n / 10) (by omega) (by omega)

theorem isDigits_of_isDigit {text : List Char} (hne : text ≠ [])
    (h : ∀ c ∈ text, c.isDigit = true) : Lexeme.IsDigits text :=
  ⟨hne, fun c hc => isDigit_iff.mp (h c hc)⟩

theorem isDigit_replicate_zero (n : Nat) : ∀ c ∈ List.replicate n '0', c.isDigit = true := by
  intro c hc
  rw [List.eq_of_mem_replicate hc]
  rfl

theorem wellFormed_numeral {d : Decimal} (h : d.coefficient = 0 → d.exponent = 0) :
    d.numeral.WellFormed := by
  have hne : Nat.toDigits 10 d.coefficient ≠ [] := Nat.toDigits_ne_nil
  have hdigit := isDigit_toDigits d.coefficient
  simp only [numeral]
  split
  · split
    · refine ⟨isDigits_of_isDigit (by simp) (List.forall_mem_append.mpr
        ⟨hdigit, isDigit_replicate_zero _⟩), fun hhead => ?_, isDigit_replicate_zero 1,
        .inl (by simp)⟩
      rw [List.head?_append_of_ne_nil _ hne] at hhead
      have hzero : d.coefficient = 0 := by_contra fun hz => head?_toDigits_ne hz hhead
      rw [hzero, h hzero]
      rfl
    · rename_i hexponent
      have hcoefficient : d.coefficient ≠ 0 := fun hz => hexponent (h hz).ge
      split
      · rename_i hplaces
        refine ⟨isDigits_of_isDigit ?_ fun c hc => hdigit c (List.mem_of_mem_take hc),
          fun hhead => ?_, fun c hc => hdigit c (List.mem_of_mem_drop hc), .inl ?_⟩
        · rw [← List.length_pos_iff, List.length_take]
          omega
        · rw [List.head?_take, if_neg (by omega)] at hhead
          exact absurd hhead (head?_toDigits_ne hcoefficient)
        · rw [← List.length_pos_iff, List.length_drop]
          omega
      · exact ⟨isDigits_of_isDigit (by simp) (isDigit_replicate_zero 1), fun _ => rfl,
          List.forall_mem_append.mpr ⟨isDigit_replicate_zero _, hdigit⟩, .inl (by simp)⟩
  · obtain ⟨digit, more, hdigits⟩ := List.exists_cons_of_ne_nil hne
    rw [hdigits] at hdigit ⊢
    refine ⟨isDigits_of_isDigit (by simp) fun c hc => hdigit c (List.mem_of_mem_take hc),
      fun hhead => ?_, fun c hc => hdigit c (List.mem_of_mem_drop hc), .inr (by simp)⟩
    simpa using hhead

namespace Numeral

variable {n : Numeral}

/-- No digit stands behind the fraction. -/
theorem not_isDigit_scaleText (n : Numeral) {rest : List Char}
    (h : ∀ c, rest.head? = some c → c.isDigit = false) :
    ∀ c, (n.scaleText ++ rest).head? = some c → c.isDigit = false := by
  rw [scaleText]
  cases n.exponent with
  | none => exact h
  | some e => exact Lexeme.forall_head?_cons rfl

/-- No digit stands behind the whole part. -/
theorem not_isDigit_fractionText (n : Numeral) {rest : List Char}
    (h : ∀ c, rest.head? = some c → c.isDigit = false) :
    ∀ c, (n.fractionText ++ (n.scaleText ++ rest)).head? = some c → c.isDigit = false := by
  rw [fractionText]
  split
  · exact n.not_isDigit_scaleText h
  · exact Lexeme.forall_head?_cons rfl

/-- The digits of an exponent. -/
theorem isDigits_exponent (e : Int) :
    Lexeme.IsDigits ((Nat.toDigits 10 e.natAbs).leftpad 2 '0') := by
  refine isDigits_of_isDigit (by simp [List.leftpad, Nat.toDigits_ne_nil]) ?_
  rw [List.leftpad]
  exact List.forall_mem_append.mpr ⟨isDigit_replicate_zero _, isDigit_toDigits _⟩

/-- What holds of the digits and of the marks between them holds of all characters of a numeral. -/
theorem forall_mem_text {p : Char → Prop} (hdigit : ∀ c, c.isDigit = true → p c)
    (hmark : ∀ c ∈ ['.', 'e', '-', '+'], p c) (hw : ∀ c ∈ n.whole, c.isDigit = true)
    (hf : ∀ c ∈ n.fraction, c.isDigit = true) : ∀ c ∈ n.text, p c := by
  simp only [List.forall_mem_cons] at hmark
  obtain ⟨hpoint, he, hminus, hplus, -⟩ := hmark
  rw [text, List.forall_mem_append, List.forall_mem_append]
  refine ⟨⟨fun c hc => hdigit c (hw c hc), ?_⟩, ?_⟩
  · rw [fractionText]
    split
    · exact List.forall_mem_nil _
    · exact List.forall_mem_cons.mpr ⟨hpoint, fun c hc => hdigit c (hf c hc)⟩
  · rw [scaleText]
    cases n.exponent with
    | none => exact List.forall_mem_nil _
    | some e =>
      refine List.forall_mem_cons.mpr ⟨he, List.forall_mem_cons.mpr ⟨?_, fun c hc => ?_⟩⟩
      · split
        · exact hminus
        · exact hplus
      · exact hdigit c ((isDigits_exponent e).isDigit c hc)

theorem ofDigitChars_exponent (e : Int) :
    Nat.ofDigitChars 10 ((Nat.toDigits 10 e.natAbs).leftpad 2 '0') 0 = e.natAbs := by
  rw [List.leftpad, ofDigitChars_zeros_append, Nat.ofDigitChars_ten_toDigits]

theorem readExponent?_sign {digits : List Char} (h : Lexeme.IsDigits digits) (negative : Bool) :
    readExponent? ('e' :: (if negative then '-' else '+') :: digits) =
      some (if negative then -(Nat.ofDigitChars 10 digits 0 : Int)
        else Nat.ofDigitChars 10 digits 0) := by
  have hall := List.all_eq_true.mpr h.isDigit
  cases negative <;> simp [readExponent?, takeSign, hall, h.1]

/-- The exponent behind a number is read. -/
theorem readExponent?_scaleText (n : Numeral) :
    readExponent? n.scaleText = some (n.exponent.getD 0) := by
  rw [scaleText]
  cases n.exponent with
  | none => rfl
  | some e =>
    have hread := readExponent?_sign (isDigits_exponent e) (e < 0)
    rw [ofDigitChars_exponent] at hread
    simp only [decide_eq_true_eq] at hread
    rw [Option.elim_some, exponentText, hread, Option.getD_some, Option.some.injEq]
    omega

theorem takePoint_fractionText (h : ∀ c ∈ n.fraction, c.isDigit = true) :
    takePoint (n.fractionText ++ n.scaleText) = (n.fraction, n.scaleText) := by
  have hscale := @not_isDigit_scaleText n [] (by simp)
  rw [List.append_nil] at hscale
  rw [fractionText]
  split
  · rename_i hnil
    rw [hnil, scaleText]
    cases n.exponent <;> rfl
  · exact Prod.ext (Lexeme.takeWhile_append_of_stop h hscale)
      (Lexeme.dropWhile_append_of_stop h hscale)

/-- A reader that takes the text of a numeral apart finds its decimal. -/
theorem read?_text (hw : Lexeme.IsDigits n.whole) (hf : ∀ c ∈ n.fraction, c.isDigit = true) :
    read? n.text = some n.toDecimal := by
  have hwhole := hw.isDigit
  have hfraction := @not_isDigit_fractionText n [] (by simp)
  rw [List.append_nil] at hfraction
  simp [read?, text, List.append_assoc, Lexeme.takeWhile_append_of_stop hwhole hfraction,
    Lexeme.dropWhile_append_of_stop hwhole hfraction, takePoint_fractionText hf,
    readExponent?_scaleText, hw.1, ofParts, toDecimal]

end Numeral

end LoxLexer.Decimal
