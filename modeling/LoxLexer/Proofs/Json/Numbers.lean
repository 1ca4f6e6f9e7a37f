import LoxLexer.Proofs.Decimal.ReadBack
import LoxLexer.Proofs.Json.Reader

/-!
# A JSON number reads back

In front of anything that cannot go on a number, the text of a numeral is read as the double that it
denotes (`takeNumber?_numeral`), so that of a finite double as the double (`takeNumber?_finite`), and
that of an integer as the integer (`takeNumber?_integer`).
-/
namespace LoxLexer.Json

open Decimal

variable {rest : List Char}

/-- What stands behind a number without making it longer. -/
def EndsNumber (rest : List Char) : Prop :=
  ∀ c, rest.head? = some c → c.isDigit = false ∧ c ≠ '.' ∧ c ≠ 'e' ∧ c ≠ 'E'

theorem EndsNumber.not_isDigit (h : EndsNumber rest) :
    ∀ c, rest.head? = some c → c.isDigit = false := fun c hc => (h c hc).1

theorem takeScale_of_end (h : EndsNumber rest) : takeScale rest = ([], rest) := by
  cases rest with
  | nil => rfl
  | cons c rest =>
    obtain ⟨-, -, he, hE⟩ := h c rfl
    simp [takeScale, he, hE]

theorem takeFraction_of_end (h : ∀ c, rest.head? = some c → c ≠ '.') :
    Lexeme.takeFraction rest = ([], rest) := by
  rw [Lexeme.takeFraction.eq_def]
  split
  · exact absurd rfl (h '.' rfl)
  · rfl

theorem takeScaleSign_cons (negative : Bool) (text : List Char) :
    takeScaleSign ((if negative then '-' else '+') :: text) =
      ([if negative then '-' else '+'], text) := by
  cases negative <;> rfl

/-- An exponent with a sign is taken as a whole. -/
theorem takeScale_sign {digits : List Char} (hdigits : Lexeme.IsDigits digits) (negative : Bool)
    (h : ∀ c, rest.head? = some c → c.isDigit = false) :
    takeScale ('e' :: (if negative then '-' else '+') :: digits ++ rest) =
      ('e' :: (if negative then '-' else '+') :: digits, rest) := by
  obtain ⟨c, tail, hcons, hc, -⟩ := hdigits.exists_cons
  have hhead : (digits ++ rest).head?.any Char.isDigit = true := by simp [hcons, hc]
  simp only [List.cons_append, takeScale, takeScaleSign_cons, hhead, decide_true, Bool.true_or,
    Bool.and_true, if_true, Lexeme.takeWhile_append_of_stop hdigits.isDigit h,
    Lexeme.dropWhile_append_of_stop hdigits.isDigit h, List.nil_append]

/-- The exponent of a numeral is taken as a whole. -/
theorem takeScale_scaleText (n : Numeral) (h : EndsNumber rest) :
    takeScale (n.scaleText ++ rest) = (n.scaleText, rest) := by
  rw [Numeral.scaleText]
  cases n.exponent with
  | none => exact takeScale_of_end h
  | some e =>
    have htaken := takeScale_sign (Numeral.isDigits_exponent e) (e < 0) h.not_isDigit
    rw [Option.elim_some, exponentText]
    simpa only [decide_eq_true_eq] using htaken

/-- The fraction of a numeral is taken as a whole. -/
theorem takeFraction_fractionText {n : Numeral} (hn : n.WellFormed) (h : EndsNumber rest) :
    Lexeme.takeFraction (n.fractionText ++ (n.scaleText ++ rest)) =
      (n.fractionText, n.scaleText ++ rest) := by
  rw [Numeral.fractionText]
  split
  · refine takeFraction_of_end ?_
    rw [Numeral.scaleText]
    cases n.exponent with
    | none => exact fun c hc => (h c hc).2.1
    | some e => exact Lexeme.forall_head?_cons (by decide)
  · rename_i hne
    exact Lexeme.takeFraction_of_isDigits (isDigits_of_isDigit hne hn.isDigit_fraction)
      (n.not_isDigit_scaleText h.not_isDigit)

theorem takeSign_signText {size : List Char} (h : ∀ c, size.head? = some c → c ≠ '-')
    (negative : Bool) :
    takeSign ((Binary64.signText negative).toList ++ size) =
      ((Binary64.signText negative).toList, size) := by
  cases negative with
  | true => rfl
  | false =>
    change takeSign size = ([], size)
    rw [takeSign.eq_def]
    split
    · exact absurd rfl (h '-' rfl)
    · rfl

/-- A number is taken apart into sign, whole part, fraction and exponent. -/
theorem takeNumber?_parts {whole fraction scale : List Char} (negative : Bool)
    (hwhole : Lexeme.IsDigits whole) (hzero : whole.head? = some '0' → whole = ['0'])
    (hstop : ∀ c, (fraction ++ (scale ++ rest)).head? = some c → c.isDigit = false)
    (hfraction : Lexeme.takeFraction (fraction ++ (scale ++ rest)) = (fraction, scale ++ rest))
    (hscale : takeScale (scale ++ rest) = (scale, rest)) :
    takeNumber? ((Binary64.signText negative).toList ++ (whole ++ (fraction ++ (scale ++ rest)))) =
      if fraction = [] ∧ scale = [] then
        let n : Int := Nat.ofDigitChars 10 whole 0
        some (.integer (if negative then -n else n), rest)
      else
        (Binary64.ofPlain? ((Binary64.signText negative).toList ++
          (whole ++ fraction ++ scale))).map fun x => (.double x, rest) := by
  obtain ⟨c, tail, hcons, hc, -⟩ := hwhole.exists_cons
  have hminus : ∀ d, (whole ++ (fraction ++ (scale ++ rest))).head? = some d → d ≠ '-' := by
    rintro d hd rfl
    rw [hcons, List.cons_append, List.head?_cons, Option.some.injEq] at hd
    rw [hd] at hc
    cases hc
  have hproper : ¬(whole = [] || whole.head? = some '0' && whole ≠ ['0']) = true := by
    simpa [hwhole.1] using hzero
  have hsign : (if (Binary64.signText negative).toList = [] then
      (Nat.ofDigitChars 10 whole 0 : Int) else -Nat.ofDigitChars 10 whole 0) =
      if negative then -(Nat.ofDigitChars 10 whole 0 : Int) else Nat.ofDigitChars 10 whole 0 := by
    cases negative <;> rfl
  simp only [takeNumber?, takeSign_signText hminus,
    Lexeme.takeWhile_append_of_stop hwhole.isDigit hstop,
    Lexeme.dropWhile_append_of_stop hwhole.isDigit hstop, hfraction, hscale, if_neg hproper, hsign,
    Bool.and_eq_true, decide_eq_true_eq]

/-- The text of a numeral is read as the double that it denotes. -/
theorem takeNumber?_numeral {n : Numeral} (hn : n.WellFormed) (negative : Bool)
    (h : EndsNumber rest) :
    takeNumber? ((Binary64.signText negative).toList ++ n.text ++ rest) =
      some (.double (Binary64.ofDecimal negative n.toDecimal), rest) := by
  have hparts := takeNumber?_parts negative hn.isDigits_whole hn.whole_eq_of_zero
    (n.not_isDigit_fractionText h.not_isDigit) (takeFraction_fractionText hn h)
    (takeScale_scaleText n h)
  have hdouble : ¬(n.fractionText = [] ∧ n.scaleText = []) := by
    rintro ⟨hfraction, hscale⟩
    obtain hne | hne := hn.not_integer
    · simp [Numeral.fractionText, hne] at hfraction
    · obtain ⟨e, he⟩ := Option.ne_none_iff_exists'.mp hne
      simp [Numeral.scaleText, he] at hscale
  rw [if_neg hdouble, ← Numeral.text,
    Binary64.ofPlain?_text negative hn.isDigits_whole hn.isDigit_fraction, Option.map_some]
    at hparts
  simpa only [Numeral.text, List.append_assoc] using hparts

/-- The text of a finite double is read as that double. -/
theorem takeNumber?_finite (words : NumberWords) (negative : Bool) (x : Magnitude)
    (h : EndsNumber rest) :
    takeNumber? (((Binary64.finite negative x).textWith words).toList ++ rest) =
      some (.double (.finite negative x), rest) := by
  rw [Binary64.toList_textWith_finite,
    takeNumber?_numeral (Binary64.wellFormed_shortest x) negative h,
    Binary64.ofDecimal_numeral_shortest]

/-- The digits of an integer behind its sign. -/
theorem toList_repr (n : Int) :
    n.repr.toList = (Binary64.signText (n < 0)).toList ++ Nat.toDigits 10 n.natAbs := by
  rw [Int.repr_eq_if]
  split
  · rename_i hnatural
    have hsize : n.toNat = n.natAbs := by omega
    rw [decide_eq_false hnatural.not_gt, Nat.toList_repr, hsize]
    rfl
  · rename_i hnegative
    have hsize : (-n).toNat = n.natAbs := by omega
    rw [decide_eq_true (Int.not_le.mp hnegative), String.toList_append, Nat.toList_repr, hsize]
    rfl

/-- The text of an integer is read as that integer. -/
theorem takeNumber?_integer (n : Int) (h : EndsNumber rest) :
    takeNumber? (n.repr.toList ++ rest) = some (.integer n, rest) := by
  have hdigits : Lexeme.IsDigits (Nat.toDigits 10 n.natAbs) :=
    isDigits_of_isDigit Nat.toDigits_ne_nil (isDigit_toDigits _)
  have hzero : (Nat.toDigits 10 n.natAbs).head? = some '0' → Nat.toDigits 10 n.natAbs = ['0'] := by
    intro hhead
    by_cases hne : n.natAbs = 0
    · rw [hne]
      rfl
    · exact absurd hhead (head?_toDigits_ne hne)
  have hparts := @takeNumber?_parts rest _ [] [] (n < 0) hdigits hzero h.not_isDigit
    (takeFraction_of_end fun c hc => (h c hc).2.1) (takeScale_of_end h)
  simp only [Nat.ofDigitChars_ten_toDigits, and_self, if_true, decide_eq_true_eq] at hparts
  rw [toList_repr, List.append_assoc]
  refine hparts.trans ?_
  congr 3
  omega

end LoxLexer.Json
