import LoxLexer.Proofs.Json.Numbers
import LoxLexer.Proofs.Json.Strings
import LoxLexer.Proofs.Json.Symbols

/-!
# A JSON value reads back

A value is written as the texts of its symbols, with a space behind each comma and each colon. What
is written reads back as the value (`read?_text`), and is printable ASCII on a single line
(`isPrintableAscii_text`).
-/
namespace LoxLexer.Json

def Scalar.text : Scalar → List Char
  | null => "null".toList
  | boolean true => "true".toList
  | boolean false => "false".toList
  | integer n => n.repr.toList
  | double x => (x.textWith NumberWords.json).toList
  | string s => (jsonString s).toList

namespace Symbol

def text : Symbol → List Char
  | openBrace => ['\x7b']
  | closeBrace => ['\x7d']
  | openBracket => ['[']
  | closeBracket => [']']
  | colon => [':', ' ']
  | comma => [',', ' ']
  | scalar value => value.text

def isScalar : Symbol → Bool
  | scalar _ => true
  | _ => false

/-- Two values do not stand side by side. -/
def Apart (first second : Symbol) : Prop := first.isScalar = true → second.isScalar = false

end Symbol

/-- The text that is written for a value. -/
def text (json : Json) : List Char := json.symbols.flatMap Symbol.text

variable {rest : List Char}

/-! ## One symbol -/

theorem takeNumber?_eq_none {c : Char} (hminus : c ≠ '-') (hdigit : c.isDigit = false)
    (rest : List Char) : takeNumber? (c :: rest) = none := by
  have hsign : takeSign (c :: rest) = ([], c :: rest) := by
    rw [takeSign.eq_def]
    split
    · rename_i heq
      cases heq
      exact absurd rfl hminus
    · rfl
  simp [takeNumber?, hsign, hdigit]

/-- A number is taken before anything else is tried. -/
theorem takeSymbol?_of_takeNumber? {text : List Char} {value : Scalar}
    (h : takeNumber? text = some (value, rest)) :
    takeSymbol? text = some (.scalar value, rest) := by
  cases text with
  | nil => cases h
  | cons c more =>
    have hfirst : c = '-' ∨ c.isDigit = true := by
      by_contra hother
      rw [not_or, Bool.not_eq_true] at hother
      rw [takeNumber?_eq_none hother.1 hother.2] at h
      cases h
    have hquote : c ≠ '"' := by
      rintro rfl
      exact absurd hfirst (by decide)
    have hmark : marks.lookup c = none := by
      have hother : ∀ mark ∈ marks, ¬(mark.1 = '-' ∨ mark.1.isDigit = true) := by decide
      rw [List.lookup_eq_none_iff]
      intro mark hmark
      rw [bne_iff_ne]
      rintro rfl
      exact hother mark hmark hfirst
    simp [takeSymbol?, hmark, hquote, h]

theorem takeSymbol?_word {word : String} {value : Scalar}
    (h : (word, value) ∈ words) (rest : List Char) :
    takeSymbol? (word.toList ++ rest) = some (.scalar value, rest) := by
  simp only [words, List.mem_cons, List.not_mem_nil, or_false, Prod.mk.injEq] at h
  obtain ⟨rfl, rfl⟩ | ⟨rfl, rfl⟩ | ⟨rfl, rfl⟩ | ⟨rfl, rfl⟩ | ⟨rfl, rfl⟩ | ⟨rfl, rfl⟩ := h <;> rfl

theorem takeSymbol?_string (s : String) (rest : List Char) :
    takeSymbol? ((jsonString s).toList ++ rest) = some (.scalar (.string s), rest) := by
  have htaken := takeString?_flatMap_escape s.toList rest
  rw [String.ofList_toList] at htaken
  have hmark : marks.lookup '"' = none := by decide
  simp [jsonString, JsonString.encode, takeSymbol?, hmark, htaken]

/-- The text of a value without parts is read as that value. -/
theorem takeSymbol?_scalar (value : Scalar) (h : EndsNumber rest) :
    takeSymbol? (value.text ++ rest) = some (.scalar value, rest) := by
  cases value with
  | null => exact takeSymbol?_word (by decide) rest
  | boolean value => cases value <;> exact takeSymbol?_word (by decide) rest
  | integer n => exact takeSymbol?_of_takeNumber? (takeNumber?_integer n h)
  | double x =>
    cases x with
    | finite negative x => exact takeSymbol?_of_takeNumber? (takeNumber?_finite _ negative x h)
    | infinite negative => cases negative <;> exact takeSymbol?_word (by decide) rest
    | nan => exact takeSymbol?_word (by decide) rest
  | string s => exact takeSymbol?_string s rest

/-- No symbol begins with a space. -/
theorem takeSymbol?_of_isSpace {c : Char} (h : isSpace c = true) (rest : List Char) :
    takeSymbol? (c :: rest) = none := by
  have hc : c = ' ' ∨ c = '\t' ∨ c = '\n' ∨ c = '\r' := by simpa [isSpace, or_assoc] using h
  obtain rfl | rfl | rfl | rfl := hc <;> rfl

theorem symbols?_space (rest : List Char) :
    symbols? (' ' :: rest) = symbols? rest := by
  rw [symbols?]
  rfl

theorem symbols?_of_takeSymbol? {text : List Char} {symbol : Symbol}
    (h : takeSymbol? text = some (symbol, rest)) :
    symbols? text = (symbols? rest).map (symbol :: ·) := by
  cases text with
  | nil => cases h
  | cons c more =>
    have hspace : ¬isSpace c = true := by
      intro hspace
      rw [takeSymbol?_of_isSpace hspace] at h
      cases h
    rw [symbols?, if_neg hspace]
    split
    · rename_i hnone
      rw [h] at hnone
      cases hnone
    · rename_i hsome
      rw [h] at hsome
      cases hsome
      rfl

/-- The text of a symbol is read as that symbol, the space behind it passed over. -/
theorem symbols?_text (symbol : Symbol) (h : symbol.isScalar = true → EndsNumber rest) :
    symbols? (symbol.text ++ rest) = (symbols? rest).map (symbol :: ·) := by
  cases symbol with
  | scalar value => exact symbols?_of_takeSymbol? (takeSymbol?_scalar value (h rfl))
  | colon | comma =>
    exact (symbols?_of_takeSymbol? rfl).trans (congrArg _ (symbols?_space rest))
  | _ => exact symbols?_of_takeSymbol? rfl

/-! ## Many symbols -/

/-- A number is not longer for the symbols behind it. -/
theorem endsNumber_flatMap_text {symbol : Symbol} (hscalar : symbol.isScalar = false)
    (more : List Symbol) : EndsNumber ((symbol :: more).flatMap Symbol.text) := by
  cases symbol with
  | scalar value => cases hscalar
  | _ => exact Lexeme.forall_head?_cons (by decide)

theorem symbols?_flatMap_text {symbols : List Symbol} (h : symbols.IsChain Symbol.Apart) :
    symbols? (symbols.flatMap Symbol.text) = some symbols := by
  induction symbols with
  | nil =>
    rw [List.flatMap_nil, symbols?]
  | cons symbol symbols ih =>
    have hends : symbol.isScalar = true → EndsNumber (symbols.flatMap Symbol.text) := by
      intro hscalar
      cases symbols with
      | nil =>
        intro c hc
        cases hc
      | cons next more =>
        exact endsNumber_flatMap_text ((List.isChain_cons_cons.mp h).1 hscalar) more
    rw [List.flatMap_cons, symbols?_text symbol hends, ih h.tail, Option.map_some]

namespace State

/-- A value without parts is complete, or it is the name of a member. -/
theorem after?_scalar {state next : State} {value : Scalar}
    (h : state.after? (.scalar value) = some next) :
    (∃ json stack, next = behind json stack) ∨
      ∃ before name stack, next = atColon before name stack := by
  have hname {before : List (String × Json)} {stack : List Frame}
      (h : name? before stack (.scalar value) = some next) :
      ∃ before name stack, next = atColon before name stack := by
    cases value <;> cases h
    exact ⟨_, _, _, rfl⟩
  cases state with
  | atValue stack | atFirstItem stack =>
    cases h
    exact .inl ⟨_, _, rfl⟩
  | atFirstName stack | atName before stack => exact .inr (hname h)
  | atColon before name stack => cases h
  | behind json stack =>
    cases stack with
    | nil => cases h
    | cons frame stack => cases frame <;> cases h

/-- Behind a value without parts there is no place for another. -/
theorem apart_after? {state middle last : State} {first second : Symbol}
    (hfirst : state.after? first = some middle) (hsecond : middle.after? second = some last) :
    first.Apart second := by
  intro hscalar
  cases first with
  | scalar value =>
    cases second with
    | scalar other =>
      obtain ⟨json, stack, rfl⟩ | ⟨before, name, stack, rfl⟩ := after?_scalar hfirst
      · cases stack with
        | nil => cases hsecond
        | cons frame stack => cases frame <;> cases hsecond
      · cases hsecond
    | _ => rfl
  | _ => cases hscalar

theorem isChain_of_run? {state last : State} {symbols : List Symbol}
    (h : state.run? symbols = some last) : symbols.IsChain Symbol.Apart := by
  induction symbols generalizing state with
  | nil => exact .nil
  | cons first symbols ih =>
    rw [run?_cons] at h
    obtain ⟨middle, hfirst, hlast⟩ := Option.bind_eq_some_iff.mp h
    have hchain := ih hlast
    cases symbols with
    | nil => exact .singleton _
    | cons second symbols =>
      rw [run?_cons] at hlast
      obtain ⟨next, hsecond, -⟩ := Option.bind_eq_some_iff.mp hlast
      exact .cons_cons (apart_after? hfirst hsecond) hchain

end State

/-- What is written for a value reads back as that value. -/
theorem read?_text (json : Json) : read? json.text = some json := by
  have hrun := State.run?_symbols [] [] json
  rw [List.append_nil] at hrun
  rw [read?, text, symbols?_flatMap_text (State.isChain_of_run? hrun), Option.bind_some,
    assemble?_symbols]

/-! ## Characters -/

/-- A character from the space to the tilde. -/
def IsPrintableAscii (c : Char) : Prop := 0x20 ≤ c.toNat ∧ c.toNat ≤ 0x7E

instance (c : Char) : Decidable (IsPrintableAscii c) := inferInstanceAs (Decidable (_ ∧ _))

theorem isPrintableAscii_of_all {text : List Char}
    (h : (text.all fun c => decide (IsPrintableAscii c)) = true) :
    ∀ c ∈ text, IsPrintableAscii c := by
  simpa using h

theorem isPrintableAscii_of_isDigit {c : Char} (h : c.isDigit = true) : IsPrintableAscii c := by
  obtain ⟨hzero, hnine⟩ := isDigit_iff.mp h
  have hzero : '0'.toNat ≤ c.toNat := hzero
  have hnine : c.toNat ≤ '9'.toNat := hnine
  exact ⟨hzero.trans' (by decide), hnine.trans (by decide)⟩

theorem isPrintableAscii_signText (negative : Bool) :
    ∀ c ∈ (Binary64.signText negative).toList, IsPrintableAscii c := by
  cases negative <;> exact isPrintableAscii_of_all (by decide)

theorem isPrintableAscii_repr (n : Int) : ∀ c ∈ n.repr.toList, IsPrintableAscii c := by
  rw [toList_repr, List.forall_mem_append]
  exact ⟨isPrintableAscii_signText _, fun c hc =>
    isPrintableAscii_of_isDigit (Decimal.isDigit_toDigits _ c hc)⟩

/-- What holds of the sixteen digits holds of all characters of a hexadecimal number. -/
theorem forall_mem_hexText {p : Char → Prop} (h : ∀ d < 16, p d.digitChar) (width n : Nat) :
    ∀ c ∈ hexText width n, p c := by
  have hdigits : ∀ c ∈ Nat.toDigits 16 n, p c := by
    induction n using Nat.strongRecOn with
    | ind n ih =>
      rw [Nat.toDigits_eq_if (by decide)]
      split
      · rename_i hlt
        exact List.forall_mem_singleton.mpr (h n hlt)
      · rw [List.forall_mem_append, List.forall_mem_singleton]
        exact ⟨ih (n / 16) (by omega), h _ (Nat.mod_lt n (by decide))⟩
  rw [hexText, List.leftpad, List.forall_mem_append]
  refine ⟨fun c hc => ?_, hdigits⟩
  rw [List.eq_of_mem_replicate hc]
  exact h 0 (by decide)

theorem isPrintableAscii_escape (c : Char) : ∀ d ∈ JsonString.escape c, IsPrintableAscii d := by
  cases hletter : JsonString.letter? c with
  | some letter =>
    have hprintable : IsPrintableAscii letter := by
      unfold JsonString.letter? at hletter
      repeat' split at hletter
      all_goals cases hletter
      all_goals decide
    simp only [JsonString.escape, hletter]
    exact List.forall_mem_cons.mpr ⟨by decide, List.forall_mem_singleton.mpr hprintable⟩
  | none =>
    simp only [JsonString.escape, hletter]
    split
    · rename_i hplain
      rw [Bool.and_eq_true, decide_eq_true_eq, decide_eq_true_eq] at hplain
      exact List.forall_mem_singleton.mpr hplain
    · rw [List.forall_mem_flatMap]
      exact fun unit _ => List.forall_mem_cons.mpr ⟨by decide,
        List.forall_mem_cons.mpr ⟨by decide, forall_mem_hexText (by decide) 4 unit⟩⟩

theorem isPrintableAscii_jsonString (s : String) :
    ∀ c ∈ (jsonString s).toList, IsPrintableAscii c := by
  rw [jsonString, String.toList_ofList, JsonString.encode, List.forall_mem_append,
    List.forall_mem_cons, List.forall_mem_flatMap]
  exact ⟨⟨by decide, fun c _ => isPrintableAscii_escape c⟩, isPrintableAscii_of_all (by decide)⟩

theorem Scalar.isPrintableAscii_text (value : Scalar) :
    ∀ c ∈ value.text, IsPrintableAscii c := by
  cases value with
  | null => exact isPrintableAscii_of_all (by decide)
  | boolean value => cases value <;> exact isPrintableAscii_of_all (by decide)
  | integer n => exact isPrintableAscii_repr n
  | double x =>
    exact x.forall_mem_textWith (fun _ => isPrintableAscii_of_isDigit)
      (isPrintableAscii_of_all (by decide)) (isPrintableAscii_of_all (by decide))
  | string s => exact isPrintableAscii_jsonString s

/-- What is written for a value is printable ASCII, so it has no line breaks. -/
theorem isPrintableAscii_text (json : Json) : ∀ c ∈ json.text, IsPrintableAscii c := by
  rw [text, List.forall_mem_flatMap]
  intro symbol _
  cases symbol with
  | scalar value => exact value.isPrintableAscii_text
  | _ => exact isPrintableAscii_of_all (by decide)

end LoxLexer.Json
