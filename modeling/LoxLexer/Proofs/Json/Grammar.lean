import LoxLexer.Proofs.Json.Written

/-!
# The grammar of JSON texts

`Json.IsText` says which texts are JSON, with no more words than `null`, `true` and `false`. Strings
and numbers with digits are written by it (`isString_jsonString`, `isNumber_numeral`,
`isNumber_repr`). A reader that only tells strings from what is outside of them finds no capital `I`
outside of the strings of a JSON text (`Plain.of_isText`), so there is no place in one for the word
`Infinity` (`not_isText_of_plain`).
-/
namespace LoxLexer.Json

/-! ## Texts -/

/-- White space, as much as there may be between the parts of a text. -/
def IsGap (text : List Char) : Prop := ∀ c ∈ text, isSpace c = true

/-- A zero, or digits that begin with another digit. -/
def IsWhole (text : List Char) : Prop :=
  text = ['0'] ∨ Lexeme.IsDigits text ∧ text.head? ≠ some '0'

/-- A point with digits behind it, or nothing. -/
def IsFraction (text : List Char) : Prop :=
  text = [] ∨ ∃ digits, Lexeme.IsDigits digits ∧ text = '.' :: digits

/-- An exponent with its mark, or nothing. -/
def IsScale (text : List Char) : Prop :=
  text = [] ∨ ∃ mark sign digits, (mark = 'e' ∨ mark = 'E') ∧
    (sign = [] ∨ sign = ['+'] ∨ sign = ['-']) ∧ Lexeme.IsDigits digits ∧
    text = mark :: (sign ++ digits)

def IsNumber (text : List Char) : Prop :=
  ∃ sign whole fraction scale, (sign = [] ∨ sign = ['-']) ∧ IsWhole whole ∧
    IsFraction fraction ∧ IsScale scale ∧ text = sign ++ (whole ++ fraction ++ scale)

def IsHexDigit (c : Char) : Prop :=
  '0' ≤ c ∧ c ≤ '9' ∨ 'a' ≤ c ∧ c ≤ 'f' ∨ 'A' ≤ c ∧ c ≤ 'F'

instance (c : Char) : Decidable (IsHexDigit c) := inferInstanceAs (Decidable (_ ∨ _))

/-- What may stand between the quotes of a string. -/
inductive IsCharacters : List Char → Prop
  | nil : IsCharacters []
  | plain {c : Char} {rest : List Char} (hcontrol : 0x20 ≤ c.toNat) (hquote : c ≠ '"')
      (hslash : c ≠ '\\') (h : IsCharacters rest) : IsCharacters (c :: rest)
  | letter {letter : Char} {rest : List Char}
      (hletter : letter ∈ ['"', '\\', '/', 'b', 'f', 'n', 'r', 't']) (h : IsCharacters rest) :
      IsCharacters ('\\' :: letter :: rest)
  | unit {digits rest : List Char} (hlength : digits.length = 4)
      (hdigits : ∀ c ∈ digits, IsHexDigit c) (h : IsCharacters rest) :
      IsCharacters ('\\' :: 'u' :: digits ++ rest)

def IsString (text : List Char) : Prop :=
  ∃ body, IsCharacters body ∧ text = '"' :: body ++ ['"']

/-- An object of members, each a name and a value with the white space around them. -/
def objectText (members : List (List Char × List Char)) : List Char :=
  '\x7b' :: [','].intercalate (members.map fun member => member.1 ++ ':' :: member.2) ++ ['\x7d']

/-- A value with white space around it or without. -/
inductive IsText : List Char → Prop
  | word {word : String} (h : word ∈ ["null", "true", "false"]) : IsText word.toList
  | number {text : List Char} (h : IsNumber text) : IsText text
  | string {text : List Char} (h : IsString text) : IsText text
  | emptyArray {gap : List Char} (h : IsGap gap) : IsText ('[' :: gap ++ [']'])
  | array {items : List (List Char)} (hne : items ≠ []) (h : ∀ item ∈ items, IsText item) :
      IsText ('[' :: [','].intercalate items ++ [']'])
  | emptyObject {gap : List Char} (h : IsGap gap) : IsText ('\x7b' :: gap ++ ['\x7d'])
  | object {members : List (List Char × List Char)} (hne : members ≠ [])
      (hname : ∀ member ∈ members, ∃ front name back, IsGap front ∧ IsString name ∧ IsGap back ∧
        member.1 = front ++ name ++ back)
      (h : ∀ member ∈ members, IsText member.2) : IsText (objectText members)
  | padded {front text back : List Char} (hfront : IsGap front) (h : IsText text)
      (hback : IsGap back) : IsText (front ++ text ++ back)

/-! ## What is written -/

theorem isWhole_of_isDigits {digits : List Char} (h : Lexeme.IsDigits digits)
    (hzero : digits.head? = some '0' → digits = ['0']) : IsWhole digits := by
  by_cases hhead : digits.head? = some '0'
  · exact .inl (hzero hhead)
  · exact .inr ⟨h, hhead⟩

theorem isSign_signText (negative : Bool) :
    (Binary64.signText negative).toList = [] ∨ (Binary64.signText negative).toList = ['-'] := by
  cases negative
  · exact .inl rfl
  · exact .inr rfl

theorem isNumber_numeral {n : Decimal.Numeral} (h : n.WellFormed) (negative : Bool) :
    IsNumber ((Binary64.signText negative).toList ++ n.text) := by
  refine ⟨_, _, _, _, isSign_signText negative,
    isWhole_of_isDigits h.isDigits_whole h.whole_eq_of_zero, ?_, ?_, rfl⟩
  · rw [Decimal.Numeral.fractionText]
    split
    · exact .inl rfl
    · rename_i hne
      exact .inr ⟨_, Decimal.isDigits_of_isDigit hne h.isDigit_fraction, rfl⟩
  · rw [Decimal.Numeral.scaleText]
    cases n.exponent with
    | none => exact .inl rfl
    | some e =>
      refine .inr ⟨'e', [if e < 0 then '-' else '+'], _, .inl rfl, ?_,
        Decimal.Numeral.isDigits_exponent e, rfl⟩
      split
      · exact .inr (.inr rfl)
      · exact .inr (.inl rfl)

theorem isNumber_repr (n : Int) : IsNumber n.repr.toList := by
  have hdigits : Lexeme.IsDigits (Nat.toDigits 10 n.natAbs) :=
    Decimal.isDigits_of_isDigit Nat.toDigits_ne_nil (Decimal.isDigit_toDigits _)
  refine ⟨_, _, [], [], isSign_signText (n < 0), isWhole_of_isDigits hdigits fun hhead => ?_,
    .inl rfl, .inl rfl, ?_⟩
  · by_cases hne : n.natAbs = 0
    · rw [hne]
      rfl
    · exact absurd hhead (Decimal.head?_toDigits_ne hne)
  · rw [toList_repr, List.append_nil, List.append_nil]

/-- A letter behind a backslash, four digits for each unit or the character itself. -/
theorem isCharacters_escape (c : Char) {rest : List Char} (h : IsCharacters rest) :
    IsCharacters (JsonString.escape c ++ rest) := by
  cases hletter : JsonString.letter? c with
  | some letter =>
    have hmem : letter ∈ ['"', '\\', '/', 'b', 'f', 'n', 'r', 't'] := by
      unfold JsonString.letter? at hletter
      repeat' split at hletter
      all_goals cases hletter
      all_goals decide
    rw [JsonString.escape, hletter]
    exact .letter hmem h
  | none =>
    simp only [JsonString.escape, hletter]
    split
    · rename_i hplain
      rw [Bool.and_eq_true, decide_eq_true_eq, decide_eq_true_eq] at hplain
      refine .plain hplain.1 ?_ ?_ h
      · rintro rfl
        exact absurd hletter (by decide)
      · rintro rfl
        exact absurd hletter (by decide)
    · have hunits := units16_lt c
      generalize JsonString.units16 c.toNat = units at *
      induction units with
      | nil => exact h
      | cons unit units ih =>
        obtain ⟨hunit, hrest⟩ := List.forall_mem_cons.mp hunits
        rw [List.flatMap_cons, List.append_assoc]
        exact .unit (length_hexText (by decide) hunit) (forall_mem_hexText (by decide) 4 unit)
          (ih hrest)

theorem isString_jsonString (s : String) : IsString (jsonString s).toList := by
  refine ⟨s.toList.flatMap JsonString.escape, ?_, by rw [jsonString, String.toList_ofList]; rfl⟩
  induction s.toList with
  | nil => exact .nil
  | cons c text ih =>
    rw [List.flatMap_cons]
    exact isCharacters_escape c ih

/-! ## What is outside of strings -/

/-- Where a reader stands that tells strings from the rest, and the characters in a string that a
backslash precedes from the others. -/
inductive Place
  | outside
  | inside
  | escaped
deriving DecidableEq

namespace Place

def after : Place → Char → Place
  | outside, c => if c = '"' then inside else outside
  | inside, c => if c = '"' then outside else if c = '\\' then escaped else inside
  | escaped, _ => inside

def afterAll (place : Place) (text : List Char) : Place := text.foldl after place

/-- The characters that are read outside of strings. -/
def bare : Place → List Char → List Char
  | _, [] => []
  | outside, c :: rest => c :: bare (after outside c) rest
  | place, c :: rest => bare (after place c) rest

theorem afterAll_append (place : Place) (text rest : List Char) :
    place.afterAll (text ++ rest) = (place.afterAll text).afterAll rest := List.foldl_append

theorem bare_append (place : Place) (text rest : List Char) :
    bare place (text ++ rest) = bare place text ++ bare (place.afterAll text) rest := by
  induction text generalizing place with
  | nil => rfl
  | cons c text ih => cases place <;> simp [bare, ih, afterAll]

end Place

/-- A text with whole strings only, and no capital `I` outside of them. -/
def Plain (text : List Char) : Prop :=
  Place.outside.afterAll text = .outside ∧ 'I' ∉ Place.outside.bare text

namespace Plain

variable {text rest : List Char}

theorem nil : Plain [] := ⟨rfl, List.not_mem_nil⟩

theorem append (h : Plain text) (hrest : Plain rest) : Plain (text ++ rest) := by
  refine ⟨?_, ?_⟩
  · rw [Place.afterAll_append, h.1, hrest.1]
  · rw [Place.bare_append, h.1, List.mem_append, not_or]
    exact ⟨h.2, hrest.2⟩

theorem cons {c : Char} (hquote : c ≠ '"') (hletter : c ≠ 'I') (h : Plain rest) :
    Plain (c :: rest) := by
  have hfirst : Plain [c] := by
    refine ⟨if_neg hquote, ?_⟩
    simpa [Place.bare] using hletter.symm
  exact append hfirst h

theorem of_forall (h : ∀ c ∈ text, c ≠ '"' ∧ c ≠ 'I') : Plain text := by
  induction text with
  | nil => exact nil
  | cons c text ih =>
    obtain ⟨⟨hquote, hletter⟩, htext⟩ := List.forall_mem_cons.mp h
    exact cons hquote hletter (ih htext)

/-- The characters of a string leave the reader inside of it. -/
theorem inside_of_isCharacters (h : IsCharacters text) :
    Place.inside.afterAll text = .inside ∧ Place.inside.bare text = [] := by
  induction h with
  | nil => exact ⟨rfl, rfl⟩
  | plain hcontrol hquote hslash h ih =>
    simpa [Place.afterAll, Place.after, Place.bare, hquote, hslash] using ih
  | letter hletter h ih => exact ih
  | @unit digits rest hlength hdigits h ih =>
    have hinside : Place.inside.afterAll digits = .inside ∧ Place.inside.bare digits = [] := by
      clear hlength
      induction digits with
      | nil => exact ⟨rfl, rfl⟩
      | cons c digits ihDigits =>
        obtain ⟨hdigit, hdigits⟩ := List.forall_mem_cons.mp hdigits
        have hquote : c ≠ '"' := by
          rintro rfl
          exact absurd hdigit (by decide)
        have hslash : c ≠ '\\' := by
          rintro rfl
          exact absurd hdigit (by decide)
        simpa [Place.afterAll, Place.after, Place.bare, hquote, hslash] using ihDigits hdigits
    have hafter : Place.inside.afterAll (digits ++ rest) = .inside := by
      rw [Place.afterAll_append, hinside.1, ih.1]
    have hbare : Place.inside.bare (digits ++ rest) = [] := by
      rw [Place.bare_append, hinside.1, hinside.2, ih.2]
      rfl
    exact ⟨hafter, hbare⟩

theorem of_isString (h : IsString text) : Plain text := by
  obtain ⟨body, hbody, rfl⟩ := h
  obtain ⟨hplace, hbare⟩ := inside_of_isCharacters hbody
  have hafter : Place.inside.afterAll (body ++ ['"']) = .outside := by
    rw [Place.afterAll_append, hplace]
    rfl
  have hrest : Place.inside.bare (body ++ ['"']) = [] := by
    rw [Place.bare_append, hplace, hbare]
    rfl
  refine ⟨hafter, ?_⟩
  change 'I' ∉ '"' :: Place.inside.bare (body ++ ['"'])
  rw [hrest]
  decide

theorem of_isDigits (h : Lexeme.IsDigits text) : Plain text := by
  refine of_forall fun c hc => ⟨?_, ?_⟩
  · rintro rfl
    exact absurd (h.isDigit _ hc) (by decide)
  · rintro rfl
    exact absurd (h.isDigit _ hc) (by decide)

theorem of_isGap (h : IsGap text) : Plain text := by
  refine of_forall fun c hc => ⟨?_, ?_⟩
  · rintro rfl
    exact absurd (h _ hc) (by decide)
  · rintro rfl
    exact absurd (h _ hc) (by decide)

theorem of_isNumber (h : IsNumber text) : Plain text := by
  obtain ⟨sign, whole, fraction, scale, hsign, hwhole, hfraction, hscale, rfl⟩ := h
  refine append ?_ (append (append ?_ ?_) ?_)
  · obtain rfl | rfl := hsign
    · exact nil
    · exact cons (by decide) (by decide) nil
  · obtain rfl | ⟨hdigits, -⟩ := hwhole
    · exact cons (by decide) (by decide) nil
    · exact of_isDigits hdigits
  · obtain rfl | ⟨digits, hdigits, rfl⟩ := hfraction
    · exact nil
    · exact cons (by decide) (by decide) (of_isDigits hdigits)
  · obtain rfl | ⟨mark, sign, digits, hmark, hsign, hdigits, rfl⟩ := hscale
    · exact nil
    · have hrest : Plain (sign ++ digits) := by
        refine append ?_ (of_isDigits hdigits)
        obtain rfl | rfl | rfl := hsign
        · exact nil
        · exact cons (by decide) (by decide) nil
        · exact cons (by decide) (by decide) nil
      obtain rfl | rfl := hmark
      · exact cons (by decide) (by decide) hrest
      · exact cons (by decide) (by decide) hrest

theorem intercalate {items : List (List Char)} (h : ∀ item ∈ items, Plain item) :
    Plain ([','].intercalate items) := by
  match items with
  | [] => exact nil
  | [item] =>
    rw [List.intercalate_singleton]
    exact h item (List.mem_singleton_self _)
  | item :: next :: items =>
    obtain ⟨hitem, hitems⟩ := List.forall_mem_cons.mp h
    rw [List.intercalate_cons_cons]
    exact append (append hitem (cons (by decide) (by decide) nil)) (intercalate hitems)

theorem of_isText (h : IsText text) : Plain text := by
  have hclosed {c d : Char} {text : List Char} (hopen : c ≠ '"' ∧ c ≠ 'I')
      (hclose : d ≠ '"' ∧ d ≠ 'I') (h : Plain text) : Plain (c :: text ++ [d]) :=
    cons hopen.1 hopen.2 (append h (cons hclose.1 hclose.2 nil))
  induction h with
  | word h =>
    have hwords : ∀ word ∈ ["null", "true", "false"], ∀ c ∈ word.toList, c ≠ '"' ∧ c ≠ 'I' := by
      simp
    exact of_forall (hwords _ h)
  | number h => exact of_isNumber h
  | string h => exact of_isString h
  | emptyArray h | emptyObject h => exact hclosed (by decide) (by decide) (of_isGap h)
  | array hne h ih => exact hclosed (by decide) (by decide) (intercalate ih)
  | object hne hname h ih =>
    refine hclosed (by decide) (by decide) (intercalate ?_)
    rw [List.forall_mem_map]
    intro member hmember
    obtain ⟨front, name, back, hfront, hstring, hback, htext⟩ := hname member hmember
    rw [htext]
    exact append (append (append (of_isGap hfront) (of_isString hstring)) (of_isGap hback))
      (cons (by decide) (by decide) (ih member hmember))
  | padded hfront h hback ih => exact append (append (of_isGap hfront) ih) (of_isGap hback)

end Plain

/-- A text in which a capital `I` stands outside of strings is none of JSON. -/
theorem not_isText_of_plain {front back : List Char} (h : Plain front) :
    ¬IsText (front ++ 'I' :: back) := by
  intro htext
  have hplain := (Plain.of_isText htext).2
  rw [Place.bare_append, h.1] at hplain
  exact hplain (List.mem_append_right _ List.mem_cons_self)

end LoxLexer.Json
