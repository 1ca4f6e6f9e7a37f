import LoxLexer.Decimal.Reader
import LoxLexer.Lexeme.Split
import LoxLexer.Text.JsonString

/-!
# Reading JSON

A JSON text is read twice over. The first reading makes symbols of its characters: punctuation, and
the values that have no parts; white space is passed over. The second puts arrays and objects
together, with those that are still open on a stack. A number with a fraction or an exponent is the
nearest double, any other number an integer. There are words, too, for the doubles that have no
digits: `NaN`, `Infinity` and `-Infinity`.
-/
namespace LoxLexer

namespace Json

/-- A value without parts. -/
inductive Scalar
  | null
  | boolean (value : Bool)
  | integer (value : Int)
  | double (value : Binary64)
  | string (value : String)
deriving DecidableEq

end Json

inductive Json
  | scalar (value : Json.Scalar)
  | array (items : List Json)
  /-- The members of an object in their order. -/
  | object (members : List (String × Json))

namespace Json

inductive Symbol
  | openBrace
  | closeBrace
  | openBracket
  | closeBracket
  | colon
  | comma
  | scalar (value : Scalar)
deriving DecidableEq

/-- The words that stand for values; the last three are an extension of JSON. -/
def words : List (String × Scalar) :=
  [("null", .null), ("true", .boolean true), ("false", .boolean false), ("NaN", .double .nan),
    ("Infinity", .double (.infinite false)), ("-Infinity", .double (.infinite true))]

/-! ## Strings -/

/-- The value of a hexadecimal digit. -/
def hexDigit? (c : Char) : Option Nat :=
  if '0' ≤ c ∧ c ≤ '9' then some (c.toNat - '0'.toNat)
  else if 'a' ≤ c ∧ c ≤ 'f' then some (c.toNat - 'a'.toNat + 10)
  else if 'A' ≤ c ∧ c ≤ 'F' then some (c.toNat - 'A'.toNat + 10)
  else none

def hexNumber? (digits : List Char) : Option Nat :=
  digits.foldlM (fun n c => (hexDigit? c).map (16 * n + ·)) 0

/-- What a letter behind a backslash stands for. -/
def letters : List (Char × Char) :=
  [('"', '"'), ('\\', '\\'), ('/', '/'), ('n', '\n'), ('r', '\r'), ('t', '\t'), ('b', '\x08'),
    ('f', '\x0c')]

/-- Units in front of those that have been taken. -/
def withUnits (front : List Nat) (taken : List Nat × List Char) : List Nat × List Char :=
  (front ++ taken.1, taken.2)

/-- The UTF-16 units of a string up to its closing quote, and what stands behind the quote. -/
def takeUnits? : List Char → Option (List Nat × List Char)
  | [] => none
  | c :: rest =>
    if c = '"' then some ([], rest)
    else if c = '\\' then
      match rest with
      | 'u' :: first :: second :: third :: fourth :: more =>
        (hexNumber? [first, second, third, fourth]).bind fun unit =>
          (takeUnits? more).map (withUnits [unit])
      | letter :: more =>
        (letters.lookup letter).bind fun c => (takeUnits? more).map (withUnits [c.toNat])
      | [] => none
    else if c.toNat < 0x20 then none
    else (takeUnits? rest).map (withUnits (JsonString.units16 c.toNat))

def isHighUnit (unit : Nat) : Bool := 0xD800 ≤ unit && unit < 0xDC00

def isLowUnit (unit : Nat) : Bool := 0xDC00 ≤ unit && unit < 0xE000

/-- The characters of UTF-16 units; none if a high unit and a low one do not stand together. -/
def ofUnits16? : List Nat → Option (List Char)
  | [] => some []
  | unit :: rest =>
    if isHighUnit unit then
      match rest with
      | low :: more =>
        if isLowUnit low then
          (ofUnits16? more).map
            (Char.ofNat (0x10000 + (unit - 0xD800) * 0x400 + (low - 0xDC00)) :: ·)
        else none
      | [] => none
    else if isLowUnit unit then none
    else (ofUnits16? rest).map (Char.ofNat unit :: ·)

/-- The string whose opening quote has just been read. -/
def takeString? (text : List Char) : Option (Scalar × List Char) :=
  (takeUnits? text).bind fun (units, rest) =>
    (ofUnits16? units).map fun characters => (.string (String.ofList characters), rest)

/-! ## Numbers and words -/

def takeSign : List Char → List Char × List Char
  | '-' :: rest => (['-'], rest)
  | text => ([], text)

/-- The sign of an exponent, which may be a plus. -/
def takeScaleSign : List Char → List Char × List Char
  | '+' :: rest => (['+'], rest)
  | text => takeSign text

/-- An exponent with its mark, taken from the front of a text; nothing when no digit follows. -/
def takeScale : List Char → List Char × List Char
  | [] => ([], [])
  | mark :: rest =>
    let (sign, digits) := takeScaleSign rest
    if (mark = 'e' || mark = 'E') && digits.head?.any Char.isDigit then
      (mark :: sign ++ digits.takeWhile Char.isDigit, digits.dropWhile Char.isDigit)
    else ([], mark :: rest)

/-- The number at the front of a text; its whole part has no zero in front of other digits. -/
def takeNumber? (text : List Char) : Option (Scalar × List Char) :=
  let (sign, size) := takeSign text
  let whole := size.takeWhile Char.isDigit
  let (fraction, afterFraction) := Lexeme.takeFraction (size.dropWhile Char.isDigit)
  let (scale, rest) := takeScale afterFraction
  if whole = [] || whole.head? = some '0' && whole ≠ ['0'] then none
  else if fraction = [] && scale = [] then
    let n : Int := Nat.ofDigitChars 10 whole 0
    some (.integer (if sign = [] then n else -n), rest)
  else
    (Binary64.ofPlain? (sign ++ (whole ++ fraction ++ scale))).map fun x => (.double x, rest)

/-- The value of the word at the front of a text. -/
def takeWord? (text : List Char) : Option (Scalar × List Char) :=
  words.findSome? fun (word, value) =>
    if word.toList.isPrefixOf text then some (value, text.drop word.toList.length) else none

/-! ## Symbols -/

def marks : List (Char × Symbol) :=
  [('\x7b', .openBrace), ('\x7d', .closeBrace), ('[', .openBracket), (']', .closeBracket),
    (':', .colon), (',', .comma)]

/-- The symbol at the front of a text, and what stands behind it. -/
def takeSymbol? : List Char → Option (Symbol × List Char)
  | [] => none
  | c :: rest =>
    match marks.lookup c with
    | some symbol => some (symbol, rest)
    | none =>
      let taken := if c = '"' then takeString? rest
        else (takeNumber? (c :: rest)).or (takeWord? (c :: rest))
      taken.map fun (value, behind) => (.scalar value, behind)

def isSpace (c : Char) : Bool := c = ' ' || c = '\t' || c = '\n' || c = '\r'

variable {text rest : List Char}

theorem length_takeUnits?_lt {units : List Nat} (h : takeUnits? text = some (units, rest)) :
    rest.length < text.length := by
  fun_induction takeUnits? text generalizing units
  case case1 => cases h
  case case2 =>
    cases h
    exact Nat.lt_succ_self _
  case case3 ih =>
    obtain ⟨unit, -, hmap⟩ := Option.bind_eq_some_iff.mp h
    obtain ⟨⟨units, behind⟩, htaken, ⟨⟩⟩ := Option.map_eq_some_iff.mp hmap
    have hlt : behind.length < _ := ih htaken
    simp only [List.length_cons]
    omega
  case case4 ih =>
    obtain ⟨c, -, hmap⟩ := Option.bind_eq_some_iff.mp h
    obtain ⟨⟨units, behind⟩, htaken, ⟨⟩⟩ := Option.map_eq_some_iff.mp hmap
    have hlt : behind.length < _ := ih htaken
    simp only [List.length_cons]
    omega
  case case5 => cases h
  case case6 => cases h
  case case7 ih =>
    obtain ⟨⟨units, behind⟩, htaken, ⟨⟩⟩ := Option.map_eq_some_iff.mp h
    have hlt : behind.length < _ := ih htaken
    simp only [List.length_cons]
    omega

theorem takeSign_append (text : List Char) : (takeSign text).1 ++ (takeSign text).2 = text := by
  unfold takeSign
  split <;> rfl

theorem takeScaleSign_append (text : List Char) :
    (takeScaleSign text).1 ++ (takeScaleSign text).2 = text := by
  unfold takeScaleSign
  split
  · rfl
  · exact takeSign_append _

theorem takeScale_append (text : List Char) : (takeScale text).1 ++ (takeScale text).2 = text := by
  cases text with
  | nil => rfl
  | cons mark rest =>
    simp only [takeScale]
    split
    · simp [takeScaleSign_append]
    · rfl

theorem length_word_pos : ∀ word ∈ words.map Prod.fst, 0 < word.toList.length := by decide

/-- A number takes at least its whole part away. -/
theorem length_takeNumber?_lt {value : Scalar} (h : takeNumber? text = some (value, rest)) :
    rest.length < text.length := by
  simp only [takeNumber?] at h
  have hsign := congrArg List.length (takeSign_append text)
  have hwhole := congrArg List.length
    (List.takeWhile_append_dropWhile (p := Char.isDigit) (l := (takeSign text).2))
  have hfraction := congrArg List.length
    (Lexeme.takeFraction_append ((takeSign text).2.dropWhile Char.isDigit))
  have hscale := congrArg List.length
    (takeScale_append (Lexeme.takeFraction ((takeSign text).2.dropWhile Char.isDigit)).2)
  rw [List.length_append] at hsign hwhole hfraction hscale
  split at h
  · cases h
  · rename_i hproper
    have hpos : 0 < ((takeSign text).2.takeWhile Char.isDigit).length := by
      rw [List.length_pos_iff]
      rintro hnil
      simp [hnil] at hproper
    have hrest : (takeScale (Lexeme.takeFraction
        ((takeSign text).2.dropWhile Char.isDigit)).2).2 = rest := by
      split at h
      · cases h
        rfl
      · obtain ⟨x, -, ⟨⟩⟩ := Option.map_eq_some_iff.mp h
        rfl
    rw [← hrest]
    omega

theorem length_takeWord?_lt {value : Scalar} (hne : text ≠ [])
    (h : takeWord? text = some (value, rest)) : rest.length < text.length := by
  obtain ⟨⟨word, meaning⟩, hmem, htaken⟩ := List.exists_of_findSome?_eq_some h
  have hpos := length_word_pos word (List.mem_map_of_mem (f := Prod.fst) hmem)
  have htext := List.length_pos_iff.mpr hne
  simp only at htaken
  split at htaken
  · cases htaken
    rw [List.length_drop]
    omega
  · cases htaken

theorem length_takeSymbol?_lt {symbol : Symbol}
    (h : takeSymbol? text = some (symbol, rest)) : rest.length < text.length := by
  cases text with
  | nil => cases h
  | cons c more =>
    simp only [takeSymbol?] at h
    split at h
    · cases h
      exact Nat.lt_succ_self _
    · obtain ⟨⟨value, behind⟩, htaken, ⟨⟩⟩ := Option.map_eq_some_iff.mp h
      split at htaken
      · obtain ⟨⟨units, afterQuote⟩, hunits, hmap⟩ := Option.bind_eq_some_iff.mp htaken
        obtain ⟨characters, -, ⟨⟩⟩ := Option.map_eq_some_iff.mp hmap
        exact Nat.lt_succ_of_lt (length_takeUnits?_lt hunits)
      · obtain hnumber | ⟨-, hword⟩ := Option.or_eq_some_iff.mp htaken
        · exact length_takeNumber?_lt hnumber
        · exact length_takeWord?_lt (List.cons_ne_nil c more) hword

/-- The symbols of a text. -/
def symbols? (text : List Char) : Option (List Symbol) :=
  match text with
  | [] => some []
  | c :: rest =>
    if isSpace c then symbols? rest
    else
      match h : takeSymbol? (c :: rest) with
      | none => none
      | some (symbol, behind) =>
        have := length_takeSymbol?_lt h
        (symbols? behind).map (symbol :: ·)
termination_by text.length
decreasing_by
  · exact Nat.lt_succ_self _
  · exact this

/-! ## Values -/

/-- An array or an object that is still open, with what has been read of it. -/
inductive Frame
  | array (before : List Json)
  | object (before : List (String × Json)) (name : String)

/-- What comes next, with the arrays and objects that are open around it. -/
inductive State
  | atValue (stack : List Frame)
  | atFirstItem (stack : List Frame)
  | atFirstName (stack : List Frame)
  | atName (before : List (String × Json)) (stack : List Frame)
  | atColon (before : List (String × Json)) (name : String) (stack : List Frame)
  /-- Behind a value, which may be the whole text. -/
  | behind (value : Json) (stack : List Frame)

namespace State

/-- A value begins. -/
def begin? (stack : List Frame) : Symbol → Option State
  | .scalar value => some (behind (.scalar value) stack)
  | .openBracket => some (atFirstItem stack)
  | .openBrace => some (atFirstName stack)
  | _ => none

def name? (before : List (String × Json)) (stack : List Frame) : Symbol → Option State
  | .scalar (.string name) => some (atColon before name stack)
  | _ => none

/-- Behind a value an array or an object goes on or ends. -/
def goOn? (value : Json) (stack : List Frame) : Frame → Symbol → Option State
  | .array before, .comma => some (atValue (.array (before ++ [value]) :: stack))
  | .array before, .closeBracket => some (behind (.array (before ++ [value])) stack)
  | .object before name, .comma => some (atName (before ++ [(name, value)]) stack)
  | .object before name, .closeBrace => some (behind (.object (before ++ [(name, value)])) stack)
  | _, _ => none

def after? : State → Symbol → Option State
  | atValue stack, symbol => begin? stack symbol
  | atFirstItem stack, .closeBracket => some (behind (.array []) stack)
  | atFirstItem stack, symbol => begin? (.array [] :: stack) symbol
  | atFirstName stack, .closeBrace => some (behind (.object []) stack)
  | atFirstName stack, symbol => name? [] stack symbol
  | atName before stack, symbol => name? before stack symbol
  | atColon before name stack, .colon => some (atValue (.object before name :: stack))
  | behind value (frame :: stack), symbol => goOn? value stack frame symbol
  | _, _ => none

def result? : State → Option Json
  | behind value [] => some value
  | _ => none

end State

/-- The value that symbols spell. -/
def assemble? (symbols : List Symbol) : Option Json :=
  (symbols.foldlM State.after? (.atValue [])).bind State.result?

/-- The value that a text stands for. -/
def read? (text : List Char) : Option Json :=
  (symbols? text).bind assemble?

end Json

end LoxLexer
