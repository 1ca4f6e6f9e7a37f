import LoxLexer.Lexeme.Basic
import LoxLexer.Lexeme.CharClass

/-!
# Splitting a text into lexemes

Each lexeme is as long as its form allows. `Lexeme.next` takes one from the front of a text and
`Lexeme.split` takes them all; no character is lost (`next_append`, `flatMap_text_split`) and no
lexeme is empty (`text_next_ne_nil`).
-/
namespace LoxLexer.Lexeme

/-- A point and the digits behind it, taken from the front of a text; nothing when no digit follows
the point. -/
def takeFraction : List Char → List Char × List Char
  | '.' :: d :: rest =>
    if d.isDigit then ('.' :: d :: rest.takeWhile Char.isDigit, rest.dropWhile Char.isDigit)
    else ([], '.' :: d :: rest)
  | rest => ([], rest)

/-- A number that begins with the digit `c`. -/
def nextNumber (c : Char) (rest : List Char) : Lexeme × List Char :=
  let fraction := takeFraction (rest.dropWhile Char.isDigit)
  (⟨.token .number, c :: rest.takeWhile Char.isDigit ++ fraction.1⟩, fraction.2)

/-- The kind of a word: a keyword if it is spelled like one. -/
def wordKind (text : List Char) : TokenKind :=
  match Keyword.ofSpelling? (String.ofList text) with
  | some word => .keyword word
  | none => .identifier

/-- A word that begins with the letter `c`. -/
def nextWord (c : Char) (rest : List Char) : Lexeme × List Char :=
  let text := c :: rest.takeWhile isWordChar
  (⟨.token (wordKind text), text⟩, rest.dropWhile isWordChar)

/-- The lexeme that a quote begins: a string up to the next quote, or all the rest. -/
def nextString (rest : List Char) : Lexeme × List Char :=
  match rest.dropWhile (· ≠ '"') with
  | [] => (⟨.openString, '"' :: rest⟩, [])
  | _ :: after => (⟨.token .string, '"' :: rest.takeWhile (· ≠ '"') ++ ['"']⟩, after)

/-- The lexeme that a slash begins: a comment up to the end of the line, or the slash alone. -/
def nextSlash : List Char → Lexeme × List Char
  | '/' :: rest =>
    (⟨.comment, '/' :: '/' :: rest.takeWhile (· ≠ '\n')⟩, rest.dropWhile (· ≠ '\n'))
  | rest => (⟨.token .slash, ['/']⟩, rest)

/-- An operator that begins with the character `c`. -/
def nextOperator (symbol : OperatorSymbol) (c : Char) : List Char → Lexeme × List Char
  | '=' :: rest => (⟨.token (.operator symbol true), [c, '=']⟩, rest)
  | rest => (⟨.token (.operator symbol false), [c]⟩, rest)

/-- The first lexeme of a text, and the rest of the text. -/
def next (c : Char) (rest : List Char) : Lexeme × List Char :=
  match CharClass.ofChar c with
  | .punctuation mark => (⟨.token (.punctuation mark), [c]⟩, rest)
  | .operator symbol => nextOperator symbol c rest
  | .slash => nextSlash rest
  | .quote => nextString rest
  | .blank => (⟨.blank, [c]⟩, rest)
  | .lineBreak => (⟨.lineBreak, [c]⟩, rest)
  | .digit => nextNumber c rest
  | .letter => nextWord c rest
  | .foreign => (⟨.foreign c, [c]⟩, rest)

theorem takeFraction_append (text : List Char) :
    (takeFraction text).1 ++ (takeFraction text).2 = text := by
  unfold takeFraction
  split
  · split <;> simp
  · rfl

theorem nextNumber_append (c : Char) (rest : List Char) :
    (nextNumber c rest).1.text ++ (nextNumber c rest).2 = c :: rest := by
  simp [nextNumber, takeFraction_append, List.append_assoc]

theorem nextWord_append (c : Char) (rest : List Char) :
    (nextWord c rest).1.text ++ (nextWord c rest).2 = c :: rest := by
  simp [nextWord]

theorem nextString_append (rest : List Char) :
    (nextString rest).1.text ++ (nextString rest).2 = '"' :: rest := by
  unfold nextString
  split
  · simp
  · rename_i q after h
    have hq : q = '"' := by
      have := List.head?_dropWhile_not (· ≠ '"') rest
      rw [h] at this
      simpa using this
    subst hq
    have := List.takeWhile_append_dropWhile (p := (· ≠ '"')) (l := rest)
    rw [h] at this
    simpa using this

theorem nextSlash_append (rest : List Char) :
    (nextSlash rest).1.text ++ (nextSlash rest).2 = '/' :: rest := by
  unfold nextSlash
  split <;> simp

theorem nextOperator_append (symbol : OperatorSymbol) (c : Char) (rest : List Char) :
    (nextOperator symbol c rest).1.text ++ (nextOperator symbol c rest).2 = c :: rest := by
  unfold nextOperator
  split <;> simp

/-- The first lexeme and the rest make up the text. -/
theorem next_append (c : Char) (rest : List Char) :
    (next c rest).1.text ++ (next c rest).2 = c :: rest := by
  unfold next
  split
  · rfl
  · exact nextOperator_append _ _ _
  · rename_i h
    rw [CharClass.eq_of_slash h]
    exact nextSlash_append _
  · rename_i h
    rw [CharClass.eq_of_quote h]
    exact nextString_append _
  · rfl
  · rfl
  · exact nextNumber_append _ _
  · exact nextWord_append _ _
  · rfl

theorem text_next_ne_nil (c : Char) (rest : List Char) : (next c rest).1.text ≠ [] := by
  unfold next nextOperator nextSlash nextString nextNumber nextWord
  repeat' split
  all_goals simp

theorem length_next_lt (c : Char) (rest : List Char) :
    (next c rest).2.length < (c :: rest).length := by
  have happend := congrArg List.length (next_append c rest)
  have hpos := List.length_pos_iff.mpr (text_next_ne_nil c rest)
  rw [List.length_append] at happend
  omega

/-- All lexemes of a text, in order. -/
def split : List Char → List Lexeme
  | [] => []
  | c :: rest => (next c rest).1 :: split (next c rest).2
termination_by text => text.length
decreasing_by exact length_next_lt c rest

/-- The lexemes of a text make up the text. -/
theorem flatMap_text_split (text : List Char) : (split text).flatMap Lexeme.text = text := by
  fun_induction split text with
  | case1 => rfl
  | case2 c rest ih => rw [List.flatMap_cons, ih, next_append]

theorem text_ne_nil_of_mem_split {lexeme : Lexeme} {text : List Char}
    (h : lexeme ∈ split text) : lexeme.text ≠ [] := by
  fun_induction split text with
  | case1 => cases h
  | case2 c rest ih =>
    rcases List.mem_cons.mp h with rfl | h
    · exact text_next_ne_nil c rest
    · exact ih h

end LoxLexer.Lexeme
