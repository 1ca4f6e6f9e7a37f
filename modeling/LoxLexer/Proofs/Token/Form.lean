import LoxLexer.Proofs.Json.Numbers
import LoxLexer.Proofs.Text.Quoted
import LoxLexer.Step.Basic
import LoxLexer.Token.Text

/-!
# The form of a token identifies it

A token is shown in the form that builds it: kind, quoted lexeme, literal and line. Its lexeme and a
literal text may hold commas, quotes and the rest of another form, but each part of the form ends in
one way only, so the form tells the token (`Token.eq_of_formText_eq`).
-/
namespace LoxLexer

/-- A character of no mark and no comma: a part that holds such characters alone ends at a comma. -/
def IsUnquoted (c : Char) : Prop := c ≠ ',' ∧ ¬Quoted.IsMark c

instance (c : Char) : Decidable (IsUnquoted c) := inferInstanceAs (Decidable (_ ∧ _))

theorem isUnquoted_of_isDigit {c : Char} (h : c.isDigit = true) : IsUnquoted c := by
  refine ⟨?_, ?_⟩
  · rintro rfl
    cases h
  · rintro (rfl | rfl) <;> cases h

theorem Binary64.isUnquoted_text (x : Binary64) : ∀ c ∈ x.text.toList, IsUnquoted c :=
  x.forall_mem_textWith (fun _ => isUnquoted_of_isDigit) (List.all_iff_forall_prop.mp (by decide))
    (List.all_iff_forall_prop.mp (by decide))

theorem Binary64.text_injective {x y : Binary64} (h : x.text = y.text) : x = y := by
  have hread := ofPlain?_toList_text x
  rw [h, ofPlain?_toList_text] at hread
  exact (Option.some.inj hread).symm

/-- A part without quotes is no quoted text. -/
theorem unquoted_append_ne_quoted {text : List Char} (h : ∀ c ∈ text, IsUnquoted c) (s : String)
    (rest more : List Char) : text ++ ',' :: rest ≠ (quoted s).toList ++ more := by
  rw [toList_quoted]
  intro heq
  have hmark := Quoted.isMark_markFor s.toList
  cases text with
  | nil =>
    rw [← (List.cons.inj heq).1] at hmark
    revert hmark
    decide
  | cons c text =>
    rw [← (List.cons.inj heq).1] at hmark
    exact (h c List.mem_cons_self).2 hmark

namespace Token

/-- How the form of a token shows its literal, or that there is none. -/
def literalForm (literal : Option Literal) : String := (literal.map Literal.formText).getD "None"

theorem toList_formText (token : Token) :
    token.formText.toList = "Token(".toList ++ (token.kind.name.toList ++ ',' :: ' ' ::
      ((quoted token.lexeme).toList ++ ',' :: ' ' ::
        ((literalForm token.literal).toList ++ ',' :: ' ' :: (token.line.repr.toList ++ [')'])))) := by
  simp [formText, literalForm, toString]

theorem isUnquoted_literalForm {literal : Option Literal} (h : ∀ s, literal ≠ some (.text s)) :
    ∀ c ∈ (literalForm literal).toList, IsUnquoted c := by
  match literal with
  | none => exact List.all_iff_forall_prop.mp (by decide)
  | some (.number x) => exact x.isUnquoted_text
  | some (.text s) => exact absurd rfl (h s)

/-- No number is written like the word for no literal. -/
theorem literalForm_number_ne_none (x : Binary64) :
    literalForm (some (.number x)) ≠ literalForm none := by
  intro h
  have hread : Binary64.ofPlain? "None".toList = some x := by
    rw [← x.ofPlain?_toList_text]
    exact congrArg (fun text : String => Binary64.ofPlain? text.toList) h.symm
  have hnone : Binary64.ofPlain? "None".toList = none := by decide
  cases hnone.symm.trans hread

theorem eq_of_literalForm_eq {first second : Option Literal}
    (hfirst : ∀ s, first ≠ some (.text s)) (hsecond : ∀ s, second ≠ some (.text s))
    (h : literalForm first = literalForm second) : first = second := by
  rcases first with _ | s | x
  · rcases second with _ | s | y
    · rfl
    · exact absurd rfl (hsecond s)
    · exact absurd h.symm (literalForm_number_ne_none y)
  · exact absurd rfl (hfirst s)
  · rcases second with _ | s | y
    · exact absurd h (literalForm_number_ne_none x)
    · exact absurd rfl (hsecond s)
    · rw [Binary64.text_injective h]

/-- The form of a literal says which literal it is, and whether there is one. -/
theorem literalForm_append_inj {first second : Option Literal} {rest more : List Char}
    (h : (literalForm first).toList ++ ',' :: rest = (literalForm second).toList ++ ',' :: more) :
    first = second ∧ rest = more := by
  by_cases hfirst : ∃ s, first = some (.text s)
  · obtain ⟨s, rfl⟩ := hfirst
    by_cases hsecond : ∃ t, second = some (.text t)
    · obtain ⟨t, rfl⟩ := hsecond
      obtain ⟨rfl, hrest⟩ := quoted_append_inj h
      exact ⟨rfl, (List.cons.inj hrest).2⟩
    · have hunquoted := isUnquoted_literalForm (not_exists.mp hsecond)
      exact absurd h.symm (unquoted_append_ne_quoted hunquoted s _ _)
  · have hunquoted := isUnquoted_literalForm (not_exists.mp hfirst)
    by_cases hsecond : ∃ t, second = some (.text t)
    · obtain ⟨t, rfl⟩ := hsecond
      exact absurd h (unquoted_append_ne_quoted hunquoted t _ _)
    · have hother := isUnquoted_literalForm (not_exists.mp hsecond)
      obtain ⟨htext, hrest⟩ := Lexeme.append_separator_inj
        (fun hmem => (hunquoted ',' hmem).1 rfl) (fun hmem => (hother ',' hmem).1 rfl) h
      exact ⟨eq_of_literalForm_eq (not_exists.mp hfirst) (not_exists.mp hsecond)
        (String.toList_inj.mp htext), hrest⟩

theorem eq_of_formText_eq {a b : Token} (h : a.formText = b.formText) : a = b := by
  have htext := congrArg String.toList h
  rw [toList_formText, toList_formText, List.append_cancel_left_eq] at htext
  obtain ⟨hkind, hlexeme⟩ :=
    Lexeme.append_separator_inj (a.kind.not_mem_name (by decide)) (b.kind.not_mem_name (by decide))
      htext
  obtain ⟨hlexeme, hliteral⟩ := quoted_append_inj (List.cons.inj hlexeme).2
  obtain ⟨hliteral, hline⟩ := literalForm_append_inj (List.cons.inj (List.cons.inj hliteral).2).2
  have hends : Json.EndsNumber [')'] := Lexeme.forall_head?_cons (by decide)
  have hread := congrArg Json.takeNumber? (List.cons.inj hline).2
  rw [Json.takeNumber?_integer _ hends, Json.takeNumber?_integer _ hends] at hread
  rcases a with ⟨kind, lexeme, literal, line⟩
  rcases b with ⟨kind', lexeme', literal', line'⟩
  obtain rfl : kind = kind' := TokenKind.name_injective (String.toList_inj.mp hkind)
  obtain rfl : lexeme = lexeme' := hlexeme
  obtain rfl : literal = literal' := hliteral
  obtain rfl : line = line' := by simpa using hread
  rfl

/-- A token equals itself, unless its literal is no number at all. -/
theorem equal_self {token : Token} (h : token.literal ≠ some (.number .nan)) :
    token.equal token = true := by
  obtain ⟨kind, lexeme, literal, line⟩ := token
  rcases literal with _ | s | x
  · simp [equal]
  · simp [equal, Literal.equal]
  · have hx : x ≠ .nan := by
      rintro rfl
      exact h rfl
    simp [equal, Literal.equal, Binary64.equal_self hx]

/-- Tokens with the same form are one token: their kinds, their lexemes, their literals, numbers bit
by bit, and their lines are the same. So they are equal, unless the literal is no number at all. -/
theorem formText_identifies {a b : Token} (h : a.formText = b.formText) :
    a = b ∧ (a.literal ≠ some (.number .nan) → b.literal ≠ some (.number .nan) →
      a.equal b = true) := by
  obtain rfl := eq_of_formText_eq h
  exact ⟨rfl, fun hnan _ => equal_self hnan⟩

/-- A scanned string with both quotes, a backslash, a separator of lines and what could be the rest
of a form, and the same token built from its parts. -/
theorem formText_identifies_string :
    let scanned := (tokens "\n\"it's\\\u2028', None, 2)\"").headD (.endOfInput 0)
    let built : Token :=
      ⟨.string, "\"it's\\\u2028', None, 2)\"", some (.text "it's\\\u2028', None, 2)"), 2⟩
    scanned.formText = built.formText ∧ scanned = built ∧
      scanned.literal ≠ some (.number .nan) ∧ built.literal ≠ some (.number .nan) ∧
      scanned.equal built = true := by
  intro scanned built
  have h : scanned.formText = built.formText := by decide +kernel
  have hscanned : scanned.literal ≠ some (.number .nan) := by decide +kernel
  have hbuilt : built.literal ≠ some (.number .nan) := by decide
  obtain ⟨hsame, hequal⟩ := formText_identifies h
  exact ⟨h, hsame, hscanned, hbuilt, hequal hscanned hbuilt⟩

/-- The quote that is in the lexeme alone decides which one stands around it. -/
example : (⟨.string, "\"it's\"", some (.text "it's\x00"), -1⟩ : Token).formText =
    "Token(STRING, '\"it\\'s\"', \"it's\\x00\", -1)" := by
  decide +kernel

end Token

end LoxLexer
