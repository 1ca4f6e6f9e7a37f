import LoxLexer.Proofs.Command.JsonDump
import LoxLexer.Proofs.Json.Grammar
import LoxLexer.Proofs.Scan.Numbers

/-!
# Which lines of a JSON dump are JSON

A token is written as an object with four members (`Token.toList_jsonText_eq`). Its literal is null,
a string or a number, and then the line is a JSON text, unless the token is a number that is too
large for a finite double: the word `Infinity` stands for its literal, and JSON has no such word
(`Token.not_isText_jsonText`).
-/
namespace LoxLexer

namespace Json

/-- The four members of a token, with a space in front of all that does not begin the object. -/
def tokenMembers (kind lexeme literal line : List Char) : List (List Char × List Char) :=
  [("\"type\"".toList, ' ' :: kind), (" \"lexeme\"".toList, ' ' :: lexeme),
    (" \"literal\"".toList, ' ' :: literal), (" \"line\"".toList, ' ' :: line)]

/-- An object with kind, lexeme, literal and line of a token, the literal null, a string or a
number. -/
def IsTokenObject (text : List Char) : Prop :=
  ∃ kind lexeme literal line, text = objectText (tokenMembers kind lexeme literal line) ∧
    IsString kind ∧ IsString lexeme ∧
    (literal = "null".toList ∨ IsString literal ∨ IsNumber literal) ∧ IsNumber line

variable {text kind lexeme literal line : List Char}

theorem isString_of_all {body : List Char}
    (h : (body.all fun c => 0x20 ≤ c.toNat && c ≠ '"' && c ≠ '\\') = true) :
    IsString ('"' :: body ++ ['"']) := by
  refine ⟨body, ?_, rfl⟩
  induction body with
  | nil => exact .nil
  | cons c body ih =>
    rw [List.all_cons, Bool.and_eq_true] at h
    obtain ⟨hc, hbody⟩ := h
    simp only [Bool.and_eq_true, decide_eq_true_eq] at hc
    exact .plain hc.1.1 hc.1.2 hc.2 (ih hbody)

theorem isGap_space : IsGap [' '] := List.forall_mem_singleton.mpr rfl

theorem IsText.spaced (h : IsText text) : IsText (' ' :: text) := by
  have hpadded := h.padded isGap_space (List.forall_mem_nil _)
  rwa [List.append_nil] at hpadded

/-- An object with the members of a token is a JSON text. -/
theorem isText_of_isTokenObject (h : IsTokenObject text) : IsText text := by
  obtain ⟨kind, lexeme, literal, line, rfl, hkind, hlexeme, hliteral, hline⟩ := h
  have hvalue : IsText literal := by
    obtain rfl | hstring | hnumber := hliteral
    · exact .word (by decide)
    · exact .string hstring
    · exact .number hnumber
  have hname (body : List Char)
      (hbody : (body.all fun c => 0x20 ≤ c.toNat && c ≠ '"' && c ≠ '\\') = true)
      {front : List Char} (hfront : IsGap front) :
      ∃ gap name back, IsGap gap ∧ IsString name ∧ IsGap back ∧
        front ++ ('"' :: body ++ ['"']) = gap ++ name ++ back :=
    ⟨front, _, [], hfront, isString_of_all hbody, List.forall_mem_nil _, by simp⟩
  refine .object (by simp [tokenMembers]) ?_ ?_
  · simp only [tokenMembers, List.forall_mem_cons]
    refine ⟨?_, ?_, ?_, ?_, List.forall_mem_nil _⟩
    · exact hname "type".toList (by decide) (List.forall_mem_nil _)
    · exact hname "lexeme".toList (by decide) isGap_space
    · exact hname "literal".toList (by decide) isGap_space
    · exact hname "line".toList (by decide) isGap_space
  · simp only [tokenMembers, List.forall_mem_cons]
    exact ⟨(IsText.string hkind).spaced, (IsText.string hlexeme).spaced, hvalue.spaced,
      (IsText.number hline).spaced, List.forall_mem_nil _⟩

/-- No text of JSON has a capital `I` where the literal of a token should begin. -/
theorem not_isText_tokenMembers (hkind : IsString kind) (hlexeme : IsString lexeme)
    (more : List Char) : ¬IsText (objectText (tokenMembers kind lexeme ('I' :: more) line)) := by
  have hfirst : Plain "\x7b\"type\": ".toList := ⟨by decide, by decide⟩
  have hsecond : Plain ", \"lexeme\": ".toList := ⟨by decide, by decide⟩
  have hthird : Plain ", \"literal\": ".toList := ⟨by decide, by decide⟩
  have hfront := ((hfirst.append (.of_isString hkind)).append hsecond).append
    ((Plain.of_isString hlexeme).append hthird)
  have hsplit : objectText (tokenMembers kind lexeme ('I' :: more) line) =
      "\x7b\"type\": ".toList ++ kind ++ ", \"lexeme\": ".toList ++
        (lexeme ++ ", \"literal\": ".toList) ++
        'I' :: (more ++ ", \"line\": ".toList ++ line ++ ['\x7d']) := by
    simp [objectText, tokenMembers]
  rw [hsplit]
  exact not_isText_of_plain hfront

end Json

namespace Token

/-- A number that is too large for any finite double. -/
def IsTooLarge (token : Token) : Prop :=
  token.kind = .number ∧ (2 ^ 1024 - 2 ^ 970 : ℚ) ≤ Lexeme.numberValue token.lexeme.toList

/-- No literal, a text or a finite double. -/
def IsWritable (token : Token) : Prop :=
  token.literal = none ∨ (∃ s, token.literal = some (.text s)) ∨
    ∃ x, token.literal = some (.number (.finite false x))

variable {token : Token}

theorem toList_jsonText_eq (token : Token) :
    token.jsonText.toList = Json.objectText (Json.tokenMembers (jsonString token.kind.name).toList
      (jsonString token.lexeme).toList ((token.literal.map Literal.jsonText).getD "null").toList
      token.line.repr.toList) := by
  simp [jsonText, Json.objectText, Json.tokenMembers, toString]

/-- Too large numbers have the infinite literal, and all other tokens one that JSON can write. -/
theorem WellFormed.literal_cases (h : token.WellFormed) :
    ¬token.IsTooLarge ∧ token.IsWritable ∨
      token.IsTooLarge ∧ token.literal = some (.number (.infinite false)) := by
  by_cases hnumber : token.kind = .number
  · obtain ⟨hshape, hliteral⟩ := h.number hnumber
    have hrounded := Binary64.isRounded_ofDecimal (Decimal.ofNumeral token.lexeme.toList)
    rw [Lexeme.value_ofNumeral hshape] at hrounded
    by_cases hlarge : token.IsTooLarge
    · exact .inr ⟨hlarge, hrounded.infinite_iff.mpr hlarge.2 ▸ hliteral⟩
    · obtain ⟨x, hx, -⟩ := hrounded.exists_isNearest (lt_of_not_ge fun h => hlarge ⟨hnumber, h⟩)
      exact .inl ⟨hlarge, .inr (.inr ⟨x, hx ▸ hliteral⟩)⟩
  · refine .inl ⟨fun hlarge => hnumber hlarge.1, ?_⟩
    by_cases hstring : token.kind = .string
    · obtain ⟨body, -, hliteral, -⟩ := h.consistent.string hstring
      exact .inr (.inl ⟨body, hliteral⟩)
    · exact .inl (h.consistent.literal_eq_none hstring hnumber)

theorem literal_cases_of_mem_tokens {source : String} (h : token ∈ tokens source) :
    ¬token.IsTooLarge ∧ token.IsWritable ∨
      token.IsTooLarge ∧ token.literal = some (.number (.infinite false)) := by
  rcases List.mem_append.mp h with htoken | hclosing
  · obtain ⟨step, hstep, htoken⟩ := List.mem_filterMap.mp htoken
    exact (Step.wellFormed_of_token? hstep htoken).literal_cases
  · rw [List.mem_singleton.mp hclosing]
    exact .inl ⟨fun h => TokenKind.noConfusion h.1, .inl rfl⟩

theorem isTokenObject_jsonText (h : token.IsWritable) :
    Json.IsTokenObject token.jsonText.toList := by
  refine ⟨_, _, _, _, token.toList_jsonText_eq, Json.isString_jsonString _,
    Json.isString_jsonString _, ?_, Json.isNumber_repr _⟩
  obtain hnone | ⟨s, htext⟩ | ⟨x, hfinite⟩ := h
  · rw [hnone]
    exact .inl rfl
  · rw [htext]
    exact .inr (.inl (Json.isString_jsonString s))
  · have htext := Binary64.toList_textWith_finite NumberWords.json false x
    rw [hfinite, Option.map_some, Option.getD_some, Literal.jsonText, htext]
    exact .inr (.inr (Json.isNumber_numeral (Binary64.wellFormed_shortest x) false))

theorem not_isText_jsonText (hliteral : token.literal = some (.number (.infinite false))) :
    ¬Json.IsText token.jsonText.toList := by
  rw [toList_jsonText_eq, hliteral]
  exact Json.not_isText_tokenMembers (Json.isString_jsonString _) (Json.isString_jsonString _) _

end Token

namespace Command

/-- In a JSON dump every shown token has a line of its own, which is an object with kind, lexeme,
literal and line of the token, the literal null, a string or a number, and a JSON text as a whole.
Only the line of a number that is too large for any finite double is no JSON text. -/
theorem json_lines_standard (includeEnd : Bool) (filename source : String) :
    let lines := linesOf (runScript ⟨includeEnd, true⟩ filename source).stdout.toList
    let shown := (tokens source).filter fun token => includeEnd || token.kind ≠ .endOfInput
    List.Forall₂ (fun token line =>
      (¬token.IsTooLarge → Json.IsText line ∧ Json.IsTokenObject line) ∧
        (token.IsTooLarge → ¬Json.IsText line)) shown lines := by
  intro lines shown
  have hlines : lines = shown.map fun token => token.jsonText.toList :=
    linesOf_runScript includeEnd filename source
  rw [hlines, List.forall₂_map_right_iff, List.forall₂_same]
  intro token hmem
  obtain ⟨hsmall, hliteral⟩ | ⟨hlarge, hliteral⟩ :=
    Token.literal_cases_of_mem_tokens (List.mem_filter.mp hmem).1
  · have hobject := Token.isTokenObject_jsonText hliteral
    exact ⟨fun _ => ⟨Json.isText_of_isTokenObject hobject, hobject⟩, fun h => absurd h hsmall⟩
  · exact ⟨fun h => absurd hlarge h, fun _ => Token.not_isText_jsonText hliteral⟩

/-- The line of ten to the power of 309 is no JSON text. -/
theorem json_line_of_large_number :
    let source := String.ofList ('1' :: List.replicate 309 '0')
    ¬∀ line ∈ linesOf (runScript ⟨true, true⟩ "p.lox" source).stdout.toList,
      Json.IsText line ∧ Json.IsTokenObject line := by
  intro source hlines
  let token : Token := ⟨.number, source, some (.number (.infinite false)), 1⟩
  have hdigits : Lexeme.IsDigits ('1' :: List.replicate 309 '0') :=
    Lexeme.isDigits_cons_iff.mpr ⟨rfl, Decimal.isDigit_replicate_zero 309⟩
  have hliteral : Lexeme.numberLiteral ('1' :: List.replicate 309 '0') [] =
      .number (.infinite false) := by decide +kernel
  have hmatches : Lexeme.Matches (.token .number) ('1' :: List.replicate 309 '0')
      (some (.number (.infinite false))) := by
    rw [← hliteral]
    exact .integer hdigits
  have hwell : token.WellFormed := by
    rw [Token.WellFormed, String.toList_ofList]
    exact hmatches
  obtain ⟨hscan, -⟩ := hwell.rescan Reporter.silent () ""
  rw [Document.scanWith_eq] at hscan
  have htokens : tokens source = [token, .endOfInput (1 + source.toList.count '\n')] := hscan
  have hmem : token ∈ tokens source := by
    rw [htokens]
    exact List.mem_cons_self
  have hshown : token ∈ (tokens source).filter fun token => true || token.kind ≠ .endOfInput :=
    List.mem_filter.mpr ⟨hmem, rfl⟩
  rw [linesOf_runScript] at hlines
  exact Token.not_isText_jsonText rfl (hlines _ (List.mem_map_of_mem hshown)).1

end Command

end LoxLexer
