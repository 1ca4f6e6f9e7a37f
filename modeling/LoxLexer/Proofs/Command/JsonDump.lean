import LoxLexer.Proofs.Command.Script
import LoxLexer.Proofs.Json.Written

/-!
# Reading a JSON dump

The line of a token in a JSON dump is what is written for an object with four members
(`Token.toList_jsonText`), and the token is found again in that object (`Token.ofJson?_toJson`). No
line break is in it, so the lines of a dump are those of its tokens (`linesOf_join`).
-/
namespace LoxLexer

namespace Literal

def toScalar : Literal → Json.Scalar
  | text value => .string value
  | number value => .double value

/-- The literal that a member holds: none for null. -/
def ofScalar? : Json.Scalar → Option (Option Literal)
  | .null => some none
  | .string value => some (some (text value))
  | .double value => some (some (number value))
  | _ => none

end Literal

namespace Token

/-- The token as a JSON value. -/
def toJson (token : Token) : Json :=
  .object [("type", .scalar (.string token.kind.name)), ("lexeme", .scalar (.string token.lexeme)),
    ("literal", .scalar ((token.literal.map Literal.toScalar).getD .null)),
    ("line", .scalar (.integer token.line))]

/-- The token that a JSON value describes. -/
def ofJson? : Json → Option Token
  | .object [("type", .scalar (.string name)), ("lexeme", .scalar (.string lexeme)),
      ("literal", .scalar literal), ("line", .scalar (.integer line))] =>
    (TokenKind.ofName? name).bind fun kind =>
      (Literal.ofScalar? literal).map fun literal => ⟨kind, lexeme, literal, line⟩
  | _ => none

theorem ofJson?_toJson (token : Token) : ofJson? token.toJson = some token := by
  have hliteral : Literal.ofScalar? ((token.literal.map Literal.toScalar).getD .null) =
      some token.literal := by
    cases token.literal with
    | none => rfl
    | some literal => cases literal <;> rfl
  simp [toJson, ofJson?, TokenKind.ofName?_name, hliteral]

theorem toList_jsonText (token : Token) : token.jsonText.toList = token.toJson.text := by
  have hliteral : ((token.literal.map Literal.jsonText).getD "null").toList =
      ((token.literal.map Literal.toScalar).getD .null).text := by
    cases token.literal with
    | none => rfl
    | some literal => cases literal <;> rfl
  have hname : (jsonString "type").toList = "\"type\"".toList := by decide
  have hlexeme : (jsonString "lexeme").toList = "\"lexeme\"".toList := by decide
  have hvalue : (jsonString "literal").toList = "\"literal\"".toList := by decide
  have hline : (jsonString "line").toList = "\"line\"".toList := by decide
  simp [jsonText, toJson, Json.text, Json.symbols, Json.memberSymbols, Json.Symbol.text,
    Json.Scalar.text, hname, hlexeme, hvalue, hline, hliteral, toString]

end Token

namespace Command

/-- The token on a line of a JSON dump. -/
def readJsonLine? (line : List Char) : Option Token :=
  (Json.read? line).bind Token.ofJson?

theorem readJsonLine?_jsonText (token : Token) :
    readJsonLine? token.jsonText.toList = some token := by
  rw [readJsonLine?, Token.toList_jsonText, Json.read?_text, Option.bind_some,
    Token.ofJson?_toJson]

theorem lineBreak_not_mem_jsonText (token : Token) : '\n' ∉ token.jsonText.toList := by
  rw [Token.toList_jsonText]
  intro hmem
  exact absurd (token.toJson.isPrintableAscii_text '\n' hmem) (by decide)

/-- The lines of a JSON dump are those of its tokens. -/
theorem linesOf_join (items : List Token) :
    linesOf (String.join (items.map (dumpLine true))).toList =
      items.map fun token => token.jsonText.toList := by
  have hlines : items.map (dumpLine true) = (items.map Token.jsonText).map (· ++ "\n") := by
    rw [List.map_map]
    rfl
  rw [hlines, linesOf_join_of_not_mem, List.map_map]
  · rfl
  · exact List.forall_mem_map.mpr fun token _ => lineBreak_not_mem_jsonText token

theorem linesOf_runScript (includeEnd : Bool) (filename source : String) :
    linesOf (runScript ⟨includeEnd, true⟩ filename source).stdout.toList =
      ((tokens source).filter fun token => includeEnd || token.kind ≠ .endOfInput).map
        fun token => token.jsonText.toList := by
  simp only [runScript_eq, dump_eq]
  exact linesOf_join _

/-- In a JSON dump a token is an object on a line of its own, in printable ASCII, whose members are
in this order kind, lexeme, literal and line of the token. So the tokens that the run over a script
dumps are recovered by reading its output line by line. -/
theorem json_dump_round_trip :
    (∀ token : Token,
      (∀ c ∈ (token.dumpText true).toList, 0x20 ≤ c.toNat ∧ c.toNat ≤ 0x7E) ∧
        Json.read? (token.dumpText true).toList = some (.object
          [("type", .scalar (.string token.kind.name)),
            ("lexeme", .scalar (.string token.lexeme)),
            ("literal", .scalar (match token.literal with
              | none => .null
              | some (.text value) => .string value
              | some (.number value) => .double value)),
            ("line", .scalar (.integer token.line))])) ∧
      ∀ includeEnd filename source,
        let lines := linesOf (runScript ⟨includeEnd, true⟩ filename source).stdout.toList
        let shown := (tokens source).filter fun token => includeEnd || token.kind ≠ .endOfInput
        lines.length = shown.length ∧ lines.mapM readJsonLine? = some shown := by
  refine ⟨fun token => ⟨?_, ?_⟩, fun includeEnd filename source => ?_⟩
  · change ∀ c ∈ token.jsonText.toList, _
    rw [Token.toList_jsonText]
    exact token.toJson.isPrintableAscii_text
  · change Json.read? token.jsonText.toList = _
    rw [Token.toList_jsonText, Json.read?_text, Token.toJson]
    cases token.literal with
    | none => rfl
    | some literal => cases literal <;> rfl
  · intro lines shown
    have hlines : lines = shown.map fun token => token.jsonText.toList := by
      simp only [lines, runScript_eq, dump_eq]
      exact linesOf_join shown
    have hread : (readJsonLine? ∘ fun token : Token => token.jsonText.toList) = some :=
      funext readJsonLine?_jsonText
    rw [hlines, List.length_map, List.mapM_map, hread]
    exact ⟨rfl, List.mapM_pure.trans (congrArg some (List.map_id _))⟩

/-- A line feed and a clef in a string, the one by a letter and the other by its two units. -/
example : (⟨.string, "\"\n𝄞\"", some (.text "\n𝄞"), 1⟩ : Token).dumpText true =
    "\x7b\"type\": \"STRING\", \"lexeme\": \"\\\"\\n\\ud834\\udd1e\\\"\", " ++
      "\"literal\": \"\\n\\ud834\\udd1e\", \"line\": 1\x7d" := by
  decide +kernel

end Command

end LoxLexer
