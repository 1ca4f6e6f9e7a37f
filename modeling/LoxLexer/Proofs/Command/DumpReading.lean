import LoxLexer.Proofs.Command.Script
import LoxLexer.Proofs.Lexeme.Alphabet
import LoxLexer.Proofs.Scan.Separators

/-!
# Reading a plain dump

A plain dump tells what the tokens of its source say, although a string in it may hold spaces, line
feeds and lines of other dumps (`readDump?_dump_tokens`). No line of it is looked for by its end:
the name of the kind goes up to the first space, the kind tells how far the lexeme goes, the lexeme
tells the literal, and these three tell how long the line is.
-/
namespace LoxLexer

/-- What stands in the line of a token, with a space behind its kind and behind its lexeme. -/
theorem Token.toList_plainText (token : Token) :
    token.plainText.toList = token.kind.name.toList ++ ' ' :: (token.lexeme.toList ++ ' ' ::
      ((token.literal.map Literal.plainText).getD "null").toList) := by
  simp [plainText, toString]

namespace Command

/-- The line that says this; the line number of a token is not shown. -/
def contentLine (content : TokenKind × String × Option Literal) : String :=
  dumpLine false ⟨content.1, content.2.1, content.2.2, 0⟩

theorem contentLine_content (token : Token) : contentLine token.content = dumpLine false token := by
  simp only [contentLine, Token.content, dumpLine, Token.dumpText, Token.plainText,
    Bool.false_eq_true, if_false]

/-- The lexeme of the given kind at the front of a text, a space behind it: a string goes up to its
second quote, and any other lexeme up to that space. -/
def frontLexeme (kind : TokenKind) (text : List Char) : List Char :=
  if kind = .string then '"' :: (text.drop 1).takeWhile (· ≠ '"') ++ ['"']
  else text.takeWhile (· ≠ ' ')

/-- What the first line of a plain dump says, and what stands behind that line. -/
def readLine? (text : List Char) :
    Option ((TokenKind × String × Option Literal) × List Char) :=
  (TokenKind.ofName? (String.ofList (text.takeWhile (· ≠ ' ')))).map fun kind =>
    let lexeme := frontLexeme kind ((text.dropWhile (· ≠ ' ')).drop 1)
    let content := (kind, String.ofList lexeme, Step.literalOf kind lexeme)
    (content, text.drop (contentLine content).length)

theorem length_contentLine_pos (content : TokenKind × String × Option Literal) :
    0 < (contentLine content).length := by
  rw [contentLine, dumpLine, String.length_append]
  exact Nat.add_pos_right _ (by decide)

/-- Reading a line makes a text shorter. -/
theorem length_readLine?_lt {text more : List Char}
    {content : TokenKind × String × Option Literal} (hne : text ≠ [])
    (h : readLine? text = some (content, more)) : more.length < text.length := by
  obtain ⟨kind, -, hread⟩ := Option.map_eq_some_iff.mp h
  obtain ⟨rfl, rfl⟩ := Prod.mk.inj hread
  have hline := length_contentLine_pos (kind,
    String.ofList (frontLexeme kind ((text.dropWhile (· ≠ ' ')).drop 1)),
    Step.literalOf kind (frontLexeme kind ((text.dropWhile (· ≠ ' ')).drop 1)))
  have htext := List.length_pos_iff.mpr hne
  rw [List.length_drop]
  omega

/-- What the lines of a plain dump say, one after the other. -/
def readDump? (text : List Char) : Option (List (TokenKind × String × Option Literal)) :=
  if hne : text = [] then some []
  else
    match h : readLine? text with
    | none => none
    | some (content, more) =>
      have := length_readLine?_lt hne h
      (readDump? more).map (content :: ·)
termination_by text.length

theorem readDump?_of_readLine? {text more : List Char}
    {content : TokenKind × String × Option Literal} (h : readLine? text = some (content, more)) :
    readDump? text = (readDump? more).map (content :: ·) := by
  have hne : text ≠ [] := by
    rintro rfl
    cases h
  rw [readDump?, dif_neg hne]
  split
  · rename_i hnone
    rw [h] at hnone
    cases hnone
  · rename_i hsome
    rw [h] at hsome
    cases hsome
    rfl

/-- The tokens of a scan: well-formed ones, and the one for the end of the input. -/
def Scannable (token : Token) : Prop :=
  token.WellFormed ∨ ∃ line, token = .endOfInput line

theorem scannable_of_mem_tokens {source : String} {token : Token} (h : token ∈ tokens source) :
    Scannable token := by
  by_cases hkind : token.kind = .endOfInput
  · obtain hstep | hlast := List.mem_append.mp h
    · exact absurd hkind (Step.kind_ne_endOfInput hstep)
    · exact .inr ⟨_, List.mem_singleton.mp hlast⟩
  · exact .inl (wellFormed_iff_exists_source.mpr ⟨source, token, h, hkind, rfl⟩)

namespace Scannable

variable {token : Token}

theorem literalOf_eq (h : Scannable token) :
    Step.literalOf token.kind token.lexeme.toList = token.literal := by
  obtain hformed | ⟨line, rfl⟩ := h
  · exact @Lexeme.Matches.literal_eq token.toLexeme _ hformed
  · rfl

/-- A lexeme is found again in front of a space. -/
theorem frontLexeme_append (h : Scannable token) (rest : List Char) :
    frontLexeme token.kind (token.lexeme.toList ++ ' ' :: rest) = token.lexeme.toList := by
  obtain hformed | ⟨line, rfl⟩ := h
  · rw [Token.WellFormed] at hformed
    by_cases hkind : token.kind = .string
    · obtain ⟨body, hbody, hlexeme, -⟩ := (hkind ▸ hformed).exists_body
      rw [frontLexeme, if_pos hkind, hlexeme]
      simp only [List.cons_append, List.append_assoc, List.drop_one, List.tail_cons,
        List.nil_append, Lexeme.takeWhile_ne_append hbody]
    · have hspace : ' ' ∉ token.lexeme.toList :=
        hformed.not_mem_of_not_isSignificant hkind (by decide)
      rw [frontLexeme, if_neg hkind, Lexeme.takeWhile_ne_append hspace]
  · rfl

/-- The line of a token is read for what the token says, whatever stands behind the line. -/
theorem readLine?_append (h : Scannable token) (rest : List Char) :
    readLine? ((dumpLine false token).toList ++ rest) = some (token.content, rest) := by
  have hname : ' ' ∉ token.kind.name.toList := token.kind.not_mem_name (by decide)
  obtain ⟨behind, htext⟩ : ∃ behind, (dumpLine false token).toList ++ rest =
      token.kind.name.toList ++ ' ' :: (token.lexeme.toList ++ ' ' :: behind) := by
    refine ⟨((token.literal.map Literal.plainText).getD "null").toList ++ '\n' :: rest, ?_⟩
    simp [dumpLine, Token.dumpText, Token.toList_plainText]
  have hcontent : (token.kind, String.ofList token.lexeme.toList,
      Step.literalOf token.kind token.lexeme.toList) = token.content := by
    rw [String.ofList_toList, h.literalOf_eq, Token.content]
  simp only [readLine?]
  rw [htext, Lexeme.takeWhile_ne_append hname, Lexeme.dropWhile_ne_append hname,
    String.ofList_toList, TokenKind.ofName?_name, Option.map_some, List.drop_one, List.tail_cons,
    h.frontLexeme_append, hcontent, contentLine_content, ← htext, ← String.length_toList,
    List.drop_left]

end Scannable

/-- Lines of tokens are read one by one. -/
theorem readDump?_join {items : List Token} (h : ∀ token ∈ items, Scannable token) :
    readDump? (String.join (items.map (dumpLine false))).toList =
      some (items.map Token.content) := by
  induction items with
  | nil => rw [readDump?]; rfl
  | cons token items ih =>
    obtain ⟨hfirst, hrest⟩ := List.forall_mem_cons.mp h
    rw [List.map_cons, String.join_cons, String.toList_append,
      readDump?_of_readLine? (hfirst.readLine?_append _), ih hrest]
    rfl

theorem shows_all (token : Token) (asJson : Bool) : DumpFormat.shows ⟨true, asJson⟩ token = true :=
  rfl

/-- The plain dump of a source text is read for what the tokens of the text say. -/
theorem readDump?_dump_tokens (source : String) :
    readDump? (dump ⟨true, false⟩ (tokens source)).toList =
      some ((tokens source).map Token.content) := by
  rw [dump_eq, List.filter_eq_self.mpr fun token _ => shows_all token false]
  exact readDump?_join fun token => scannable_of_mem_tokens

/-- There is a reader of plain dumps that recovers what the tokens of any source text say; so texts
with the same dump have, place by place, tokens of the same kind, lexeme and literal. -/
theorem plain_dump_unambiguous :
    (∀ source, readDump? (dump ⟨true, false⟩ (tokens source)).toList =
        some ((tokens source).map fun token => (token.kind, token.lexeme, token.literal))) ∧
      ∀ first second, dump ⟨true, false⟩ (tokens first) = dump ⟨true, false⟩ (tokens second) →
        (tokens first).length = (tokens second).length ∧
          List.Forall₂ (fun a b => a.kind = b.kind ∧ a.lexeme = b.lexeme ∧ a.literal = b.literal)
            (tokens first) (tokens second) := by
  refine ⟨readDump?_dump_tokens, fun first second h => ?_⟩
  have hcontents : (tokens first).map Token.content = (tokens second).map Token.content := by
    rw [← Option.some.injEq, ← readDump?_dump_tokens, ← readDump?_dump_tokens, h]
  constructor
  · simpa using congrArg List.length hcontents
  · rw [← List.forall₂_eq_eq_eq, List.forall₂_map_left_iff, List.forall₂_map_right_iff]
      at hcontents
    refine hcontents.imp fun a b hab => ?_
    obtain ⟨hkind, hrest⟩ := Prod.mk.inj hab
    exact ⟨hkind, Prod.mk.inj hrest⟩

/-- A string that looks like the last line of a dump, in front of that line. -/
example : dump ⟨true, false⟩ (tokens "\"\nEOF  null\n\"") =
    "STRING \"\nEOF  null\n\" \nEOF  null\n\nEOF  null\n" := by
  decide +kernel

end Command

end LoxLexer
