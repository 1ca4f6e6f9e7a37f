import LoxLexer.Proofs.Command.DumpReading
import LoxLexer.Proofs.Decimal.ReadBack

/-!
# The lines of a plain dump

A plain dump shows lexemes and literals as they are, so a token has a line for itself just if no
string goes over several lines. Every line break in a string is shown twice, in the lexeme and in
the literal, and makes two lines more (`Scannable.count_plainText`).
-/
namespace LoxLexer

theorem Binary64.lineBreak_not_mem_text (x : Binary64) : '\n' ∉ x.text.toList := by
  intro hmem
  have hother : ∀ c ∈ x.text.toList, c ≠ '\n' :=
    x.forall_mem_textWith (fun c hc => by rintro rfl; cases hc)
      (List.all_iff_forall_prop.mp (by decide)) (List.all_iff_forall_prop.mp (by decide))
  exact hother '\n' hmem rfl

namespace Command

namespace Scannable

variable {token : Token}

/-- Among the tokens of a scan only strings hold line breaks. -/
theorem lineBreak_not_mem_lexeme (h : Scannable token) (hkind : token.kind ≠ .string) :
    '\n' ∉ token.lexeme.toList := by
  obtain hformed | ⟨line, rfl⟩ := h
  · exact hformed.not_mem_of_not_isSignificant hkind (by decide)
  · simp [Token.endOfInput]

/-- The literal of a string has the line breaks of its lexeme, and no other literal has any. -/
theorem count_literal (h : Scannable token) :
    ((token.literal.map Literal.plainText).getD "null").toList.count '\n' =
      token.lexeme.toList.count '\n' := by
  by_cases hkind : token.kind = .string
  · obtain hformed | ⟨line, rfl⟩ := h
    · rw [Token.WellFormed, hkind] at hformed
      obtain ⟨body, -, hlexeme, hliteral⟩ := hformed.exists_body
      rw [hlexeme, hliteral]
      simp [Literal.plainText]
    · cases hkind
  · rw [List.count_eq_zero_of_not_mem (h.lineBreak_not_mem_lexeme hkind), ← h.literalOf_eq,
      List.count_eq_zero]
    unfold Step.literalOf
    split
    · rename_i hstring
      exact absurd hstring hkind
    · rw [Option.map_some, Option.getD_some, Literal.plainText]
      exact Binary64.lineBreak_not_mem_text _
    · decide

/-- A line break in the lexeme of a token is shown twice. -/
theorem count_plainText (h : Scannable token) :
    token.plainText.toList.count '\n' = 2 * token.lexeme.toList.count '\n' := by
  have hname : token.kind.name.toList.count '\n' = 0 :=
    List.count_eq_zero_of_not_mem (token.kind.not_mem_name (by decide))
  rw [Token.toList_plainText, List.count_append, hname, List.count_cons_of_ne (by decide),
    List.count_append, List.count_cons_of_ne (by decide), h.count_literal]
  omega

theorem lineBreak_mem_plainText_iff (h : Scannable token) :
    '\n' ∈ token.plainText.toList ↔ '\n' ∈ token.lexeme.toList := by
  rw [← List.count_pos_iff, ← List.count_pos_iff, h.count_plainText]
  omega

end Scannable

section Items

variable {items : List Token}

theorem length_flatMap_pieces (h : ∀ token ∈ items, Scannable token) :
    (items.flatMap fun token => pieces '\n' token.plainText.toList).length =
      items.length + 2 * (items.map fun token => token.lexeme.toList.count '\n').sum := by
  induction items with
  | nil => rfl
  | cons token items ih =>
    obtain ⟨hfirst, hrest⟩ := List.forall_mem_cons.mp h
    rw [List.flatMap_cons, List.length_append, length_pieces, hfirst.count_plainText, ih hrest,
      List.length_cons, List.map_cons, List.sum_cons]
    omega

theorem sum_count_eq_zero_iff :
    (items.map fun token => token.lexeme.toList.count '\n').sum = 0 ↔
      ∀ token ∈ items, '\n' ∉ token.lexeme.toList := by
  rw [List.sum_eq_zero_iff, List.forall_mem_map]
  exact forall₂_congr fun token _ => List.count_eq_zero

/-- It is enough to look at the strings. -/
theorem forall_lineBreak_not_mem_iff (h : ∀ token ∈ items, Scannable token) :
    (∀ token ∈ items, '\n' ∉ token.lexeme.toList) ↔
      ∀ token ∈ items, token.kind = .string → '\n' ∉ token.lexeme.toList :=
  forall₂_congr fun token hmem => ⟨fun hnone _ => hnone, fun hstring hbreak =>
    (h token hmem).lineBreak_not_mem_lexeme (fun hkind => hstring hkind hbreak) hbreak⟩

end Items

/-- A token has as many lines as there are pieces of it between line breaks. -/
theorem linesOf_dump (format : DumpFormat) (items : List Token) :
    linesOf (dump format items).toList = (items.filter format.shows).flatMap fun token =>
      pieces '\n' (token.dumpText format.asJson).toList := by
  have hdump : dump format items = String.join
      (((items.filter format.shows).map fun token => token.dumpText format.asJson).map
        (· ++ "\n")) := by
    rw [dump, List.map_map]
    rfl
  rw [hdump, linesOf_join_map_append, List.flatMap_map]

/-- The lines of a plain dump are the pieces of its tokens between line breaks: one for each token,
and two more for each line break in a lexeme, where there is one in strings alone. So there are as
many lines as tokens, and each line is the text of its token, just if no string that is shown goes
over several lines. -/
theorem plain_dump_lines (includeEnd : Bool) (filename source : String) :
    let lines := linesOf (runScript ⟨includeEnd, false⟩ filename source).stdout.toList
    let shown := (tokens source).filter fun token => includeEnd || token.kind ≠ .endOfInput
    let unbroken := ∀ token ∈ shown, token.kind = .string → '\n' ∉ token.lexeme.toList
    lines = shown.flatMap (fun token => pieces '\n' token.plainText.toList) ∧
      lines.length =
        shown.length + 2 * (shown.map fun token => token.lexeme.toList.count '\n').sum ∧
      (lines.length = shown.length ↔ unbroken) ∧
      (lines = shown.map (fun token => token.plainText.toList) ↔ unbroken) := by
  intro lines shown unbroken
  have hscannable : ∀ token ∈ shown, Scannable token :=
    fun token hmem => scannable_of_mem_tokens (List.mem_filter.mp hmem).1
  have hlines : lines = shown.flatMap (fun token => pieces '\n' token.plainText.toList) := by
    simp only [lines, runScript_eq, linesOf_dump]
    rfl
  have hlength : lines.length =
      shown.length + 2 * (shown.map fun token => token.lexeme.toList.count '\n').sum := by
    rw [hlines, length_flatMap_pieces hscannable]
  have hunbroken : (∀ token ∈ shown, '\n' ∉ token.lexeme.toList) ↔ unbroken :=
    forall_lineBreak_not_mem_iff hscannable
  have hcount : lines.length = shown.length ↔ unbroken := by
    rw [hlength, ← hunbroken, ← sum_count_eq_zero_iff]
    omega
  refine ⟨hlines, hlength, hcount, fun heach => ?_, fun hstrings => ?_⟩
  · rw [← hcount, heach, List.length_map]
  · rw [hlines, flatMap_pieces_of_not_mem]
    intro token hmem hbreak
    rw [(hscannable token hmem).lineBreak_mem_plainText_iff] at hbreak
    exact hunbroken.mpr hstrings token hmem hbreak

/-- A string over two lines takes three lines of the dump, and none of them is the text of a token
but the last, which is for the end. -/
theorem plain_dump_of_broken_string :
    let lines := linesOf (runScript ⟨true, false⟩ "p.lox" "\"a\nb\"").stdout.toList
    let shown := (tokens "\"a\nb\"").filter fun token => true || token.kind ≠ .endOfInput
    lines = ["STRING \"a".toList, "b\" a".toList, "b".toList, "EOF  null".toList] ∧
      shown.map Token.plainText = ["STRING \"a\nb\" a\nb", "EOF  null"] ∧
      ¬(lines.length = shown.length ∧ lines = shown.map fun token => token.plainText.toList) := by
  decide +kernel

end Command

end LoxLexer
