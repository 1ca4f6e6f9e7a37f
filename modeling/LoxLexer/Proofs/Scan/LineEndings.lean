import LoxLexer.Proofs.Lexeme.Alphabet
import LoxLexer.Proofs.Scan.LineBreaks
import LoxLexer.Source.Newlines

/-!
# Line endings

A text whose lines end in a return and a line feed is the same program as the one whose lines end in
the line feed alone. Of a paired return nothing is seen between lexemes, for there it is a blank and
the line feed behind it stops whatever it stopped; within a comment and a string it belongs to the
text, and only the string shows it (`Lexeme.split_filter`). The lines are counted by the line
feeds, so all tokens and faults stay on their lines, though they move to other offsets.
-/
namespace LoxLexer

/-- A text with each return and line feed in a row replaced by the line feed. -/
def foldReturns : List Char → List Char
  | [] => []
  | '\r' :: '\n' :: rest => '\n' :: foldReturns rest
  | c :: rest => c :: foldReturns rest

/-- Every return has a line feed right behind it. -/
def PairedReturns (text : List Char) : Prop :=
  ∀ before after, text = before ++ '\r' :: after → after.head? = some '\n'

theorem pairedReturns_iff {text : List Char} : PairedReturns text ↔
    ∀ last ∈ text.tails, last.head? = some '\r' → last.tail.head? = some '\n' := by
  constructor
  · intro h last hlast hreturn
    obtain ⟨after, rfl⟩ := List.head?_eq_some_iff.mp hreturn
    obtain ⟨before, htext⟩ := (List.mem_tails _ _).mp hlast
    exact h before after htext.symm
  · rintro h before after rfl
    exact h ('\r' :: after) ((List.mem_tails _ _).mpr (List.suffix_append _ _)) rfl

instance : DecidablePred PairedReturns := fun _ => decidable_of_iff _ pairedReturns_iff.symm

def isNotReturn (c : Char) : Bool := c ≠ '\r'

variable {c : Char} {text rest : List Char}

theorem isNotReturn_iff : isNotReturn c = true ↔ c ≠ '\r' := decide_eq_true_iff

theorem filter_cons_of_ne_return (h : c ≠ '\r') :
    (c :: rest).filter isNotReturn = c :: rest.filter isNotReturn :=
  List.filter_cons_of_pos (isNotReturn_iff.mpr h)

theorem filter_quoted (body : List Char) :
    ('"' :: body ++ ['"']).filter isNotReturn = '"' :: body.filter isNotReturn ++ ['"'] :=
  List.filter_append _ _

theorem PairedReturns.of_append {before : List Char} (h : PairedReturns (before ++ text)) :
    PairedReturns text := by
  rintro first last rfl
  exact h (before ++ first) last (List.append_assoc _ _ _).symm

theorem PairedReturns.of_cons (h : PairedReturns (c :: rest)) : PairedReturns rest :=
  @PairedReturns.of_append rest [c] h

/-- A text stays paired if it is not cut off between a return and its line feed. -/
theorem PairedReturns.of_append_left (h : PairedReturns (text ++ rest))
    (hcut : text.getLast? = some '\r' → rest.head? ≠ some '\n') : PairedReturns text := by
  rintro before after rfl
  have hnext := h before (after ++ rest) (by simp)
  cases after with
  | nil => exact absurd hnext (hcut (by simp))
  | cons d after => exact hnext

/-- Behind a return stands a line feed. -/
theorem PairedReturns.exists_lineFeed (h : PairedReturns ('\r' :: rest)) :
    ∃ more, rest = '\n' :: more := List.head?_eq_some_iff.mp (h [] rest rfl)

/-- Where a first return is taken out, a line feed comes first. -/
theorem PairedReturns.head?_filter (h : PairedReturns text) :
    (text.filter isNotReturn).head? = text.head? ∨
      (text.filter isNotReturn).head? = some '\n' := by
  cases text with
  | nil => exact .inl rfl
  | cons c rest =>
    by_cases hc : c = '\r'
    · subst hc
      obtain ⟨more, rfl⟩ := h.exists_lineFeed
      exact .inr rfl
    · rw [filter_cons_of_ne_return hc]
      exact .inl rfl

theorem PairedReturns.ne_return (h : PairedReturns (c :: rest))
    (hnext : ∀ more, c = '\r' → rest ≠ '\n' :: more) : c ≠ '\r' := by
  rintro rfl
  obtain ⟨more, rfl⟩ := h.exists_lineFeed
  exact hnext more rfl rfl

/-- Where the returns are paired, they go and all else stays. -/
theorem foldReturns_eq_filter (h : PairedReturns text) :
    foldReturns text = text.filter isNotReturn := by
  fun_induction foldReturns text with
  | case1 => rfl
  | case2 rest ih =>
    rw [ih h.of_cons.of_cons]
    rfl
  | case3 c rest hnext ih =>
    rw [ih h.of_cons, filter_cons_of_ne_return (h.ne_return hnext)]

/-- There it makes no difference if a return alone is taken for the end of a line, too. -/
theorem foldNewlines_eq_foldReturns (h : PairedReturns text) :
    foldNewlines text = foldReturns text := by
  fun_induction foldReturns text with
  | case1 => rfl
  | case2 rest ih => rw [foldNewlines, ih h.of_cons.of_cons]
  | case3 c rest hnext ih =>
    rw [foldNewlines, ih h.of_cons]
    · exact hnext
    · exact h.ne_return hnext

namespace Lexeme

/-- A return between other lexemes. -/
def loneReturn : Lexeme := ⟨.blank, ['\r']⟩

/-- A lexeme with the returns taken out of its text. -/
def withoutReturns (lexeme : Lexeme) : Lexeme :=
  { lexeme with text := lexeme.text.filter isNotReturn }

variable {form : LexemeForm} {value : Option Literal}

/-- Only strings and comments hold returns beside other characters. -/
theorem Matches.filter_eq_self (h : Matches form text value) (hstring : form ≠ .token .string)
    (hcomment : form ≠ .comment) (hlone : (⟨form, text⟩ : Lexeme) ≠ loneReturn) :
    text.filter isNotReturn = text := by
  rw [List.filter_eq_self]
  rcases h.isSpace_or_isSignificant hstring hcomment with ⟨c, -, rfl⟩ | hsignificant
  · have hc : c ≠ '\r' := by
      rintro rfl
      exact hlone (by rw [(h.unique (.blank (.inr (.inl rfl)))).1, loneReturn])
    exact List.forall_mem_singleton.mpr (isNotReturn_iff.mpr hc)
  · intro c hc
    have hne : c ≠ '\r' := by
      rintro rfl
      exact absurd (hsignificant '\r' hc) (by decide)
    exact isNotReturn_iff.mpr hne

/-- A complete lexeme stays complete without its returns. -/
theorem Matches.withoutReturns (h : Matches form text value)
    (hlone : (⟨form, text⟩ : Lexeme) ≠ loneReturn) :
    ∃ value, Matches form (text.filter isNotReturn) value := by
  by_cases hstring : form = .token .string
  · subst hstring
    cases h with
    | @string body hbody =>
      have hkept : '"' ∉ body.filter isNotReturn := fun hmem => hbody (List.mem_of_mem_filter hmem)
      rw [filter_quoted]
      exact ⟨_, .string hkept⟩
  · by_cases hcomment : form = .comment
    · subst hcomment
      cases h with
      | @comment body hbody =>
        exact ⟨none, .comment fun hmem => hbody (List.mem_of_mem_filter hmem)⟩
    · rw [h.filter_eq_self hstring hcomment hlone]
      exact ⟨value, h⟩

/-- The line feed behind a return stops whatever the return stopped. -/
theorem Stops.withoutReturns {after : List Char} (h : Stops form text after)
    (hafter : PairedReturns after) :
    Stops form (text.filter isNotReturn) (after.filter isNotReturn) := by
  refine Stops.of_point ?_ fun hmem => List.mem_filter.mpr ⟨hmem, rfl⟩
  cases after with
  | nil => exact stops_nil form text
  | cons c more =>
    by_cases hc : c = '\r'
    · subst hc
      obtain ⟨rest, rfl⟩ := hafter.exists_lineFeed
      exact stops_lineBreak form text _
    · rw [filter_cons_of_ne_return hc]
      refine h.of_cons fun hnone => ?_
      rw [takeFraction_eq_self_iff] at hnone ⊢
      rintro d tail heq
      obtain ⟨rfl, htail⟩ := List.cons.inj heq
      rcases hafter.of_cons.head?_filter with hhead | hhead
      · rw [htail, List.head?_cons] at hhead
        obtain ⟨after, rfl⟩ := List.head?_eq_some_iff.mp hhead.symm
        exact hnone d after rfl
      · rw [htail, List.head?_cons, Option.some.injEq] at hhead
        rw [hhead]
        rfl

/-- Without the paired returns a text falls into the same lexemes, those apart that are returns. -/
theorem split_filter (h : PairedReturns text) :
    split (text.filter isNotReturn) =
      ((split text).filter (· ≠ loneReturn)).map withoutReturns := by
  fun_induction split text with
  | case1 => rw [List.filter_nil, split, List.filter_nil, List.map_nil]
  | case2 c rest ih =>
    obtain ⟨lexeme, after, hnext, htaken⟩ := next_cases c rest
    have htext := next_append c rest
    rw [hnext] at ih htext ⊢
    have hafter : PairedReturns after := (htext ▸ h).of_append
    replace ih : split (after.filter isNotReturn) =
        ((split after).filter (· ≠ loneReturn)).map withoutReturns := ih hafter
    rw [← htext, List.filter_append]
    by_cases hlone : lexeme = loneReturn
    · -- the return is gone from the text, and its lexeme from the list
      subst hlone
      rw [List.filter_cons_of_neg (a := loneReturn) (by simp)]
      exact ih
    · rw [List.filter_cons_of_pos (a := lexeme) (by simpa using hlone), List.map_cons, ← ih]
      cases htaken with
      | complete hm _ hs =>
        obtain ⟨value, hm'⟩ := hm.withoutReturns hlone
        exact split_append_of_matches hm' (hs.withoutReturns hafter)
      | openString hc hq =>
        subst hc
        have hopen : '"' ∉ rest.filter isNotReturn := fun hmem => hq (List.mem_of_mem_filter hmem)
        rw [List.filter_nil, List.append_nil, filter_cons_of_ne_return (by decide), split, split,
          next_quote, nextString_open hopen, split]
        rfl
      | foreign hc =>
        have hkept : [c].filter isNotReturn = [c] := by
          have hne : c ≠ '\r' := fun hreturn => hc.1 (.inr (.inl hreturn))
          exact filter_cons_of_ne_return hne
        rw [hkept, List.singleton_append, split,
          next_foreign (CharClass.ofChar_eq_foreign_iff.mpr hc), withoutReturns, hkept]

end Lexeme

theorem PairedReturns.of_mem_split {lexeme : Lexeme} (h : PairedReturns text)
    (hmem : lexeme ∈ Lexeme.split text) (hlast : lexeme.text.getLast? ≠ some '\r') :
    PairedReturns lexeme.text := by
  obtain ⟨before, after, hsplit⟩ := List.append_of_mem hmem
  have htext : before.flatMap Lexeme.text ++ (lexeme.text ++ after.flatMap Lexeme.text) = text := by
    rw [← Lexeme.flatMap_text_split text, hsplit, List.flatMap_append, List.flatMap_cons]
  rw [← htext] at h
  exact h.of_append.of_append_left fun hreturn => absurd hreturn hlast

def foldReturnsIn (text : String) : String := String.ofList (foldReturns text.toList)

/-- A literal with the returns in it folded; a number holds none. -/
def Literal.foldReturns : Literal → Literal
  | .text value => .text (foldReturnsIn value)
  | .number value => .number value

/-- A token with the returns in it folded; only a string can hold some. -/
def Token.foldReturns (token : Token) : Token :=
  if token.kind = .string then
    { token with
      lexeme := foldReturnsIn token.lexeme
      literal := token.literal.map Literal.foldReturns }
  else token

theorem foldReturnsIn_ofList (h : PairedReturns text) :
    foldReturnsIn (String.ofList text) = String.ofList (text.filter isNotReturn) := by
  rw [foldReturnsIn, String.toList_ofList, foldReturns_eq_filter h]

namespace Step

theorem literalOf_string (body : List Char) :
    literalOf .string ('"' :: body ++ ['"']) = some (.text (String.ofList body)) := by
  simp [literalOf]

/-- What a step yields as a token is a matter of the line, not of the offset. -/
theorem token?_withoutReturns (h : PairedReturns text) {lexeme : Lexeme}
    (hmem : lexeme ∈ Lexeme.split text) {a b : Cursor} (hline : a.startLine = b.startLine) :
    token? ⟨lexeme.withoutReturns, a⟩ = (token? ⟨lexeme, b⟩).map Token.foldReturns := by
  obtain ⟨form, source⟩ := lexeme
  cases form with
  | token kind =>
    have hm := Lexeme.matches_of_mem_split hmem rfl
    by_cases hkind : kind = .string
    · subst hkind
      obtain ⟨body, -, rfl, -⟩ := Lexeme.Matches.exists_body hm
      have hlast : ('"' :: body ++ ['"']).getLast? = some '"' := List.getLast?_concat
      have hlexeme : PairedReturns ('"' :: body ++ ['"']) :=
        h.of_mem_split hmem (by rw [hlast]; decide)
      have hbody : PairedReturns body := (hlexeme.of_append_left fun _ => by simp).of_cons
      simp only [token?, Lexeme.withoutReturns, filter_quoted, literalOf_string, Option.map_some,
        Token.foldReturns, if_true, Literal.foldReturns, foldReturnsIn_ofList hlexeme,
        foldReturnsIn_ofList hbody, hline]
    · have hkept : source.filter isNotReturn = source :=
        hm.filter_eq_self (fun hform => hkind (LexemeForm.token.inj hform)) (by simp)
          (by simp [Lexeme.loneReturn])
      simp only [token?, Lexeme.withoutReturns, hkept, Option.map_some, Token.foldReturns,
        if_neg hkind, hline]
  | _ => rfl

theorem diagnostic?_withoutReturns (filename : String) (lexeme : Lexeme) {a b : Cursor}
    (hline : a.line = b.line) :
    diagnostic? filename ⟨lexeme.withoutReturns, a⟩ = diagnostic? filename ⟨lexeme, b⟩ := by
  rw [diagnostic?, diagnostic?, hline]
  rfl

/-- Steps without the returns and steps with them stay on the same lines. -/
theorem filterMap_along_withoutReturns {α : Type} {yield yield' : Step → Option α}
    {lexemes : List Lexeme} (hlone : ∀ cursor, yield ⟨Lexeme.loneReturn, cursor⟩ = none)
    (hyield : ∀ lexeme ∈ lexemes, ∀ a b : Cursor, a.line = b.line → a.startLine = b.startLine →
      yield' ⟨lexeme.withoutReturns, a⟩ = yield ⟨lexeme, b⟩)
    {first second : Cursor} (hline : first.line = second.line) :
    (along first ((lexemes.filter (· ≠ Lexeme.loneReturn)).map
        Lexeme.withoutReturns)).filterMap yield' =
      (along second lexemes).filterMap yield := by
  induction lexemes generalizing first second with
  | nil => rfl
  | cons lexeme rest ih =>
    obtain ⟨hfirst, hrest⟩ := List.forall_mem_cons.mp hyield
    by_cases hreturn : lexeme = Lexeme.loneReturn
    · subst hreturn
      rw [List.filter_cons_of_neg (by simp), along, List.filterMap_cons_none (hlone _)]
      exact ih hrest hline
    · have hnext : (first.advance lexeme.withoutReturns.text).line =
          (second.advance lexeme.text).line := by
        have hcount : (lexeme.text.filter isNotReturn).count '\n' = lexeme.text.count '\n' :=
          List.count_filter rfl
        simp only [Cursor.advance, Lexeme.withoutReturns, hcount, hline]
      rw [List.filter_cons_of_pos (by simpa using hreturn), List.map_cons, along, along,
        List.filterMap_cons, List.filterMap_cons, hfirst _ _ hnext hline, ih hrest hnext]

theorem filterMap_all_foldReturnsIn {α : Type} {yield yield' : Step → Option α} {source : String}
    (h : PairedReturns source.toList) (hlone : ∀ cursor, yield ⟨Lexeme.loneReturn, cursor⟩ = none)
    (hyield : ∀ lexeme ∈ Lexeme.split source.toList, ∀ a b : Cursor, a.line = b.line →
      a.startLine = b.startLine → yield' ⟨lexeme.withoutReturns, a⟩ = yield ⟨lexeme, b⟩) :
    (all (foldReturnsIn source)).filterMap yield' = (all source).filterMap yield := by
  rw [all, foldReturnsIn, String.toList_ofList, foldReturns_eq_filter h, Lexeme.split_filter h]
  exact filterMap_along_withoutReturns hlone hyield rfl

end Step

/-- Where the returns are paired, folding them folds the strings among the tokens and leaves the
other tokens as they are. -/
theorem tokens_foldReturnsIn {source : String} (h : PairedReturns source.toList) :
    tokens (foldReturnsIn source) = (tokens source).map Token.foldReturns := by
  have hsteps : (Step.all (foldReturnsIn source)).filterMap Step.token? =
      (Step.all source).filterMap fun step => step.token?.map Token.foldReturns :=
    Step.filterMap_all_foldReturnsIn h (fun _ => rfl) fun lexeme hmem a b _ hline =>
      Step.token?_withoutReturns h hmem hline
  have hcount : (foldReturnsIn source).toList.count '\n' = source.toList.count '\n' := by
    rw [foldReturnsIn, String.toList_ofList, foldReturns_eq_filter h]
    exact List.count_filter rfl
  rw [tokens_eq, tokens_eq, hsteps, hcount, List.map_append, List.map_filterMap]
  rfl

theorem diagnostics_foldReturnsIn {source : String} (h : PairedReturns source.toList)
    (filename : String) :
    diagnostics filename (foldReturnsIn source) = diagnostics filename source :=
  Step.filterMap_all_foldReturnsIn h (fun _ => rfl) fun lexeme _ _ _ hline _ =>
    Step.diagnostic?_withoutReturns filename lexeme hline

theorem reports_foldReturnsIn {source : String} (h : PairedReturns source.toList) :
    reports (foldReturnsIn source) = reports source := by
  have hreports (text : String) : reports text = (diagnostics "" text).map Diagnostic.report :=
    (Step.map_report_diagnostics "" (Step.all text)).symm
  rw [hreports, hreports, diagnostics_foldReturnsIn h]

end LoxLexer
