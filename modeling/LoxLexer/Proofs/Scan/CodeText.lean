import LoxLexer.Proofs.Lexeme.Alphabet
import LoxLexer.Proofs.Scan.Separators
import LoxLexer.Reporter.Kinds
import LoxLexer.Text.Pieces

/-!
# The code of a text

Where no strings stand in the way, the lexemes of a scan are what is left of the text when each line
is cut at its first two slashes and everything insignificant is dropped (`codeText_eq`). The cut
knows nothing of lexemes; it agrees with them since no token but the slash holds a slash, and behind
that one there is no other.
-/
namespace LoxLexer

/-- A line up to the first two slashes that stand side by side. -/
def beforeComment : List Char → List Char
  | '/' :: '/' :: _ => []
  | c :: rest => c :: beforeComment rest
  | [] => []

/-- The lines of a text up to their comments, with the characters to be kept, one behind the
other. -/
def codeText (keep : Char → Bool) (text : List Char) : List Char :=
  (pieces '\n' text).flatMap fun line => (beforeComment line).filter keep

section CodeText

variable {c : Char} {text rest : List Char}

theorem beforeComment_cons (h : c = '/' → rest.head? ≠ some '/') :
    beforeComment (c :: rest) = c :: beforeComment rest := by
  rw [beforeComment.eq_def]
  split
  · rename_i heq
    cases heq
    exact absurd rfl (h rfl)
  · rename_i heq
    cases heq
    rfl
  · rename_i heq
    cases heq

/-- A character that separates nothing goes to the first piece, which begins as the text does. -/
theorem exists_pieces_cons {separator : Char} (h : c ≠ separator) (rest : List Char) :
    ∃ piece more, pieces separator rest = piece :: more ∧
      pieces separator (c :: rest) = (c :: piece) :: more ∧
      ∀ d, piece.head? = some d → rest.head? = some d := by
  cases rest with
  | nil => exact ⟨[], [], rfl, by rw [pieces, if_neg h]; rfl, fun d hd => hd⟩
  | cons e rest =>
    obtain ⟨piece, more, hpieces⟩ :=
      List.exists_cons_of_ne_nil (pieces_ne_nil separator (e :: rest))
    refine ⟨piece, more, hpieces, by rw [pieces, if_neg h, hpieces], fun d hd => ?_⟩
    rw [pieces] at hpieces
    split at hpieces
    · cases hpieces
      cases hd
    · split at hpieces
      · cases hpieces
        exact hd
      · cases hpieces
        exact hd

variable (keep : Char → Bool)

theorem codeText_lineBreak (rest : List Char) :
    codeText keep ('\n' :: rest) = codeText keep rest := by
  rw [codeText, pieces, if_pos rfl]
  rfl

/-- A character that neither ends a line nor begins a comment is code. -/
theorem codeText_cons (hbreak : c ≠ '\n') (hslash : c = '/' → rest.head? ≠ some '/') :
    codeText keep (c :: rest) = [c].filter keep ++ codeText keep rest := by
  obtain ⟨piece, more, hrest, hcons, hhead⟩ := exists_pieces_cons hbreak rest
  have hcut : beforeComment (c :: piece) = c :: beforeComment piece :=
    beforeComment_cons fun hc hd => hslash hc (hhead _ hd)
  rw [codeText, hcons, codeText, hrest, List.flatMap_cons, List.flatMap_cons, hcut,
    ← List.append_assoc, ← List.filter_append]
  rfl

theorem codeText_append (h : ∀ c ∈ text, c ≠ '\n' ∧ c ≠ '/') (rest : List Char) :
    codeText keep (text ++ rest) = text.filter keep ++ codeText keep rest := by
  induction text with
  | nil => rfl
  | cons c text ih =>
    obtain ⟨⟨hbreak, hslash⟩, htext⟩ := List.forall_mem_cons.mp h
    rw [List.cons_append, codeText_cons keep hbreak fun hc => absurd hc hslash, ih htext,
      ← List.append_assoc, ← List.filter_append]
    rfl

/-- A comment holds no code. -/
theorem codeText_comment {body : List Char} (hbody : '\n' ∉ body)
    (h : ∀ c, rest.head? = some c → c = '\n') :
    codeText keep ('/' :: '/' :: body ++ rest) = codeText keep rest := by
  have hcomment : '\n' ∉ '/' :: '/' :: body := by simpa using hbody
  cases rest with
  | nil =>
    rw [List.append_nil, codeText, pieces_of_not_mem hcomment]
    rfl
  | cons c more =>
    obtain rfl := h c rfl
    rw [codeText_lineBreak, codeText, pieces_append_cons hcomment]
    rfl

end CodeText

namespace Lexeme

/-- The text that a lexeme gives to a token. -/
def tokenText (lexeme : Lexeme) : List Char :=
  match lexeme.form with
  | .token _ => lexeme.text
  | _ => []

/-- No token but a string or a slash holds a slash. -/
theorem Matches.slash_not_mem {kind : TokenKind} {text : List Char} {value : Option Literal}
    (h : Matches (.token kind) text value) (hstring : kind ≠ .string) (hslash : kind ≠ .slash) :
    '/' ∉ text := by
  have hdigits {digits : List Char} (hd : IsDigits digits) : '/' ∉ digits := fun hmem =>
    absurd (hd.2 _ hmem) (by decide)
  have hword {word : List Char} (hw : IsWord word) : '/' ∉ word := by
    obtain ⟨c, tail, rfl, hc, htail⟩ := hw.exists_cons
    intro hmem
    rcases List.mem_cons.mp hmem with rfl | hmem
    · exact absurd hc (by decide)
    · exact absurd (htail _ hmem) (by decide)
  cases h with
  | punctuation mark => cases mark <;> decide
  | operator symbol => cases symbol <;> decide
  | operatorEqual symbol => cases symbol <;> decide
  | slash => exact absurd rfl hslash
  | integer h => exact hdigits h
  | fraction hw hf =>
    rw [List.mem_append, List.mem_cons, not_or, not_or]
    exact ⟨hdigits hw, by decide, hdigits hf⟩
  | keyword word => exact hword (isWord_spelling word)
  | identifier h hk => exact hword h
  | string h => exact absurd rfl hstring

/-- A complete lexeme adds its text to the code of a text just if it makes a token. -/
theorem codeText_append_of_matches {keep : Char → Bool}
    (hkept : ∀ c, IsSignificant c → keep c = true)
    (hdropped : ∀ c, c = ' ' ∨ c = '\r' ∨ c = '\t' → keep c = false)
    {lexeme : Lexeme} {value : Option Literal} (h : Matches lexeme.form lexeme.text value)
    (hquote : '"' ∉ lexeme.text) {after : List Char}
    (hs : Stops lexeme.form lexeme.text after) :
    codeText keep (lexeme.text ++ after) = lexeme.tokenText ++ codeText keep after := by
  obtain ⟨form, text⟩ := lexeme
  cases form with
  | token kind =>
    have hstring : kind ≠ .string := by
      rintro rfl
      cases h with
      | string hbody => exact hquote List.mem_cons_self
    have hsignificant := h.isSignificant hstring
    have hfilter : text.filter keep = text :=
      List.filter_eq_self.mpr fun c hc => hkept c (hsignificant c hc)
    have hbreak : ∀ c ∈ text, c ≠ '\n' := by
      rintro c hc rfl
      exact absurd (hsignificant _ hc) (by decide)
    by_cases hslash : kind = .slash
    · subst hslash
      cases h with
      | slash => rw [tokenText, List.singleton_append, codeText_cons keep (by decide) fun _ => hs,
          hfilter]
    · have hno := h.slash_not_mem hstring hslash
      rw [tokenText, codeText_append keep, hfilter]
      exact fun c hc => ⟨hbreak c hc, ne_of_mem_of_not_mem hc hno⟩
  | comment =>
    cases h with
    | comment hbody => exact codeText_comment keep hbody hs
  | blank =>
    cases h with
    | @blank c hc =>
      have hcode : c ≠ '\n' ∧ c ≠ '/' := by rcases hc with rfl | rfl | rfl <;> decide
      rw [List.singleton_append, codeText_cons keep hcode.1 fun hc => absurd hc hcode.2,
        List.filter_cons_of_neg (by simp [hdropped c hc])]
      rfl
  | lineBreak =>
    cases h
    exact codeText_lineBreak keep after
  | foreign c => cases h
  | openString => cases h

/-- Without quotes in the text, its code is what its tokens hold. -/
theorem codeText_eq {keep : Char → Bool} (hkept : ∀ c, IsSignificant c → keep c = true)
    (hdropped : ∀ c, c = ' ' ∨ c = '\r' ∨ c = '\t' → keep c = false)
    {text : List Char} (hquote : '"' ∉ text)
    (hforeign : ∀ lexeme ∈ split text, ∀ c, IsForeign c → lexeme.form = .foreign c →
      keep c = false) :
    codeText keep text = (split text).flatMap tokenText := by
  fun_induction split text with
  | case1 => rfl
  | case2 c rest ih =>
    obtain ⟨hfirst, hmore⟩ := List.forall_mem_cons.mp hforeign
    obtain ⟨lexeme, after, hnext, htaken⟩ := next_cases c rest
    rw [hnext] at ih hfirst hmore ⊢
    rw [List.flatMap_cons]
    cases htaken with
    | complete hm htext hs =>
      rw [← htext, List.mem_append, not_or] at hquote
      rw [← htext, codeText_append_of_matches hkept hdropped hm hquote.1 hs, ih hquote.2 hmore]
    | openString hc hq => exact absurd (hc ▸ List.mem_cons_self) hquote
    | foreign hc =>
      have hbreak : c ≠ '\n' := by
        rintro rfl
        exact absurd hc (by decide)
      have hrest : '"' ∉ rest := List.not_mem_of_not_mem_cons hquote
      rw [codeText_cons keep hbreak fun h => absurd h hc.2.2.1, ih hrest hmore,
        List.filter_cons_of_neg (by simp [hfirst c hc rfl])]
      rfl

end Lexeme

/-- The lexemes of the tokens over some lexemes are the texts that these give to tokens. -/
theorem Step.joined_tokens_along (cursor : Cursor) (lexemes : List Lexeme) :
    joined (tokens (along cursor lexemes)) = lexemes.flatMap Lexeme.tokenText := by
  induction lexemes generalizing cursor with
  | nil => rfl
  | cons lexeme rest ih =>
    obtain ⟨form, text⟩ := lexeme
    rw [List.flatMap_cons, ← ih (cursor.advance text), along]
    cases form with
    | token kind =>
      have htoken : (⟨⟨.token kind, text⟩, cursor.advance text⟩ : Step).token? =
        some ⟨kind, String.ofList text, literalOf kind text, cursor.line⟩ := rfl
      rw [tokens, List.filterMap_cons_some htoken, joined_cons, String.toList_ofList]
      rfl
    | _ => rfl

theorem toList_join_tokens (source : String) :
    (String.join ((tokens source).map Token.lexeme)).toList =
      (Lexeme.split source.toList).flatMap Lexeme.tokenText := by
  have hend (line : Int) : joined [Token.endOfInput line] = [] := rfl
  have hall := Step.joined_tokens_along Cursor.origin (Lexeme.split source.toList)
  rw [toList_join_lexeme, tokens_eq, joined, List.flatMap_append, ← joined, ← joined, hend,
    List.append_nil]
  exact hall

/-- Where nothing is reported, no lexeme is a foreign character. -/
theorem Step.form_ne_foreign_of_reports {source : String} (h : LoxLexer.reports source = []) :
    ∀ lexeme ∈ Lexeme.split source.toList, ∀ c, lexeme.form ≠ .foreign c := by
  intro lexeme hlexeme c hform
  obtain ⟨step, hstep, rfl⟩ := exists_mem_along Cursor.origin hlexeme
  have hreport := List.filterMap_eq_nil_iff.mp h step hstep
  rw [report?, fault?, hform] at hreport
  cases hreport

/-- The lexemes of a source without quotes, one behind the other, are the significant characters of
its lines up to their comments. Where the scan reports nothing, all characters of those lines are
significant but the blanks. -/
theorem scan_rebuilds_code {σ : Type} (reporter : Reporter σ Empty) (state : σ)
    (filename : String) {source : String} (h : '"' ∉ source.toList) :
    let scanned := ((Document.ofSource source filename).scanWith reporter state).1
    let rebuilt := String.join (scanned.tokens.map Token.lexeme)
    rebuilt = String.ofList (codeText (fun c => IsSignificant c) source.toList) ∧
      (reports source = [] →
        rebuilt = String.ofList (codeText (fun c => c ∉ [' ', '\r', '\t']) source.toList)) := by
  intro scanned rebuilt
  have hrebuilt :
      rebuilt = String.ofList ((Lexeme.split source.toList).flatMap Lexeme.tokenText) := by
    rw [← toList_join_tokens, String.ofList_toList]
    simp only [rebuilt, scanned, Document.scanWith_eq, Document.ofSource]
  rw [hrebuilt]
  constructor
  · rw [Lexeme.codeText_eq (fun c hc => decide_eq_true hc) ?_ h ?_]
    · intro c hc
      have hspace : ¬IsSignificant c := by rcases hc with rfl | rfl | rfl <;> decide
      exact decide_eq_false hspace
    · intro lexeme hlexeme c hc hform
      exact decide_eq_false fun hsignificant => (isSignificant_iff.mp hsignificant).1 hc
  · intro hreports
    rw [Lexeme.codeText_eq ?_ ?_ h ?_]
    · intro c hc
      refine decide_eq_true fun hmem => ?_
      simp only [List.mem_cons, List.not_mem_nil, or_false] at hmem
      rcases hmem with rfl | rfl | rfl <;> exact absurd hc (by decide)
    · rintro c (rfl | rfl | rfl) <;> rfl
    · intro lexeme hlexeme c hc hform
      exact absurd hform (Step.form_ne_foreign_of_reports hreports lexeme hlexeme c)

/-- Slashes apart, behind a point, behind an operator and three in a row, and a return at the end of
a comment. -/
theorem scan_rebuilds_code_slashes :
    let source := "a/ /1.//2\n=///@\r\n/b"
    let scanned :=
      ((Document.ofSource source "f.lox").scanWith LineWriter.reporter LineWriter.empty).1
    let rebuilt := String.join (scanned.tokens.map Token.lexeme)
    '"' ∉ source.toList ∧ reports source = [] ∧ rebuilt = "a//1.=/b" ∧
      rebuilt = String.ofList (codeText (fun c => c ∉ [' ', '\r', '\t']) source.toList) := by
  intro source scanned rebuilt
  have hquote : '"' ∉ source.toList := by decide
  have hreports : reports source = [] := by decide +kernel
  obtain ⟨hcode, hblanks⟩ :=
    scan_rebuilds_code LineWriter.reporter LineWriter.empty "f.lox" hquote
  exact ⟨hquote, hreports, hcode.trans (by decide), hblanks hreports⟩

end LoxLexer
