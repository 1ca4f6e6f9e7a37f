import LoxLexer.Proofs.Lexeme.Alphabet
import LoxLexer.Proofs.Lexeme.Replacement
import LoxLexer.Proofs.Scan.Progress
import LoxLexer.Reporter.Kinds

/-!
# Foreign characters are interchangeable

No foreign character is treated in a way of its own, be it the NUL or a letter of another script.
Whatever foreign characters are put in the place of those in a text, the steps over it begin and end
at the same places, and what they yield differs in the exchanged characters alone
(`Step.all_exchanged`).
-/
namespace LoxLexer

/-- A function that sends foreign characters to foreign ones and leaves all others as they are. -/
structure ExchangesForeign (f : Char → Char) : Prop where
  isForeign : ∀ c, IsForeign c → IsForeign (f c)
  eq_self : ∀ c, ¬IsForeign c → f c = c

variable {f : Char → Char}

/-- Only ASCII characters are at home in Lox. -/
theorem isForeign_of_lt {c : Char} (h : 0x7F < c.toNat) : IsForeign c := by
  have hle {d : Char} (hd : d.toNat ≤ 0x7F) : ¬c ≤ d := fun hcd =>
    absurd (Nat.le_trans (Char.le_def.mp hcd) hd) (Nat.not_le.mpr h)
  have hne {d : Char} (hd : d.toNat ≤ 0x7F) : c ≠ d := fun hcd => hle hd (hcd ▸ Char.le_refl c)
  refine ⟨?_, hne (by decide), hne (by decide), ?_, fun hdigit => hle (by decide) hdigit.2,
    fun mark _ => (hne ?_).symm, fun symbol _ => (hne ?_).symm⟩
  · rintro (hc | hc | hc | hc) <;> exact hne (by decide) hc
  · rintro (⟨-, hc⟩ | ⟨-, hc⟩ | hc)
    · exact hle (by decide) hc
    · exact hle (by decide) hc
    · exact hne (by decide) hc
  · cases mark <;> decide
  · cases symbol <;> decide

namespace ExchangesForeign

/-- One foreign character may be exchanged for another. -/
theorem single {c d : Char} (hc : IsForeign c) (hd : IsForeign d) :
    ExchangesForeign fun x => if x = c then d else x where
  isForeign x hx := by
    split
    · exact hd
    · exact hx
  eq_self x hx := by
    rw [if_neg]
    rintro rfl
    exact hx hc

theorem mayReplace (hf : ExchangesForeign f) (c : Char) : Lexeme.MayReplace (f c) c := by
  by_cases hc : IsForeign c
  · exact .inr ⟨hc, .inr (hf.isForeign c hc)⟩
  · exact .inl (hf.eq_self c hc)

/-- A character that is not foreign stands where it stood, and nowhere else. -/
theorem eq_iff (hf : ExchangesForeign f) {c d : Char} (hd : ¬IsForeign d) : f c = d ↔ c = d := by
  by_cases hc : IsForeign c
  · exact iff_of_false (fun h => hd (h ▸ hf.isForeign c hc)) (fun h => hd (h ▸ hc))
  · rw [hf.eq_self c hc]

theorem mem_map_iff (hf : ExchangesForeign f) {d : Char} (hd : ¬IsForeign d) {text : List Char} :
    d ∈ text.map f ↔ d ∈ text := by
  simp only [List.mem_map, hf.eq_iff hd, exists_eq_right]

theorem count_map (hf : ExchangesForeign f) {d : Char} (hd : ¬IsForeign d) (text : List Char) :
    (text.map f).count d = text.count d := by
  rw [List.count_eq_countP, List.countP_map, List.count_eq_countP]
  refine List.countP_congr fun c _ => ?_
  simp only [Function.comp_apply, beq_iff_eq, hf.eq_iff hd]

/-- A text without foreign characters stays as it is. -/
theorem map_eq_self (hf : ExchangesForeign f) {text : List Char} (h : ∀ c ∈ text, ¬IsForeign c) :
    text.map f = text :=
  (List.map_congr_left fun c hc => hf.eq_self c (h c hc)).trans (List.map_id' text)

end ExchangesForeign

/-- The literal with its characters exchanged; a number holds none. -/
def Literal.exchanged (f : Char → Char) : Literal → Literal
  | text value => text (value.map f)
  | number value => number value

def Token.exchanged (f : Char → Char) (token : Token) : Token :=
  { token with lexeme := token.lexeme.map f, literal := token.literal.map (Literal.exchanged f) }

namespace Lexeme

def exchangedForm (f : Char → Char) : LexemeForm → LexemeForm
  | .foreign c => .foreign (f c)
  | form => form

def exchanged (f : Char → Char) (lexeme : Lexeme) : Lexeme :=
  ⟨exchangedForm f lexeme.form, lexeme.text.map f⟩

theorem exchanged_of_matches {lexeme : Lexeme} {value : Option Literal}
    (h : Matches lexeme.form lexeme.text value) :
    lexeme.exchanged f = ⟨lexeme.form, lexeme.text.map f⟩ := by
  obtain ⟨form, text⟩ := lexeme
  cases h <;> rfl

/-- Only strings and comments hold foreign characters. -/
theorem Matches.not_isForeign {form : LexemeForm} {text : List Char} {value : Option Literal}
    (h : Matches form text value) (hstring : form ≠ .token .string) (hcomment : form ≠ .comment) :
    ∀ c ∈ text, ¬IsForeign c := by
  rcases h.isSpace_or_isSignificant hstring hcomment with ⟨c, hc, rfl⟩ | hsignificant
  · exact List.forall_mem_singleton.mpr fun hforeign => hforeign.1 hc
  · exact fun c hc => (isSignificant_iff.mp (hsignificant c hc)).1

/-- Among the literals only those of strings hold characters. -/
theorem Matches.literal_exchanged {form : LexemeForm} {text : List Char} {value : Option Literal}
    (h : Matches form text value) (hstring : form ≠ .token .string) :
    value.map (Literal.exchanged f) = value := by
  cases h with
  | string h => exact absurd rfl hstring
  | _ => rfl

/-- A complete lexeme stays complete and keeps its form. -/
theorem Matches.exchanged (hf : ExchangesForeign f) {form : LexemeForm} {text : List Char}
    {value : Option Literal} (h : Matches form text value) :
    Matches form (text.map f) (value.map (Literal.exchanged f)) := by
  have hquote : f '"' = '"' := hf.eq_self '"' (by decide)
  have hslash : f '/' = '/' := hf.eq_self '/' (by decide)
  by_cases hstring : form = .token .string
  · subst hstring
    cases h with
    | @string body hbody =>
      have hvalue : (String.ofList body).map f = String.ofList (body.map f) := by
        rw [← String.toList_inj, String.toList_map, String.toList_ofList, String.toList_ofList]
      rw [List.map_append, List.map_cons, List.map_singleton, hquote, Option.map_some,
        Literal.exchanged, hvalue]
      exact .string fun hmem => hbody ((hf.mem_map_iff (by decide)).mp hmem)
  · by_cases hcomment : form = .comment
    · subst hcomment
      cases h with
      | @comment body hbody =>
        rw [List.map_cons, List.map_cons, hslash]
        exact .comment fun hmem => hbody ((hf.mem_map_iff (by decide)).mp hmem)
    · rw [hf.map_eq_self (h.not_isForeign hstring hcomment), h.literal_exchanged hstring]
      exact h

/-- What stops a lexeme stops it also when characters on both sides are exchanged. -/
theorem Stops.exchanged (hf : ExchangesForeign f) {form : LexemeForm} {text rest : List Char}
    (h : Stops form text rest) : Stops form (text.map f) (rest.map f) := by
  have hreplaced : List.Forall₂ MayReplace (rest.map f) rest :=
    List.forall₂_map_left_iff.mpr (List.forall₂_same.mpr fun c _ => hf.mayReplace c)
  exact (h.replaced hreplaced).of_point (hf.mem_map_iff (by decide)).mpr

/-- Exchanged characters neither join nor part the lexemes of a text. -/
theorem split_map (hf : ExchangesForeign f) (text : List Char) :
    split (text.map f) = (split text).map (exchanged f) := by
  fun_induction split text with
  | case1 => rw [List.map_nil, split, List.map_nil]
  | case2 c rest ih =>
    obtain ⟨lexeme, after, hnext, htaken⟩ := next_cases c rest
    rw [hnext] at ih ⊢
    rw [List.map_cons (f := exchanged f), ← ih]
    cases htaken with
    | complete hm htext hs =>
      rw [← htext, List.map_append, exchanged_of_matches hm]
      exact split_append_of_matches (hm.exchanged hf) (hs.exchanged hf)
    | openString hc hq =>
      have hquote : f c = '"' := by rw [hc, hf.eq_self '"' (by decide)]
      have hopen : '"' ∉ rest.map f := fun hmem => hq ((hf.mem_map_iff (by decide)).mp hmem)
      rw [List.map_cons, hquote, split, next_quote, nextString_open hopen, exchanged,
        List.map_cons, hquote, List.map_nil]
      rfl
    | foreign hc =>
      have hclass := CharClass.ofChar_eq_foreign_iff.mpr (hf.isForeign c hc)
      rw [List.map_cons, split, next_foreign hclass]
      rfl

end Lexeme

namespace Step

/-- A step as it is when characters are exchanged; it begins and ends at the same places. -/
def exchanged (f : Char → Char) (step : Step) : Step := ⟨step.lexeme.exchanged f, step.cursor⟩

theorem advance_map (hf : ExchangesForeign f) (cursor : Cursor) (text : List Char) :
    cursor.advance (text.map f) = cursor.advance text := by
  simp only [Cursor.advance, List.length_map, hf.count_map (by decide : ¬IsForeign '\n')]

theorem along_map_exchanged (hf : ExchangesForeign f) (cursor : Cursor) (lexemes : List Lexeme) :
    along cursor (lexemes.map (Lexeme.exchanged f)) =
      (along cursor lexemes).map (exchanged f) := by
  induction lexemes generalizing cursor with
  | nil => rfl
  | cons lexeme rest ih =>
    have hadvance : cursor.advance (lexeme.exchanged f).text = cursor.advance lexeme.text :=
      advance_map hf cursor lexeme.text
    rw [List.map_cons, along, along, List.map_cons, hadvance, ih]
    rfl

/-- The steps over a text are taken at the same places when characters are exchanged. -/
theorem all_exchanged (hf : ExchangesForeign f) (source : String) :
    all (source.map f) = (all source).map (exchanged f) := by
  rw [all, String.toList_map, Lexeme.split_map hf, along_map_exchanged hf, all]

theorem report?_exchanged (step : Step) : (step.exchanged f).report? = step.report? := by
  obtain ⟨⟨form, text⟩, cursor⟩ := step
  cases form <;> rfl

/-- A diagnostic in short, with its code. -/
def codedReport? (filename : String) (step : Step) : Option (Report × Option String) :=
  (step.diagnostic? filename).map fun diagnostic => (diagnostic.report, diagnostic.code)

theorem codedReport?_exchanged (filename : String) (step : Step) :
    (step.exchanged f).codedReport? filename = step.codedReport? filename := by
  obtain ⟨⟨form, text⟩, cursor⟩ := step
  cases form <;> rfl

theorem token?_exchanged (hf : ExchangesForeign f) {source : String} {step : Step}
    (h : step ∈ all source) : (step.exchanged f).token? = step.token?.map (Token.exchanged f) := by
  have hmem := lexeme_mem_of_mem_along h
  obtain ⟨⟨form, text⟩, cursor⟩ := step
  cases form with
  | token kind =>
    have hm := Lexeme.matches_of_mem_split hmem rfl
    have hliteral : literalOf kind (text.map f) =
        (literalOf kind text).map (Literal.exchanged f) :=
      @Lexeme.Matches.literal_eq ⟨.token kind, text.map f⟩ _ (hm.exchanged hf)
    have hlexeme : (String.ofList text).map f = String.ofList (text.map f) := by
      rw [← String.toList_inj, String.toList_map, String.toList_ofList, String.toList_ofList]
    simp only [exchanged, Lexeme.exchanged, Lexeme.exchangedForm, token?, Option.map_some,
      Token.exchanged, hliteral, hlexeme]
  | _ => rfl

end Step

/-- A reporter sees steps only by what they report. -/
theorem Reporter.watch_map {σ ε : Type} (reporter : Reporter σ ε) {g : Step → Step}
    (h : ∀ step, (g step).report? = step.report?) (state : σ) (steps : List Step) :
    reporter.watch state (steps.map g) =
      ⟨(reporter.watch state steps).steps.map g, (reporter.watch state steps).state,
        (reporter.watch state steps).stop⟩ := by
  induction steps generalizing state with
  | nil => rfl
  | cons step rest ih =>
    rw [List.map_cons, watch, watch, h]
    split
    · rw [ih]
      rfl
    · split
      · rfl
      · rw [ih]
        rfl

theorem Token.exchanged_endOfInput (line : Int) :
    (Token.endOfInput line).exchanged f = Token.endOfInput line := by
  have hempty : ("" : String).map f = "" := by rw [← String.toList_inj, String.toList_map]; rfl
  rw [Token.exchanged, Token.endOfInput, hempty, Option.map_none]

/-- What some steps leave behind differs in the exchanged characters alone. -/
theorem Document.settle_exchanged (hf : ExchangesForeign f) {document : Document}
    {steps : List Step} (h : ∀ step ∈ steps, step ∈ Step.all document.source) (finished : Bool) :
    let before := document.settle steps finished
    let after := { document with source := document.source.map f }.settle
      (steps.map (Step.exchanged f)) finished
    after.cursor = before.cursor ∧
      after.tokens = before.tokens.map (Token.exchanged f) ∧
      after.diagnostics.map (fun d => (d.report, d.code)) =
        before.diagnostics.map (fun d => (d.report, d.code)) := by
  intro before after
  have hcursor : after.cursor = before.cursor := List.foldl_map
  have htokens : Step.tokens (steps.map (Step.exchanged f)) =
      (Step.tokens steps).map (Token.exchanged f) := by
    rw [Step.tokens, List.filterMap_map, Step.tokens, List.map_filterMap]
    exact List.filterMap_congr fun step hstep => Step.token?_exchanged hf (h step hstep)
  have hcoded (some : List Step) :
      (Step.diagnostics document.filename some).map (fun d => (d.report, d.code)) =
        some.filterMap (Step.codedReport? document.filename) := List.map_filterMap
  refine ⟨hcursor, ?_, ?_⟩
  · have hafter : after.tokens = Step.tokens (steps.map (Step.exchanged f)) ++
        if finished then [Token.endOfInput after.cursor.line] else [] := rfl
    have hbefore : before.tokens = Step.tokens steps ++
        if finished then [Token.endOfInput before.cursor.line] else [] := rfl
    rw [hafter, hbefore, hcursor, htokens, List.map_append]
    cases finished with
    | true => simp [Token.exchanged_endOfInput]
    | false => simp
  · refine (hcoded _).trans (Eq.trans ?_ (hcoded steps).symm)
    rw [List.filterMap_map]
    exact congrArg (List.filterMap · steps)
      (funext (Step.codedReport?_exchanged document.filename))

/-- When foreign characters are exchanged in a source, its steps begin and end where they did. The
tokens keep their kinds and their lines, and their lexemes and the literals of strings change by the
same exchange; numbers keep their literals. The reports stay as they are, and so do the codes of the
faults. Foreign is whatever is not ASCII, and so is the NUL: a scan takes it for the end of the
source no more than any other character. -/
theorem scan_exchanged {σ ε : Type} (reporter : Reporter σ ε) (state : σ)
    (filename source : String) (hf : ExchangesForeign f) :
    let scanned (text : String) := (Document.ofSource text filename).scanWith reporter state
    (Step.all (source.map f)).map Step.cursor = (Step.all source).map Step.cursor ∧
      (scanned (source.map f)).1.cursor = (scanned source).1.cursor ∧
      (scanned (source.map f)).1.tokens = (scanned source).1.tokens.map (Token.exchanged f) ∧
      (scanned (source.map f)).1.diagnostics.map (fun d => (d.report, d.code)) =
        (scanned source).1.diagnostics.map (fun d => (d.report, d.code)) ∧
      reports (source.map f) = reports source ∧
      (scanned (source.map f)).2 = (scanned source).2 ∧
      (∀ c : Char, 0x7F < c.toNat → IsForeign c) ∧ IsForeign '\x00' ∧
      ∀ d, IsForeign d →
        (Step.all (source.map fun c => if c = '\x00' then d else c)).map Step.cursor =
          (Step.all source).map Step.cursor := by
  intro scanned
  have hcursors {g : Char → Char} (hg : ExchangesForeign g) :
      (Step.all (source.map g)).map Step.cursor = (Step.all source).map Step.cursor := by
    rw [Step.all_exchanged hg, List.map_map]
    rfl
  have hreports : reports (source.map f) = reports source := by
    rw [reports, Step.all_exchanged hf, Step.reports, List.filterMap_map]
    exact congrArg (List.filterMap · (Step.all source)) (funext Step.report?_exchanged)
  have hseen := reporter.watch_map (@Step.report?_exchanged f) state (Step.all source)
  have hscanned : scanned (source.map f) =
      ((Document.ofSource (source.map f) filename).settle
          ((reporter.watch state (Step.all source)).steps.map (Step.exchanged f))
          (reporter.watch state (Step.all source)).stop.isNone,
        (scanned source).2) := by
    simp only [scanned, Document.scanWith, Document.ofSource, Step.all_exchanged hf, hseen]
  have hprefix := (reporter.watch_steps_prefix state (Step.all source)).subset
  obtain ⟨hcursor, htokens, hdiagnostics⟩ :=
    @Document.settle_exchanged f hf (Document.ofSource source filename) _ hprefix
      (reporter.watch state (Step.all source)).stop.isNone
  rw [hscanned]
  exact ⟨hcursors hf, hcursor, htokens, hdiagnostics, hreports, rfl, @isForeign_of_lt, by decide,
    fun d hd => hcursors (.single (by decide) hd)⟩

/-- A NUL as the last character of a number, of a string that is closed and of one that is not. -/
theorem scan_exchanged_nul :
    let f (c : Char) : Char := if c = '\x00' then 'é' else c
    let source := "1.\x002 \"\x00\"//\x00\n\"\x00"
    let scanned (text : String) :=
      (Document.ofSource text "f.lox").scanWith LineWriter.reporter LineWriter.empty
    ExchangesForeign f ∧ source.map f = "1.é2 \"é\"//é\n\"é" ∧
      (Step.all (source.map f)).map Step.cursor = (Step.all source).map Step.cursor ∧
      (scanned (source.map f)).1.tokens = (scanned source).1.tokens.map (Token.exchanged f) ∧
      reports (source.map f) = reports source := by
  intro f source scanned
  have hf : ExchangesForeign f := .single (by decide) (by decide)
  obtain ⟨hcursors, -, htokens, -, hreports, -⟩ :=
    scan_exchanged LineWriter.reporter LineWriter.empty "f.lox" source hf
  have hsource : source.map f = "1.é2 \"é\"//é\n\"é" :=
    String.toList_inj.mp (String.toList_map.trans (by decide))
  exact ⟨hf, hsource, hcursors, htokens, hreports⟩

end LoxLexer
