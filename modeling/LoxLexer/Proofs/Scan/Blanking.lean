import LoxLexer.Proofs.Lexeme.Replacement
import LoxLexer.Proofs.Scan.Extension
import LoxLexer.Proofs.Scan.Layout

/-!
# Recovery from faults

An unexpected character is passed over just as a space would be: a text in which all of them are
blanked out is split at the same places, with the same tokens, and no fault is left in it but an
open string (`Step.all_blanked`). An open string is passed over as if the text ended in front of its
quote, for steps do not depend on the text behind the next one (`Step.along_split_consumed`).
-/
namespace LoxLexer

/-- The offset of the character that a step reports as unexpected. -/
def Step.strayOffset? (step : Step) : Option Nat :=
  match step.fault? with
  | some (.unexpectedCharacter _) => some step.cursor.start
  | _ => none

/-- The offsets of all characters of a text that its scan reports as unexpected. -/
def strayOffsets (source : String) : List Nat := (Step.all source).filterMap Step.strayOffset?

/-- A text with a space in the place of each unexpected character. -/
def blanked (source : String) : String :=
  String.ofList <| source.toList.mapIdx fun offset c =>
    if offset ∈ strayOffsets source then ' ' else c

namespace Lexeme

/-- A lexeme as it is when unexpected characters are blanked out. -/
def blanked (lexeme : Lexeme) : Lexeme :=
  match lexeme.form with
  | .foreign _ => ⟨.blank, [' ']⟩
  | _ => lexeme

/-- The text of lexemes when unexpected characters are blanked out. -/
def blankedText (lexemes : List Lexeme) : List Char := lexemes.flatMap fun l => l.blanked.text

theorem blankedText_cons (lexeme : Lexeme) (lexemes : List Lexeme) :
    blankedText (lexeme :: lexemes) = lexeme.blanked.text ++ blankedText lexemes :=
  List.flatMap_cons

theorem blanked_of_matches {lexeme : Lexeme} {value : Option Literal}
    (h : Matches lexeme.form lexeme.text value) : lexeme.blanked = lexeme := by
  obtain ⟨form, text⟩ := lexeme
  cases h <;> rfl

/-- Blanking replaces foreign characters of a text by spaces and nothing else. -/
theorem forall₂_blankedText (text : List Char) :
    List.Forall₂ MayReplace (blankedText (split text)) text := by
  have hrefl (text : List Char) : List.Forall₂ MayReplace text text :=
    List.forall₂_same.mpr fun _ _ => .inl rfl
  fun_induction split text with
  | case1 => exact .nil
  | case2 c rest ih =>
    obtain ⟨lexeme, after, hnext, htaken⟩ := next_cases c rest
    rw [hnext] at ih ⊢
    rw [blankedText_cons]
    cases htaken with
    | complete hm htext hs =>
      rw [blanked_of_matches hm, ← htext]
      exact List.rel_append (hrefl _) ih
    | openString hc hq =>
      rw [split, blankedText, List.flatMap_nil, List.append_nil]
      exact hrefl _
    | foreign hc => exact .cons (.inr ⟨hc, .inl rfl⟩) ih

/-- The blanked text is split where the text is. -/
theorem split_blankedText (text : List Char) :
    split (blankedText (split text)) = (split text).map blanked := by
  fun_induction split text with
  | case1 => rw [blankedText, List.flatMap_nil, split, List.map_nil]
  | case2 c rest ih =>
    obtain ⟨lexeme, after, hnext, htaken⟩ := next_cases c rest
    rw [hnext] at ih ⊢
    rw [blankedText_cons, List.map_cons, ← ih]
    cases htaken with
    | complete hm htext hs =>
      rw [blanked_of_matches hm]
      exact split_append_of_matches hm (hs.replaced (forall₂_blankedText after))
    | openString hc hq =>
      have hsplit : split (c :: rest) = [⟨.openString, c :: rest⟩] := by rw [split, hnext, split]
      rw [split, blankedText, List.flatMap_nil, List.append_nil, split]
      exact hsplit
    | foreign hc => exact split_append_of_matches (.blank (.inl rfl)) trivial

/-- A lexeme for an unexpected character is that character, which is no line feed. -/
theorem text_of_foreign {lexeme : Lexeme} {text : List Char} (h : lexeme ∈ split text) {c : Char}
    (hform : lexeme.form = .foreign c) : lexeme.text = [c] ∧ c ≠ '\n' := by
  obtain ⟨d, rest, rfl⟩ := exists_next_of_mem_split h
  obtain ⟨lexeme, after, hnext, htaken⟩ := next_cases d rest
  rw [hnext] at hform ⊢
  cases htaken with
  | complete hm htext hs =>
    rw [hform] at hm
    cases hm
  | openString hc hq => cases hform
  | foreign hd =>
    cases hform
    refine ⟨rfl, ?_⟩
    rintro rfl
    exact hd.1 (.inr (.inr (.inr rfl)))

theorem advance_blanked {lexeme : Lexeme} {text : List Char} (h : lexeme ∈ split text)
    (cursor : Cursor) : cursor.advance lexeme.blanked.text = cursor.advance lexeme.text := by
  unfold blanked
  split
  · rename_i c hform
    obtain ⟨htext, hc⟩ := text_of_foreign h hform
    have hcount : [c].count '\n' = 0 := List.count_eq_zero_of_not_mem (by simpa using hc.symm)
    rw [htext]
    simp only [Cursor.advance, List.length_singleton, hcount]
    rfl
  · rfl

end Lexeme

namespace Step

/-- A step as it is when unexpected characters are blanked out; it ends at the same place. -/
def blanked (step : Step) : Step := ⟨step.lexeme.blanked, step.cursor⟩

theorem along_map_blanked {text : List Char} {lexemes : List Lexeme}
    (h : ∀ lexeme ∈ lexemes, lexeme ∈ Lexeme.split text) (cursor : Cursor) :
    along cursor (lexemes.map Lexeme.blanked) = (along cursor lexemes).map blanked := by
  induction lexemes generalizing cursor with
  | nil => rfl
  | cons lexeme rest ih =>
    obtain ⟨hfirst, hrest⟩ := List.forall_mem_cons.mp h
    rw [List.map_cons, along, along, List.map_cons, Lexeme.advance_blanked hfirst, ih hrest]
    rfl

theorem strayOffset?_eq_some_iff {step : Step} {offset : Nat} :
    step.strayOffset? = some offset ↔
      (∃ c, step.lexeme.form = .foreign c) ∧ step.cursor.start = offset := by
  obtain ⟨⟨form, text⟩, cursor⟩ := step
  cases form <;> simp [strayOffset?, fault?]

/-- A first lexeme adds the place where it begins if it is an unexpected character. -/
theorem mem_strayOffsets_cons {cursor : Cursor} {lexeme : Lexeme} {rest : List Lexeme}
    {offset : Nat} :
    offset ∈ (along cursor (lexeme :: rest)).filterMap strayOffset? ↔
      ((∃ c, lexeme.form = .foreign c) ∧ cursor.current = offset) ∨
        offset ∈ (along (cursor.advance lexeme.text) rest).filterMap strayOffset? := by
  rw [along, List.mem_filterMap, List.exists_mem_cons_iff, ← List.mem_filterMap,
    strayOffset?_eq_some_iff]
  rfl

/-- No step begins in front of the place from which the steps are taken. -/
theorem le_of_mem_strayOffsets {cursor : Cursor} {lexemes : List Lexeme} {offset : Nat}
    (h : offset ∈ (along cursor lexemes).filterMap strayOffset?) : cursor.current ≤ offset := by
  induction lexemes generalizing cursor with
  | nil => cases h
  | cons lexeme rest ih =>
    rcases mem_strayOffsets_cons.mp h with ⟨-, rfl⟩ | h
    · exact Nat.le_refl _
    · exact Nat.le_trans (Nat.le_add_right _ _) (ih h)

/-- Within a first lexeme an offset is that of an unexpected character just if it is the offset of
the lexeme and the lexeme is such a character. -/
theorem add_mem_strayOffsets_iff {cursor : Cursor} {lexeme : Lexeme} {rest : List Lexeme}
    {index : Nat} (h : index < lexeme.text.length) :
    cursor.current + index ∈ (along cursor (lexeme :: rest)).filterMap strayOffset? ↔
      (∃ c, lexeme.form = .foreign c) ∧ index = 0 := by
  have hafter : (cursor.advance lexeme.text).current =
      cursor.current + lexeme.text.length := rfl
  rw [mem_strayOffsets_cons]
  constructor
  · rintro (⟨hforeign, hstart⟩ | hlater)
    · exact ⟨hforeign, by omega⟩
    · have hle := le_of_mem_strayOffsets hlater
      omega
  · rintro ⟨hforeign, rfl⟩
    exact .inl ⟨hforeign, rfl⟩

theorem mapIdx_first {text : List Char} {lexeme : Lexeme} (h : lexeme ∈ Lexeme.split text)
    (cursor : Cursor) (rest : List Lexeme) :
    (lexeme.text.mapIdx fun index c =>
        if cursor.current + index ∈ (along cursor (lexeme :: rest)).filterMap strayOffset? then ' '
        else c) =
      lexeme.blanked.text := by
  have hpos := List.length_pos_iff.mpr (Lexeme.text_ne_nil_of_mem_split h)
  by_cases hforeign : ∃ c, lexeme.form = .foreign c
  · have hzero := (@add_mem_strayOffsets_iff cursor lexeme rest 0 hpos).mpr ⟨hforeign, rfl⟩
    obtain ⟨c, hform⟩ := hforeign
    obtain ⟨htext, -⟩ := Lexeme.text_of_foreign h hform
    simp only [htext, List.mapIdx_cons, List.mapIdx_nil, if_pos hzero, Lexeme.blanked, hform]
  · have hblanked : lexeme.blanked = lexeme := by
      unfold Lexeme.blanked
      split
      · rename_i c hform
        exact absurd ⟨c, hform⟩ hforeign
      · rfl
    rw [hblanked]
    apply List.ext_getElem (by simp)
    intro index hleft hright
    rw [List.getElem_mapIdx,
      if_neg fun hin => hforeign ((add_mem_strayOffsets_iff hright).mp hin).1]

/-- The text with spaces at the offsets of unexpected characters is the blanked text. -/
theorem mapIdx_strayOffsets {text : List Char} {lexemes : List Lexeme}
    (h : ∀ lexeme ∈ lexemes, lexeme ∈ Lexeme.split text) (cursor : Cursor) :
    ((lexemes.flatMap Lexeme.text).mapIdx fun index c =>
        if cursor.current + index ∈ (along cursor lexemes).filterMap strayOffset? then ' ' else c) =
      Lexeme.blankedText lexemes := by
  induction lexemes generalizing cursor with
  | nil => rfl
  | cons lexeme rest ih =>
    obtain ⟨hfirst, hrest⟩ := List.forall_mem_cons.mp h
    have hpos := List.length_pos_iff.mpr (Lexeme.text_ne_nil_of_mem_split hfirst)
    -- behind the first lexeme the offset of the lexeme itself does not count
    have hmem (index : Nat) : cursor.current + (index + lexeme.text.length) ∈
          (along cursor (lexeme :: rest)).filterMap strayOffset? ↔
        (cursor.advance lexeme.text).current + index ∈
          (along (cursor.advance lexeme.text) rest).filterMap strayOffset? := by
      have hafter : (cursor.advance lexeme.text).current =
          cursor.current + lexeme.text.length := rfl
      rw [mem_strayOffsets_cons, hafter, Nat.add_comm index, Nat.add_assoc]
      exact or_iff_right (by omega)
    rw [List.flatMap_cons, List.mapIdx_append, mapIdx_first hfirst, Lexeme.blankedText_cons,
      ← ih hrest (cursor.advance lexeme.text)]
    simp only [hmem]

/-- Blanking changes neither where the steps are taken nor what they read, unexpected characters
apart. -/
theorem all_blanked (source : String) : all (LoxLexer.blanked source) = (all source).map blanked := by
  have hself : ∀ lexeme ∈ Lexeme.split source.toList, lexeme ∈ Lexeme.split source.toList :=
    fun _ hlexeme => hlexeme
  have htext := mapIdx_strayOffsets hself Cursor.origin
  rw [Lexeme.flatMap_text_split] at htext
  have hzero (index : Nat) : Cursor.origin.current + index = index := Nat.zero_add index
  simp only [hzero] at htext
  rw [all, LoxLexer.blanked, String.toList_ofList, strayOffsets, all, htext,
    Lexeme.split_blankedText, along_map_blanked hself]

theorem token?_blanked (step : Step) : step.blanked.token? = step.token? := by
  obtain ⟨⟨form, text⟩, cursor⟩ := step
  cases form <;> rfl

theorem report?_blanked (step : Step) :
    step.blanked.report? =
      step.report?.filter fun report => report.message = Fault.unterminatedMessage := by
  obtain ⟨⟨form, text⟩, cursor⟩ := step
  cases form <;> rfl

/-- Steps do not depend on the text behind the next one. -/
theorem along_split_consumed {cursor : Cursor} {text : List Char} {before after : List Step}
    (h : along cursor (Lexeme.split text) = before ++ after) :
    along cursor (Lexeme.split (consumed before)) = before := by
  induction before generalizing cursor text with
  | nil => rw [consumed, List.flatMap_nil, Lexeme.split, along]
  | cons step before ih =>
    cases text with
    | nil =>
      rw [Lexeme.split] at h
      cases h
    | cons c rest =>
      rw [Lexeme.split, along, List.cons_append, List.cons.injEq] at h
      obtain ⟨rfl, h⟩ := h
      obtain ⟨lexeme, unread, hnext, htaken⟩ := Lexeme.next_cases c rest
      simp only [hnext] at h ⊢
      have hbefore := ih h
      obtain ⟨tail, hunread, -⟩ := along_split_append h
      rw [consumed_cons]
      cases htaken with
      | complete hm htext hs =>
        rw [hunread] at hs
        rw [along_split_of_matches hm hs.of_append, hbefore]
      | openString hc hq =>
        have hnil : consumed before = [] := (List.append_eq_nil_iff.mp hunread.symm).1
        rw [hnil, Lexeme.split, along] at hbefore
        rw [hnil, List.append_nil, Lexeme.split, hnext, Lexeme.split, along, along, hbefore]
      | foreign hc =>
        have hclass := CharClass.ofChar_eq_foreign_iff.mpr hc
        rw [List.singleton_append, Lexeme.split, Lexeme.next_foreign hclass, along, hbefore]

theorem form_of_unterminated {step : Step} (h : step.fault? = some .unterminatedString) :
    step.lexeme.form = .openString := by
  obtain ⟨⟨form, text⟩, cursor⟩ := step
  cases form <;> cases h
  rfl

/-- A string that is never closed reads all that is left, from its quote on. -/
theorem of_openString {source : String} {before after : List Step} {step : Step}
    (h : all source = before ++ step :: after) (hform : step.lexeme.form = .openString) :
    after = [] ∧ step.cursor.start = (consumed before).length ∧
      ∃ body, source.toList = consumed before ++ '"' :: body := by
  obtain ⟨unread, hsource, hsteps⟩ := along_split_append h
  cases unread with
  | nil =>
    rw [Lexeme.split] at hsteps
    cases hsteps
  | cons c rest =>
    obtain ⟨lexeme, left, hnext, htaken⟩ := Lexeme.next_cases c rest
    rw [Lexeme.split, hnext, along, List.cons.injEq] at hsteps
    obtain ⟨rfl, hafter⟩ := hsteps
    cases htaken with
    | complete hm htext hs =>
      rw [hform] at hm
      cases hm
    | openString hc hq =>
      rw [Lexeme.split] at hafter
      refine ⟨hafter, ?_, rest, by rw [hsource, hc]⟩
      exact (lastCursor_of_along h).1.trans (Nat.zero_add _)
    | foreign hc => cases hform

/-- The text in front of an open string makes the steps in front of it. -/
theorem all_take_start {source : String} {step : Step} (h : step ∈ all source)
    (hform : step.lexeme.form = .openString) :
    source.toList[step.cursor.start]? = some '"' ∧
      all source = all (String.ofList (source.toList.take step.cursor.start)) ++ [step] := by
  obtain ⟨before, after, hall⟩ := List.append_of_mem h
  obtain ⟨rfl, hstart, body, hsource⟩ := of_openString hall hform
  have hbefore : all (String.ofList (consumed before)) = before := by
    rw [all, String.toList_ofList]
    exact along_split_consumed hall
  rw [hstart, hsource, List.take_left, hbefore]
  exact ⟨by simp, hall⟩

end Step

/-- Every unexpected character may be replaced by a space without any change to the tokens and to
the report of an open string, and all other reports are gone then. If the last thing in a text is an
open string, the text in front of its quote has the same tokens, the end of the input apart, and the
same reports but that of the string. -/
theorem scan_blanked {σ : Type} (reporter : Reporter σ Empty) (state : σ)
    (filename source : String) :
    let scanned (text : String) := (Document.ofSource text filename).scanWith reporter state
    (∀ text, (scanned text).2 =
        ((reports text).foldl (fun s r => (reporter.receive s r).1) state, none)) ∧
      (scanned (blanked source)).1.tokens = (scanned source).1.tokens ∧
      reports (blanked source) =
        (reports source).filter (·.message = Fault.unterminatedMessage) ∧
      (∀ report ∈ reports source, report.message = Fault.unterminatedMessage →
        ∃ step ∈ Step.all source, step.fault? = some .unterminatedString) ∧
      ∀ step ∈ Step.all source, step.fault? = some .unterminatedString →
        let start := step.cursor.start
        let cut := String.ofList (source.toList.take start)
        source.toList[start]? = some '"' ∧
          (scanned cut).1.tokens.dropLast = (scanned source).1.tokens.dropLast ∧
          reports source = reports cut ++ [⟨step.cursor.line, Fault.unterminatedMessage⟩] := by
  intro scanned
  have hscan (text : String) : scanned text = _ :=
    Document.scanWith_eq reporter state (Document.ofSource text filename)
  have hline : Step.lastCursor Cursor.origin ((Step.all source).map Step.blanked) =
      Step.lastCursor Cursor.origin (Step.all source) := by
    rw [Step.lastCursor, List.foldl_map]
    rfl
  have htokens : tokens (blanked source) = tokens source := by
    rw [tokens, Step.all_blanked, hline, Step.tokens, List.filterMap_map]
    simp only [Function.comp_def, Step.token?_blanked]
    rfl
  refine ⟨fun text => by rw [hscan]; rfl, ?_, ?_, ?_, ?_⟩
  · rw [hscan, hscan]
    exact htokens
  · rw [reports, Step.all_blanked, Step.reports, List.filterMap_map, reports, Step.reports,
      List.filter_filterMap]
    exact congrArg (List.filterMap · (Step.all source)) (funext Step.report?_blanked)
  · intro report hreport hmessage
    obtain ⟨step, hstep, hyield⟩ := List.mem_filterMap.mp hreport
    obtain ⟨fault, hfault, rfl⟩ := Option.map_eq_some_iff.mp hyield
    refine ⟨step, hstep, ?_⟩
    cases fault with
    | unexpectedCharacter c =>
      exact absurd hmessage (by decide : Fault.unexpectedMessage ≠ Fault.unterminatedMessage)
    | unterminatedString => exact hfault
  · intro step hstep hfault start cut
    have hform := Step.form_of_unterminated hfault
    have hnone := Step.token?_eq_none_of_fault? hfault
    obtain ⟨hquote, hall⟩ := Step.all_take_start hstep hform
    refine ⟨hquote, ?_, ?_⟩
    · rw [hscan, hscan]
      change (tokens cut).dropLast = (tokens source).dropLast
      rw [tokens_eq, tokens_eq, List.dropLast_concat, List.dropLast_concat, hall,
        Step.filterMap_concat, hnone, Option.toList_none, List.append_nil]
    · have hreport : step.report? = some ⟨step.cursor.line, Fault.unterminatedMessage⟩ := by
        rw [Step.report?, hfault]
        rfl
      rw [reports, hall, Step.reports, Step.filterMap_concat, hreport]
      rfl

/-- Foreign characters are blanked out behind a point and a slash, but not in a comment or a string. -/
example : blanked "1.@5 /$//@\n\"@" = "1. 5 / //@\n\"@" := by decide +kernel

end LoxLexer
