import LoxLexer.Document
import LoxLexer.Proofs.Lexeme.Longest

/-!
# Scans under way

`Document.progress` is what the first steps of a scan have left behind, in the document and in the
reporter, which has no reason to stop the scan. As long as there is text to read, one step more is
determined by that text (`progress_succ`); at the end of the text nothing changes any more
(`progress_succ_of_not_lt`), and the scan as a whole only adds the token for the end of the input
(`scanWith_eq_finish`).
-/
namespace LoxLexer

namespace Step

/-- The token of a step says of which kind its lexeme is. -/
theorem exists_kind_of_token? {step : Step} {token : Token} (h : step.token? = some token) :
    ∃ kind, step.lexeme.form = .token kind ∧
      token = ⟨kind, String.ofList step.lexeme.text, literalOf kind step.lexeme.text,
        step.cursor.startLine⟩ := by
  unfold token? at h
  split at h
  · rename_i kind hform
    cases h
    exact ⟨kind, hform, rfl⟩
  · cases h

/-- The text that some steps have read. -/
def consumed (steps : List Step) : List Char := steps.flatMap fun step => step.lexeme.text

@[simp] theorem consumed_cons (step : Step) (steps : List Step) :
    consumed (step :: steps) = step.lexeme.text ++ consumed steps := List.flatMap_cons

theorem consumed_along (cursor : Cursor) (lexemes : List Lexeme) :
    consumed (along cursor lexemes) = lexemes.flatMap Lexeme.text := by
  induction lexemes generalizing cursor with
  | nil => rfl
  | cons lexeme rest ih => rw [along, consumed_cons, ih, List.flatMap_cons]

/-- All steps together read the whole source. -/
theorem consumed_all (source : String) : consumed (all source) = source.toList := by
  rw [all, consumed_along, Lexeme.flatMap_text_split]

@[simp] theorem lastCursor_cons (start : Cursor) (step : Step) (steps : List Step) :
    lastCursor start (step :: steps) = lastCursor step.cursor steps := rfl

@[simp] theorem lastCursor_concat (start : Cursor) (steps : List Step) (step : Step) :
    lastCursor start (steps ++ [step]) = step.cursor := by
  simp [lastCursor]

theorem filterMap_concat {α β : Type} (f : α → Option β) (items : List α) (item : α) :
    (items ++ [item]).filterMap f = items.filterMap f ++ (f item).toList := by
  rw [List.filterMap_append]
  cases h : f item <;> simp [h]

/-- The place of a cursor after some steps does not depend on what the first one still knew of an
earlier scan. -/
theorem lastCursor_rewind (cursor : Cursor) (steps : List Step) :
    (lastCursor cursor.rewind steps).current = (lastCursor Cursor.origin steps).current ∧
      (lastCursor cursor.rewind steps).line = (lastCursor Cursor.origin steps).line := by
  rcases List.eq_nil_or_concat steps with rfl | ⟨before, step, rfl⟩
  · exact ⟨rfl, rfl⟩
  · rw [List.concat_eq_append, lastCursor_concat, lastCursor_concat]
    exact ⟨rfl, rfl⟩

/-- Where a cursor stands decides about the steps to come. -/
theorem along_of_same_place {a b : Cursor} (hcurrent : a.current = b.current)
    (hline : a.line = b.line) (lexemes : List Lexeme) : along a lexemes = along b lexemes := by
  cases lexemes with
  | nil => rfl
  | cons lexeme rest => simp only [along, Cursor.advance, hcurrent, hline]

theorem along_append (cursor : Cursor) (first second : List Lexeme) :
    along cursor (first ++ second) =
      along cursor first ++ along (lastCursor cursor (along cursor first)) second := by
  induction first generalizing cursor with
  | nil => rfl
  | cons lexeme first ih =>
    rw [List.cons_append, along, along, List.cons_append, lastCursor_cons, ih]

theorem map_lexeme_along (cursor : Cursor) (lexemes : List Lexeme) :
    (along cursor lexemes).map Step.lexeme = lexemes := by
  induction lexemes generalizing cursor with
  | nil => rfl
  | cons lexeme rest ih => rw [along, List.map_cons, ih]

theorem lexeme_mem_of_mem_along {cursor : Cursor} {lexemes : List Lexeme} {step : Step}
    (h : step ∈ along cursor lexemes) : step.lexeme ∈ lexemes := by
  rw [← map_lexeme_along cursor lexemes]
  exact List.mem_map_of_mem h

/-- Every lexeme is stepped over. -/
theorem exists_mem_along (cursor : Cursor) {lexemes : List Lexeme} {lexeme : Lexeme}
    (h : lexeme ∈ lexemes) : ∃ step ∈ along cursor lexemes, step.lexeme = lexeme := by
  rw [← map_lexeme_along cursor lexemes] at h
  exact List.mem_map.mp h

/-- Steps over a text fall apart where the text does. -/
theorem along_split_append {cursor : Cursor} {text : List Char} {before after : List Step}
    (h : along cursor (Lexeme.split text) = before ++ after) :
    ∃ rest, text = consumed before ++ rest ∧
      after = along (lastCursor cursor before) (Lexeme.split rest) := by
  induction before generalizing cursor text with
  | nil => exact ⟨text, rfl, h.symm⟩
  | cons step before ih =>
    cases text with
    | nil =>
      rw [Lexeme.split] at h
      cases h
    | cons c tail =>
      rw [Lexeme.split, along, List.cons_append, List.cons.injEq] at h
      obtain ⟨rfl, h⟩ := h
      obtain ⟨rest, htail, hafter⟩ := ih h
      refine ⟨rest, ?_, hafter⟩
      rw [consumed_cons, List.append_assoc, ← htail, Lexeme.next_append]

/-- The cursor counts the characters and the line feeds of what has been read. -/
theorem lastCursor_of_along {cursor : Cursor} {lexemes : List Lexeme} {before after : List Step}
    (h : along cursor lexemes = before ++ after) :
    (lastCursor cursor before).current = cursor.current + (consumed before).length ∧
      (lastCursor cursor before).line = cursor.line + (consumed before).count '\n' := by
  induction before generalizing cursor lexemes with
  | nil => exact ⟨rfl, rfl⟩
  | cons step before ih =>
    cases lexemes with
    | nil => cases h
    | cons lexeme more =>
      rw [along, List.cons_append, List.cons.injEq] at h
      obtain ⟨rfl, h⟩ := h
      obtain ⟨hcurrent, hline⟩ := ih h
      rw [lastCursor_cons, consumed_cons, List.length_append, List.count_append, hcurrent, hline]
      exact ⟨Nat.add_assoc _ _ _, Nat.add_assoc _ _ _⟩

theorem line_lastCursor_all (source : String) :
    (lastCursor Cursor.origin (all source)).line = 1 + source.toList.count '\n' := by
  rw [(lastCursor_of_along (List.append_nil (all source)).symm).2, consumed_all]
  rfl

end Step

/-- The tokens of a text are those of its steps and one for the end of the input. -/
theorem tokens_eq (source : String) :
    tokens source = (Step.all source).filterMap Step.token? ++
      [Token.endOfInput ((1 + source.toList.count '\n' : Nat) : Int)] := by
  rw [tokens, Step.line_lastCursor_all]
  rfl

/-- A scan under way: the document as it has become, and the state of the reporter. -/
structure Progress (σ : Type) where
  document : Document
  state : σ

variable {σ ε : Type}

namespace Progress

/-- What has not been read yet. -/
def unread (progress : Progress σ) : List Char :=
  progress.document.source.toList.drop progress.document.cursor.current

/-- One step more. -/
def proceed (reporter : Reporter σ ε) (progress : Progress σ) (step : Step) : Progress σ where
  document :=
    { progress.document with
      cursor := step.cursor
      tokens := progress.document.tokens ++ step.token?.toList
      diagnostics :=
        progress.document.diagnostics ++ (step.diagnostic? progress.document.filename).toList }
  state :=
    match step.report? with
    | none => progress.state
    | some report => (reporter.receive progress.state report).1

/-- The document when no text is left. -/
def finish (progress : Progress σ) : Document :=
  { progress.document with
    tokens := progress.document.tokens ++ [Token.endOfInput progress.document.cursor.line] }

end Progress

namespace Document

/-- The scan of a document after so many steps, or at the step at which the reporter stops it. -/
def progress (reporter : Reporter σ ε) (state : σ) (document : Document) (calls : Nat) :
    Progress σ :=
  let seen := reporter.watch state ((Step.all document.source).take calls)
  ⟨document.settle seen.steps false, seen.state⟩

/-- The step that reads the first lexeme of a text. -/
def stepOver (cursor : Cursor) (c : Char) (rest : List Char) : Step :=
  ⟨(Lexeme.next c rest).1, cursor.advance (Lexeme.next c rest).1.text⟩

variable (reporter : Reporter σ Empty) (state : σ) (document : Document)

theorem watch_eq (steps : List Step) :
    reporter.watch state steps =
      ⟨steps, (Step.reports steps).foldl (fun s r => (reporter.receive s r).1) state, none⟩ :=
  reporter.watch_of_never_stops (fun s r => (reporter.receive s r).2.casesOn rfl (nomatch ·)) state
    steps

/-- A scan before the eyes of a reporter that cannot stop it leaves all tokens and diagnostics of
the source, whatever was left before, and the reporter has received all reports. -/
theorem scanWith_eq :
    document.scanWith reporter state =
      ({ document with
          cursor := Step.lastCursor document.cursor.rewind (Step.all document.source)
          tokens := LoxLexer.tokens document.source
          diagnostics := LoxLexer.diagnostics document.filename document.source },
        (reports document.source).foldl (fun s r => (reporter.receive s r).1) state, none) := by
  have hline := (Step.lastCursor_rewind document.cursor (Step.all document.source)).2
  rw [scanWith, watch_eq]
  simp only [settle, Option.isNone_none, if_true, hline]
  rfl

@[simp] theorem source_progress (calls : Nat) :
    (document.progress reporter state calls).document.source = document.source := rfl

theorem progress_eq (calls : Nat) :
    document.progress reporter state calls =
      ⟨document.settle ((Step.all document.source).take calls) false,
        (Step.reports ((Step.all document.source).take calls)).foldl
          (fun s r => (reporter.receive s r).1) state⟩ := by
  rw [progress, watch_eq]

theorem current_progress (calls : Nat) :
    (document.progress reporter state calls).document.cursor.current =
      (Step.consumed ((Step.all document.source).take calls)).length := by
  have happend := (List.take_append_drop calls (Step.all document.source)).symm
  rw [progress_eq]
  refine (Step.lastCursor_rewind _ _).1.trans ?_
  rw [(Step.lastCursor_of_along happend).1]
  exact Nat.zero_add _

/-- What has been read and what has not been read make up the source. -/
theorem consumed_append_unread (calls : Nat) :
    Step.consumed ((Step.all document.source).take calls) ++
      (document.progress reporter state calls).unread = document.source.toList := by
  have happend := (List.take_append_drop calls (Step.all document.source)).symm
  obtain ⟨rest, hsource, -⟩ := Step.along_split_append happend
  rw [Progress.unread, source_progress, current_progress, hsource, List.drop_left]

theorem consumed_eq_take (calls : Nat) :
    Step.consumed ((Step.all document.source).take calls) =
      document.source.toList.take
        (document.progress reporter state calls).document.cursor.current := by
  rw [current_progress, ← consumed_append_unread reporter state document calls, List.take_left]

/-- The line of a cursor is one more than the number of line feeds in front of it. -/
theorem line_progress (calls : Nat) :
    (document.progress reporter state calls).document.cursor.line =
      1 + (document.source.toList.take
        (document.progress reporter state calls).document.cursor.current).count '\n' := by
  have happend := (List.take_append_drop calls (Step.all document.source)).symm
  rw [← consumed_eq_take, progress_eq]
  refine (Step.lastCursor_rewind _ _).2.trans ?_
  rw [(Step.lastCursor_of_along happend).2]
  rfl

/-- The steps still to come are those over what has not been read. -/
theorem drop_all_eq (calls : Nat) :
    (Step.all document.source).drop calls =
      Step.along (document.progress reporter state calls).document.cursor
        (Lexeme.split (document.progress reporter state calls).unread) := by
  have happend := (List.take_append_drop calls (Step.all document.source)).symm
  obtain ⟨rest, hsource, hdrop⟩ := Step.along_split_append happend
  rw [hdrop, Progress.unread, source_progress, current_progress, hsource, List.drop_left,
    progress_eq]
  have hplace := Step.lastCursor_rewind document.cursor ((Step.all document.source).take calls)
  exact (Step.along_of_same_place hplace.1 hplace.2 _).symm

/-- There is text to read for as many steps as the text has. -/
theorem current_progress_lt_iff (calls : Nat) :
    (document.progress reporter state calls).document.cursor.current < document.source.length ↔
      calls < (Step.all document.source).length := by
  have hdrop := drop_all_eq reporter state document calls
  rw [← not_iff_not, not_lt, not_lt, ← List.drop_eq_nil_iff, hdrop, ← String.length_toList,
    ← List.drop_eq_nil_iff, ← source_progress reporter state document calls, ← Progress.unread]
  cases (document.progress reporter state calls).unread with
  | nil => simp [Lexeme.split, Step.along]
  | cons c rest => simp [Lexeme.split, Step.along]

theorem current_progress_all :
    (document.progress reporter state (Step.all document.source).length).document.cursor.current =
      document.source.length := by
  rw [current_progress, List.take_length, Step.consumed_all, String.length_toList]

theorem settle_concat (steps : List Step) (step : Step) :
    document.settle (steps ++ [step]) false =
      { document.settle steps false with
        cursor := step.cursor
        tokens := (document.settle steps false).tokens ++ step.token?.toList
        diagnostics := (document.settle steps false).diagnostics ++
          (step.diagnostic? document.filename).toList } := by
  simp only [settle, Step.lastCursor_concat, Step.tokens, Step.diagnostics, Step.filterMap_concat,
    Bool.false_eq_true, if_false, List.append_nil]

theorem progress_of_take_concat {calls : Nat} {step : Step}
    (h : (Step.all document.source).take (calls + 1) =
      (Step.all document.source).take calls ++ [step]) :
    document.progress reporter state (calls + 1) =
      (document.progress reporter state calls).proceed reporter step := by
  rw [progress_eq, progress_eq, h, settle_concat, Step.reports, Step.filterMap_concat,
    List.foldl_append]
  cases hr : step.report? <;> simp [Progress.proceed, hr, Step.reports, settle]

/-- While there is text to read, the next step reads its first lexeme. -/
theorem progress_succ (calls : Nat)
    (h : (document.progress reporter state calls).document.cursor.current <
      document.source.length) :
    ∃ c rest, (document.progress reporter state calls).unread = c :: rest ∧
      document.progress reporter state (calls + 1) =
        (document.progress reporter state calls).proceed reporter
          (stepOver (document.progress reporter state calls).document.cursor c rest) := by
  have hdrop := drop_all_eq reporter state document calls
  cases hu : (document.progress reporter state calls).unread with
  | nil =>
    rw [Progress.unread, source_progress, List.drop_eq_nil_iff, String.length_toList] at hu
    exact absurd h (Nat.not_lt.mpr hu)
  | cons c rest =>
    rw [hu, Lexeme.split, Step.along] at hdrop
    refine ⟨c, rest, rfl, progress_of_take_concat reporter state document ?_⟩
    have hget : (Step.all document.source)[calls]? =
        some (stepOver (document.progress reporter state calls).document.cursor c rest) := by
      rw [← List.head?_drop, hdrop, List.head?_cons, stepOver]
    rw [List.take_add_one, hget, Option.toList_some]

/-- At the end of the text nothing is left to do. -/
theorem progress_of_length_le {calls : Nat} (h : (Step.all document.source).length ≤ calls) :
    document.progress reporter state calls =
      document.progress reporter state (Step.all document.source).length := by
  rw [progress_eq, progress_eq, List.take_of_length_le h, List.take_length]

theorem progress_succ_of_not_lt {calls : Nat}
    (h : ¬(document.progress reporter state calls).document.cursor.current <
      document.source.length) :
    document.progress reporter state (calls + 1) = document.progress reporter state calls := by
  rw [current_progress_lt_iff, Nat.not_lt] at h
  rw [progress_of_length_le reporter state document (Nat.le_succ_of_le h),
    progress_of_length_le reporter state document h]

/-- A property that the start has and that each step keeps holds throughout a scan. -/
theorem progress_induction {motive : Progress σ → Prop}
    (zero : motive (document.progress reporter state 0))
    (succ : ∀ calls c rest, motive (document.progress reporter state calls) →
      (document.progress reporter state calls).unread = c :: rest →
      motive ((document.progress reporter state calls).proceed reporter
        (stepOver (document.progress reporter state calls).document.cursor c rest)))
    (calls : Nat) : motive (document.progress reporter state calls) := by
  induction calls with
  | zero => exact zero
  | succ calls ih =>
    by_cases h : (document.progress reporter state calls).document.cursor.current <
        document.source.length
    · obtain ⟨c, rest, hunread, hsucc⟩ := progress_succ reporter state document calls h
      rw [hsucc]
      exact succ calls c rest ih hunread
    · rw [progress_succ_of_not_lt reporter state document h]
      exact ih

/-- Whatever a scan has put into one of its lists, a step has put there. -/
theorem exists_step_of_mem {α : Type} (items : Progress σ → List α)
    (added : Progress σ → Step → Option α)
    (zero : items (document.progress reporter state 0) = [])
    (succ : ∀ progress step, items (Progress.proceed reporter progress step) =
      items progress ++ (added progress step).toList)
    {calls : Nat} {item : α} (h : item ∈ items (document.progress reporter state calls)) :
    ∃ k c rest, (document.progress reporter state k).document.cursor.current <
        document.source.length ∧
      document.progress reporter state (k + 1) = (document.progress reporter state k).proceed
        reporter (stepOver (document.progress reporter state k).document.cursor c rest) ∧
      added (document.progress reporter state k)
        (stepOver (document.progress reporter state k).document.cursor c rest) = some item := by
  induction calls with
  | zero =>
    rw [zero] at h
    cases h
  | succ calls ih =>
    by_cases hlt : (document.progress reporter state calls).document.cursor.current <
        document.source.length
    · obtain ⟨c, rest, -, hsucc⟩ := progress_succ reporter state document calls hlt
      rw [hsucc, succ] at h
      rcases List.mem_append.mp h with h | h
      · exact ih h
      · exact ⟨calls, c, rest, hlt, hsucc, Option.mem_toList.mp h⟩
    · rw [progress_succ_of_not_lt reporter state document hlt] at h
      exact ih h

/-- A scan goes through all steps and then adds the token for the end of the input. -/
theorem scanWith_eq_finish :
    document.scanWith reporter state =
      ((document.progress reporter state (Step.all document.source).length).finish,
        (document.progress reporter state (Step.all document.source).length).state, none) := by
  rw [scanWith, watch_eq, progress_eq, List.take_length]
  simp [Progress.finish, settle]

end Document

end LoxLexer
