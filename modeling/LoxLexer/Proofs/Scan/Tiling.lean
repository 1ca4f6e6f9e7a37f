import LoxLexer.Proofs.Scan.MaximalMunch

/-!
# The steps of a scan tile the source

Every step reads a span of its own, not empty and right behind the last one, and leaves a token with
just that text, a fault or nothing. There are therefore no more steps than characters; the last span
ends with the source, and the one token for the end of the input stands behind all others.
-/
namespace LoxLexer

theorem Lexeme.length_split_le (text : List Char) : (Lexeme.split text).length ≤ text.length := by
  fun_induction Lexeme.split text with
  | case1 => exact Nat.le_refl _
  | case2 c rest ih =>
    have hlt := Lexeme.length_next_lt c rest
    rw [List.length_cons]
    omega

theorem Step.length_along (cursor : Cursor) (lexemes : List Lexeme) :
    (Step.along cursor lexemes).length = lexemes.length := by
  induction lexemes generalizing cursor with
  | nil => rfl
  | cons lexeme rest ih => rw [Step.along, List.length_cons, ih, List.length_cons]

theorem Step.length_all_le (source : String) : (Step.all source).length ≤ source.length := by
  rw [Step.all, Step.length_along, ← String.length_toList]
  exact Lexeme.length_split_le _

/-- The end of the input is no lexeme. -/
theorem Lexeme.LongestMatch.kind_ne_endOfInput {text : List Char} {lexeme : Lexeme}
    {literal : Option Literal} {kind : TokenKind} (h : LongestMatch text lexeme literal)
    (hform : lexeme.form = .token kind) : kind ≠ .endOfInput := by
  rintro rfl
  cases h with
  | complete h hp hmax =>
    rw [hform] at h
    cases h
  | openString h hq => cases hform
  | foreign h hq => cases hform

variable {σ ε : Type}

namespace Progress

/-- What two points of a scan have to do with each other if one step lies between them. -/
structure ReadsSpan (reporter : Reporter σ ε) (before after : Progress σ) : Prop where
  start_eq : after.document.cursor.start = before.document.cursor.current
  start_lt : after.document.cursor.start < after.document.cursor.current
  current_le : after.document.cursor.current ≤ before.document.source.length
  existsUnique_yield : ∃! yield, Yields reporter before after yield
  lexeme_eq : ∀ token, Yields reporter before after (.token token) →
    token.lexeme = String.ofList (after.document.cursor.span before.document.source.toList)

theorem readsSpan_proceed (reporter : Reporter σ ε) {progress : Progress σ} {c : Char}
    {rest : List Char} (h : progress.unread = c :: rest) :
    ReadsSpan reporter progress
      (progress.proceed reporter (Document.stepOver progress.document.cursor c rest)) where
  start_eq := rfl
  start_lt := Nat.lt_add_of_pos_right (Lexeme.length_pos_next c rest)
  current_le := by
    have hlen := congrArg List.length h
    have happend := congrArg List.length (Lexeme.next_append c rest)
    rw [unread, List.length_drop, String.length_toList] at hlen
    rw [List.length_append] at happend
    change progress.document.cursor.current + (Lexeme.next c rest).1.text.length ≤ _
    rw [List.length_cons] at hlen happend
    omega
  existsUnique_yield := ⟨_, yields_proceed reporter _ _, fun _ hy =>
    hy.unique (yields_proceed reporter _ _)⟩
  lexeme_eq token hy := by
    have hyield := (yields_proceed reporter _ _).unique hy
    exact (Lexeme.yield_eq_token hyield).1.trans
      (congrArg String.ofList (Document.span_stepOver h).symm)

end Progress

namespace Document

variable (reporter : Reporter σ Empty) (state : σ) (document : Document)

theorem token_stepOver (cursor : Cursor) (c : Char) (rest : List Char) {token : Token}
    (h : (stepOver cursor c rest).token? = some token) :
    token.kind ≠ .endOfInput ∧ token.lexeme ≠ "" := by
  obtain ⟨kind, hform, rfl⟩ := Step.exists_kind_of_token? h
  constructor
  · exact (Lexeme.longestMatch_next c rest).kind_ne_endOfInput hform
  · intro hempty
    exact Lexeme.text_next_ne_nil c rest (String.ofList_eq_empty_iff.mp hempty)

/-- No token met on the way closes the list, and none is without text. -/
theorem tokens_progress (calls : Nat) :
    ∀ token ∈ (document.progress reporter state calls).document.tokens,
      token.kind ≠ .endOfInput ∧ token.lexeme ≠ "" := by
  intro token htoken
  obtain ⟨k, c, rest, -, -, hstep⟩ := exists_step_of_mem reporter state document
    (fun progress => progress.document.tokens) (fun _ step => step.token?) rfl (fun _ _ => rfl)
    htoken
  exact token_stepOver _ c rest hstep

/-- The spans of the steps tile the source, each step yields once, and the token for the end of the
input comes last and once. -/
theorem scan_tiles_source :
    let progress := document.progress reporter state
    ∃ calls, calls ≤ document.source.length ∧
      (∀ k, (progress k).document.cursor.current < document.source.length ↔ k < calls) ∧
      (progress 0).document.cursor.current = 0 ∧ (progress 0).document.tokens = [] ∧
      (progress 0).document.diagnostics = [] ∧ (progress 0).state = state ∧
      (∀ k, k < calls → (progress k).ReadsSpan reporter (progress (k + 1))) ∧
      (progress calls).document.cursor.current = document.source.length ∧
      (∀ token ∈ (progress calls).document.tokens,
        token.kind ≠ .endOfInput ∧ token.lexeme ≠ "") ∧
      document.scanWith reporter state =
        ({ (progress calls).document with
            tokens := (progress calls).document.tokens ++
              [⟨.endOfInput, "", none, (progress calls).document.cursor.line⟩] },
          (progress calls).state, none) := by
  have hiff := current_progress_lt_iff reporter state document
  refine ⟨(Step.all document.source).length, Step.length_all_le document.source, hiff, rfl, rfl,
    rfl, rfl, fun k hk => ?_, current_progress_all reporter state document,
    tokens_progress reporter state document _, scanWith_eq_finish reporter state document⟩
  obtain ⟨c, rest, hunread, hsucc⟩ := progress_succ reporter state document k ((hiff k).mpr hk)
  rw [hsucc]
  exact Progress.readsSpan_proceed reporter hunread

end Document

end LoxLexer
