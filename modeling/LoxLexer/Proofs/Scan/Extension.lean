import LoxLexer.Proofs.Lexeme.Lookahead
import LoxLexer.Proofs.Scan.Lines

/-!
# Text put behind a text

A scan looks no further than one character beyond a lexeme, and two beyond a number without a
fraction. The steps that end inside a text are therefore the same whatever is put behind it, except
for such a number in front of a point at the very end (`Step.take_all_append`).
-/
namespace LoxLexer

namespace Lexeme

/-- A number without a fraction. -/
def IsWhole (lexeme : Lexeme) : Prop := lexeme.form = .token .number ∧ '.' ∉ lexeme.text

instance (lexeme : Lexeme) : Decidable lexeme.IsWhole := inferInstanceAs (Decidable (_ ∧ _))

/-- A lexeme with text behind it stays what it is when more text follows, unless it is a number
without a fraction and all the text behind it is a point. -/
theorem next_append_of_ne_nil {c : Char} {rest after : List Char} {lexeme : Lexeme}
    (h : next c rest = (lexeme, after)) (hne : after ≠ []) (hpoint : lexeme.IsWhole → after ≠ ['.'])
    (more : List Char) : next c (rest ++ more) = (lexeme, after ++ more) := by
  have hstops := stops_next c rest
  have happend := next_append c rest
  have hmatch := longestMatch_next c rest
  rw [h] at hstops happend hmatch
  apply next_append_right h
  · intro hopen
    rw [hmatch.of_openString hopen] at happend
    exact hne (List.append_right_eq_self.mp happend)
  · exact hstops.append hne (fun hform hin => hpoint ⟨hform, hin⟩) more

end Lexeme

namespace Step

/-- A number without a fraction that ends right in front of a point, with which the text ends. -/
def MeetsLastPoint (step : Step) (source : String) : Prop :=
  step.lexeme.IsWhole ∧ step.cursor.current + 1 = source.length ∧
    source.toList.getLast? = some '.'

instance (step : Step) (source : String) : Decidable (step.MeetsLastPoint source) :=
  inferInstanceAs (Decidable (_ ∧ _))

/-- Steps that end inside the text are the same when more text follows. -/
theorem take_along_append {cursor : Cursor} {text : List Char} {k : Nat}
    (hk : k ≤ (Lexeme.split text).length)
    (hinside : ∀ step ∈ (along cursor (Lexeme.split text)).take k,
      step.cursor.current < cursor.current + text.length)
    (hpoint : ∀ step ∈ (along cursor (Lexeme.split text)).take k,
      ¬(step.lexeme.IsWhole ∧ step.cursor.current + 1 = cursor.current + text.length ∧
        text.getLast? = some '.'))
    (more : List Char) :
    (along cursor (Lexeme.split (text ++ more))).take k =
      (along cursor (Lexeme.split text)).take k := by
  induction k generalizing cursor text with
  | zero => rfl
  | succ k ih =>
    cases text with
    | nil =>
      rw [Lexeme.split] at hk
      exact absurd hk (Nat.not_succ_le_zero k)
    | cons c rest =>
      rcases hnext : Lexeme.next c rest with ⟨lexeme, after⟩
      have hsplit : Lexeme.split (c :: rest) = lexeme :: Lexeme.split after := by
        rw [Lexeme.split, hnext]
      have htext := Lexeme.next_append c rest
      rw [hnext] at htext
      have hlength := congrArg List.length htext
      rw [List.length_append] at hlength
      rw [hsplit, along, List.take_succ_cons, List.forall_mem_cons] at hinside hpoint
      rw [hsplit, List.length_cons, Nat.succ_le_succ_iff] at hk
      have hne : after ≠ [] := by
        rintro rfl
        have hlt := hinside.1
        simp only [Cursor.advance, List.length_nil] at hlt hlength
        omega
      have hlast : (c :: rest).getLast? = after.getLast? := by
        rw [← htext, List.getLast?_append_of_ne_nil _ hne]
      have hwhole : lexeme.IsWhole → after ≠ ['.'] := by
        rintro hwhole rfl
        refine hpoint.1 ⟨hwhole, ?_, hlast⟩
        simp only [Cursor.advance, List.length_singleton] at hlength ⊢
        omega
      have hcurrent : (cursor.advance lexeme.text).current + after.length =
          cursor.current + (c :: rest).length := by
        simp only [Cursor.advance] at hlength ⊢
        omega
      have hmore : Lexeme.split (c :: rest ++ more) = lexeme :: Lexeme.split (after ++ more) := by
        rw [List.cons_append, Lexeme.split, Lexeme.next_append_of_ne_nil hnext hne hwhole]
      rw [hsplit, hmore, along, along, List.take_succ_cons, List.take_succ_cons]
      rw [hlast, ← hcurrent] at hpoint
      rw [← hcurrent] at hinside
      rw [ih hk hinside.2 hpoint.2]

/-- A step ends behind the place where the scan began, and not behind the end of the text. -/
theorem current_bounds {cursor : Cursor} {text : List Char} {step : Step}
    (h : step ∈ along cursor (Lexeme.split text)) :
    cursor.current < step.cursor.current ∧
      step.cursor.current ≤ cursor.current + text.length := by
  fun_induction Lexeme.split text generalizing cursor with
  | case1 => cases h
  | case2 c rest ih =>
    have hlength := congrArg List.length (Lexeme.next_append c rest)
    have hpos := Lexeme.length_pos_next c rest
    rw [List.length_append] at hlength
    rcases List.mem_cons.mp h with rfl | h
    · simp only [Cursor.advance]
      omega
    · obtain ⟨hlt, hle⟩ := ih h
      simp only [Cursor.advance] at hlt hle
      omega

/-- Every step ends behind the steps before it. -/
theorem pairwise_current_along (cursor : Cursor) (text : List Char) :
    (along cursor (Lexeme.split text)).Pairwise fun a b => a.cursor.current < b.cursor.current := by
  fun_induction Lexeme.split text generalizing cursor with
  | case1 => exact List.Pairwise.nil
  | case2 c rest ih =>
    refine List.pairwise_cons.mpr ⟨?_, ih _⟩
    intro step hstep
    exact (current_bounds hstep).1

/-- The first steps of a text are those of any longer text that begins with it, as long as they end
inside it and none of them meets a point at its end. -/
theorem take_all_append {source : String} {k : Nat} (hk : k ≤ (all source).length)
    (hinside : ∀ step ∈ (all source).take k, step.cursor.current < source.length)
    (hpoint : ∀ step ∈ (all source).take k, ¬step.MeetsLastPoint source) (more : String) :
    (all (source ++ more)).take k = (all source).take k := by
  have horigin : Cursor.origin.current + source.toList.length = source.length := by
    rw [String.length_toList]
    exact Nat.zero_add _
  rw [all, String.toList_append]
  apply take_along_append
  · rw [← map_lexeme_along Cursor.origin (Lexeme.split source.toList), List.length_map]
    exact hk
  · rw [horigin]
    exact hinside
  · rw [horigin]
    exact hpoint

/-- Only a step that touches the end of a text, or meets a point there, may change when more text
follows. -/
theorem getElem?_all_append {source : String} {k : Nat} {step : Step}
    (h : (all source)[k]? = some step) (hend : step.cursor.current ≠ source.length)
    (hpoint : ¬step.MeetsLastPoint source) (more : String) :
    (all (source ++ more))[k]? = some step := by
  have hbound := (current_bounds (List.mem_of_getElem? h)).2
  rw [String.length_toList] at hbound
  have hstep : step.cursor.current < source.length := by
    change step.cursor.current ≤ 0 + source.length at hbound
    omega
  have htake : (all source).take (k + 1) = (all source).take k ++ [step] := by
    rw [List.take_add_one, h, Option.toList_some]
  have hbefore : ∀ earlier ∈ (all source).take k, earlier.cursor.current < step.cursor.current := by
    have hpairwise := (pairwise_current_along Cursor.origin source.toList).take (i := k + 1)
    rw [← all, htake] at hpairwise
    intro earlier hearlier
    obtain ⟨-, -, hcross⟩ := List.pairwise_append.mp hpairwise
    exact hcross earlier hearlier step (List.mem_singleton_self step)
  have hsame : (all (source ++ more)).take (k + 1) = (all source).take (k + 1) := by
    apply take_all_append
    · exact (List.getElem?_eq_some_iff.mp h).1
    · intro earlier hearlier
      rw [htake] at hearlier
      rcases List.mem_append.mp hearlier with hearlier | hearlier
      · exact (hbefore earlier hearlier).trans hstep
      · rw [List.mem_singleton.mp hearlier]
        exact hstep
    · intro earlier hearlier
      rw [htake] at hearlier
      rcases List.mem_append.mp hearlier with hearlier | hearlier
      · rintro ⟨-, hmeets, -⟩
        have hlt := hbefore earlier hearlier
        omega
      · rw [List.mem_singleton.mp hearlier]
        exact hpoint
  rw [← List.getElem?_take_of_lt (Nat.lt_succ_self k), hsame,
    List.getElem?_take_of_lt (Nat.lt_succ_self k), h]

end Step

/-- Text put behind a source leaves the first steps of a scan as they are, and all that they leave
in the document and in the reporter, as long as they end inside the source and none of them is a
number without a fraction in front of a point that ends it. Only such a number and a step that
touches the end of the source may change. -/
theorem first_steps_append {σ ε : Type} (reporter : Reporter σ ε) (state : σ)
    (document : Document) (more : String) {calls : Nat}
    (hcalls : calls ≤ (Step.all document.source).length)
    (hinside : ∀ step ∈ (Step.all document.source).take calls,
      step.cursor.current < document.source.length)
    (hpoint : ∀ step ∈ (Step.all document.source).take calls,
      ¬step.MeetsLastPoint document.source) :
    let longer := { document with source := document.source ++ more }
    (Step.all longer.source).take calls = (Step.all document.source).take calls ∧
      (∀ k ≤ calls, longer.progress reporter state k =
        { document := { (document.progress reporter state k).document with
            source := document.source ++ more }
          state := (document.progress reporter state k).state }) ∧
      ∀ (k : Nat) (step : Step), (Step.all document.source)[k]? = some step →
        (Step.all longer.source)[k]? = some step ∨
          step.cursor.current = document.source.length ∨ step.MeetsLastPoint document.source := by
  intro longer
  have htake : (Step.all longer.source).take calls = (Step.all document.source).take calls :=
    Step.take_all_append hcalls hinside hpoint more
  refine ⟨htake, ?_, ?_⟩
  · intro k hk
    have hfirst : (Step.all longer.source).take k = (Step.all document.source).take k := by
      rw [← Nat.min_eq_left hk, ← List.take_take, htake, List.take_take]
    rw [Document.progress, hfirst]
    rfl
  · intro k step hstep
    by_cases hend : step.cursor.current = document.source.length
    · exact .inr (.inl hend)
    · by_cases hmeets : step.MeetsLastPoint document.source
      · exact .inr (.inr hmeets)
      · exact .inl (Step.getElem?_all_append hstep hend hmeets more)

/-- The number before the last point of `1.5.2.` may still get a fraction; what stands before it is
settled. -/
theorem first_steps_append_fraction :
    let document := Document.ofSource "1.5.2." Document.anonymous
    let longer := { document with source := document.source ++ "7" }
    (2 ≤ (Step.all document.source).length ∧
        (∀ step ∈ (Step.all document.source).take 2,
          step.cursor.current < document.source.length) ∧
        ∀ step ∈ (Step.all document.source).take 2, ¬step.MeetsLastPoint document.source) ∧
      (Step.all longer.source).take 2 = (Step.all document.source).take 2 ∧
      (∀ k ≤ 2, longer.progress Reporter.silent () k =
        { document := { (document.progress Reporter.silent () k).document with
            source := document.source ++ "7" }
          state := (document.progress Reporter.silent () k).state }) ∧
      ∀ (k : Nat) (step : Step), (Step.all document.source)[k]? = some step →
        (Step.all longer.source)[k]? = some step ∨
          step.cursor.current = document.source.length ∨ step.MeetsLastPoint document.source := by
  have hcalls : 2 ≤ (Step.all "1.5.2.").length := by decide +kernel
  have hinside : ∀ step ∈ (Step.all "1.5.2.").take 2, step.cursor.current < "1.5.2.".length := by
    decide +kernel
  have hpoint : ∀ step ∈ (Step.all "1.5.2.").take 2, ¬step.MeetsLastPoint "1.5.2." := by
    decide +kernel
  exact ⟨⟨hcalls, hinside, hpoint⟩, first_steps_append Reporter.silent ()
    (Document.ofSource "1.5.2." Document.anonymous) "7" hcalls hinside hpoint⟩

end LoxLexer
