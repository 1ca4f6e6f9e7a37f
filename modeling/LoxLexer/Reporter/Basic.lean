import LoxLexer.Step.Basic

/-!
# Reporters

A reporter is told of every fault during a scan. It changes its own state, and it may stop the scan
for a reason of its own. The steps it has seen are always the first steps of the text.
-/
namespace LoxLexer

/-- What receives reports: a state that each report changes, and perhaps a reason to stop. -/
structure Reporter (σ ε : Type) where
  receive : σ → Report → σ × Option ε

/-- The outcome of a scan before the eyes of a reporter. -/
structure Watched (σ ε : Type) where
  steps : List Step
  state : σ
  stop : Option ε

namespace Reporter

variable {σ ε : Type}

/-- The reporter that nobody listens to. -/
def silent : Reporter Unit Empty := ⟨fun _ _ => ((), none)⟩

/-- Takes steps and reports their faults, up to the step at which the reporter stops the scan. -/
def watch (reporter : Reporter σ ε) (state : σ) : List Step → Watched σ ε
  | [] => ⟨[], state, none⟩
  | step :: rest =>
    match step.report? with
    | none =>
      let seen := reporter.watch state rest
      ⟨step :: seen.steps, seen.state, seen.stop⟩
    | some report =>
      match reporter.receive state report with
      | (state, some stop) => ⟨[step], state, some stop⟩
      | (state, none) =>
        let seen := reporter.watch state rest
        ⟨step :: seen.steps, seen.state, seen.stop⟩

theorem watch_cons_of_no_fault (reporter : Reporter σ ε) (state : σ) {step : Step}
    (h : step.report? = none) (rest : List Step) :
    reporter.watch state (step :: rest) =
      ⟨step :: (reporter.watch state rest).steps, (reporter.watch state rest).state,
        (reporter.watch state rest).stop⟩ := by
  rw [watch, h]

theorem watch_cons_of_pass {reporter : Reporter σ ε} {state : σ} {step : Step} {report : Report}
    (h : step.report? = some report) (hpass : (reporter.receive state report).2 = none)
    (rest : List Step) :
    reporter.watch state (step :: rest) =
      ⟨step :: (reporter.watch (reporter.receive state report).1 rest).steps,
        (reporter.watch (reporter.receive state report).1 rest).state,
        (reporter.watch (reporter.receive state report).1 rest).stop⟩ := by
  rw [watch, h]
  rcases hn : reporter.receive state report with ⟨next, reason⟩
  rw [hn] at hpass
  cases hpass
  simp only [hn]

theorem watch_cons_of_stop {reporter : Reporter σ ε} {state : σ} {step : Step} {report : Report}
    {stop : ε} (h : step.report? = some report)
    (hstop : (reporter.receive state report).2 = some stop) (rest : List Step) :
    reporter.watch state (step :: rest) =
      ⟨[step], (reporter.receive state report).1, some stop⟩ := by
  rw [watch, h]
  rcases hn : reporter.receive state report with ⟨next, reason⟩
  rw [hn] at hstop
  cases hstop
  simp only [hn]

theorem watch_steps_prefix (reporter : Reporter σ ε) (state : σ) (steps : List Step) :
    (reporter.watch state steps).steps <+: steps := by
  induction steps generalizing state with
  | nil => exact List.prefix_refl _
  | cons step rest ih =>
    rw [watch]
    split
    · exact (List.prefix_cons_inj step).mpr (ih state)
    · split
      · exact (List.prefix_cons_inj step).mpr (List.nil_prefix)
      · exact (List.prefix_cons_inj step).mpr (ih _)

/-- A reporter that never stops sees every step, and each report once and in order. -/
theorem watch_of_never_stops (reporter : Reporter σ ε)
    (h : ∀ state report, (reporter.receive state report).2 = none) (state : σ)
    (steps : List Step) :
    reporter.watch state steps =
      ⟨steps, (Step.reports steps).foldl (fun s r => (reporter.receive s r).1) state, none⟩ := by
  induction steps generalizing state with
  | nil => rfl
  | cons step rest ih =>
    rw [watch]
    cases hr : step.report? with
    | none => simp [ih, Step.reports, hr]
    | some report =>
      have hstop := h state report
      cases hn : reporter.receive state report with
      | mk next stop =>
        rw [hn] at hstop
        cases hstop
        simp [ih, Step.reports, hr, hn]

end Reporter

end LoxLexer
