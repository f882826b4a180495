import Mathlib.Data.List.Induction

/-! # Traces of a transition system

`Run step first events last`: the events are steps from the first state to the last.
`run_mem` is what a run says of one event; `run_enters` cuts a run where it enters a
set of states for the last time, so that what has to happen on the way there can be
read off the steps.
-/

namespace EmbeddedBridge.Library.Traces

variable {σ α : Type*} {step : σ → α → σ → Prop}

variable (step) in
inductive Run : σ → List α → σ → Prop where
  | nil {state : σ} : Run state [] state
  | cons {first next last : σ} {event : α} {events : List α} (one : step first event next)
      (rest : Run next events last) : Run first (event :: events) last

theorem run_append {first middle last : σ} {left right : List α} (ran : Run step first left middle)
    (rest : Run step middle right last) : Run step first (left ++ right) last := by
  induction ran with
  | nil => exact rest
  | cons one _ inductionHypothesis => exact .cons one (inductionHypothesis rest)

theorem run_snoc {first middle last : σ} {events : List α} {event : α}
    (ran : Run step first events middle) (one : step middle event last) :
    Run step first (events ++ [event]) last :=
  run_append ran (.cons one .nil)

/-- A run over two traces passes through a state between them. -/
theorem run_split {first last : σ} {left right : List α}
    (ran : Run step first (left ++ right) last) :
    ∃ middle, Run step first left middle ∧ Run step middle right last := by
  induction left generalizing first with
  | nil => exact ⟨first, .nil, ran⟩
  | cons event left inductionHypothesis =>
    cases ran with
    | cons one rest =>
      obtain ⟨middle, ranLeft, ranRight⟩ := inductionHypothesis rest
      exact ⟨middle, .cons one ranLeft, ranRight⟩

/-- Around one event of a run. -/
theorem run_around {first last : σ} {before after : List α} {event : α}
    (ran : Run step first (before ++ event :: after) last) :
    ∃ source target, Run step first before source ∧ step source event target ∧
      Run step target after last := by
  obtain ⟨source, ranBefore, rest⟩ := run_split ran
  cases rest with
  | cons one ranAfter => exact ⟨source, _, ranBefore, one, ranAfter⟩

/-- Every event of a run is a step. -/
theorem run_mem {first last : σ} {events : List α} {event : α} (ran : Run step first events last)
    (member : event ∈ events) : ∃ source target, step source event target := by
  obtain ⟨before, after, split⟩ := List.append_of_mem member
  rw [split] at ran
  obtain ⟨source, target, _, one, _⟩ := run_around ran
  exact ⟨source, target, one⟩

/-- The last event of a run that ends in another state than it began. -/
theorem run_last {first last : σ} {events : List α} (ran : Run step first events last)
    (moved : first ≠ last) :
    ∃ before event source, events = before ++ [event] ∧ Run step first before source ∧
      step source event last := by
  induction events using List.reverseRecOn with
  | nil =>
    cases ran
    exact absurd rfl moved
  | append_singleton before event _ =>
    obtain ⟨source, target, ranBefore, one, rest⟩ := run_around ran
    cases rest
    exact ⟨before, event, source, rfl, ranBefore, one⟩

/-- Where a run enters a set of states for the last time: from there on every step
stays inside. -/
theorem run_enters (inside : σ → Prop) {first last : σ} {events : List α}
    (ran : Run step first events last) (outside : ¬ inside first) (ends : inside last) :
    ∃ before event after source target, events = before ++ event :: after ∧
      Run step first before source ∧ ¬ inside source ∧ step source event target ∧ inside target ∧
      Run step target after last ∧
      ∀ other ∈ after, ∃ left right, inside left ∧ inside right ∧ step left other right := by
  induction events using List.reverseRecOn generalizing last with
  | nil =>
    cases ran
    exact absurd ends outside
  | append_singleton events final inductionHypothesis =>
    obtain ⟨source, target, ranBefore, one, rest⟩ := run_around ran
    cases rest
    by_cases entered : inside source
    · -- already inside before the last event
      obtain ⟨before, event, after, source', target', split, ran', outside', one', inside', rest',
        stays⟩ := inductionHypothesis ranBefore entered
      refine ⟨before, event, after ++ [final], source', target', ?_, ran', outside', one', inside',
        run_snoc rest' one, ?_⟩
      · rw [split, List.append_assoc]
        rfl
      · intro other member
        cases List.mem_append.mp member with
        | inl earlier => exact stays other earlier
        | inr now =>
          rw [List.mem_singleton.mp now]
          exact ⟨source, last, entered, ends, one⟩
    · exact ⟨events, final, [], source, last, rfl, ranBefore, entered, one, ends, .nil,
        fun other member => absurd member List.not_mem_nil⟩

end EmbeddedBridge.Library.Traces
