import Mathlib.Data.List.Induction

/-! # Transducers

A transducer reads its input one symbol at a time and emits a list of outputs at
each step.  Runs over concatenated inputs compose, and two transducers in a row
form a cascade.

* `run_invariant`, `run_emits` lift a fact about one step to every run;
* `run_frames` is delivery for delimited formats: when every frame takes the
  clean state back to itself, a list of frames emits exactly what each emits;
* `run_codewords` is the loading of a buffer by a stuffed body.
-/

namespace EmbeddedBridge.Library.Transducer

variable {σ τ α β γ ι : Type*}

/-- One input symbol: the next state, and what is emitted meanwhile. -/
abbrev Step (σ α β : Type*) := σ → α → σ × List β

/-- The state after a list of inputs, and everything emitted on the way. -/
def run (step : Step σ α β) (state : σ) : List α → σ × List β
  | [] => (state, [])
  | input :: inputs =>
    let after := step state input
    let later := run step after.1 inputs
    (later.1, after.2 ++ later.2)

section Run

variable (step : Step σ α β)

@[simp] theorem run_nil (state : σ) : run step state [] = (state, []) := rfl

theorem run_cons (state : σ) (input : α) (inputs : List α) :
    run step state (input :: inputs) =
      ((run step (step state input).1 inputs).1,
        (step state input).2 ++ (run step (step state input).1 inputs).2) := rfl

@[simp] theorem run_singleton (state : σ) (input : α) :
    run step state [input] = step state input := by
  simp [run_cons]

theorem run_append (state : σ) (left right : List α) :
    run step state (left ++ right) =
      ((run step (run step state left).1 right).1,
        (run step state left).2 ++ (run step (run step state left).1 right).2) := by
  induction left generalizing state with
  | nil => rfl
  | cons input left inductionHypothesis =>
    simp only [List.cons_append, run_cons, inductionHypothesis, List.append_assoc]

/-- Composition in the form the proofs use it: two finished runs make one. -/
theorem run_trans {first second third : σ} {left right : List α} {outLeft outRight : List β}
    (runLeft : run step first left = (second, outLeft))
    (runRight : run step second right = (third, outRight)) :
    run step first (left ++ right) = (third, outLeft ++ outRight) := by
  rw [run_append, runLeft, runRight]

theorem run_step {first second third : σ} {input : α} {inputs : List α} {out outLater : List β}
    (one : step first input = (second, out)) (later : run step second inputs = (third, outLater)) :
    run step first (input :: inputs) = (third, out ++ outLater) := by
  rw [run_cons, one, later]

theorem run_step_silent {first second : σ} {input : α} {inputs : List α} {result : σ × List β}
    (one : step first input = (second, [])) (later : run step second inputs = result) :
    run step first (input :: inputs) = result := by
  rw [run_cons, one, later]
  rfl

theorem run_trans_silent {first second : σ} {left right : List α} {result : σ × List β}
    (runLeft : run step first left = (second, [])) (runRight : run step second right = result) :
    run step first (left ++ right) = result := by
  rw [run_append, runLeft, runRight]
  rfl

/-- What one step preserves, a run preserves. -/
theorem run_invariant (invariant : σ → Prop)
    (preserved : ∀ state input, invariant state → invariant (step state input).1)
    (state : σ) (inputs : List α) (initial : invariant state) :
    invariant (run step state inputs).1 := by
  induction inputs generalizing state with
  | nil => exact initial
  | cons input inputs inductionHypothesis =>
    exact inductionHypothesis _ (preserved state input initial)

/-- What holds of the outputs of every step holds of the outputs of a run. -/
theorem run_emits (property : β → Prop)
    (emitted : ∀ state input, ∀ out ∈ (step state input).2, property out)
    (state : σ) (inputs : List α) : ∀ out ∈ (run step state inputs).2, property out := by
  induction inputs generalizing state with
  | nil => intro out member; cases member
  | cons input inputs inductionHypothesis =>
    intro out member
    simp only [run_cons, List.mem_append] at member
    cases member with
    | inl now => exact emitted state input out now
    | inr later => exact inductionHypothesis _ out later

/-- A step that emits `f` of what another one does, and is the same otherwise. -/
theorem run_map {step' : Step σ α γ} (f : β → γ)
    (maps : ∀ state input, step' state input = ((step state input).1, (step state input).2.map f))
    (state : σ) (inputs : List α) :
    run step' state inputs = ((run step state inputs).1, (run step state inputs).2.map f) := by
  induction inputs generalizing state with
  | nil => rfl
  | cons input inputs inductionHypothesis =>
    simp only [run_cons, maps, inductionHypothesis, List.map_append]

/-- A step that does with an input what another one does with `f` of it. -/
theorem run_comap {step' : Step σ γ β} (f : γ → α)
    (comaps : ∀ state input, step' state input = step state (f input))
    (state : σ) (inputs : List γ) :
    run step' state inputs = run step state (inputs.map f) := by
  induction inputs generalizing state with
  | nil => rfl
  | cons input inputs inductionHypothesis =>
    simp only [List.map_cons, run_cons, comaps, inductionHypothesis]

/-- A transducer that is given its input in chunks. -/
theorem run_chunks (state : σ) (chunks : List (List α)) :
    run (run step) state chunks = run step state chunks.flatten := by
  induction chunks generalizing state with
  | nil => rfl
  | cons chunk chunks inductionHypothesis =>
    rw [run_cons, inductionHypothesis, List.flatten_cons, run_append]

/-- Inputs that do nothing, as long as an invariant holds, may be left out. -/
theorem run_filter (invariant : σ → Prop)
    (preserved : ∀ state input, invariant state → invariant (step state input).1)
    (heard : α → Bool)
    (ignored : ∀ state input, invariant state → heard input = false →
      step state input = (state, []))
    (state : σ) (inputs : List α) (initial : invariant state) :
    run step state inputs = run step state (inputs.filter heard) := by
  induction inputs generalizing state with
  | nil => rfl
  | cons input inputs inductionHypothesis =>
    cases isHeard : heard input with
    | true =>
      rw [List.filter_cons_of_pos isHeard, run_cons, run_cons,
        inductionHypothesis _ (preserved state input initial)]
    | false =>
      rw [List.filter_cons_of_neg (by rw [isHeard]; exact Bool.false_ne_true),
        ← inductionHypothesis state initial]
      exact run_step_silent step (ignored state input initial isHeard) rfl

/-- Frames that each take the clean state back to itself. -/
theorem run_frames (clean : σ) (frame : ι → List α) (delivers : ι → List β) (items : List ι)
    (frames : ∀ item ∈ items, run step clean (frame item) = (clean, delivers item)) :
    run step clean (items.flatMap frame) = (clean, items.flatMap delivers) := by
  induction items with
  | nil => rfl
  | cons item items inductionHypothesis =>
    simp only [List.flatMap_cons]
    exact run_trans step (frames item List.mem_cons_self)
      (inductionHypothesis fun other member => frames other (List.mem_cons_of_mem _ member))

/-- The same from any state that the first frame takes to the clean one; what
that state had to say comes out before. -/
theorem run_frames_from (clean state : σ) (frame : ι → List α) (delivers : ι → List β)
    (opening : List β) (first : ι) (items : List ι)
    (begun : run step state (frame first) = (clean, opening ++ delivers first))
    (frames : ∀ item ∈ items, run step clean (frame item) = (clean, delivers item)) :
    run step state ((first :: items).flatMap frame) =
      (clean, opening ++ (first :: items).flatMap delivers) := by
  rw [List.flatMap_cons, run_trans step begun (run_frames step clean frame delivers items frames),
    List.flatMap_cons, List.append_assoc]

/-- Code words that each append their symbol to the content of a buffer: after
the code words of `symbols` the buffer holds all of them, and nothing came out.
`fits` says which contents the buffer can hold. -/
theorem run_codewords (holds : σ → List ι → Prop) (fits : List ι → Prop) (codeword : ι → List α)
    (shorter : ∀ content symbol, fits (content ++ [symbol]) → fits content)
    (stored : ∀ state content symbol, holds state content → fits (content ++ [symbol]) →
      ∃ next, run step state (codeword symbol) = (next, []) ∧ holds next (content ++ [symbol]))
    (state : σ) (content symbols : List ι) (initial : holds state content)
    (room : fits (content ++ symbols)) :
    ∃ final, run step state (symbols.flatMap codeword) = (final, []) ∧
      holds final (content ++ symbols) := by
  induction symbols using List.reverseRecOn with
  | nil => exact ⟨state, rfl, by simpa using initial⟩
  | append_singleton symbols symbol inductionHypothesis =>
    rw [← List.append_assoc] at room ⊢
    obtain ⟨middle, ran, loaded⟩ := inductionHypothesis (shorter _ _ room)
    obtain ⟨final, one, stored⟩ := stored middle _ symbol loaded room
    refine ⟨final, ?_, stored⟩
    rw [List.flatMap_append, List.flatMap_singleton]
    exact run_trans_silent step ran one

end Run

/-! ## Cascades -/

/-- The second transducer reads what the first emits. -/
def cascade (first : Step σ α β) (second : Step τ β γ) : Step (σ × τ) α γ :=
  fun state input =>
    let upstream := first state.1 input
    let downstream := run second state.2 upstream.2
    ((upstream.1, downstream.1), downstream.2)

theorem run_cascade (first : Step σ α β) (second : Step τ β γ) (state : σ × τ) (inputs : List α) :
    run (cascade first second) state inputs =
      (((run first state.1 inputs).1, (run second state.2 (run first state.1 inputs).2).1),
        (run second state.2 (run first state.1 inputs).2).2) := by
  induction inputs generalizing state with
  | nil => rfl
  | cons input inputs inductionHypothesis =>
    simp only [run_cons, inductionHypothesis, cascade, run_append]

end EmbeddedBridge.Library.Transducer
