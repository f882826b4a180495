import Mathlib.Data.List.Basic

/-! # Methods

A method of an object reads and changes a state and may raise; what it has changed
by then stays changed.  `run` gives its result and the state afterwards.

`Ensures` is the triple for such methods, with one condition for a method that
returns and one for a method that raises; `Preserves` is the special case of a
relation between the state before and the state after, however the method ends.
-/

namespace EmbeddedBridge.Library.Methods

variable {ε σ α β : Type}

abbrev Method (ε σ α : Type) := ExceptT ε (StateM σ) α

def run (method : Method ε σ α) (state : σ) : Except ε α × σ := method.run.run state

/-! ## Running -/

section Run

variable (state : σ)

@[simp] theorem run_pure (result : α) :
    run (pure result : Method ε σ α) state = (.ok result, state) := rfl

@[simp] theorem run_get : run (get : Method ε σ σ) state = (.ok state, state) := rfl

@[simp] theorem run_modify (change : σ → σ) :
    run (modify change : Method ε σ Unit) state = (.ok (), change state) := rfl

@[simp] theorem run_ofExcept (result : Except ε α) :
    run (MonadExcept.ofExcept result : Method ε σ α) state = (result, state) := by
  cases result <;> rfl

theorem run_bind (method : Method ε σ α) (later : α → Method ε σ β) :
    run (method >>= later) state =
      match run method state with
      | (.ok result, after) => run (later result) after
      | (.error error, after) => (.error error, after) := by
  simp only [run, ExceptT.run_bind, StateT.run_bind]
  cases method.run.run state with
  | mk outcome after => cases outcome <;> rfl

/-- What follows a method that has returned. -/
theorem run_bind_ok {method : Method ε σ α} {later : α → Method ε σ β} {result : α} {after : σ}
    (ran : run method state = (.ok result, after)) :
    run (method >>= later) state = run (later result) after := by
  rw [run_bind, ran]

/-- A composed method returns when both parts do. -/
theorem run_bind_eq_ok {state final : σ} {method : Method ε σ α} {later : α → Method ε σ β}
    {result : β} :
    run (method >>= later) state = (.ok result, final) ↔
      ∃ value after, run method state = (.ok value, after) ∧
        run (later value) after = (.ok result, final) := by
  rw [run_bind]
  cases run method state with
  | mk outcome after =>
    cases outcome with
    | error error => simp
    | ok value => simp

/-- What has changed before the exception stays changed for the handler. -/
theorem run_tryCatch (method : Method ε σ α) (handler : ε → Method ε σ α) :
    run (tryCatch method handler) state =
      match run method state with
      | (.ok result, after) => (.ok result, after)
      | (.error error, after) => run (handler error) after := by
  unfold run ExceptT.run StateT.run
  simp only [tryCatch, tryCatchThe, MonadExceptOf.tryCatch, ExceptT.tryCatch, ExceptT.mk, bind,
    StateT.bind]
  cases method state with
  | mk outcome after => cases outcome <;> rfl

/-- An exception that is raised under another name. -/
theorem run_adapt {ε' : Type} (rename : ε → ε') (method : Method ε σ α) :
    run (ExceptT.adapt rename method) state =
      match run method state with
      | (.ok result, after) => (.ok result, after)
      | (.error error, after) => (.error (rename error), after) := by
  unfold run ExceptT.run StateT.run
  delta ExceptT.adapt
  simp only [ExceptT.mk, Functor.map, StateT.map, bind, pure]
  cases method state with
  | mk outcome after => cases outcome <;> rfl

end Run

/-! ## Results of a list -/

/-- An exception for one element is one for the list. -/
theorem mapM_ok_iff (f : α → Except ε β) (xs : List α) :
    (∃ ys, xs.mapM f = .ok ys) ↔ ∀ x ∈ xs, ∃ y, f x = .ok y := by
  induction xs with
  | nil => simp [pure, Except.pure]
  | cons x xs inductionHypothesis =>
    rw [List.mapM_cons, List.forall_mem_cons, ← inductionHypothesis]
    cases f x with
    | error error => simp [bind, Except.bind]
    | ok y =>
      cases xs.mapM f with
      | error error => simp [bind, Except.bind]
      | ok ys => simp [bind, Except.bind, pure, Except.pure]

theorem mapM_eq_ok {f : α → Except ε β} {xs : List α} {ys : List β} (results : xs.mapM f = .ok ys) :
    List.Forall₂ (fun x y => f x = .ok y) xs ys := by
  induction xs generalizing ys with
  | nil =>
    cases results
    exact .nil
  | cons x xs inductionHypothesis =>
    rw [List.mapM_cons] at results
    cases here : f x with
    | error error =>
      rw [here] at results
      cases results
    | ok y =>
      rw [here] at results
      cases later : xs.mapM f with
      | error error =>
        rw [later] at results
        cases results
      | ok ys =>
        rw [later] at results
        cases results
        exact .cons here (inductionHypothesis later)

theorem mapM_error {f : α → Except ε β} {xs : List α} {error : ε}
    (fails : xs.mapM f = .error error) : ∃ x ∈ xs, f x = .error error := by
  induction xs with
  | nil => cases fails
  | cons x xs inductionHypothesis =>
    rw [List.mapM_cons] at fails
    cases here : f x with
    | error error' =>
      rw [here] at fails
      cases fails
      exact ⟨x, List.mem_cons_self, here⟩
    | ok y =>
      rw [here] at fails
      cases later : xs.mapM f with
      | error error' =>
        rw [later] at fails
        cases fails
        obtain ⟨x', member, fails'⟩ := inductionHypothesis later
        exact ⟨x', List.mem_cons_of_mem x member, fails'⟩
      | ok ys =>
        rw [later] at fails
        cases fails

/-! ## Triples -/

/-- From a state with `pre` the method returns with `post`, or raises with `raised`. -/
def Ensures (pre : σ → Prop) (method : Method ε σ α) (post : α → σ → Prop)
    (raised : ε → σ → Prop) : Prop :=
  ∀ state, pre state →
    match run method state with
    | (.ok result, after) => post result after
    | (.error error, after) => raised error after

namespace Ensures

variable {pre : σ → Prop} {method : Method ε σ α} {post : α → σ → Prop} {raised : ε → σ → Prop}

theorem ofPure {result : α} (holds : ∀ state, pre state → post result state) :
    Ensures pre (pure result) post raised := fun state initial => holds state initial

theorem ofThrow {error : ε} (holds : ∀ state, pre state → raised error state) :
    Ensures pre (throw error : Method ε σ α) post raised :=
  fun state initial => holds state initial

theorem ofGet : Ensures pre (get : Method ε σ σ) (fun result state => result = state ∧ pre state)
    raised := fun _ initial => ⟨rfl, initial⟩

theorem bind {later : α → Method ε σ β} {between : α → σ → Prop} {post : β → σ → Prop}
    (first : Ensures pre method between raised)
    (next : ∀ result, Ensures (between result) (later result) post raised) :
    Ensures pre (method >>= later) post raised := by
  intro state initial
  have holds := first state initial
  rw [run_bind]
  cases ran : run method state with
  | mk outcome after =>
    rw [ran] at holds
    cases outcome with
    | error error => exact holds
    | ok result => exact next result after holds

/-- Where the condition in between cannot be seen from the proofs. -/
theorem bindVia {later : α → Method ε σ β} (between : α → σ → Prop) {post : β → σ → Prop}
    (first : Ensures pre method between raised)
    (next : ∀ result, Ensures (between result) (later result) post raised) :
    Ensures pre (method >>= later) post raised := first.bind next

theorem weaken {pre' : σ → Prop} {post' : α → σ → Prop} {raised' : ε → σ → Prop}
    (ensures : Ensures pre' method post' raised') (stronger : ∀ state, pre state → pre' state)
    (weaker : ∀ result state, post' result state → post result state)
    (weaker' : ∀ error state, raised' error state → raised error state) :
    Ensures pre method post raised := by
  intro state initial
  have holds := ensures state (stronger state initial)
  cases ran : run method state with
  | mk outcome after =>
    rw [ran] at holds
    cases outcome with
    | error error => exact weaker' error after holds
    | ok result => exact weaker result after holds

/-- From what the method ensures of each state it may start in. -/
theorem fromEach {post' : σ → α → σ → Prop} {raised' : σ → ε → σ → Prop}
    (ensures : ∀ before, Ensures (fun state => state = before) method (post' before)
      (raised' before))
    (returns : ∀ before, pre before → ∀ result after, post' before result after → post result after)
    (raises : ∀ before, pre before → ∀ error after, raised' before error after →
      raised error after) :
    Ensures pre method post raised := fun state initial =>
  (ensures state).weaken (fun _ => id) (returns state initial) (raises state initial) state rfl

theorem ite {condition : Prop} [Decidable condition] {other : Method ε σ α}
    (holds : condition → Ensures pre method post raised)
    (fails : ¬ condition → Ensures pre other post raised) :
    Ensures pre (if condition then method else other) post raised := by
  split
  · rename_i isTrue
    exact holds isTrue
  · rename_i isFalse
    exact fails isFalse

/-- The handler starts where the method has raised. -/
theorem tryCatch {handler : ε → Method ε σ α} {caught : ε → σ → Prop}
    (body : Ensures pre method post caught)
    (handles : ∀ error, Ensures (caught error) (handler error) post raised) :
    Ensures pre (MonadExcept.tryCatch method handler) post raised := by
  intro state initial
  have holds := body state initial
  rw [run_tryCatch]
  cases finished : run method state with
  | mk outcome after =>
    rw [finished] at holds
    cases outcome with
    | error error => exact handles error after holds
    | ok result => exact holds

/-- What holds however the method ends. -/
theorem after {post : σ → Prop} (ensures : Ensures pre method (fun _ => post) fun _ => post)
    (state : σ) (initial : pre state) : post (run method state).2 := by
  have holds := ensures state initial
  cases ran : run method state with
  | mk outcome final =>
    rw [ran] at holds
    cases outcome with
    | error error => exact holds
    | ok result => exact holds

end Ensures

/-- However the method ends, the state afterwards is related to the state before. -/
def Preserves (related : σ → σ → Prop) (method : Method ε σ α) : Prop :=
  ∀ state, related state (run method state).2

namespace Preserves

variable {related : σ → σ → Prop} {method : Method ε σ α}

theorem ofPure (refl : ∀ state, related state state) (result : α) :
    Preserves related (pure result : Method ε σ α) := fun state => refl state

theorem ofThrow (refl : ∀ state, related state state) (error : ε) :
    Preserves related (throw error : Method ε σ α) := fun state => refl state

theorem ofExcept (refl : ∀ state, related state state) (result : Except ε α) :
    Preserves related (MonadExcept.ofExcept result : Method ε σ α) := by
  intro state
  rw [run_ofExcept]
  exact refl state

theorem ofGet (refl : ∀ state, related state state) :
    Preserves related (get : Method ε σ σ) := fun state => refl state

theorem ofModify {change : σ → σ} (changes : ∀ state, related state (change state)) :
    Preserves related (modify change : Method ε σ Unit) := changes

/-- What is related to a state with `pre` has `post`. -/
theorem ensures {pre post : σ → Prop} (preserves : Preserves related method)
    (kept : ∀ before after, related before after → pre before → post after) :
    Ensures pre method (fun _ => post) fun _ => post := by
  intro state initial
  have holds := kept _ _ (preserves state) initial
  cases ran : run method state with
  | mk outcome after =>
    rw [ran] at holds
    cases outcome with
    | error error => exact holds
    | ok result => exact holds

theorem bind {later : α → Method ε σ β}
    (trans : ∀ first second third, related first second → related second third →
      related first third)
    (here : Preserves related method) (next : ∀ result, Preserves related (later result)) :
    Preserves related (method >>= later) := by
  intro state
  have first := here state
  rw [run_bind]
  cases ran : run method state with
  | mk outcome after =>
    rw [ran] at first
    cases outcome with
    | error error => exact first
    | ok result => exact trans _ _ _ first (next result after)

end Preserves

/-- Whatever the state, what the method returns has the property. -/
def Returns (method : Method ε σ α) (property : α → Prop) : Prop :=
  ∀ state result after, run method state = (.ok result, after) → property result

namespace Returns

variable {method : Method ε σ α} {property : α → Prop}

theorem ofPure {result : α} (holds : property result) :
    Returns (pure result : Method ε σ α) property := by
  intro state other after ran
  cases ran
  exact holds

theorem ofThrow (error : ε) : Returns (throw error : Method ε σ α) property := by
  intro state other after ran
  cases ran

theorem bind {later : α → Method ε σ β} {property' : β → Prop} (first : Returns method property)
    (next : ∀ result, property result → Returns (later result) property') :
    Returns (method >>= later) property' := by
  intro state result after ran
  obtain ⟨value, between, ranFirst, ranLater⟩ := run_bind_eq_ok.mp ran
  exact next value (first state value between ranFirst) between result after ranLater

/-- For a method of which nothing is known. -/
theorem bindAny {later : α → Method ε σ β} {property' : β → Prop}
    (next : ∀ result, Returns (later result) property') : Returns (method >>= later) property' :=
  bind (fun _ _ _ _ => trivial) fun result _ => next result

theorem ite {condition : Prop} [Decidable condition] {other : Method ε σ α}
    (holds : condition → Returns method property) (fails : ¬ condition → Returns other property) :
    Returns (if condition then method else other) property := by
  split
  · rename_i isTrue
    exact holds isTrue
  · rename_i isFalse
    exact fails isFalse

end Returns

namespace Ensures

variable {pre : σ → Prop} {method : Method ε σ α} {post : α → σ → Prop} {raised : ε → σ → Prop}

/-- With what is known of the result alone. -/
theorem returning {property : α → Prop} (ensures : Ensures pre method post raised)
    (returns : Returns method property) :
    Ensures pre method (fun result state => property result ∧ post result state) raised := by
  intro state initial
  have holds := ensures state initial
  cases ran : run method state with
  | mk outcome after =>
    rw [ran] at holds
    cases outcome with
    | error error => exact holds
    | ok result => exact ⟨returns state result after ran, holds⟩

theorem adapt {ε' : Type} {rename : ε → ε'} {raised' : ε' → σ → Prop}
    (ensures : Ensures pre method post raised)
    (renames : ∀ error state, raised error state → raised' (rename error) state) :
    Ensures pre (ExceptT.adapt rename method) post raised' := by
  intro state initial
  have holds := ensures state initial
  rw [run_adapt]
  cases ran : run method state with
  | mk outcome after =>
    rw [ran] at holds
    cases outcome with
    | error error => exact renames error after holds
    | ok result => exact holds

end Ensures

/-! ## What a method is made of -/

/-- A method that is put together from some steps, and raises nothing else than some errors. -/
inductive Composed (step : (α : Type) → Method ε σ α → Prop) (raises : ε → Prop) :
    {α : Type} → Method ε σ α → Prop where
  | step {α : Type} {method : Method ε σ α} (isStep : step α method) : Composed step raises method
  | pure {α : Type} (result : α) : Composed step raises (Pure.pure result : Method ε σ α)
  | throw {α : Type} {error : ε} (raised : raises error) :
      Composed step raises (MonadExcept.throw error : Method ε σ α)
  | bind {α β : Type} {method : Method ε σ α} {later : α → Method ε σ β}
      (first : Composed step raises method)
      (next : ∀ result, Composed step raises (later result)) :
      Composed step raises (method >>= later)

namespace Composed

variable {step : (α : Type) → Method ε σ α → Prop} {raises : ε → Prop} {method : Method ε σ α}

theorem ite {condition : Prop} [Decidable condition] {other : Method ε σ α}
    (holds : Composed step raises method) (fails : Composed step raises other) :
    Composed step raises (if condition then method else other) := by
  split
  · exact holds
  · exact fails

/-- What each step keeps, the method keeps. -/
theorem ensures {invariant : σ → Prop}
    (each : ∀ {α : Type} {method : Method ε σ α}, step α method →
      Ensures invariant method (fun _ => invariant) fun error state => raises error ∧ invariant state)
    (composed : Composed step raises method) :
    Ensures invariant method (fun _ => invariant)
      fun error state => raises error ∧ invariant state := by
  induction composed with
  | step isStep => exact each isStep
  | pure result => exact .ofPure fun _ => id
  | throw raised => exact .ofThrow fun _ holds => ⟨raised, holds⟩
  | bind _ _ first next => exact Ensures.bind first next

end Composed

end EmbeddedBridge.Library.Methods
