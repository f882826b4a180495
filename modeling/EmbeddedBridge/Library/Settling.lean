import EmbeddedBridge.Library.Methods
import EmbeddedBridge.Library.Transducer

/-! # Methods with fuel

A loop that may go on for ever is given a number of turns.  It `Settles` if from some number on
it ends in the same way, however many more it is given.  If every call of an object does, so do
any calls one after the other (`run_settles`).
-/

namespace EmbeddedBridge.Library.Methods

variable {ε σ α β : Type}

def Settles (method : Nat → Method ε σ α) (state : σ) (outcome : Except ε α × σ) : Prop :=
  ∃ enough, ∀ fuel, enough < fuel → run (method fuel) state = outcome

namespace Settles

variable {method : Nat → Method ε σ α} {state between : σ} {outcome : Except ε α × σ}

theorem const (method : Method ε σ α) (state : σ) :
    Settles (fun _ => method) state (run method state) :=
  ⟨0, fun _ _ => rfl⟩

/-- A turn takes one. -/
theorem turn (rest : Settles (fun fuel => method (fuel + 1)) state outcome) :
    Settles method state outcome := by
  obtain ⟨enough, ends⟩ := rest
  refine ⟨enough + 1, fun fuel longer => ?_⟩
  cases fuel with
  | zero => exact absurd longer (Nat.not_lt_zero _)
  | succ fuel => exact ends fuel (Nat.lt_of_succ_lt_succ longer)

/-- Both parts have enough if the one that needs more has. -/
theorem bind {later : Nat → α → Method ε σ β} {result : α} {outcome : Except ε β × σ}
    (first : Settles method state (.ok result, between))
    (next : Settles (fun fuel => later fuel result) between outcome) :
    Settles (fun fuel => method fuel >>= later fuel) state outcome := by
  obtain ⟨enough, ends⟩ := first
  obtain ⟨enough', ends'⟩ := next
  refine ⟨max enough enough', fun fuel longer => ?_⟩
  rw [run_bind_ok state (ends fuel (by omega))]
  exact ends' fuel (by omega)

theorem bind_error {later : Nat → α → Method ε σ β} {error : ε}
    (first : Settles method state (.error error, between)) :
    Settles (fun fuel => method fuel >>= later fuel) state (.error error, between) := by
  obtain ⟨enough, ends⟩ := first
  refine ⟨enough, fun fuel longer => ?_⟩
  rw [run_bind, ends fuel longer]

theorem adapt_ok {ε' : Type} {rename : ε → ε'} {result : α}
    (settles : Settles method state (.ok result, between)) :
    Settles (fun fuel => ExceptT.adapt rename (method fuel)) state (.ok result, between) := by
  obtain ⟨enough, ends⟩ := settles
  refine ⟨enough, fun fuel longer => ?_⟩
  rw [run_adapt, ends fuel longer]

/-- The way it ends is the way it ends with some number of turns. -/
theorem reached (settles : Settles method state outcome) :
    ∃ fuel, run (method fuel) state = outcome := by
  obtain ⟨enough, ends⟩ := settles
  exact ⟨enough + 1, ends _ (Nat.lt_succ_self _)⟩

end Settles

/-- It settles, with `ending` of how it ends. -/
def Ends (ending : Except ε α → Prop) (method : Nat → Method ε σ α) (state : σ) : Prop :=
  ∃ outcome, Settles method state outcome ∧ ending outcome.1

namespace Ends

variable {method : Nat → Method ε σ α} {state : σ}

theorem const {ending : Except ε α → Prop} {method : Method ε σ α}
    (ends : ending (run method state).1) : Ends ending (fun _ => method) state :=
  ⟨run method state, .const method state, ends⟩

theorem turn {ending : Except ε α → Prop}
    (rest : Ends ending (fun fuel => method (fuel + 1)) state) : Ends ending method state := by
  obtain ⟨outcome, settles, ends⟩ := rest
  exact ⟨outcome, settles.turn, ends⟩

theorem ite {ending : Except ε α → Prop} {condition : Prop} [Decidable condition]
    {other : Nat → Method ε σ α} (holds : condition → Ends ending method state)
    (fails : ¬ condition → Ends ending other state) :
    Ends ending (fun fuel => if condition then method fuel else other fuel) state := by
  by_cases given : condition
  · simpa only [given, ↓reduceIte] using holds given
  · simpa only [given, ↓reduceIte] using fails given

/-- The second part has to end where the first can lead to; what the first raises must be
allowed. -/
theorem bind {later : Nat → α → Method ε σ β} {ending : Except ε β → Prop}
    {between : Except ε α → Prop} (first : Ends between method state)
    (raises : ∀ error, between (.error error) → ending (.error error))
    (next : ∀ fuel result after, run (method fuel) state = (.ok result, after) →
      Ends ending (fun fuel => later fuel result) after) :
    Ends ending (fun fuel => method fuel >>= later fuel) state := by
  obtain ⟨⟨outcome, after⟩, settles, ends⟩ := first
  cases outcome with
  | error error => exact ⟨(.error error, after), settles.bind_error, raises error ends⟩
  | ok result =>
    obtain ⟨fuel, ran⟩ := settles.reached
    obtain ⟨outcome, settles', ends'⟩ := next fuel result after ran
    exact ⟨outcome, settles.bind settles', ends'⟩

end Ends

/-! ## One call after the other -/

/-- Each call has its own number of turns, and they end together as each of them does. -/
theorem run_settles {κ : Type} {step : Transducer.Step σ (κ × Nat) β} {ending : β → Prop}
    (calls : List κ)
    (settles : ∀ call ∈ calls, ∀ state, ∃ answer after, ending answer ∧
      ∃ enough, ∀ fuel, enough < fuel → step state (call, fuel) = (after, [answer])) (state : σ) :
    ∃ after answers enough, answers.length = calls.length ∧ (∀ answer ∈ answers, ending answer) ∧
      ∀ asked : List (κ × Nat), asked.map Prod.fst = calls → (∀ call ∈ asked, enough < call.2) →
        Transducer.run step state asked = (after, answers) := by
  induction calls generalizing state with
  | nil =>
    refine ⟨state, [], 0, rfl, nofun, fun asked same _ => ?_⟩
    rw [List.map_eq_nil_iff.mp same, Transducer.run_nil]
  | cons call calls inductionHypothesis =>
    obtain ⟨here, rest⟩ := List.forall_mem_cons.mp settles
    obtain ⟨answer, between, ending, enough, ends⟩ := here state
    obtain ⟨after, answers, enough', length, endings, ends'⟩ := inductionHypothesis rest between
    refine ⟨after, answer :: answers, max enough enough', congrArg (· + 1) length,
      List.forall_mem_cons.mpr ⟨ending, endings⟩, fun asked same longer => ?_⟩
    cases asked with
    | nil => cases same
    | cons first asked =>
      obtain ⟨rfl, rest⟩ := List.cons.inj same
      obtain ⟨here, later⟩ := List.forall_mem_cons.mp longer
      have first' : step state first = (between, [answer]) := ends first.2 (by omega)
      rw [Transducer.run_cons, first', ends' asked rest fun call given => by
        have := later call given
        omega]
      rfl

/-- Methods that are called, whatever they raise, each with its own number of turns. -/
def calling {κ : Type} (method : κ → Nat → Method ε σ α) :
    Transducer.Step σ (κ × Nat) (Except ε α) := fun state call =>
  let ran := run (method call.1 call.2) state
  (ran.2, [ran.1])

theorem calling_settles {κ : Type} {method : κ → Nat → Method ε σ α} {ending : Except ε α → Prop}
    {call : κ} {state : σ} (ends : Ends ending (method call) state) :
    ∃ answer after, ending answer ∧
      ∃ enough, ∀ fuel, enough < fuel → calling method state (call, fuel) = (after, [answer]) := by
  obtain ⟨outcome, ⟨enough, settles⟩, ending⟩ := ends
  refine ⟨outcome.1, outcome.2, ending, enough, fun fuel longer => ?_⟩
  rw [calling, settles fuel longer]

end EmbeddedBridge.Library.Methods
