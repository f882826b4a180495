import EmbeddedBridge.Library.Transducer

/-! # Loops that consume their input

`while i < n: body` where each turn of the body may read as much of what is left
as it likes.  The loop is run on fuel; a `weight` that every turn lowers is
enough fuel (`loop_exits`), and from there more fuel changes nothing
(`loop_fuel`), so `consume` is the loop run to its exit and satisfies the loop's
own equation (`consume_cons`).

`consume_refines` replaces the loop by a transducer that reads symbol by symbol.
-/

namespace EmbeddedBridge.Library.Consumer

variable {σ τ α β γ : Type*}

/-- Where a turn of the loop, or the whole loop, stops: the state, what was
emitted, and the input not read yet. -/
structure Outcome (σ α β : Type*) where
  state : σ
  emitted : List β
  unread : List α

/-- The body of the loop, given the next symbol and what follows it. -/
abbrev Body (σ α β : Type*) := σ → α → List α → Outcome σ α β

def loop (body : Body σ α β) : Nat → σ → List α → Outcome σ α β
  | _, state, [] => ⟨state, [], []⟩
  | 0, state, unread => ⟨state, [], unread⟩
  | fuel + 1, state, next :: rest =>
    let turn := body state next rest
    let later := loop body fuel turn.state turn.unread
    ⟨later.state, turn.emitted ++ later.emitted, later.unread⟩

/-- Every turn lowers the weight of what is left to do. -/
def Progress (body : Body σ α β) (weight : σ → List α → Nat) : Prop :=
  ∀ state next rest,
    weight (body state next rest).state (body state next rest).unread < weight state (next :: rest)

/-- What every turn preserves holds after any number of turns. -/
theorem loop_invariant {body : Body σ α β} (invariant : σ → Prop)
    (preserved : ∀ state next rest, invariant state → invariant (body state next rest).state)
    (fuel : Nat) (state : σ) (input : List α) (initial : invariant state) :
    invariant (loop body fuel state input).state := by
  induction fuel generalizing state input with
  | zero => cases input <;> exact initial
  | succ fuel inductionHypothesis =>
    cases input with
    | nil => exact initial
    | cons next rest => exact inductionHypothesis _ _ (preserved state next rest initial)

/-- The loop on as much fuel as the weight of its start. -/
def consume (body : Body σ α β) (weight : σ → List α → Nat) (state : σ) (input : List α) :
    Outcome σ α β :=
  loop body (weight state input) state input

/-- A body that emits `f` of what another one does, and is the same otherwise. -/
theorem consume_map {body : Body σ α β} {body' : Body σ α γ} (weight : σ → List α → Nat) (f : β → γ)
    (maps : ∀ state next rest, body' state next rest =
      ⟨(body state next rest).state, (body state next rest).emitted.map f,
        (body state next rest).unread⟩)
    (state : σ) (input : List α) :
    consume body' weight state input =
      ⟨(consume body weight state input).state, (consume body weight state input).emitted.map f,
        (consume body weight state input).unread⟩ := by
  have looped : ∀ fuel state input, loop body' fuel state input =
      ⟨(loop body fuel state input).state, (loop body fuel state input).emitted.map f,
        (loop body fuel state input).unread⟩ := by
    intro fuel
    induction fuel with
    | zero => intro state input; cases input <;> rfl
    | succ fuel inductionHypothesis =>
      intro state input
      cases input with
      | nil => rfl
      | cons next rest => simp only [loop, maps, inductionHypothesis, List.map_append]
  exact looped _ state input

section Progress

variable {body : Body σ α β} {weight : σ → List α → Nat} (progress : Progress body weight)
include progress

theorem loop_exits (fuel : Nat) (state : σ) (input : List α) (enough : weight state input ≤ fuel) :
    (loop body fuel state input).unread = [] := by
  induction fuel generalizing state input with
  | zero =>
    cases input with
    | nil => rfl
    | cons next rest =>
      have lowered := progress state next rest
      omega
  | succ fuel inductionHypothesis =>
    cases input with
    | nil => rfl
    | cons next rest =>
      have lowered := progress state next rest
      exact inductionHypothesis _ _ (by omega)

theorem loop_fuel (fuel : Nat) (state : σ) (input : List α) (enough : weight state input ≤ fuel) :
    loop body fuel state input = consume body weight state input := by
  induction fuel using Nat.strongRecOn generalizing state input with
  | ind fuel inductionHypothesis =>
    cases input with
    | nil => cases fuel <;> unfold consume <;> cases weight state [] <;> rfl
    | cons next rest =>
      have lowered := progress state next rest
      cases fuel with
      | zero => omega
      | succ fuel =>
        unfold consume
        cases atStart : weight state (next :: rest) with
        | zero => omega
        | succ start =>
          simp only [loop]
          rw [inductionHypothesis fuel (by omega) _ _ (by omega),
            inductionHypothesis start (by omega) _ _ (by omega)]

omit progress in
@[simp] theorem consume_nil (state : σ) : consume body weight state [] = ⟨state, [], []⟩ := by
  unfold consume
  cases weight state [] <;> rfl

theorem consume_cons (state : σ) (next : α) (rest : List α) :
    consume body weight state (next :: rest) =
      let turn := body state next rest
      let later := consume body weight turn.state turn.unread
      ⟨later.state, turn.emitted ++ later.emitted, later.unread⟩ := by
  have lowered := progress state next rest
  cases atStart : weight state (next :: rest) with
  | zero => omega
  | succ fuel =>
    rw [consume, atStart]
    simp only [loop]
    rw [loop_fuel progress fuel _ _ (by omega)]

/-- Induction along the turns of the loop. -/
theorem consume_induction {motive : σ → List α → Prop} (nil : ∀ state, motive state [])
    (turn : ∀ state next rest,
      motive (body state next rest).state (body state next rest).unread →
        motive state (next :: rest))
    (state : σ) (input : List α) : motive state input := by
  induction weightEqual : weight state input using Nat.strongRecOn generalizing state input with
  | ind bound inductionHypothesis =>
    cases input with
    | nil => exact nil state
    | cons next rest =>
      have lowered := progress state next rest
      exact turn state next rest (inductionHypothesis _ (by omega) _ _ rfl)

/-- If every turn reads a part of the input and does to the state and the
outputs what the transducer does over that part, symbol by symbol, then the loop
is the transducer's run. -/
theorem consume_refines {step : Transducer.Step τ α γ} (symbols : β → List γ)
    (related : σ → τ → Prop)
    (turn : ∀ state target next rest, related state target →
      ∃ used, used ++ (body state next rest).unread = next :: rest ∧
        related (body state next rest).state (Transducer.run step target used).1 ∧
        (body state next rest).emitted.flatMap symbols = (Transducer.run step target used).2)
    (state : σ) (target : τ) (input : List α) (initial : related state target) :
    related (consume body weight state input).state (Transducer.run step target input).1 ∧
      (consume body weight state input).emitted.flatMap symbols =
        (Transducer.run step target input).2 := by
  induction state, input using consume_induction progress generalizing target with
  | nil state => simpa using initial
  | turn state next rest inductionHypothesis =>
    obtain ⟨used, split, stepped, emits⟩ := turn state target next rest initial
    obtain ⟨final, emitsLater⟩ := inductionHypothesis _ stepped
    rw [consume_cons progress, ← split, Transducer.run_append]
    exact ⟨final, by simp only [List.flatMap_append, emits, emitsLater]⟩

end Progress

end EmbeddedBridge.Library.Consumer
