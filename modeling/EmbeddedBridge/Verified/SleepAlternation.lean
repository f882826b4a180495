import EmbeddedBridge.Verified.PortFollowing

/-! # Sleep and wake notifications

A call of a `SleepWakeMonitor` moves it in one of three ways (`Moves`): out of the awake
state, back into it, or from sleeping to waking, which nobody is told of.  So the
notifications alternate, whatever the lines and the port do.
-/

namespace EmbeddedBridge.Python.SleepWakeMonitor

open Library Py

variable {φ : Type}

/-! ## One call -/

/-- What a call makes of the monitor. -/
inductive Moves (monitor : SleepWakeMonitor φ) : SleepWakeMonitor φ → Prop where
  | stays : Moves monitor monitor
  | sleeps (awake : monitor.state = .awake) (gone : Bool) (duration : Option φ)
      (reason : Option Str) (now : φ) :
      Moves monitor ({ monitor with portWasGone := gone }.transitionToSleeping duration reason now)
  | returns (sleeping : monitor.state = .sleeping) : Moves monitor { monitor with state := .waking }
  | wakes (asleep : monitor.state ≠ .awake) :
      Moves monitor
        { monitor with
          state := .awake
          portWasGone := false
          notified := if monitor.onWake then monitor.notified ++ [.onWake] else monitor.notified }

variable [PyFloat φ]

theorem moves_feed (monitor : SleepWakeMonitor φ) (message : Line) (now : φ) :
    monitor.Moves (monitor.feed message now) := by
  have wakePatterns (asleep : monitor.state ≠ .awake) :
      monitor.Moves (monitor.checkWakePatterns message.text) := by
    rw [checkWakePatterns]
    split
    · exact .wakes asleep
    · exact .stays
  rw [feed]
  split
  · rename_i awake
    rw [checkSleepPatterns]
    split
    · exact .stays
    · exact .sleeps awake monitor.portWasGone _ _ now
  · rename_i sleeping
    exact wakePatterns (by simp [sleeping])
  · rename_i waking
    exact wakePatterns (by simp [waking])

omit [PyFloat φ] in
theorem moves_checkPort (monitor : SleepWakeMonitor φ) (portExists : Bool) (now : φ) :
    monitor.Moves (monitor.checkPort portExists now) := by
  rw [checkPort]
  split
  · exact .stays
  · split
    · rename_i vanishes
      exact .sleeps vanishes.1 true none none now
    · split
      · rename_i back
        exact .returns back.1
      · exact .stays

theorem moves_apply (monitor : SleepWakeMonitor φ) (call : Call φ) :
    monitor.Moves (monitor.apply call) := by
  cases call with
  | feed message now => exact moves_feed monitor message now
  | checkPort portExists now => exact moves_checkPort monitor portExists now

/-! ## Notifications -/

def Notice.event? : Notice φ → Option (SleepEvent φ)
  | .onSleep event => some event
  | .onWake => none

/-- The events that `on_sleep` has been called with. -/
def sleeps (notified : List (Notice φ)) : List (SleepEvent φ) := notified.filterMap Notice.event?

def wakes (notified : List (Notice φ)) : Nat := notified.countP fun notice => notice.event?.isNone

/-- `on_sleep` is called first, and then by turns. -/
def Alternates (notified : List (Notice φ)) : Prop :=
  ∀ i notice, notified[i]? = some notice → (notice.event?.isSome ↔ i % 2 = 0)

/-- The calls of `on_sleep` in excess of those of `on_wake`. -/
def State.excess : State → Int
  | .awake => 0
  | .sleeping | .waking => 1

structure Notifies (monitor : SleepWakeMonitor φ) : Prop where
  alternates : Alternates monitor.notified
  balance : ((sleeps monitor.notified).length : Int) - wakes monitor.notified = monitor.state.excess
  latest : monitor.sleepEvent = (sleeps monitor.notified).getLast?
  here : monitor.state = .awake → monitor.portWasGone = false

/-- A new monitor with both callbacks. -/
def observed (portPath : Option Str) (sleepPatterns wakePatterns : List SleepPattern) :
    SleepWakeMonitor φ :=
  { portPath, sleepPatterns, wakePatterns, onSleep := true, onWake := true }

section

omit [PyFloat φ]

variable {monitor after : SleepWakeMonitor φ} {notified : List (Notice φ)}

@[simp]
theorem sleeps_onSleep (event : SleepEvent φ) :
    sleeps (notified ++ [.onSleep event]) = sleeps notified ++ [event] := by
  simp [sleeps, Notice.event?]

@[simp]
theorem sleeps_onWake : sleeps (notified ++ [.onWake]) = sleeps notified := by
  simp [sleeps, Notice.event?]

@[simp]
theorem wakes_onSleep (event : SleepEvent φ) :
    wakes (notified ++ [.onSleep event]) = wakes notified := by
  simp [wakes, Notice.event?]

@[simp]
theorem wakes_onWake : wakes (notified ++ [.onWake]) = wakes notified + 1 := by
  simp [wakes, Notice.event?]

variable (notified) in
theorem length_eq : notified.length = (sleeps notified).length + wakes notified := by
  induction notified using List.reverseRecOn with
  | nil => rfl
  | append_singleton notified notice inductionHypothesis =>
    rw [List.length_append, List.length_singleton, inductionHypothesis]
    cases notice with
    | onSleep event =>
      rw [sleeps_onSleep, wakes_onSleep, List.length_append, List.length_singleton]
      omega
    | onWake =>
      rw [sleeps_onWake, wakes_onWake]
      omega

theorem alternates_snoc (alternates : Alternates notified) {notice : Notice φ}
    (next : notice.event?.isSome ↔ notified.length % 2 = 0) :
    Alternates (notified ++ [notice]) := by
  intro i notice' here
  cases Nat.lt_trichotomy i notified.length with
  | inl earlier =>
    rw [List.getElem?_append_left earlier] at here
    exact alternates i notice' here
  | inr rest =>
    cases rest with
    | inl last =>
      rw [last, List.getElem?_concat_length] at here
      cases here
      rw [last]
      exact next
    | inr beyond =>
      rw [List.getElem?_eq_none (by simp; omega)] at here
      cases here

/-- It is the other callback's turn. -/
theorem Notifies.turn (notifies : monitor.Notifies) :
    monitor.notified.length % 2 = 0 ↔ monitor.state = .awake := by
  have balance := notifies.balance
  rw [length_eq]
  cases state : monitor.state with
  | awake =>
    simp only [state, State.excess] at balance
    exact iff_of_true (by omega) rfl
  | sleeping =>
    simp only [state, State.excess] at balance
    exact iff_of_false (by omega) (by simp)
  | waking =>
    simp only [state, State.excess] at balance
    exact iff_of_false (by omega) (by simp)

theorem Moves.callbacks (moves : monitor.Moves after) :
    after.onSleep = monitor.onSleep ∧ after.onWake = monitor.onWake := by
  cases moves <;> exact ⟨rfl, rfl⟩

theorem Notifies.moves (notifies : monitor.Notifies) (onSleep : monitor.onSleep = true)
    (onWake : monitor.onWake = true) (moves : monitor.Moves after) : after.Notifies := by
  have balance := notifies.balance
  cases moves with
  | stays => exact notifies
  | sleeps awake gone duration reason now =>
    simp only [awake, State.excess] at balance
    simp only [transitionToSleeping, onSleep, if_true]
    refine ⟨alternates_snoc notifies.alternates ?_, ?_, ?_, fun sleeping => ?_⟩
    · exact iff_of_true rfl (notifies.turn.mpr awake)
    · simp only [sleeps_onSleep, wakes_onSleep, List.length_append, List.length_singleton,
        State.excess]
      omega
    · simp only [sleeps_onSleep, List.getLast?_concat]
    · cases sleeping
  | returns sleeping =>
    rw [sleeping] at balance
    exact ⟨notifies.alternates, balance, notifies.latest, State.noConfusion⟩
  | wakes asleep =>
    have one : ((sleeps monitor.notified).length : Int) - wakes monitor.notified = 1 := by
      rw [balance]
      cases state : monitor.state with
      | awake => exact absurd state asleep
      | sleeping => rfl
      | waking => rfl
    simp only [onWake, if_true]
    refine ⟨alternates_snoc notifies.alternates ?_, ?_, ?_, fun _ => rfl⟩
    · exact iff_of_false Bool.false_ne_true (fun turn => asleep (notifies.turn.mp turn))
    · simp only [sleeps_onWake, wakes_onWake, State.excess]
      omega
    · simp only [sleeps_onWake, notifies.latest]

end

/-! ## Runs -/

section

variable {monitor : SleepWakeMonitor φ}

theorem callbacks_run (calls : List (Call φ)) :
    (run monitor calls).onSleep = monitor.onSleep ∧ (run monitor calls).onWake = monitor.onWake := by
  induction calls using List.reverseRecOn with
  | nil => exact ⟨rfl, rfl⟩
  | append_singleton calls call inductionHypothesis =>
    obtain ⟨onSleep, onWake⟩ := (moves_apply (run monitor calls) call).callbacks
    rw [run_snoc, onSleep, onWake]
    exact inductionHypothesis

theorem notifies_run (notifies : monitor.Notifies) (onSleep : monitor.onSleep = true)
    (onWake : monitor.onWake = true) (calls : List (Call φ)) : (run monitor calls).Notifies := by
  induction calls using List.reverseRecOn with
  | nil => exact notifies
  | append_singleton calls call inductionHypothesis =>
    obtain ⟨onSleep', onWake'⟩ := callbacks_run calls
    rw [run_snoc]
    exact inductionHypothesis.moves (onSleep'.trans onSleep) (onWake'.trans onWake)
      (moves_apply _ call)

end

theorem notifications_alternate (portPath : Option Str)
    (sleepPatterns wakePatterns : List SleepPattern) (calls : List (Call φ)) :
    (run (observed portPath sleepPatterns wakePatterns) calls).Notifies := by
  refine notifies_run ⟨?_, rfl, rfl, fun _ => rfl⟩ rfl rfl calls
  intro i notice here
  cases here

end EmbeddedBridge.Python.SleepWakeMonitor
