import EmbeddedBridge.Library.Histories
import EmbeddedBridge.Receivers.SleepWake

/-! # How the monitor follows the port

While the device is not awake, `port_was_gone` says how that began: by a check that found
no port, or by a sleep pattern (`portWasGone_eq`).  It is not set when the port goes after a
pattern, and nothing is done when the port goes again while the device is waking; where
neither happens, the monitor follows the port.
-/

namespace EmbeddedBridge.Python.SleepWakeMonitor

open Library Py Histories

variable {φ : Type}

/-! ## One call -/

section

variable {monitor : SleepWakeMonitor φ} (portExists : Bool) (now : φ)
  (hasPort : monitor.portPath ≠ none)

include hasPort

theorem checkPort_awake (awake : monitor.state = .awake) :
    (monitor.checkPort portExists now).state = (if portExists then .awake else .sleeping) ∧
      (monitor.checkPort portExists now).portWasGone = (monitor.portWasGone || !portExists) := by
  rw [checkPort, if_neg hasPort]
  cases portExists with
  | false => simp [awake, transitionToSleeping]
  | true => simp [awake]

theorem checkPort_sleeping (sleeping : monitor.state = .sleeping) :
    (monitor.checkPort portExists now).state =
        (if portExists ∧ monitor.portWasGone then .waking else .sleeping) ∧
      (monitor.checkPort portExists now).portWasGone = monitor.portWasGone := by
  rw [checkPort, if_neg hasPort]
  by_cases back : portExists ∧ monitor.portWasGone
  · simp [sleeping, back]
  · simp [sleeping, back]

theorem checkPort_waking (waking : monitor.state = .waking) :
    monitor.checkPort portExists now = monitor := by
  rw [checkPort, if_neg hasPort]
  simp [waking]

end

variable [PyFloat φ]

section

variable {monitor : SleepWakeMonitor φ} (message : Line) (now : φ)

theorem feed_awake (awake : monitor.state = .awake) :
    ((monitor.feed message now).state = .awake ∨ (monitor.feed message now).state = .sleeping) ∧
      (monitor.feed message now).portWasGone = monitor.portWasGone := by
  simp only [feed, awake, checkSleepPatterns]
  split
  · exact ⟨.inl awake, rfl⟩
  · exact ⟨.inr rfl, rfl⟩

theorem feed_asleep (asleep : monitor.state ≠ .awake) :
    ((monitor.feed message now).state = .awake ∧ (monitor.feed message now).portWasGone = false) ∨
      monitor.feed message now = monitor := by
  have wakes : monitor.feed message now = monitor.checkWakePatterns message.text := by
    rw [feed]
    split
    · rename_i awake
      exact absurd awake asleep
    · rfl
    · rfl
  rw [wakes, checkWakePatterns]
  split
  · exact .inl ⟨rfl, rfl⟩
  · exact .inr rfl

end

variable (monitor : SleepWakeMonitor φ)

section

variable {monitor} {calls : List (Call φ)} {call : Call φ}

theorem run_snoc : run monitor (calls ++ [call]) = (run monitor calls).apply call :=
  List.foldl_concat ..

theorem apply_portPath : (monitor.apply call).portPath = monitor.portPath := by
  cases call with
  | feed message now =>
    simp only [apply, feed, checkSleepPatterns, checkWakePatterns, transitionToSleeping]
    split
    · split <;> rfl
    all_goals split <;> rfl
  | checkPort portExists now =>
    simp only [apply, checkPort, transitionToSleeping]
    split
    · rfl
    · split
      · rfl
      · split <;> rfl

variable (monitor calls) in
theorem run_portPath : (run monitor calls).portPath = monitor.portPath := by
  induction calls using List.reverseRecOn with
  | nil => rfl
  | append_singleton calls call inductionHypothesis =>
    rw [run_snoc, apply_portPath, inductionHypothesis]

end

/-! ## How the sleep began -/

def IsAwake (calls : List (Call φ)) : Prop := (run monitor.reset calls).state = .awake

def Call.isCheck : Call φ → Bool
  | .feed _ _ => false
  | .checkPort _ _ => true

/-- What `port_was_gone` is after any calls: whether it was a check that left the awake
state. -/
structure Tracked (calls : List (Call φ)) : Prop where
  awake : (run monitor.reset calls).state = .awake → (run monitor.reset calls).portWasGone = false
  waking : (run monitor.reset calls).state = .waking → (run monitor.reset calls).portWasGone = true
  left : (run monitor.reset calls).state ≠ .awake → ∃ past first rest,
    Since monitor.IsAwake calls past (first :: rest) ∧
      (run monitor.reset calls).portWasGone = first.isCheck

variable {monitor} {calls : List (Call φ)} {call : Call φ}

/-- A call that leaves the awake state. -/
theorem tracked_leaves (awake : monitor.IsAwake calls)
    (sleeping : (run monitor.reset (calls ++ [call])).state = .sleeping)
    (flag : (run monitor.reset (calls ++ [call])).portWasGone = call.isCheck) :
    monitor.Tracked (calls ++ [call]) where
  awake isAwake := by simp [sleeping] at isAwake
  waking isWaking := by simp [sleeping] at isWaking
  left asleep := ⟨calls, call, [], since_snoc (since_now awake) asleep, flag⟩

/-- A call that stays outside. -/
theorem tracked_stays (tracked : monitor.Tracked calls) (asleep : ¬ monitor.IsAwake calls)
    (asleep' : (run monitor.reset (calls ++ [call])).state ≠ .awake)
    (flag : (run monitor.reset (calls ++ [call])).portWasGone =
      (run monitor.reset calls).portWasGone)
    (waking : (run monitor.reset (calls ++ [call])).state = .waking →
      (run monitor.reset calls).portWasGone = true) :
    monitor.Tracked (calls ++ [call]) where
  awake isAwake := absurd isAwake asleep'
  waking isWaking := flag.trans (waking isWaking)
  left _ := by
    obtain ⟨past, first, rest, since, began⟩ := tracked.left asleep
    exact ⟨past, first, rest ++ [call], since_snoc since asleep', flag.trans began⟩

/-- A call after which it is awake. -/
theorem tracked_wakes (awake : (run monitor.reset (calls ++ [call])).state = .awake)
    (flag : (run monitor.reset (calls ++ [call])).portWasGone = false) :
    monitor.Tracked (calls ++ [call]) where
  awake _ := flag
  waking isWaking := by simp [awake] at isWaking
  left asleep := absurd awake asleep

theorem tracked_feed (tracked : monitor.Tracked calls) (message : Line) (now : φ) :
    monitor.Tracked (calls ++ [.feed message now]) := by
  have step : run monitor.reset (calls ++ [.feed message now]) =
      (run monitor.reset calls).feed message now := run_snoc
  by_cases awake : monitor.IsAwake calls
  · obtain ⟨state, flag⟩ := feed_awake message now awake
    rw [tracked.awake awake] at flag
    cases state with
    | inl stays => exact tracked_wakes (by rw [step, stays]) (by rw [step, flag])
    | inr sleeps => exact tracked_leaves awake (by rw [step, sleeps]) (by rw [step, flag]; rfl)
  · cases feed_asleep message now awake with
    | inl wakes => exact tracked_wakes (by rw [step, wakes.1]) (by rw [step, wakes.2])
    | inr same =>
      rw [same] at step
      refine tracked_stays tracked awake (by rwa [step]) (by rw [step]) ?_
      rw [step]
      exact tracked.waking

theorem tracked_check (tracked : monitor.Tracked calls) (hasPort : monitor.portPath ≠ none)
    (portExists : Bool) (now : φ) : monitor.Tracked (calls ++ [.checkPort portExists now]) := by
  have step : run monitor.reset (calls ++ [.checkPort portExists now]) =
      (run monitor.reset calls).checkPort portExists now := run_snoc
  have hasPort' : (run monitor.reset calls).portPath ≠ none := by rwa [run_portPath]
  cases before : (run monitor.reset calls).state with
  | awake =>
    obtain ⟨state, flag⟩ := checkPort_awake portExists now hasPort' before
    rw [tracked.awake before] at flag
    cases portExists with
    | false => exact tracked_leaves before (by rw [step, state]; rfl) (by rw [step, flag]; rfl)
    | true => exact tracked_wakes (by rw [step, state]; rfl) (by rw [step, flag]; rfl)
  | sleeping =>
    obtain ⟨state, flag⟩ :=
      checkPort_sleeping portExists now hasPort' before
    -- waking, if the port is back after a check that left the awake state
    have asleep : ¬ monitor.IsAwake calls := by simp [IsAwake, before]
    refine tracked_stays tracked asleep ?_ (by rw [step, flag]) ?_
    · rw [step, state]
      split <;> simp
    · rw [step, state]
      split
      · rename_i back
        exact fun _ => back.2
      · intro waking
        cases waking
  | waking =>
    -- whether or not the port is there
    rw [checkPort_waking portExists now hasPort' before] at step
    have asleep : ¬ monitor.IsAwake calls := by simp [IsAwake, before]
    refine tracked_stays tracked asleep (by rwa [step]) (by rw [step]) ?_
    rw [step]
    exact tracked.waking

theorem tracked_run (hasPort : monitor.portPath ≠ none) (calls : List (Call φ)) :
    monitor.Tracked calls := by
  induction calls using List.reverseRecOn with
  | nil =>
    exact ⟨fun _ => rfl, fun waking => State.noConfusion waking, fun asleep => absurd rfl asleep⟩
  | append_singleton calls call inductionHypothesis =>
    cases call with
    | feed message now => exact tracked_feed inductionHypothesis message now
    | checkPort portExists now => exact tracked_check inductionHypothesis hasPort portExists now

/-! ## Following the port -/

variable (monitor)

/-- Since the monitor was last awake, a check has found no port. -/
def GoneSince (calls : List (Call φ)) : Prop :=
  ∃ past recent now, Since monitor.IsAwake calls past recent ∧ .checkPort false now ∈ recent

/-- It was a line with a sleep pattern after which the monitor was no longer awake. -/
def Announced (calls : List (Call φ)) : Prop :=
  ∃ past message now rest, Since monitor.IsAwake calls past (.feed message now :: rest)

/-- What a check says of the port, the monitor's state agrees with. -/
def Follows (before : List (Call φ)) : Call φ → Prop
  | .feed _ _ => True
  | .checkPort false now => (run monitor.reset (before ++ [.checkPort false now])).state = .sleeping
  | .checkPort true now => monitor.GoneSince before →
      (run monitor.reset (before ++ [.checkPort true now])).state ≠ .sleeping

/-- The port goes while the device is waking, or comes back in a sleep that was announced
before the port went. -/
def Misses (before : List (Call φ)) : Call φ → Prop
  | .feed _ _ => False
  | .checkPort false _ => (run monitor.reset before).state = .waking
  | .checkPort true _ => (run monitor.reset before).state = .sleeping ∧
      monitor.Announced before ∧ monitor.GoneSince before

variable {monitor}

theorem announced_iff (hasPort : monitor.portPath ≠ none) (asleep : ¬ monitor.IsAwake calls) :
    monitor.Announced calls ↔ (run monitor.reset calls).portWasGone = false := by
  obtain ⟨past, first, rest, since, began⟩ := (tracked_run hasPort calls).left asleep
  rw [began]
  constructor
  · intro announced
    obtain ⟨past', message, now, rest', since'⟩ := announced
    cases (since_unique since since').2
    rfl
  · intro byLine
    cases first with
    | feed message now => exact ⟨past, message, now, rest, since⟩
    | checkPort portExists now => cases byLine

theorem follows_gone (hasPort : monitor.portPath ≠ none) (now : φ) :
    monitor.Follows calls (.checkPort false now) ↔
      ¬ monitor.Misses calls (.checkPort false now) := by
  have hasPort' : (run monitor.reset calls).portPath ≠ none := by rwa [run_portPath]
  simp only [Follows, Misses, run_snoc, apply]
  cases before : (run monitor.reset calls).state with
  | awake => simp [(checkPort_awake _ now hasPort' before).1]
  | sleeping => simp [(checkPort_sleeping _ now hasPort' before).1]
  | waking => simp [checkPort_waking _ now hasPort' before, before]

theorem follows_back (hasPort : monitor.portPath ≠ none) (now : φ) :
    monitor.Follows calls (.checkPort true now) ↔
      ¬ monitor.Misses calls (.checkPort true now) := by
  have hasPort' : (run monitor.reset calls).portPath ≠ none := by rwa [run_portPath]
  simp only [Follows, Misses, run_snoc, apply]
  cases before : (run monitor.reset calls).state with
  | awake => simp [(checkPort_awake _ now hasPort' before).1]
  | sleeping =>
    have asleep : ¬ monitor.IsAwake calls := by simp [IsAwake, before]
    -- the flag, which decides, is not set exactly when the sleep was announced
    rw [(checkPort_sleeping _ now hasPort' before).1, announced_iff hasPort asleep]
    cases flag : (run monitor.reset calls).portWasGone with
    | false => simp
    | true => simp
  | waking => simp [checkPort_waking _ now hasPort' before, before]

theorem port_followed_iff (hasPort : monitor.portPath ≠ none) (calls : List (Call φ)) :
    Everywhere monitor.Follows calls ↔
      Everywhere (fun before call => ¬ monitor.Misses before call) calls := by
  apply everywhere_congr
  intro before call
  cases call with
  | feed message now => exact iff_of_true trivial not_false
  | checkPort portExists now =>
    cases portExists with
    | false => exact follows_gone hasPort now
    | true => exact follows_back hasPort now

def onPort : SleepWakeMonitor Micro := { portPath := some (str "/dev/ttyACM0") }

/-- The port goes, comes back and goes again. -/
def goneAgain : List (Call Micro) :=
  [.checkPort false ⟨0⟩, .checkPort true ⟨1000000⟩, .checkPort false ⟨2000000⟩]

theorem port_followed_iff_goneAgain :
    Everywhere onPort.Follows goneAgain ↔
      Everywhere (fun before call => ¬ onPort.Misses before call) goneAgain :=
  port_followed_iff (by decide) goneAgain

/-- After which the monitor still takes the device for waking. -/
theorem port_not_followed : ¬ Everywhere onPort.Follows goneAgain := by
  intro follows
  have sleeping := follows [.checkPort false ⟨0⟩, .checkPort true ⟨1000000⟩]
    (.checkPort false ⟨2000000⟩) [] rfl
  cases sleeping

end EmbeddedBridge.Python.SleepWakeMonitor
