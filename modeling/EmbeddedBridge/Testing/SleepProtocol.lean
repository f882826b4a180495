import EmbeddedBridge.Library.Traces
import EmbeddedBridge.Testing.Session

/-! # The sleep protocol

What a test session may do around a sleep of the device, as a transition system over
its events.  A `SLEEP:` marker is acknowledged and the transport closed; then the
session waits until the device sleeps, until it no longer does, and until a
connection has been made and greeted.  Only then does it read on.  Once the test has
stopped nothing else is done.

`safe_of_run` says what this comes to for a whole trace.
-/

namespace EmbeddedBridge.Python.SleepProtocol

open Library Py Traces

inductive Phase where
  | reading
  | acking
  | leaving
  | awaitingSleep
  | awaitingWake
  | waking
  | reconnecting
  | greeting
  | stopped
deriving DecidableEq, Repr

def IsSleep (payload : Str) : Prop := (str "SLEEP:").isPrefixOf payload = true

instance (payload : Str) : Decidable (IsSleep payload) := inferInstanceAs (Decidable (_ = _))

def stopMarker (testId : Str) : Str := str "TEST_STOPPED:" ++ testId

theorem not_isSleep_stopMarker (testId : Str) : ¬ IsSleep (stopMarker testId) :=
  Bool.false_ne_true

def sleeping : Str := str "sleeping"

variable {φ : Type} {testId : Str}

inductive Step (testId : Str) : Phase → Event φ → Phase → Prop where
  | read : Step testId .reading .read .reading
  | marker {payload : Str} (other : ¬ IsSleep payload) (goesOn : payload ≠ stopMarker testId) :
      Step testId .reading (.marker payload) .reading
  | stop : Step testId .reading (.marker (stopMarker testId)) .stopped
  | sleep {payload : Str} (isSleep : IsSleep payload) :
      Step testId .reading (.marker payload) .acking
  | ack {done : Bool} : Step testId .acking (.write ACK done) .leaving
  | leave {done : Bool} : Step testId .leaving (.disconnect done) .awaitingSleep
  | stillAwake {start : φ} : Step testId .awaitingSleep (.elapsed (some start)) .awaitingSleep
  | notAsleep {state : Str} (other : state ≠ sleeping) :
      Step testId .awaitingSleep (.answer state) .awaitingSleep
  | asleep : Step testId .awaitingSleep (.answer sleeping) .awaitingWake
  | stillAsleep {start : φ} : Step testId .awaitingWake (.elapsed (some start)) .awaitingWake
  | notAwake : Step testId .awaitingWake (.answer sleeping) .awaitingWake
  | awake {state : Str} (other : state ≠ sleeping) :
      Step testId .awaitingWake (.answer state) .waking
  | slept {start : φ} : Step testId .waking (.elapsed (some start)) .waking
  | reconnect : Step testId .waking .reconnect .reconnecting
  | close {done : Bool} : Step testId .reconnecting (.disconnect done) .reconnecting
  | unconnected : Step testId .reconnecting (.connect false) .reconnecting
  | connected : Step testId .reconnecting (.connect true) .greeting
  | ungreeted : Step testId .greeting (.write SOH false) .reconnecting
  | greeted : Step testId .greeting (.write SOH true) .reading

/-- A run does not end while a `SLEEP:` marker is being answered. -/
def Phase.Settled (phase : Phase) : Prop := phase ≠ .acking ∧ phase ≠ .leaving

/-- From the marker on until the session reconnects. -/
def Phase.Asleep (phase : Phase) : Prop :=
  phase ∈ [.acking, .leaving, .awaitingSleep, .awaitingWake, .waking]

def Phase.Confirmed (phase : Phase) : Prop := phase ∈ [.awaitingWake, .waking]

def Phase.Reconnecting (phase : Phase) : Prop := phase ∈ [.reconnecting, .greeting]

/-! ## Into a phase -/

section Steps

variable {source target : Phase} {event : Event φ}

theorem into_asleep (one : Step testId source event target) (outside : ¬ source.Asleep)
    (inside : target.Asleep) :
    ∃ payload, event = .marker payload ∧ IsSleep payload ∧ target = .acking := by
  cases one <;> simp_all [Phase.Asleep]

theorem into_confirmed (one : Step testId source event target) (outside : ¬ source.Confirmed)
    (inside : target.Confirmed) : event = .answer sleeping ∧ target = .awaitingWake := by
  cases one <;> simp_all [Phase.Confirmed]

theorem into_waking (one : Step testId source event .waking) (outside : source ≠ .waking) :
    ∃ state, event = .answer state ∧ state ≠ sleeping := by
  cases one <;> simp_all

theorem into_reconnecting (one : Step testId source event target) (outside : ¬ source.Reconnecting)
    (inside : target.Reconnecting) : event = .reconnect := by
  cases one <;> simp_all [Phase.Reconnecting]

theorem into_greeting (one : Step testId source event .greeting) : event = .connect true := by
  cases one
  rfl

theorem into_reading (one : Step testId source event .reading) (outside : source ≠ .reading) :
    source = .greeting ∧ event = .write SOH true := by
  cases one <;> simp_all

theorem into_acking (one : Step testId source event .acking) :
    ∃ payload, event = .marker payload ∧ IsSleep payload := by
  cases one with
  | sleep isSleep => exact ⟨_, rfl, isSleep⟩

theorem not_marker_asleep {payload : Str} (inside : source.Asleep) :
    ¬ Step testId source (.marker payload : Event φ) target := by
  intro one
  cases one <;> simp_all [Phase.Asleep]

end Steps

/-! ## Safety -/

/-- The events after a `SLEEP:` marker and its answer: nothing is read until a
reconnection has connected and greeted the device, and nothing is acknowledged
before the next such marker. -/
structure Quiet (events : List (Event φ)) : Prop where
  unread : ∀ before after, events = before ++ .read :: after →
    ∃ asleep woken awake, before = asleep ++ .reconnect :: woken ++
      .connect true :: .write SOH true :: awake
  unacked : ∀ before done after, events = before ++ .write ACK done :: after →
    ∃ asleep payload, before = asleep ++ [.marker payload] ∧ IsSleep payload

structure Safe (trace : List (Event φ)) : Prop where
  /-- A `SLEEP:` marker is acknowledged and the transport closed at once. -/
  answered : ∀ before payload after, trace = before ++ .marker payload :: after → IsSleep payload →
    ∃ acked left later, after = .write ACK acked :: .disconnect left :: later ∧ Quiet later
  /-- A reconnection follows a sleep that was confirmed and has ended since. -/
  confirmed : ∀ before after, trace = before ++ .reconnect :: after →
    ∃ earlier payload marked slept state woken, before = earlier ++ .marker payload :: (marked ++
      .answer sleeping :: (slept ++ .answer state :: woken)) ∧ IsSleep payload ∧ state ≠ sleeping ∧
      ∀ other, .marker other ∉ marked ++ slept ++ woken
  /-- Times of sleep are computed from a start. -/
  started : ∀ start, .elapsed start ∈ trace → start ≠ none

/-- The test has stopped exactly when its marker has been consumed. -/
theorem stopped_iff {trace : List (Event φ)} {last : Phase}
    (ran : Run (Step testId) .reading trace last) :
    .marker (stopMarker testId) ∈ trace ↔ last = .stopped := by
  constructor
  · intro member
    obtain ⟨before, after, split⟩ := List.append_of_mem member
    rw [split] at ran
    obtain ⟨source, target, _, one, rest⟩ := run_around ran
    cases one with
    | marker other goesOn => exact absurd rfl goesOn
    | sleep isSleep => exact absurd isSleep (not_isSleep_stopMarker testId)
    | stop =>
      -- nothing follows
      cases rest with
      | nil => rfl
      | cons one rest => cases one
  · intro stopped
    subst stopped
    obtain ⟨before, event, source, split, _, one⟩ := run_last ran (by simp)
    cases one
    rw [split]
    exact List.mem_append_right _ List.mem_cons_self

/-- What comes before something is read after a sleep: the last step into reading is
the greeting, after the connection, and before that the session has begun to
reconnect. -/
theorem greeted_of_run {before after : List (Event φ)} {last : Phase}
    (ran : Run (Step testId) .awaitingSleep (before ++ .read :: after) last) :
    ∃ asleep woken awake, before = asleep ++ .reconnect :: woken ++
      .connect true :: .write SOH true :: awake := by
  obtain ⟨source, target, ranBefore, one, _⟩ := run_around ran
  cases one
  obtain ⟨earlier, event, awake, source, target, split, ranEarlier, outside, one, inside, rest,
    _⟩ := run_enters (· = .reading) ranBefore (by simp) rfl
  subst inside
  obtain ⟨greets, written⟩ := into_reading one outside
  subst greets
  obtain ⟨between, connected, source, split', ranBetween, one'⟩ := run_last ranEarlier (by simp)
  have connects := into_greeting one'
  have from' : source = .reconnecting := by
    rw [connects] at one'
    cases one'
    rfl
  subst from'
  obtain ⟨asleep, begins, woken, source, target, split'', _, outside', one'', inside', _, _⟩ :=
    run_enters Phase.Reconnecting ranBetween (by simp [Phase.Reconnecting])
      (by simp [Phase.Reconnecting])
  have reconnects := into_reconnecting one'' outside' inside'
  refine ⟨asleep, woken, awake, ?_⟩
  rw [split, split', split'', written, connects, reconnects]
  simp

theorem quiet_of_run {events : List (Event φ)} {last : Phase}
    (ran : Run (Step testId) .awaitingSleep events last) : Quiet events := by
  constructor
  · intro before after split
    rw [split] at ran
    exact greeted_of_run ran
  · intro before done after split
    rw [split] at ran
    obtain ⟨source, target, ranBefore, one, _⟩ := run_around ran
    cases one
    obtain ⟨asleep, event, source, split', _, one⟩ := run_last ranBefore (by simp)
    obtain ⟨payload, isMarker, isSleep⟩ := into_acking one
    exact ⟨asleep, payload, by rw [split', isMarker], isSleep⟩

/-- A run that does not end there goes on to acknowledge and to leave. -/
theorem answered_of_run {before after : List (Event φ)} {payload : Str} {last : Phase}
    (ran : Run (Step testId) .reading (before ++ .marker payload :: after) last)
    (settled : last.Settled) (isSleep : IsSleep payload) :
    ∃ acked left later, after = .write ACK acked :: .disconnect left :: later ∧ Quiet later := by
  obtain ⟨source, target, _, one, rest⟩ := run_around ran
  cases one with
  | marker other goesOn => exact absurd isSleep other
  | stop => exact absurd isSleep (not_isSleep_stopMarker testId)
  | sleep _ =>
    cases rest with
    | nil => exact absurd rfl settled.1
    | cons one rest =>
      cases one with
      | ack =>
        cases rest with
        | nil => exact absurd rfl settled.2
        | cons one rest =>
          cases one with
          | leave => exact ⟨_, _, _, rfl, quiet_of_run rest⟩

/-- Before a reconnection the session has come from reading to sleep, from there to a
confirmed sleep, and from there to waking. -/
theorem confirmed_of_run {before after : List (Event φ)} {last : Phase}
    (ran : Run (Step testId) .reading (before ++ .reconnect :: after) last) :
    ∃ earlier payload marked slept state woken, before = earlier ++ .marker payload :: (marked ++
      .answer sleeping :: (slept ++ .answer state :: woken)) ∧ IsSleep payload ∧ state ≠ sleeping ∧
      ∀ other, .marker other ∉ marked ++ slept ++ woken := by
  obtain ⟨source, target, ranBefore, one, _⟩ := run_around ran
  cases one
  obtain ⟨earlier, event, later, source, target, split, _, outside, one, inside, rest, stays⟩ :=
    run_enters Phase.Asleep ranBefore (by simp [Phase.Asleep]) (by simp [Phase.Asleep])
  obtain ⟨payload, isMarker, isSleep, acks⟩ := into_asleep one outside inside
  subst acks
  obtain ⟨marked, event', later', source', target', split', _, outside', one', inside', rest',
    _⟩ := run_enters Phase.Confirmed rest (by simp [Phase.Confirmed]) (by simp [Phase.Confirmed])
  obtain ⟨confirms, waits⟩ := into_confirmed one' outside' inside'
  subst waits
  obtain ⟨slept, event'', woken, source'', target'', split'', _, outside'', one'', inside'', _,
    _⟩ := run_enters (· = .waking) rest' (by simp) rfl
  subst inside''
  obtain ⟨state, answers, other⟩ := into_waking one'' outside''
  refine ⟨earlier, payload, marked, slept, state, woken, ?_, isSleep, other, ?_⟩
  · rw [split, split', split'', isMarker, confirms, answers]
  · -- while asleep no marker is consumed
    intro payload' member
    have among : .marker payload' ∈ later := by
      rw [split', split'']
      simp only [List.mem_append, List.mem_cons] at member ⊢
      tauto
    obtain ⟨left, right, insideLeft, _, one⟩ := stays _ among
    exact not_marker_asleep insideLeft one

/-- What a run of the protocol says of its trace. -/
theorem safe_of_run {trace : List (Event φ)} {last : Phase}
    (ran : Run (Step testId) .reading trace last) (settled : last.Settled) : Safe trace := by
  refine ⟨?_, ?_, ?_⟩
  · intro before payload after split isSleep
    rw [split] at ran
    exact answered_of_run ran settled isSleep
  · intro before after split
    rw [split] at ran
    exact confirmed_of_run ran
  · intro start member
    obtain ⟨source, target, one⟩ := run_mem ran member
    cases one <;> exact Option.some_ne_none _

end EmbeddedBridge.Python.SleepProtocol
