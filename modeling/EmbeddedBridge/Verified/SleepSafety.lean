import EmbeddedBridge.Testing.SleepProtocol

/-! # Monitoring follows the sleep protocol

Every run of `monitor`, whatever its environment answers, is a run of the sleep
protocol.  Each method has its triple: in which phase it starts and in which it
returns; wherever it stops, the phase is settled.  The variables of `monitor` say
what the phase is between two turns of its loop.
-/

namespace EmbeddedBridge.Python.TestSession

open Library Py Traces Methods SleepProtocol

variable {φ ω α : Type} {testId : Str}

/-- The phase of the protocol that a session is in. -/
def At (testId : Str) (phase : Phase) (session : TestSession φ ω) : Prop :=
  Run (Step testId) .reading session.trace phase

/-- Wherever a run stops, it is settled. -/
def Stopped (testId : Str) (_ : Stop) (session : TestSession φ ω) : Prop :=
  ∃ phase, At testId phase session ∧ phase.Settled

/-- Nothing of it is seen. -/
def Silent (before after : TestSession φ ω) : Prop := after.trace = before.trace

theorem silent_refl (session : TestSession φ ω) : Silent session session := rfl

theorem silent_trans (first second third : TestSession φ ω) (here : Silent first second)
    (later : Silent second third) : Silent first third := later.trans here

/-! ## Silent methods -/

theorem perform_silent (action : ω → α × ω) :
    Preserves Silent (perform action : Method φ ω α) := fun _ => rfl

theorem orRaise_silent (result : Except Raised α) :
    Preserves Silent (orRaise result : Method φ ω α) := by
  cases result with
  | ok value => exact .ofPure silent_refl value
  | error error => exact .ofThrow silent_refl _

theorem takeLine_silent : Preserves Silent (takeLine : Method φ ω (Option Str)) := by
  intro session
  unfold takeLine
  rw [run_bind_ok _ (run_get _)]
  cases partition 0x0A session.lineBuf with
  | none => rfl
  | some parts => rfl

theorem decode_silent (data : List UInt8) : Preserves Silent (decode data : Method φ ω Unit) :=
  .ofModify fun _ => rfl

variable (env : Environment φ ω)

theorem sleep_silent (seconds : φ) : Preserves Silent (sleep env seconds) := by
  refine Preserves.bind silent_trans (perform_silent _) fun done => ?_
  cases done with
  | true => exact .ofPure silent_refl _
  | false => exact .ofThrow silent_refl _

theorem askSleepState_silent (detector : Option (ω → Option Str × ω)) :
    Preserves Silent (askSleepState env detector) := by
  unfold askSleepState
  cases detector with
  | some detector =>
    refine Preserves.bind silent_trans (perform_silent _) fun answer => ?_
    cases answer with
    | some state => exact .ofPure silent_refl _
    | none => exact .ofThrow silent_refl _
  | none =>
    refine Preserves.bind silent_trans (perform_silent _) fun answer => ?_
    cases answer with
    | none => exact .ofThrow silent_refl _
    | some portPath =>
      cases portPath with
      | none => exact .ofPure silent_refl _
      | some path =>
        cases path with
        | nil => exact .ofPure silent_refl _
        | cons first path =>
          refine Preserves.bind silent_trans (perform_silent _) fun present => ?_
          cases present with
          | true => exact .ofPure silent_refl _
          | false => exact .ofPure silent_refl _

/-! ## Triples -/

section Triples

variable {phase next : Phase}

theorem ensures_emit {event : Event φ} {raised : Stop → TestSession φ ω → Prop}
    (one : Step testId phase event next) :
    Ensures (At testId phase) (emit event : Method φ ω Unit) (fun _ => At testId next) raised :=
  fun _ reached => run_snoc reached one

theorem ensures_perform (action : ω → α × ω) {raised : Stop → TestSession φ ω → Prop} :
    Ensures (At testId phase) (perform action : Method φ ω α) (fun _ => At testId phase) raised :=
  fun _ reached => reached

/-- A method that nothing is seen of, in a phase where it may stop. -/
theorem ensures_silent {method : Method φ ω α} (silent : Preserves Silent method)
    (settled : phase.Settled) :
    Ensures (At testId phase) method (fun _ => At testId phase) (Stopped testId) := by
  have kept : ∀ before after : TestSession φ ω, Silent before after → At testId phase before →
      At testId phase after := by
    intro before after same reached
    rw [At, same]
    exact reached
  exact (silent.ensures kept).weaken (fun _ reached => reached) (fun _ _ reached => reached)
    fun _ _ reached => ⟨phase, reached, settled⟩

theorem ensures_write (data : List UInt8) {raised : Stop → TestSession φ ω → Prop}
    (after : Bool → Phase)
    (one : ∀ done, Step testId phase (.write data done : Event φ) (after done)) :
    Ensures (At testId phase) (write env data) (fun done => At testId (after done)) raised :=
  (ensures_perform _).bind fun done => (ensures_emit (one done)).bind fun _ =>
    .ofPure fun _ reached => reached

theorem ensures_connect {raised : Stop → TestSession φ ω → Prop} (after : Bool → Phase)
    (one : ∀ done, Step testId phase (.connect done : Event φ) (after done)) :
    Ensures (At testId phase) (connect env) (fun done => At testId (after done)) raised :=
  (ensures_perform _).bind fun done => (ensures_emit (one done)).bind fun _ =>
    .ofPure fun _ reached => reached

theorem ensures_disconnect {raised : Stop → TestSession φ ω → Prop}
    (one : ∀ done, Step testId phase (.disconnect done : Event φ) next) :
    Ensures (At testId phase) (disconnect env) (fun _ => At testId next) raised :=
  (ensures_perform _).bind fun done => (ensures_emit (one done)).bind fun _ =>
    .ofPure fun _ reached => reached

theorem ensures_read (timeout : φ) :
    Ensures (At testId .reading) (read env timeout) (fun _ => At testId .reading)
      (Stopped testId) :=
  (ensures_perform _).bind fun _ => (ensures_emit .read).bind fun _ =>
    .ofPure fun _ reached => reached

theorem ensures_checkSleepState (detector : Option (ω → Option Str × ω)) (after : Str → Phase)
    (settled : phase.Settled)
    (one : ∀ state, Step testId phase (.answer state : Event φ) (after state)) :
    Ensures (At testId phase) (checkSleepState env detector)
      (fun state => At testId (after state)) (Stopped testId) :=
  (ensures_silent (askSleepState_silent env detector) settled).bind fun state =>
    (ensures_emit (one state)).bind fun _ => .ofPure fun _ reached => reached

end Triples

theorem settled_reading : Phase.reading.Settled := by simp [Phase.Settled]

/-! ## Between turns -/

def Monitor.phase (monitor : Monitor φ) : Phase :=
  if monitor.sleeping then (if monitor.sleepConfirmed then .awaitingWake else .awaitingSleep)
  else .reading

/-- The variables of `monitor` say what the phase is. -/
structure Monitor.Tracks (testId : Str) (monitor : Monitor φ) (session : TestSession φ ω) :
    Prop where
  reached : At testId monitor.phase session
  started : monitor.sleeping = true → ∃ start, monitor.sleepStartTime = some start
  unconfirmed : monitor.sleeping = false → monitor.sleepConfirmed = false
  unmarked : ¬ monitor.outcome.Marked (str "TEST_STOPPED")

/-- What a returned outcome has to do with the run: it is marked as stopped exactly
when the test has stopped, and else says what went wrong. -/
def Concluded (testId : Str) (outcome : TestOutcome φ) (session : TestSession φ ω) : Prop :=
  ∃ phase, At testId phase session ∧ phase.Settled ∧
    (outcome.Marked (str "TEST_STOPPED") ↔ phase = .stopped) ∧
    (¬ outcome.Marked (str "TEST_STOPPED") → outcome.Failed)

/-- What a turn leaves behind. -/
def Tracked (testId : Str) (turn : Turn φ) (session : TestSession φ ω) : Prop :=
  match turn with
  | .goOn monitor => monitor.Tracks testId session
  | .finished outcome => Concluded testId outcome session

/-- A failure while the test has not stopped. -/
theorem concluded_fail {phase : Phase} {session : TestSession φ ω} {outcome : TestOutcome φ}
    {warning status : Str} (known : status = str "timeout" ∨ status = str "error")
    (unmarked : ¬ outcome.Marked (str "TEST_STOPPED")) (reached : At testId phase session)
    (settled : phase.Settled) (goesOn : phase ≠ .stopped) :
    Concluded testId (outcome.fail warning status) session :=
  ⟨phase, reached, settled, iff_of_false unmarked goesOn,
    fun _ => outcome.failed_fail warning status known⟩

/-- While asleep the monitor is between turns as long as its phase lasts. -/
theorem tracks_asleep (monitor : Monitor φ) {start : φ} (asleep : monitor.sleeping = true)
    (started : monitor.sleepStartTime = some start)
    (unmarked : ¬ monitor.outcome.Marked (str "TEST_STOPPED")) {session : TestSession φ ω}
    (reached : At testId monitor.phase session) : monitor.Tracks testId session := by
  refine ⟨reached, fun _ => ⟨start, started⟩, fun awake => ?_, unmarked⟩
  rw [asleep] at awake
  cases awake

/-- The monitor goes on reading, whatever else it has noted. -/
theorem tracks_reading (monitor : Monitor φ) (outcome : TestOutcome φ)
    (awake : monitor.sleeping = false) (unconfirmed : monitor.sleepConfirmed = false)
    (unmarked : ¬ outcome.Marked (str "TEST_STOPPED")) {session : TestSession φ ω}
    (reached : At testId .reading session) :
    Monitor.Tracks testId { monitor with outcome } session := by
  refine ⟨?_, fun asleep => absurd (awake.symm.trans asleep) Bool.false_ne_true,
    fun _ => unconfirmed, unmarked⟩
  simp only [Monitor.phase, awake]
  exact reached

theorem settled_monitor (monitor : Monitor φ) :
    monitor.phase.Settled ∧ monitor.phase ≠ .stopped := by
  unfold Monitor.phase
  split
  · split <;> simp [Phase.Settled]
  · simp [Phase.Settled]

variable [PyFloat φ]

theorem ensures_readLine (timeout : φ) (fuel : Nat) :
    Ensures (At testId .reading) (readLine env timeout fuel) (fun _ => At testId .reading)
      (Stopped testId) := by
  refine Ensures.bind (ensures_perform _) fun now => ?_
  generalize PyFloat.add now timeout = deadline
  induction fuel with
  | zero => exact .ofThrow fun _ reached => ⟨.reading, reached, settled_reading⟩
  | succ fuel inductionHypothesis =>
    unfold readLineLoop
    refine Ensures.bind (ensures_perform _) fun now => ?_
    refine .ite (fun _ => ?_) fun _ => .ofPure fun _ reached => reached
    refine (ensures_read env _).bind fun data => ?_
    refine .ite (fun _ => ?_) fun _ => ?_
    · refine (ensures_silent takeLine_silent settled_reading).bind fun taken => ?_
      cases taken with
      | none => exact inductionHypothesis
      | some stripped => exact .ofPure fun _ reached => reached
    · refine (ensures_silent (decode_silent data) settled_reading).bind fun _ => ?_
      refine (ensures_silent takeLine_silent settled_reading).bind fun taken => ?_
      cases taken with
      | none => exact inductionHypothesis
      | some stripped =>
        exact .ite (fun _ => .ofPure fun _ reached => reached) fun _ => inductionHypothesis

/-! ## Sleep and wake -/

/-- What a call answers leads on from `phase` when it is `good`, and to `other` else. -/
def onward (good : Bool) (phase other : Phase) : Phase := if good then phase else other

theorem settled_reconnecting : Phase.reconnecting.Settled := by simp [Phase.Settled]

theorem ensures_reconnectAttempts (attempts : Nat) :
    Ensures (At testId .reconnecting) (reconnectAttempts env attempts)
      (fun done => At testId (onward done .reading .reconnecting)) (Stopped testId) := by
  induction attempts with
  | zero => exact .ofPure fun _ reached => reached
  | succ attempts inductionHypothesis =>
    have again : Ensures (At testId .reconnecting)
        (sleep env (PyFloat.literal 1 0) >>= fun _ => reconnectAttempts env attempts)
        (fun done => At testId (onward done .reading .reconnecting)) (Stopped testId) :=
      (ensures_silent (sleep_silent env _) settled_reconnecting).bind fun _ => inductionHypothesis
    unfold reconnectAttempts
    refine (ensures_connect env (fun done => onward done .greeting .reconnecting) ?_).bind ?_
    · intro done
      cases done with
      | true => exact .connected
      | false => exact .unconnected
    intro done
    cases done with
    | false => exact again
    | true =>
      refine (ensures_write env SOH (fun done => onward done .reading .reconnecting) ?_).bind ?_
      · intro done
        cases done with
        | true => exact .greeted
        | false => exact .ungreeted
      intro done
      cases done with
      | false => exact again
      | true => exact .ofPure fun _ reached => reached

theorem ensures_reconnectAfterWake (attempts : Nat) :
    Ensures (At testId .waking) (reconnectAfterWake env attempts)
      (fun done => At testId (onward done .reading .reconnecting)) (Stopped testId) := by
  refine (ensures_emit .reconnect).bind fun _ => ?_
  refine (ensures_disconnect env fun _ => .close).bind fun _ => ?_
  refine (ensures_silent ?_ settled_reconnecting).bind fun _ =>
    ensures_reconnectAttempts env attempts
  exact .ofModify fun _ => rfl

/-! ## Turns -/

theorem ensures_since {phase : Phase} (now start : φ) {raised : Stop → TestSession φ ω → Prop}
    (one : Step testId phase (.elapsed (some start)) phase) :
    Ensures (At testId phase) (since now (some start)) (fun _ => At testId phase) raised :=
  (ensures_emit one).bind fun _ => .ofPure fun _ reached => reached

theorem marked_checkSleepTime (actual : φ) (expected : Option φ) (outcome : TestOutcome φ)
    (name : Str) : (checkSleepTime actual expected outcome).Marked name ↔ outcome.Marked name := by
  unfold checkSleepTime
  cases expected with
  | none => rfl
  | some expected =>
    simp only
    split
    · exact outcome.marked_warn _ name
    split
    · exact outcome.marked_warn _ name
    · rfl

theorem ensures_wakeTurn (monitor : Monitor φ) {start : φ}
    (started : monitor.sleepStartTime = some start)
    (unmarked : ¬ monitor.outcome.Marked (str "TEST_STOPPED")) :
    Ensures (At testId .waking) (wakeTurn env monitor) (Tracked testId) (Stopped testId) := by
  unfold wakeTurn
  refine Ensures.bind (ensures_perform _) fun wakeTime => ?_
  rw [started]
  refine (ensures_since wakeTime start .slept).bind fun actualSleep => ?_
  refine (ensures_reconnectAfterWake env 10).bind fun done => ?_
  have stillUnmarked := (marked_checkSleepTime actualSleep monitor.sleepExpectedS
    { monitor.outcome with sleepActualS := some actualSleep } (str "TEST_STOPPED")).not.mpr unmarked
  cases done with
  | true =>
    exact .ofPure fun session reached => ⟨reached, fun asleep => (by cases asleep), fun _ => rfl,
      stillUnmarked⟩
  | false =>
    exact .ofPure fun session reached => concluded_fail (.inr rfl) stillUnmarked reached
      settled_reconnecting (by simp [onward])

variable (call : Monitoring φ ω)

/-- Before the sleep is confirmed, one answer confirms it. -/
theorem ensures_pollTurn_unconfirmed (elapsed : φ) (monitor : Monitor φ) {start : φ}
    (asleep : monitor.sleeping = true) (started : monitor.sleepStartTime = some start)
    (unmarked : ¬ monitor.outcome.Marked (str "TEST_STOPPED"))
    (unconfirmed : monitor.sleepConfirmed = false) :
    Ensures (At testId .awaitingSleep) (pollTurn env call elapsed monitor) (Tracked testId)
      (Stopped testId) := by
  have settled : Phase.awaitingSleep.Settled := by simp [Phase.Settled]
  have waits : monitor.phase = .awaitingSleep := by simp [Monitor.phase, asleep, unconfirmed]
  unfold pollTurn
  rw [unconfirmed]
  refine (ensures_silent (sleep_silent env _) settled).bind fun _ => ?_
  refine (ensures_checkSleepState env call.sleepDetector
    (fun state => onward (state = sleeping) .awaitingWake .awaitingSleep) settled ?_).bind
      fun state => ?_
  · intro state
    by_cases falls : state = sleeping
    · rw [falls]
      exact .asleep
    · simp only [onward, falls, decide_false]
      exact .notAsleep falls
  by_cases falls : state = sleeping
  · simp only [falls, onward, decide_true, ↓reduceIte]
    refine Ensures.ofPure fun session reached =>
      tracks_asleep { monitor with sleepConfirmed := true } asleep started unmarked ?_
    simpa only [Monitor.phase, asleep, ↓reduceIte] using reached
  · simp only [falls, onward, decide_false, Bool.false_eq_true, ↓reduceIte]
    refine .ite (fun other => absurd other falls) fun _ => .ite (fun _ => ?_) fun _ => ?_
    · exact .ofPure fun session reached =>
        concluded_fail (.inr rfl) unmarked reached settled (by simp)
    · refine Ensures.ofPure fun session reached => tracks_asleep monitor asleep started unmarked ?_
      rw [waits]
      exact reached

/-- After that, one other answer wakes the session. -/
theorem ensures_pollTurn_confirmed (elapsed : φ) (monitor : Monitor φ) {start : φ}
    (asleep : monitor.sleeping = true) (started : monitor.sleepStartTime = some start)
    (unmarked : ¬ monitor.outcome.Marked (str "TEST_STOPPED"))
    (confirmed : monitor.sleepConfirmed = true) :
    Ensures (At testId .awaitingWake) (pollTurn env call elapsed monitor) (Tracked testId)
      (Stopped testId) := by
  have settled : Phase.awaitingWake.Settled := by simp [Phase.Settled]
  have waits : monitor.phase = .awaitingWake := by simp [Monitor.phase, asleep, confirmed]
  unfold pollTurn
  rw [confirmed]
  refine (ensures_silent (sleep_silent env _) settled).bind fun _ => ?_
  refine (ensures_checkSleepState env call.sleepDetector
    (fun state => onward (state = sleeping) .awaitingWake .waking) settled ?_).bind fun state => ?_
  · intro state
    by_cases stays : state = sleeping
    · rw [stays]
      exact .notAwake
    · simp only [onward, stays, decide_false]
      exact .awake stays
  by_cases stays : state = sleeping
  · simp only [stays, onward, decide_true, ↓reduceIte]
    refine Ensures.ofPure fun session reached => tracks_asleep monitor asleep started unmarked ?_
    rw [waits]
    exact reached
  · simp only [stays, onward, decide_false, Bool.false_eq_true, ↓reduceIte]
    exact .ite (fun other => absurd other stays) fun _ =>
      ensures_wakeTurn env monitor started unmarked

theorem ensures_pollTurn (elapsed : φ) (monitor : Monitor φ) {start : φ}
    (asleep : monitor.sleeping = true) (started : monitor.sleepStartTime = some start)
    (unmarked : ¬ monitor.outcome.Marked (str "TEST_STOPPED")) :
    Ensures (At testId monitor.phase) (pollTurn env call elapsed monitor) (Tracked testId)
      (Stopped testId) := by
  cases confirmed : monitor.sleepConfirmed with
  | true =>
    have waits : monitor.phase = .awaitingWake := by simp [Monitor.phase, asleep, confirmed]
    rw [waits]
    exact ensures_pollTurn_confirmed env call elapsed monitor asleep started unmarked confirmed
  | false =>
    have waits : monitor.phase = .awaitingSleep := by simp [Monitor.phase, asleep, confirmed]
    rw [waits]
    exact ensures_pollTurn_unconfirmed env call elapsed monitor asleep started unmarked confirmed

theorem ensures_sleepTurn (monitor : Monitor φ) (asleep : monitor.sleeping = true) :
    Ensures (monitor.Tracks testId) (sleepTurn env call monitor) (Tracked testId) (Stopped testId) := by
  intro session tracks
  obtain ⟨start, started⟩ := tracks.started asleep
  have unmarked := tracks.unmarked
  obtain ⟨settled, goesOn⟩ := settled_monitor monitor
  have waits : Step testId monitor.phase (.elapsed (some start)) monitor.phase := by
    simp only [Monitor.phase, asleep, ↓reduceIte]
    cases monitor.sleepConfirmed with
    | true => exact .stillAsleep
    | false => exact .stillAwake
  have ensures : Ensures (At testId monitor.phase) (sleepTurn env call monitor) (Tracked testId)
      (Stopped testId) := by
    unfold sleepTurn
    rw [started]
    refine Ensures.bind (ensures_perform _) fun now => ?_
    refine (ensures_since now start waits).bind fun elapsed => ?_
    have polls : Ensures _ _ (Tracked testId) (Stopped testId) :=
      ensures_pollTurn env call elapsed monitor asleep started unmarked
    cases monitor.sleepExpectedS with
    | none => exact polls
    | some expected =>
      exact .ite (fun _ => .ofPure fun session reached =>
        concluded_fail (.inl rfl) unmarked reached settled goesOn) fun _ => polls
  exact ensures session tracks.reached

theorem ensures_sleepMarker (monitor : Monitor φ) (payload : Str) (hostTs : φ)
    (unmarked : ¬ monitor.outcome.Marked (str "TEST_STOPPED"))
    (unconfirmed : monitor.sleepConfirmed = false) :
    Ensures (At testId .acking) (sleepMarker env monitor payload hostTs) (Tracked testId)
      (Stopped testId) := by
  unfold sleepMarker
  refine (ensures_write env ACK (fun _ => .leaving) fun _ => .ack).bind fun _ => ?_
  refine (ensures_disconnect env fun _ => .leave).bind fun _ => ?_
  refine Ensures.ofPure fun session reached => tracks_asleep _ rfl rfl ?_ ?_
  · rw [TestOutcome.marked_mark, not_or]
    exact ⟨by decide, unmarked⟩
  · simpa only [Monitor.phase, unconfirmed, ↓reduceIte, Bool.false_eq_true] using reached

theorem ensures_markerTurn (monitor : Monitor φ) (payload : Str) (awake : monitor.sleeping = false)
    (unconfirmed : monitor.sleepConfirmed = false)
    (unmarked : ¬ monitor.outcome.Marked (str "TEST_STOPPED")) :
    Ensures (At call.testId .reading) (markerTurn env call monitor payload) (Tracked call.testId)
      (Stopped call.testId) := by
  have marks : ∀ name hostTs, str "TEST_STOPPED" ≠ name → Ensures (At call.testId .reading)
      (pure (.goOn { monitor with outcome := monitor.outcome.mark name hostTs }) :
        Method φ ω (Turn φ)) (Tracked call.testId) (Stopped call.testId) :=
    fun name hostTs other => .ofPure fun session reached =>
      tracks_reading monitor _ awake unconfirmed (by
        rw [TestOutcome.marked_mark, not_or]
        exact ⟨other, unmarked⟩) reached
  unfold markerTurn
  by_cases isSleep : IsSleep payload
  · refine (ensures_emit (.sleep isSleep)).bind fun _ => ?_
    refine Ensures.bind (ensures_perform _) fun hostTs => ?_
    -- the markers that are tested for before are no `SLEEP:` markers
    refine .ite (fun isStart => absurd isSleep (by rw [isStart]; decide)) fun _ => ?_
    refine .ite (fun isStop => absurd isSleep (by rw [isStop]; decide)) fun _ => ?_
    exact .ite (fun _ => ensures_sleepMarker env monitor payload hostTs unmarked unconfirmed)
      fun noSleep => absurd isSleep noSleep
  by_cases stops : payload = stopMarker call.testId
  · subst stops
    refine (ensures_emit .stop).bind fun _ => Ensures.bind (ensures_perform _) fun hostTs => ?_
    refine .ite (fun isStart => (by cases isStart)) fun _ => ?_
    refine .ite (fun isStop => (by cases isStop)) fun _ => ?_
    refine .ite (fun sleeps => absurd sleeps isSleep) fun _ => ?_
    refine .ite (fun _ => ?_) fun other => absurd rfl other
    refine .ofPure fun session reached => ⟨.stopped, reached, by simp [Phase.Settled], ?_, ?_⟩
    · simp
    · intro unmarked
      exact absurd ((TestOutcome.marked_mark ..).mpr (.inl rfl)) unmarked
  · refine (ensures_emit (.marker isSleep stops)).bind fun _ => ?_
    refine Ensures.bind (ensures_perform _) fun hostTs => ?_
    refine .ite (fun _ => marks _ _ (by decide)) fun _ => ?_
    refine .ite (fun _ => marks _ _ (by decide)) fun _ => ?_
    refine .ite (fun sleeps => absurd sleeps isSleep) fun _ => ?_
    refine .ite (fun isStop => absurd isStop stops) fun _ => ?_
    refine .ite (fun _ => marks _ _ (by decide)) fun _ => ?_
    exact .ofPure fun session reached => tracks_reading monitor _ awake unconfirmed unmarked reached

theorem ensures_plainTurn (monitor : Monitor φ) (line : Str)
    (awake : monitor.sleeping = false) (unconfirmed : monitor.sleepConfirmed = false)
    (unmarked : ¬ monitor.outcome.Marked (str "TEST_STOPPED")) :
    Ensures (At call.testId .reading) (plainTurn env call monitor line) (Tracked call.testId)
      (Stopped call.testId) := by
  unfold plainTurn
  refine (ensures_silent (orRaise_silent _) settled_reading).bind fun result => ?_
  cases result with
  | none =>
    exact .ofPure fun session reached =>
      tracks_reading monitor _ awake unconfirmed unmarked reached
  | some marker => exact ensures_markerTurn env call monitor marker.2 awake unconfirmed unmarked

theorem ensures_lineTurn (depth : Nat) (monitor : Monitor φ) (line : Str)
    (awake : monitor.sleeping = false) (unconfirmed : monitor.sleepConfirmed = false)
    (unmarked : ¬ monitor.outcome.Marked (str "TEST_STOPPED")) :
    Ensures (At call.testId .reading) (lineTurn env call depth monitor line) (Tracked call.testId)
      (Stopped call.testId) := by
  unfold lineTurn
  refine (ensures_silent (orRaise_silent _) settled_reading).bind fun obj => ?_
  have plain := ensures_plainTurn env call monitor line awake unconfirmed unmarked
  cases obj with
  | none => exact plain
  | some obj =>
    cases obj with
    | nil => exact plain
    | cons field fields =>
      refine Ensures.ofPure fun session reached => ?_
      unfold jsonTurn
      split
      · exact tracks_reading monitor _ awake unconfirmed (by exact unmarked) reached
      · exact tracks_reading monitor _ awake unconfirmed unmarked reached

theorem ensures_readTurn (depth fuel : Nat) (monitor : Monitor φ)
    (awake : monitor.sleeping = false) :
    Ensures (monitor.Tracks call.testId) (readTurn env call depth fuel monitor)
      (Tracked call.testId) (Stopped call.testId) := by
  intro session tracks
  have unconfirmed := tracks.unconfirmed awake
  have unmarked := tracks.unmarked
  have reached := tracks.reached
  rw [Monitor.phase, awake] at reached
  have ensures : Ensures (At call.testId .reading) (readTurn env call depth fuel monitor)
      (Tracked call.testId) (Stopped call.testId) := by
    unfold readTurn
    refine (ensures_readLine env _ fuel).bind fun line => ?_
    cases line with
    | none =>
      exact .ofPure fun session reached =>
        tracks_reading monitor _ awake unconfirmed unmarked reached
    | some line => exact ensures_lineTurn env call depth _ line awake unconfirmed unmarked
  exact ensures session reached

/-! ## The loop -/

theorem ensures_monitorLoop (depth : Nat) (deadline : φ) (fuel : Nat) (monitor : Monitor φ) :
    Ensures (monitor.Tracks call.testId) (monitorLoop env call depth deadline fuel monitor)
      (Concluded call.testId) (Stopped call.testId) := by
  induction fuel generalizing monitor with
  | zero =>
    exact .ofThrow fun session tracks =>
      ⟨monitor.phase, tracks.reached, (settled_monitor monitor).1⟩
  | succ fuel inductionHypothesis =>
    unfold monitorLoop
    have reads : Ensures (monitor.Tracks call.testId) (clock env)
        (fun _ => monitor.Tracks call.testId) (Stopped call.testId) :=
      fun session tracks => ⟨tracks.reached, tracks.started, tracks.unconfirmed, tracks.unmarked⟩
    refine reads.bind fun now => .ite (fun _ => ?_) fun _ => ?_
    · have turns : Ensures (monitor.Tracks call.testId) (turn env call depth fuel monitor)
          (Tracked call.testId) (Stopped call.testId) :=
        .ite (fun asleep => ensures_sleepTurn env call monitor asleep) fun awake =>
          ensures_readTurn env call depth fuel monitor (Bool.eq_false_iff.mpr awake)
      refine turns.bind fun turn => ?_
      cases turn with
      | goOn monitor => exact inductionHypothesis monitor
      | finished outcome => exact .ofPure fun session concluded => concluded
    · obtain ⟨settled, goesOn⟩ := settled_monitor monitor
      exact .ofPure fun session tracks =>
        concluded_fail (.inl rfl) tracks.unmarked tracks.reached settled goesOn

theorem ensures_monitor (depth fuel : Nat) :
    Ensures (At call.testId .reading) (monitor env call depth fuel) (Concluded call.testId)
      (Stopped call.testId) := by
  refine Ensures.bind (ensures_perform _) fun now => ?_
  exact (ensures_monitorLoop env call depth _ fuel _).weaken
    (fun session reached => tracks_reading { outcome := { testId := call.testId } } _ rfl rfl
      List.not_mem_nil reached) (fun _ _ concluded => concluded) fun _ _ stopped => stopped

/-! ## Main result -/

/-- Any run of `monitor`, as far as it goes: it follows the sleep protocol, and what it
returns is marked as stopped exactly when the marker has been consumed, and says what
went wrong otherwise. -/
theorem monitor_safe (depth fuel : Nat) (decoder : Utf8.State) (lineBuf : Str) (environment : ω) :
    let ran := Methods.run (monitor env call depth fuel) { decoder, lineBuf, environment }
    Safe ran.2.trace ∧ ∀ outcome, ran.1 = .ok outcome →
      (outcome.Marked (str "TEST_STOPPED") ↔
        .marker (str "TEST_STOPPED:" ++ call.testId) ∈ ran.2.trace) ∧
      (¬ outcome.Marked (str "TEST_STOPPED") → outcome.Failed) := by
  intro ran
  have ends := ensures_monitor env call depth fuel { decoder, lineBuf, environment } .nil
  cases result : Methods.run (monitor env call depth fuel) { decoder, lineBuf, environment } with
  | mk ending after =>
    rw [result] at ends
    simp only [ran, result]
    cases ending with
    | error error =>
      obtain ⟨phase, reached, settled⟩ := ends
      exact ⟨safe_of_run reached settled, fun _ returned => (by cases returned)⟩
    | ok outcome =>
      obtain ⟨phase, reached, settled, stopped, failed⟩ := ends
      refine ⟨safe_of_run reached settled, fun other returned => ?_⟩
      cases returned
      exact ⟨stopped.trans (stopped_iff reached).symm, failed⟩

/-- A device that prints some chunks and is asleep or not in turn. -/
structure Script where
  time : Int := 0
  chunks : List (List UInt8)
  answers : List Str

def scripted : Environment Micro Script where
  clock script := (⟨script.time⟩, { script with time := script.time + 1 })
  sleep _ script := (true, script)
  read _ script := (script.chunks.head?, { script with chunks := script.chunks.tail })
  write _ script := (true, script)
  connect script := (true, script)
  disconnect script := (true, script)
  portPath script := (some none, script)
  pathExists _ script := (false, script)

/-- A sleep of some seconds from its marker to its wake, and the end of the test. -/
example :
    let script : Script :=
      { chunks := [Utf8.encode "T=1 SLEEP:3\n".toList, Utf8.encode "T=2 TEST_STOPPED:a\n".toList]
        answers := [str "active", str "sleeping", str "waking"] }
    let call : Monitoring Micro Script :=
      { testId := str "a", timeout := ⟨1000000⟩, portPollInterval := ⟨0⟩
        sleepDetector := some fun script =>
          (script.answers.head?, { script with answers := script.answers.tail }) }
    (Methods.run (monitor scripted call 2 20) { environment := script }).2.trace =
      [.read, .marker (str "SLEEP:3"), .write ACK true, .disconnect true, .elapsed (some ⟨4⟩),
        .answer (str "active"), .elapsed (some ⟨4⟩), .answer (str "sleeping"), .elapsed (some ⟨4⟩),
        .answer (str "waking"), .elapsed (some ⟨4⟩), .reconnect, .disconnect true, .connect true,
        .write SOH true, .read, .marker (str "TEST_STOPPED:a")] := by
  decide +kernel

end EmbeddedBridge.Python.TestSession
