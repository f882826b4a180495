import EmbeddedBridge.Library.Py.Dictionary
import EmbeddedBridge.Verified.SleepSafety

/-! # What the outcome of a test depends on

Without a sleep, the outcome is what the lines of its log come to, one after the
other, whatever the environment was.  `monitor` looks at the id of a test in the
marker that stops it only: a `test_end` sets the status and a `TEST_STARTED:` the
marker, whichever test they belong to.
-/

namespace EmbeddedBridge.Python.TestSession

open Library Py Methods SleepProtocol

variable {φ ω α : Type} [PyFloat φ]

/-! ## What lines mean -/

/-- The `test_end` in a line. -/
def testEnd (depth : Nat) (line : Str) : Option (List (Str × Json φ)) :=
  match (parseJsonLine depth line : Except Raised (Option (List (Str × Json φ)))) with
  | .ok (some obj) =>
    if ((Json.get obj (str "type")).getD .null).isStr (str "test_end") then some obj else none
  | _ => none

/-- The payload of a marker line. -/
def payloadIn (φ : Type) [PyFloat φ] (depth : Nat) (line : Str) : Option Str :=
  match (parseJsonLine depth line : Except Raised (Option (List (Str × Json φ)))) with
  | .ok (some (_ :: _)) => none
  | _ =>
    match (parseMarker line : Except Raised (Option (φ × Str))) with
    | .ok (some (_, payload)) => some payload
    | _ => none

/-- The marker that a payload sets. -/
def markerName (testId payload : Str) : Option Str :=
  if payload = str "PPK_START" then some (str "PPK_START")
  else if payload = str "PPK_STOP" then some (str "PPK_STOP")
  else if (str "SLEEP:").isPrefixOf payload then some (str "SLEEP")
  else if payload = str "TEST_STOPPED:" ++ testId then some (str "TEST_STOPPED")
  else if (str "TEST_STARTED:").isPrefixOf payload then some (str "TEST_STARTED")
  else none

/-- `outcome.markers.get(name)` -/
def timeOf (outcome : TestOutcome φ) (name : Str) : Option φ :=
  Json.getItem (fun left right => left == right) name outcome.markers

omit [PyFloat φ] in
theorem timeOf_mark_self (outcome : TestOutcome φ) (name : Str) (hostTs : φ) :
    timeOf (outcome.mark name hostTs) name = some hostTs :=
  Json.getItem_setItem_self fun _ => beq_iff_eq

omit [PyFloat φ] in
theorem timeOf_mark_ne (outcome : TestOutcome φ) {name other : Str} (hostTs : φ)
    (differs : other ≠ name) : timeOf (outcome.mark name hostTs) other = timeOf outcome other :=
  Json.getItem_setItem_ne (fun _ => beq_iff_eq) (fun _ => beq_iff_eq) differs

def statusOf (obj : List (Str × Json φ)) : Json φ :=
  (Json.get obj (str "status")).getD (.str (str "ok"))

/-- The status that the last of some `test_end` objects gives. -/
def lastStatus (ends : List (List (Str × Json φ))) : Json φ :=
  (ends.getLast?.map statusOf).getD (.str (str "ok"))

/-- All the `test_end` objects of a log. -/
def testEnds (depth : Nat) (log : List Str) : List (List (Str × Json φ)) :=
  log.filterMap (testEnd depth)

/-- Whose `id` is that of the test. -/
def isOwn (testId : Str) (obj : List (Str × Json φ)) : Bool :=
  ((Json.get obj (str "id")).getD .null).isStr testId

def ownEnds (depth : Nat) (testId : Str) (log : List Str) : List (List (Str × Json φ)) :=
  (testEnds depth log).filter (isOwn testId)

/-- What the lines of the log come to, but for the clock. -/
structure Replays (depth : Nat) (outcome : TestOutcome φ) : Prop where
  status : outcome.status = lastStatus (testEnds depth outcome.serialLog)
  marked : ∀ name, outcome.Marked name ↔
    ∃ line ∈ outcome.serialLog, ∃ payload, payloadIn φ depth line = some payload ∧
      markerName outcome.testId payload = some name
  unwarned : outcome.warnings = []
  unslept : outcome.sleepExpectedS = none ∧ outcome.sleepActualS = none

/-- A marker line that sends the device to sleep. -/
def Slept (depth : Nat) (outcome : TestOutcome φ) : Prop :=
  ∃ line ∈ outcome.serialLog, ∃ payload, payloadIn φ depth line = some payload ∧ IsSleep payload

def Turn.outcome : Turn φ → TestOutcome φ
  | .goOn monitor => monitor.outcome
  | .finished outcome => outcome

/-! ## One line -/

/-- What becomes of a line with a `test_end`, a marker or neither. -/
structure Takes (testId : Str) (ended : Option (List (Str × Json φ))) (marker : Option Str)
    (monitor : Monitor φ) (turn : Turn φ) : Prop where
  log : turn.outcome.testId = monitor.outcome.testId ∧
    turn.outcome.serialLog = monitor.outcome.serialLog
  status : turn.outcome.status = (ended.map statusOf).getD monitor.outcome.status
  marked : ∀ name, turn.outcome.Marked name ↔
    monitor.outcome.Marked name ∨ ∃ payload ∈ marker, markerName testId payload = some name
  others : ∀ name, (∀ payload ∈ marker, markerName testId payload ≠ some name) →
    timeOf turn.outcome name = timeOf monitor.outcome name
  unwarned : turn.outcome.warnings = monitor.outcome.warnings
  unslept : (∀ payload ∈ marker, ¬ IsSleep payload) →
    turn.outcome.sleepExpectedS = monitor.outcome.sleepExpectedS ∧
      turn.outcome.sleepActualS = monitor.outcome.sleepActualS ∧
      ∀ next, turn = .goOn next → next.sleeping = monitor.sleeping
  goesOn : ∀ next, turn = .goOn next → marker ≠ some (stopMarker testId)

section Lines

variable (env : Environment φ ω) (call : Monitoring φ ω) (monitor : Monitor φ)

omit [PyFloat φ] in
theorem ppk_ne_stopMarker (testId : Str) {rest : Str} : 0x50 :: rest ≠ stopMarker testId := by
  intro same
  have heads : (0x50 : Nat) = 0x54 := Option.some.inj (congrArg List.head? same)
  exact absurd heads (by decide)

omit [PyFloat φ] in
theorem takes_nothing (testId : Str) {marker : Option Str}
    (sets : ∀ payload ∈ marker, markerName testId payload = none)
    (goesOn : marker ≠ some (stopMarker testId)) :
    Takes testId none marker monitor (.goOn monitor) := by
  refine ⟨⟨rfl, rfl⟩, rfl, fun name => ⟨.inl, fun set => ?_⟩, fun _ _ => rfl, rfl,
    fun _ => ⟨rfl, rfl, ?_⟩, fun _ _ => goesOn⟩
  · refine set.resolve_right fun named => ?_
    obtain ⟨payload, is, names⟩ := named
    cases (sets payload is).symm.trans names
  · intro next same
    cases same
    rfl

omit [PyFloat φ] in
/-- The other markers are left as they are. -/
theorem timeOf_others {testId payload name other : Str} (outcome : TestOutcome φ) (hostTs : φ)
    (names : markerName testId payload = some name)
    (unset : ∀ payload' ∈ some payload, markerName testId payload' ≠ some other) :
    timeOf (outcome.mark name hostTs) other = timeOf outcome other := by
  refine timeOf_mark_ne outcome hostTs fun same => unset payload rfl ?_
  rw [names, same]

omit [PyFloat φ] in
/-- A marker that only sets itself. -/
theorem takes_mark {testId payload name : Str} {hostTs : φ}
    (names : markerName testId payload = some name) (goesOn : payload ≠ stopMarker testId) :
    Takes testId none (some payload) monitor
      (.goOn { monitor with outcome := monitor.outcome.mark name hostTs }) := by
  refine ⟨⟨rfl, rfl⟩, rfl, fun other => ?_, fun other => timeOf_others _ hostTs names, rfl,
    fun _ => ⟨rfl, rfl, fun next same => ?_⟩, ?_⟩
  · simp [Turn.outcome, names, or_comm, eq_comm]
  · cases same
    rfl
  · intro next _ same
    exact goesOn (Option.some.inj same)

theorem markerTurn_returns (payload : Str) :
    Returns (markerTurn env call monitor payload)
      (Takes call.testId none (some payload) monitor) := by
  refine .bindAny fun _ => .bindAny fun hostTs => ?_
  refine .ite (fun isStart => ?_) fun notStart => ?_
  · refine .ofPure (takes_mark monitor (by rw [markerName, if_pos isStart]) fun same => ?_)
    exact ppk_ne_stopMarker call.testId (isStart.symm.trans same)
  refine .ite (fun isStop => ?_) fun notStop => ?_
  · refine .ofPure (takes_mark monitor (by rw [markerName, if_neg notStart, if_pos isStop])
      fun same => ?_)
    exact ppk_ne_stopMarker call.testId (isStop.symm.trans same)
  refine .ite (fun isSleep => ?_) fun notSleep => ?_
  · -- the one marker that also changes the times
    have names : markerName call.testId payload = some (str "SLEEP") := by
      rw [markerName, if_neg notStart, if_neg notStop, if_pos isSleep]
    refine .bindAny fun _ => .bindAny fun _ => .ofPure ?_
    refine ⟨⟨rfl, rfl⟩, rfl, fun other => ?_, fun other => timeOf_others _ hostTs names, rfl,
      fun awake => ?_, fun next _ same => ?_⟩
    · refine (TestOutcome.marked_mark _ _ other hostTs).trans ?_
      change _ ∨ monitor.outcome.Marked other ↔ _
      simp [names, or_comm, eq_comm]
    · exact absurd isSleep (awake payload rfl)
    · rw [Option.some.inj same] at isSleep
      exact not_isSleep_stopMarker call.testId isSleep
  refine .ite (fun isStopped => ?_) fun notStopped => ?_
  · have names : markerName call.testId payload = some (str "TEST_STOPPED") := by
      rw [markerName, if_neg notStart, if_neg notStop, if_neg notSleep, if_pos isStopped]
    refine .ofPure ⟨⟨rfl, rfl⟩, rfl, fun other => ?_, fun other => timeOf_others _ hostTs names, rfl,
      fun _ => ⟨rfl, rfl, nofun⟩, nofun⟩
    simp [Turn.outcome, names, or_comm, eq_comm]
  refine .ite (fun isStarted => ?_) fun notStarted => ?_
  · have names : markerName call.testId payload = some (str "TEST_STARTED") := by
      rw [markerName, if_neg notStart, if_neg notStop, if_neg notSleep, if_neg notStopped,
        if_pos isStarted]
    exact .ofPure (takes_mark monitor names notStopped)
  · have names : markerName call.testId payload = none := by
      rw [markerName, if_neg notStart, if_neg notStop, if_neg notSleep, if_neg notStopped,
        if_neg notStarted]
    refine .ofPure (takes_nothing monitor call.testId (fun other same => ?_) fun same => ?_)
    · cases same
      exact names
    · exact notStopped (Option.some.inj same)

omit [PyFloat φ] in
theorem orRaise_returns (result : Except Raised α) :
    Returns (orRaise result : Method φ ω α) fun value => result = .ok value := by
  cases result with
  | ok value => exact .ofPure rfl
  | error error => exact .ofThrow _

omit [PyFloat φ] in
theorem jsonTurn_takes (obj : List (Str × Json φ)) (testId : Str) :
    Takes testId
      (if ((Json.get obj (str "type")).getD .null).isStr (str "test_end") then some obj else none)
      none monitor (jsonTurn monitor obj) := by
  rw [jsonTurn]
  split
  · refine ⟨⟨rfl, rfl⟩, rfl, fun other => ?_, fun _ _ => rfl, rfl, fun _ => ⟨rfl, rfl, ?_⟩, nofun⟩
    · simp [Turn.outcome, TestOutcome.Marked]
    · intro next same
      cases same
      rfl
  · exact takes_nothing monitor testId nofun nofun

theorem plainTurn_returns (line : Str) :
    Returns (plainTurn env call monitor line) fun turn => ∃ marker : Option (φ × Str),
      parseMarker line = .ok marker ∧ Takes call.testId none (marker.map Prod.snd) monitor turn := by
  refine .bind (orRaise_returns _) fun marker parsed => ?_
  cases marker with
  | none => exact .ofPure ⟨none, parsed, takes_nothing monitor call.testId nofun nofun⟩
  | some marker =>
    intro session turn after ran
    exact ⟨some marker, parsed,
      markerTurn_returns env call monitor marker.2 session turn after ran⟩

/-- A line that is logged does what it means. -/
theorem lineTurn_returns (depth : Nat) (line : Str) :
    Returns (lineTurn env call depth monitor line)
      (Takes call.testId (testEnd depth line) (payloadIn φ depth line) monitor) := by
  refine .bind (orRaise_returns _) fun obj parsed => ?_
  have plain : (∀ field fields, obj ≠ some (field :: fields)) →
      Returns (plainTurn env call monitor line)
        (Takes call.testId (testEnd depth line) (payloadIn φ depth line) monitor) := by
    intro noFields session turn after ran
    obtain ⟨marker, parsedMarker, takes⟩ := plainTurn_returns env call monitor line session turn
      after ran
    have unended : (testEnd depth line : Option (List (Str × Json φ))) = none := by
      rw [testEnd, parsed]
      cases obj with
      | none => rfl
      | some obj =>
        cases obj with
        | nil => rfl
        | cons field fields => exact absurd rfl (noFields field fields)
    have marked : payloadIn φ depth line = marker.map Prod.snd := by
      rw [payloadIn, parsed, parsedMarker]
      cases obj with
      | none => cases marker <;> rfl
      | some obj =>
        cases obj with
        | nil => cases marker <;> rfl
        | cons field fields => exact absurd rfl (noFields field fields)
    rw [unended, marked]
    exact takes
  cases obj with
  | none => exact plain nofun
  | some obj =>
    cases obj with
    | nil => exact plain nofun
    | cons field fields =>
      have ended : testEnd depth line = if ((Json.get (field :: fields) (str "type")).getD .null).isStr
          (str "test_end") then some (field :: fields) else none := by
        rw [testEnd, parsed]
      have unmarked : payloadIn φ depth line = none := by rw [payloadIn, parsed]
      rw [ended, unmarked]
      exact .ofPure (jsonTurn_takes monitor (field :: fields) call.testId)

end Lines

/-! ## The run -/

/-- Between turns: the outcome is that of its log, or the device has been sent to sleep. -/
def Monitor.Follows (depth : Nat) (testId : Str) (monitor : Monitor φ) : Prop :=
  monitor.outcome.testId = testId ∧ (Slept depth monitor.outcome ∨
    monitor.sleeping = false ∧ Replays depth monitor.outcome ∧
      ¬ monitor.outcome.Marked (str "TEST_STOPPED"))

def Ends (depth : Nat) (testId : Str) (outcome : TestOutcome φ) : Prop :=
  outcome.testId = testId ∧
    (Slept depth outcome ∨ (outcome.Marked (str "TEST_STOPPED") → Replays depth outcome))

def Turn.Follows (depth : Nat) (testId : Str) : Turn φ → Prop
  | .goOn monitor => monitor.Follows depth testId
  | .finished outcome => Ends depth testId outcome

theorem markerName_stopped {testId payload : Str}
    (names : markerName testId payload = some (str "TEST_STOPPED")) :
    payload = stopMarker testId := by
  unfold markerName at names
  split at names
  · exact absurd names (by decide)
  split at names
  · exact absurd names (by decide)
  split at names
  · exact absurd names (by decide)
  split at names
  · rename_i isStopped
    exact isStopped
  split at names
  · exact absurd names (by decide)
  · cases names

omit [PyFloat φ] in
theorem lastStatus_of_last {ends : List (List (Str × Json φ))} {obj : List (Str × Json φ)}
    (isLast : ends.getLast? = some obj) : lastStatus ends = statusOf obj := by
  rw [lastStatus, isLast]
  rfl

theorem lastStatus_snoc (depth : Nat) (log : List Str) (line : Str) :
    lastStatus (testEnds depth (log ++ [line]) : List (List (Str × Json φ))) =
      ((testEnd depth line).map statusOf).getD (lastStatus (testEnds depth log)) := by
  rw [testEnds, List.filterMap_append]
  cases ended : (testEnd depth line : Option (List (Str × Json φ))) with
  | none => simp [ended, testEnds]
  | some obj => simp [ended, lastStatus]

theorem slept_of_log {depth : Nat} {before after : TestOutcome φ} (slept : Slept depth before)
    (grows : ∀ line ∈ before.serialLog, line ∈ after.serialLog) : Slept depth after := by
  obtain ⟨line, member, payload, sleeps⟩ := slept
  exact ⟨line, grows line member, payload, sleeps⟩

section Taken

variable {depth : Nat} {testId line : Str} {monitor : Monitor φ} {turn : Turn φ}

theorem replays_takes
    (takes : Takes testId (testEnd depth line) (payloadIn φ depth line)
      { monitor with outcome := monitor.outcome.log line } turn)
    (isTest : monitor.outcome.testId = testId)
    (unslept : ∀ payload ∈ payloadIn φ depth line, ¬ IsSleep payload)
    (replays : Replays depth monitor.outcome) : Replays depth turn.outcome := by
  have log : turn.outcome.serialLog = monitor.outcome.serialLog ++ [line] := takes.log.2
  have sameTest : turn.outcome.testId = testId := takes.log.1.trans isTest
  obtain ⟨expected, actual, _⟩ := takes.unslept unslept
  refine ⟨?_, fun name => ?_, takes.unwarned.trans replays.unwarned,
    expected.trans replays.unslept.1, actual.trans replays.unslept.2⟩
  · rw [takes.status, log, lastStatus_snoc, ← replays.status]
    rfl
  · rw [takes.marked, log, sameTest, TestOutcome.marked_log, replays.marked, isTest]
    simp only [List.mem_append, List.mem_singleton, or_and_right, exists_or, exists_eq_left]
    rfl

theorem slept_takes
    (takes : Takes testId (testEnd depth line) (payloadIn φ depth line)
      { monitor with outcome := monitor.outcome.log line } turn)
    (slept : Slept depth monitor.outcome ∨ ∃ payload ∈ payloadIn φ depth line, IsSleep payload) :
    Slept depth turn.outcome := by
  have log : turn.outcome.serialLog = monitor.outcome.serialLog ++ [line] := takes.log.2
  cases slept with
  | inl before =>
    exact slept_of_log before fun other member => log ▸ List.mem_append_left [line] member
  | inr now =>
    obtain ⟨payload, marked, sleeps⟩ := now
    exact ⟨line, log ▸ List.mem_append_right _ List.mem_cons_self, payload, marked, sleeps⟩

/-- A turn in which a line has been taken. -/
theorem follows_takes (awake : monitor.sleeping = false) (follows : monitor.Follows depth testId)
    (takes : Takes testId (testEnd depth line) (payloadIn φ depth line)
      { monitor with outcome := monitor.outcome.log line } turn) :
    turn.Follows depth testId := by
  obtain ⟨isTest, goesOn⟩ := follows
  have test : turn.outcome.testId = testId := takes.log.1.trans isTest
  by_cases slept : Slept depth monitor.outcome ∨ ∃ payload ∈ payloadIn φ depth line, IsSleep payload
  · have slept := slept_takes takes slept
    cases turn with
    | goOn next => exact ⟨test, .inl slept⟩
    | finished outcome => exact ⟨test, .inl slept⟩
  · rw [not_or] at slept
    have unslept : ∀ payload ∈ payloadIn φ depth line, ¬ IsSleep payload :=
      fun payload marked sleeps => slept.2 ⟨payload, marked, sleeps⟩
    obtain ⟨_, replays, unstopped⟩ := goesOn.resolve_left slept.1
    have replays := replays_takes takes isTest unslept replays
    cases turn with
    | finished outcome => exact ⟨test, .inr fun _ => replays⟩
    | goOn next =>
      have sameSleep := (takes.unslept unslept).2.2 next rfl
      refine ⟨test, .inr ⟨sameSleep.trans awake, replays, fun stopped => ?_⟩⟩
      cases (takes.marked _).mp stopped with
      | inl before => exact unstopped before
      | inr now =>
        obtain ⟨payload, marked, names⟩ := now
        exact takes.goesOn next rfl (markerName_stopped names ▸ marked)

end Taken

section Turns

variable (env : Environment φ ω) (call : Monitoring φ ω)

/-- The log is not touched. -/
def SameLog (outcome : TestOutcome φ) (turn : Turn φ) : Prop :=
  turn.outcome.testId = outcome.testId ∧ turn.outcome.serialLog = outcome.serialLog

theorem checkSleepTime_log (actual : φ) (expected : Option φ) (outcome : TestOutcome φ) :
    (checkSleepTime actual expected outcome).testId = outcome.testId ∧
      (checkSleepTime actual expected outcome).serialLog = outcome.serialLog := by
  unfold checkSleepTime
  cases expected with
  | none => exact ⟨rfl, rfl⟩
  | some expected =>
    simp only
    split
    · exact ⟨rfl, rfl⟩
    split
    · exact ⟨rfl, rfl⟩
    · exact ⟨rfl, rfl⟩

theorem wakeTurn_log (monitor : Monitor φ) :
    Returns (wakeTurn env monitor) (SameLog monitor.outcome) := by
  refine .bindAny fun wakeTime => .bindAny fun actual => .bindAny fun woken => ?_
  have log := checkSleepTime_log actual monitor.sleepExpectedS
    { monitor.outcome with sleepActualS := some actual }
  refine .ite (fun _ => .ofPure ?_) fun _ => .ofPure ?_
  · exact log
  · exact log

theorem pollTurn_log (elapsed : φ) (monitor : Monitor φ) :
    Returns (pollTurn env call elapsed monitor) (SameLog monitor.outcome) := by
  refine .bindAny fun _ => .bindAny fun state => .ite (fun _ => ?_) fun _ => ?_
  · exact .ite (fun _ => .ofPure ⟨rfl, rfl⟩) fun _ => wakeTurn_log env monitor
  · refine .ite (fun _ => .ofPure ⟨rfl, rfl⟩) fun _ => ?_
    exact .ite (fun _ => .ofPure ⟨rfl, rfl⟩) fun _ => .ofPure ⟨rfl, rfl⟩

theorem sleepTurn_log (monitor : Monitor φ) :
    Returns (sleepTurn env call monitor) (SameLog monitor.outcome) := by
  refine .bindAny fun now => .bindAny fun elapsed => ?_
  cases monitor.sleepExpectedS with
  | none => exact pollTurn_log env call elapsed monitor
  | some expected =>
    exact .ite (fun _ => .ofPure ⟨rfl, rfl⟩) fun _ => pollTurn_log env call elapsed monitor

theorem turn_returns (depth fuel : Nat) (monitor : Monitor φ)
    (follows : monitor.Follows depth call.testId) :
    Returns (turn env call depth fuel monitor) (Turn.Follows depth call.testId) := by
  refine .ite (fun asleep => ?_) fun awake => ?_
  · intro session turn after ran
    obtain ⟨test, log⟩ := sleepTurn_log env call monitor session turn after ran
    obtain ⟨isTest, goesOn⟩ := follows
    -- asleep, so that a marker has said so
    have slept : Slept depth turn.outcome := by
      refine slept_of_log (goesOn.resolve_right fun goesOn => ?_) fun line => log ▸ id
      exact absurd (goesOn.1.symm.trans asleep) Bool.false_ne_true
    cases turn with
    | goOn next => exact ⟨test.trans isTest, .inl slept⟩
    | finished outcome => exact ⟨test.trans isTest, .inl slept⟩
  · refine .bindAny fun line => ?_
    cases line with
    | none => exact .ofPure follows
    | some line =>
      intro session turn after ran
      exact follows_takes (Bool.eq_false_iff.mpr awake) follows
        (lineTurn_returns env call _ depth line session turn after ran)

theorem monitorLoop_returns (depth : Nat) (deadline : φ) (fuel : Nat) (monitor : Monitor φ)
    (follows : monitor.Follows depth call.testId) :
    Returns (monitorLoop env call depth deadline fuel monitor) (Ends depth call.testId) := by
  induction fuel generalizing monitor with
  | zero => exact .ofThrow _
  | succ fuel inductionHypothesis =>
    refine .bindAny fun now => .ite (fun _ => ?_) fun _ => .ofPure ?_
    · refine .bind (turn_returns env call depth fuel monitor follows) fun turn follows => ?_
      cases turn with
      | goOn next => exact inductionHypothesis next follows
      | finished outcome => exact .ofPure follows
    · obtain ⟨isTest, goesOn⟩ := follows
      refine ⟨isTest, ?_⟩
      cases goesOn with
      | inl slept => exact .inl (slept_of_log slept fun _ => id)
      | inr awake => exact .inr fun stopped => absurd stopped awake.2.2

/-- What a run returns. -/
theorem monitor_returns (depth fuel : Nat) :
    Returns (monitor env call depth fuel) (Ends depth call.testId) := by
  refine .bindAny fun now => monitorLoop_returns env call depth _ fuel _ ⟨rfl, .inr ⟨rfl, ?_, ?_⟩⟩
  · exact ⟨rfl, fun name => iff_of_false List.not_mem_nil (by simp), rfl, rfl, rfl⟩
  · exact List.not_mem_nil

end Turns

/-! ## Lines of other tests -/

def startMarker (testId : Str) : Str := str "TEST_STARTED:" ++ testId

/-- A `test_end`, a start or a stop of another test. -/
def Foreign (φ : Type) [PyFloat φ] (depth : Nat) (testId line : Str) : Prop :=
  (∃ obj : List (Str × Json φ), testEnd depth line = some obj ∧ isOwn testId obj = false) ∨
    ∃ other, other ≠ testId ∧ (payloadIn φ depth line = some (startMarker other) ∨
      payloadIn φ depth line = some (stopMarker other))

/-- The second list is the first with more lines. -/
inductive Inserted (more : Str → Prop) : List Str → List Str → Prop where
  | nil : Inserted more [] []
  | keep {line : Str} {before after : List Str} (rest : Inserted more before after) :
      Inserted more (line :: before) (line :: after)
  | insert {line : Str} {before after : List Str} (new : more line)
      (rest : Inserted more before after) : Inserted more before (line :: after)

theorem Inserted.mem {more : Str → Prop} {before after : List Str}
    (inserted : Inserted more before after) {line : Str} (member : line ∈ before) : line ∈ after := by
  induction inserted with
  | nil => exact member
  | keep rest inductionHypothesis =>
    cases member with
    | head => exact List.mem_cons_self
    | tail _ member => exact List.mem_cons_of_mem _ (inductionHypothesis member)
  | insert new rest inductionHypothesis => exact List.mem_cons_of_mem _ (inductionHypothesis member)

theorem Inserted.exists_iff {more : Str → Prop} {before after : List Str}
    (inserted : Inserted more before after) {property : Str → Prop}
    (never : ∀ line, more line → ¬ property line) :
    (∃ line ∈ before, property line) ↔ ∃ line ∈ after, property line := by
  induction inserted with
  | nil => exact Iff.rfl
  | keep rest inductionHypothesis => simp only [List.exists_mem_cons_iff, inductionHypothesis]
  | insert new rest inductionHypothesis =>
    rw [List.exists_mem_cons_iff, or_iff_right (never _ new), inductionHypothesis]

theorem Inserted.filterMap_eq {more : Str → Prop} {before after : List Str}
    (inserted : Inserted more before after) {read : Str → Option α}
    (never : ∀ line, more line → read line = none) :
    before.filterMap read = after.filterMap read := by
  induction inserted with
  | nil => rfl
  | keep rest inductionHypothesis => simp only [List.filterMap_cons, inductionHypothesis]
  | insert new rest inductionHypothesis =>
    rw [List.filterMap_cons_none (never _ new), inductionHypothesis]

omit [PyFloat φ] in
/-- A payload that starts a test is no other marker. -/
theorem started_only (testId : Str) {payload : Str}
    (isStarted : (str "TEST_STARTED:").isPrefixOf payload = true) :
    payload ≠ str "PPK_START" ∧ payload ≠ str "PPK_STOP" ∧
      ¬ (str "SLEEP:").isPrefixOf payload = true ∧ payload ≠ str "TEST_STOPPED:" ++ testId := by
  obtain ⟨rest, rfl⟩ := List.isPrefixOf_iff_prefix.mp isStarted
  refine ⟨nofun, nofun, Bool.false_ne_true, fun same => ?_⟩
  -- the two markers part at STA and STO
  have eighth : (0x41 : Nat) = 0x4F := Option.some.inj (congrArg (fun text => text[7]?) same)
  exact absurd eighth (by decide)

theorem isPrefixOf_startMarker (testId : Str) :
    (str "TEST_STARTED:").isPrefixOf (startMarker testId) = true :=
  List.isPrefixOf_iff_prefix.mpr (List.prefix_append _ _)

omit [PyFloat φ] in
theorem markerName_started {testId payload : Str} :
    markerName testId payload = some (str "TEST_STARTED") ↔
      (str "TEST_STARTED:").isPrefixOf payload = true := by
  constructor
  · intro names
    unfold markerName at names
    split at names
    · exact absurd names (by decide)
    split at names
    · exact absurd names (by decide)
    split at names
    · exact absurd names (by decide)
    split at names
    · exact absurd names (by decide)
    split at names
    · rename_i isStarted
      exact isStarted
    · cases names
  · intro isStarted
    obtain ⟨notStart, notStop, notSleep, notStopped⟩ := started_only testId isStarted
    rw [markerName, if_neg notStart, if_neg notStop, if_neg notSleep, if_neg notStopped,
      if_pos isStarted]

omit [PyFloat φ] in
theorem markerName_otherStop {testId other : Str} (differs : other ≠ testId) :
    markerName testId (stopMarker other) = none := by
  have notStopped : stopMarker other ≠ str "TEST_STOPPED:" ++ testId :=
    fun same => differs (List.append_cancel_left same)
  have notStarted : ¬ (str "TEST_STARTED:").isPrefixOf (stopMarker other) = true :=
    Bool.false_ne_true
  have notPpkStart : stopMarker other ≠ str "PPK_START" := (ppk_ne_stopMarker other).symm
  have notPpkStop : stopMarker other ≠ str "PPK_STOP" := (ppk_ne_stopMarker other).symm
  have notSleep : ¬ (str "SLEEP:").isPrefixOf (stopMarker other) = true :=
    not_isSleep_stopMarker other
  rw [markerName, if_neg notPpkStart, if_neg notPpkStop, if_neg notSleep, if_neg notStopped,
    if_neg notStarted]

theorem payloadIn_of_testEnd {depth : Nat} {line : Str} {obj : List (Str × Json φ)}
    (ended : testEnd depth line = some obj) : payloadIn φ depth line = none := by
  unfold testEnd at ended
  split at ended
  · rename_i parsed
    split at ended
    · rename_i isEnd
      cases ended
      cases obj with
      | nil => exact absurd isEnd (by simp [Json.get, Json.getItem, Json.isStr])
      | cons field fields => rw [payloadIn, parsed]
    · cases ended
  · cases ended

/-- A marker line is no JSON. -/
theorem parsed_of_payloadIn {depth : Nat} {line payload : Str}
    (isMarker : payloadIn φ depth line = some payload) :
    (parseJsonLine depth line : Except Raised (Option (List (Str × Json φ)))) = .ok none ∧
      ∃ time : φ, parseMarker line = .ok (some (time, payload)) := by
  have marker : ∃ time : φ, parseMarker line = .ok (some (time, payload)) := by
    unfold payloadIn at isMarker
    split at isMarker
    · cases isMarker
    split at isMarker
    · rename_i time _ parsed
      cases isMarker
      exact ⟨time, parsed⟩
    · cases isMarker
  refine ⟨?_, marker⟩
  obtain ⟨time, parsed⟩ := marker
  -- it begins with a T
  have first : (strip line).head? = some 0x54 := by
    unfold parseMarker matchMarker at parsed
    split at parsed
    · cases parsed
    · rename_i matched
      split at matched
      · rename_i text
        rw [text]
        rfl
      · cases matched
  have noBrace : (strip line).head? ≠ some 0x7B := by
    rw [first]
    decide
  unfold parseJsonLine
  exact if_pos noBrace

section Starts

variable (env : Environment φ ω) (call : Monitoring φ ω)

theorem markerTurn_started {payload : Str}
    (isStarted : (str "TEST_STARTED:").isPrefixOf payload = true) (monitor : Monitor φ)
    (session : TestSession φ ω) :
    (run (markerTurn env call monitor payload) session).1 = .ok (.goOn { monitor with
      outcome := monitor.outcome.mark (str "TEST_STARTED") (env.clock session.environment).1 }) := by
  obtain ⟨notStart, notStop, notSleep, notStopped⟩ := started_only call.testId isStarted
  unfold markerTurn
  simp only [if_neg notStart, if_neg notStop, if_neg notSleep, if_neg notStopped, if_pos isStarted]
  rfl

/-- In any state, a line that starts a test, whichever it is, sets the marker to the time at
which it is taken. -/
theorem lineTurn_started {depth : Nat} {line other : Str}
    (isStart : payloadIn φ depth line = some (startMarker other)) (monitor : Monitor φ)
    (session : TestSession φ ω) :
    (run (lineTurn env call depth monitor line) session).1 = .ok (.goOn { monitor with
      outcome := monitor.outcome.mark (str "TEST_STARTED") (env.clock session.environment).1 }) := by
  obtain ⟨noJson, time, parsed⟩ := parsed_of_payloadIn isStart
  unfold lineTurn plainTurn
  rw [noJson, parsed]
  exact markerTurn_started env call (isPrefixOf_startMarker other) monitor session

/-- A line sets a marker: there is a state in which the marker is another after it. -/
def Sets (depth : Nat) (line name : Str) : Prop :=
  ∃ (monitor : Monitor φ) (session : TestSession φ ω) (turn : Turn φ) (after : TestSession φ ω),
    run (lineTurn env call depth monitor line) session = (.ok turn, after) ∧
      timeOf turn.outcome name ≠ timeOf monitor.outcome name

theorem sets_started_iff {depth : Nat} {line : Str} (session : TestSession φ ω) :
    Sets env call depth line (str "TEST_STARTED") ↔
      ∃ other, payloadIn φ depth line = some (startMarker other) := by
  constructor
  · intro sets
    obtain ⟨monitor, session, turn, after, ran, differs⟩ := sets
    have takes := lineTurn_returns env call monitor depth line session turn after ran
    by_contra noStart
    refine differs (takes.others _ fun payload isMarker names => noStart ?_)
    obtain ⟨other, rfl⟩ := List.isPrefixOf_iff_prefix.mp (markerName_started.mp names)
    exact ⟨other, isMarker⟩
  · intro isStart
    obtain ⟨other, isStart⟩ := isStart
    -- in a state without markers
    have ran := lineTurn_started env call isStart { outcome := { testId := [] } } session
    refine ⟨{ outcome := { testId := [] } }, session, _, _, Prod.ext ran rfl, ?_⟩
    rw [Turn.outcome, timeOf_mark_self]
    exact Option.some_ne_none _

end Starts

/-! ## Main result -/

/-- The status and the start of a test are its own: its last `test_end` gives the status, it
is marked as started when it has started, and no line but its own start sets the marker. -/
structure Own (env : Environment φ ω) (call : Monitoring φ ω) (depth : Nat)
    (outcome : TestOutcome φ) : Prop where
  status : outcome.status = lastStatus (ownEnds depth outcome.testId outcome.serialLog)
  marked : outcome.Marked (str "TEST_STARTED") ↔ ∃ line ∈ outcome.serialLog,
    payloadIn φ depth line = some (startMarker outcome.testId)
  set : ∀ line ∈ outcome.serialLog, Sets env call depth line (str "TEST_STARTED") →
    payloadIn φ depth line = some (startMarker outcome.testId)

/-- The last `test_end` is one of the test, or gives the same status as its last one; and
no other test starts. -/
structure Undisturbed (depth : Nat) (outcome : TestOutcome φ) : Prop where
  ended : ∀ obj : List (Str × Json φ), (testEnds depth outcome.serialLog).getLast? = some obj →
    isOwn outcome.testId obj = true ∨
      statusOf obj = lastStatus (ownEnds depth outcome.testId outcome.serialLog)
  started : ∀ line ∈ outcome.serialLog, ∀ other,
    payloadIn φ depth line = some (startMarker other) → other = outcome.testId

/-- After more lines the last `test_end` gives the status that the last one gave before, and a
test starts only if one did before. -/
structure Unchanged (depth : Nat) (before after : TestOutcome φ) : Prop where
  ended : ∀ obj : List (Str × Json φ), (testEnds depth after.serialLog).getLast? = some obj →
    statusOf obj = lastStatus (testEnds depth before.serialLog : List (List (Str × Json φ)))
  started : (∃ line ∈ after.serialLog, ∃ other,
      payloadIn φ depth line = some (startMarker other)) →
    ∃ line ∈ before.serialLog, ∃ other, payloadIn φ depth line = some (startMarker other)

/-- A run of `monitor` has returned this on the stop of its test, without a sleep. -/
def ReturnedOnStop (env : Environment φ ω) (call : Monitoring φ ω) (depth : Nat)
    (outcome : TestOutcome φ) : Prop :=
  (∃ (fuel : Nat) (session after : TestSession φ ω),
      Methods.run (monitor env call depth fuel) session = (.ok outcome, after)) ∧
    outcome.Marked (str "TEST_STOPPED") ∧ ¬ Slept depth outcome

/-- All but the log and the times. -/
structure SameOutcome (outcome other : TestOutcome φ) : Prop where
  test : outcome.testId = other.testId
  status : outcome.status = other.status
  marked : ∀ name, outcome.Marked name ↔ other.Marked name
  warnings : outcome.warnings = other.warnings
  slept : outcome.sleepExpectedS = other.sleepExpectedS ∧ outcome.sleepActualS = other.sleepActualS

theorem replays_of_returned {env : Environment φ ω} {call : Monitoring φ ω} {depth : Nat}
    {outcome : TestOutcome φ} (returned : ReturnedOnStop env call depth outcome) :
    Replays depth outcome := by
  obtain ⟨⟨fuel, session, after, ran⟩, stopped, unslept⟩ := returned
  obtain ⟨_, replays⟩ := monitor_returns env call depth fuel session outcome after ran
  exact replays.resolve_left unslept stopped

/-- The start is marked by the first line that starts any test. -/
theorem marked_started_iff {depth : Nat} {outcome : TestOutcome φ}
    (replays : Replays depth outcome) :
    outcome.Marked (str "TEST_STARTED") ↔ ∃ line ∈ outcome.serialLog, ∃ other,
      payloadIn φ depth line = some (startMarker other) := by
  rw [replays.marked]
  constructor
  · intro marked
    obtain ⟨line, member, payload, isMarker, names⟩ := marked
    obtain ⟨other, rfl⟩ := List.isPrefixOf_iff_prefix.mp (markerName_started.mp names)
    exact ⟨line, member, other, isMarker⟩
  · intro started
    obtain ⟨line, member, other, isMarker⟩ := started
    exact ⟨line, member, _, isMarker, markerName_started.mpr (isPrefixOf_startMarker other)⟩

omit [PyFloat φ] in
/-- The last of some objects gives the status that the last own one gives. -/
theorem lastStatus_own_iff (ends : List (List (Str × Json φ))) (testId : Str) :
    lastStatus ends = lastStatus (ends.filter (isOwn testId)) ↔
      ∀ obj, ends.getLast? = some obj →
        isOwn testId obj = true ∨ statusOf obj = lastStatus (ends.filter (isOwn testId)) := by
  cases List.eq_nil_or_concat ends with
  | inl none =>
    rw [none]
    exact iff_of_true rfl nofun
  | inr some =>
    obtain ⟨init, last, rfl⟩ := some
    rw [List.concat_eq_append, List.getLast?_concat]
    have status : lastStatus (init ++ [last]) = statusOf last :=
      lastStatus_of_last List.getLast?_concat
    rw [status]
    constructor
    · intro same obj isLast
      cases isLast
      exact .inr same
    · intro undisturbed
      cases undisturbed last rfl with
      | inl own => rw [List.filter_append, List.filter_cons_of_pos own]; simp [lastStatus]
      | inr same => exact same

theorem own_iff (env : Environment φ ω) (call : Monitoring φ ω) (session : TestSession φ ω)
    {depth : Nat} {outcome : TestOutcome φ} (replays : Replays depth outcome) :
    Own env call depth outcome ↔ Undisturbed depth outcome := by
  have status : outcome.status = lastStatus (ownEnds depth outcome.testId outcome.serialLog) ↔
      ∀ obj : List (Str × Json φ), (testEnds depth outcome.serialLog).getLast? = some obj →
        isOwn outcome.testId obj = true ∨
          statusOf obj = lastStatus (ownEnds depth outcome.testId outcome.serialLog) := by
    rw [replays.status]
    exact lastStatus_own_iff _ _
  constructor
  · intro own
    refine ⟨status.mp own.status, fun line member other isStart => ?_⟩
    have isOwn := own.set line member ((sets_started_iff env call session).mpr ⟨other, isStart⟩)
    exact List.append_cancel_left (Option.some.inj (isStart.symm.trans isOwn))
  · intro undisturbed
    have onlyOwn (line : Str) (member : line ∈ outcome.serialLog)
        (isStart : ∃ other, payloadIn φ depth line = some (startMarker other)) :
        payloadIn φ depth line = some (startMarker outcome.testId) := by
      obtain ⟨other, isStart⟩ := isStart
      rw [← undisturbed.started line member other isStart]
      exact isStart
    refine ⟨status.mpr undisturbed.ended, ?_, fun line member sets =>
      onlyOwn line member ((sets_started_iff env call session).mp sets)⟩
    rw [marked_started_iff replays]
    constructor
    · intro marked
      obtain ⟨line, member, isStart⟩ := marked
      exact ⟨line, member, onlyOwn line member isStart⟩
    · intro started
      obtain ⟨line, member, isOwn⟩ := started
      exact ⟨line, member, outcome.testId, isOwn⟩

/-- What is in the lines of other tests: no `test_end` of this one, and no marker but
the start that is taken for its own. -/
theorem foreign_own {depth : Nat} {testId line : Str} (foreign : Foreign φ depth testId line) :
    (testEnd depth line).filter (isOwn (φ := φ) testId) = none ∧
      payloadIn φ depth line ≠ some (startMarker testId) ∧
      ∀ payload name, payloadIn φ depth line = some payload →
        markerName testId payload = some name → name = str "TEST_STARTED" := by
  cases foreign with
  | inl isEnd =>
    obtain ⟨obj, ended, notOwn⟩ := isEnd
    have unmarked := payloadIn_of_testEnd ended
    rw [unmarked, ended]
    exact ⟨Option.filter_some_neg (by simp [notOwn]), nofun, nofun⟩
  | inr isMarker =>
    obtain ⟨other, differs, isMarker⟩ := isMarker
    have unended : (testEnd depth line : Option (List (Str × Json φ))) = none := by
      cases ended : (testEnd depth line : Option (List (Str × Json φ))) with
      | none => rfl
      | some obj =>
        rw [payloadIn_of_testEnd ended] at isMarker
        cases isMarker <;> contradiction
    rw [unended]
    cases isMarker with
    | inl isStart =>
      -- taken for a start of this test, whatever the test
      rw [isStart]
      refine ⟨rfl, fun same => differs (List.append_cancel_left (Option.some.inj same)), ?_⟩
      intro payload name same names
      cases same
      have started : markerName testId (startMarker other) = some (str "TEST_STARTED") :=
        markerName_started.mpr (isPrefixOf_startMarker other)
      exact (Option.some.inj (started.symm.trans names)).symm
    | inr isStop =>
      rw [isStop]
      refine ⟨rfl, fun same => ?_, fun payload name same names => ?_⟩
      · -- the two markers part at STO and STA
        have eighth : (0x4F : Nat) = 0x41 :=
          Option.some.inj (congrArg (fun text => text[7]?) (Option.some.inj same))
        exact absurd eighth (by decide)
      · cases same
        cases (markerName_otherStop differs).symm.trans names

/-- Lines of other tests make no difference unless they end or start a test where it counts. -/
theorem same_iff_unchanged {depth : Nat} {outcome other : TestOutcome φ}
    (test : outcome.testId = other.testId) (replays : Replays depth outcome)
    (replays' : Replays depth other)
    (inserted : Inserted (Foreign φ depth outcome.testId) outcome.serialLog other.serialLog) :
    SameOutcome outcome other ↔ Unchanged depth outcome other := by
  constructor
  · intro same
    refine ⟨fun obj isLast => ?_, fun started => ?_⟩
    · have last : other.status = statusOf obj := replays'.status.trans (lastStatus_of_last isLast)
      rw [← replays.status, ← last, same.status]
    · rw [← marked_started_iff replays'] at started
      exact (marked_started_iff replays).mp ((same.marked _).mpr started)
  · intro unchanged
    refine ⟨test, ?_, fun name => ?_, ?_, ?_⟩
    · rw [replays.status, replays'.status]
      cases last : (testEnds depth other.serialLog : List (List (Str × Json φ))).getLast? with
      | some obj =>
        rw [← unchanged.ended obj last, lastStatus_of_last last]
      | none =>
        -- no test has ended, and so none had before
        have none' : (testEnds depth other.serialLog : List (List (Str × Json φ))) = [] :=
          List.getLast?_eq_none_iff.mp last
        have none : (testEnds depth outcome.serialLog : List (List (Str × Json φ))) = [] :=
          List.filterMap_eq_nil_iff.mpr fun line member =>
            List.filterMap_eq_nil_iff.mp none' line (inserted.mem member)
        rw [none, none']
    · by_cases isStart : name = str "TEST_STARTED"
      · rw [isStart, marked_started_iff replays, marked_started_iff replays']
        refine ⟨fun started => ?_, unchanged.started⟩
        obtain ⟨line, member, isStart⟩ := started
        exact ⟨line, inserted.mem member, isStart⟩
      · rw [replays.marked, replays'.marked, ← test]
        refine inserted.exists_iff fun line foreign marked => ?_
        obtain ⟨payload, isMarker, names⟩ := marked
        exact isStart ((foreign_own foreign).2.2 payload name isMarker names)
    · rw [replays.unwarned, replays'.unwarned]
    · rw [replays.unslept.1, replays'.unslept.1, replays.unslept.2, replays'.unslept.2]
      exact ⟨rfl, rfl⟩

/-- Lines of other tests make no difference between two runs that nothing disturbs. -/
theorem unchanged_of_undisturbed {depth : Nat} {outcome other : TestOutcome φ}
    (test : outcome.testId = other.testId) (undisturbed : Undisturbed depth outcome)
    (undisturbed' : Undisturbed depth other)
    (inserted : Inserted (Foreign φ depth outcome.testId) outcome.serialLog other.serialLog) :
    Unchanged depth outcome other := by
  have ends : ownEnds depth outcome.testId outcome.serialLog =
      (ownEnds depth other.testId other.serialLog : List (List (Str × Json φ))) := by
    rw [ownEnds, ownEnds, testEnds, testEnds, List.filter_filterMap, List.filter_filterMap, ← test]
    exact inserted.filterMap_eq fun line foreign => (foreign_own foreign).1
  have ownStatus := (lastStatus_own_iff _ outcome.testId).mpr undisturbed.ended
  have ownStatus' := (lastStatus_own_iff _ other.testId).mpr undisturbed'.ended
  refine ⟨fun obj isLast => ?_, fun started => ?_⟩
  · calc
      statusOf obj = lastStatus (testEnds depth other.serialLog) := (lastStatus_of_last isLast).symm
      _ = lastStatus (ownEnds depth other.testId other.serialLog) := ownStatus'
      _ = lastStatus (ownEnds depth outcome.testId outcome.serialLog) := by rw [ends]
      _ = lastStatus (testEnds depth outcome.serialLog) := ownStatus.symm
  · obtain ⟨line, member, test', isStart⟩ := started
    obtain rfl := (undisturbed'.started line member test' isStart).trans test.symm
    obtain ⟨line, member, isStart⟩ := (inserted.exists_iff fun line foreign =>
      (foreign_own foreign).2.1).mpr ⟨line, member, isStart⟩
    exact ⟨line, member, _, isStart⟩

/-- On the stop of its test and without a sleep, `monitor` returns an outcome of the test's own
if and only if no other test disturbs it; and lines of other tests make no difference to it if
and only if the last `test_end` gives the same status with them, and no test starts with them
where none started without. -/
theorem outcomes_iff (depth : Nat) :
    (∀ (ω : Type) (env : Environment φ ω) (call : Monitoring φ ω) (outcome : TestOutcome φ),
      ReturnedOnStop env call depth outcome →
        (Own env call depth outcome ↔ Undisturbed depth outcome)) ∧
    ∀ (ω ω' : Type) (env : Environment φ ω) (env' : Environment φ ω') (call : Monitoring φ ω)
      (call' : Monitoring φ ω') (outcome other : TestOutcome φ),
      ReturnedOnStop env call depth outcome → ReturnedOnStop env' call' depth other →
      outcome.testId = other.testId →
      Inserted (Foreign φ depth outcome.testId) outcome.serialLog other.serialLog →
        (SameOutcome outcome other ↔ Unchanged depth outcome other) := by
  constructor
  · intro ω env call outcome returned
    obtain ⟨fuel, session, after, ran⟩ := returned.1
    exact own_iff env call session (replays_of_returned returned)
  · intro ω ω' env env' call call' outcome other returned returned' test inserted
    exact same_iff_unchanged test (replays_of_returned returned) (replays_of_returned returned')
      inserted

/-! ## Runs on given lines -/

instance (depth : Nat) (outcome : TestOutcome φ) : Decidable (Slept depth outcome) :=
  decidable_of_iff (∃ line ∈ outcome.serialLog,
    ((payloadIn φ depth line).any fun payload => (str "SLEEP:").isPrefixOf payload) = true) (by
      simp only [Option.any_eq_true, Slept, IsSleep])

instance (outcome : TestOutcome φ) (name : Str) : Decidable (outcome.Marked name) :=
  inferInstanceAs (Decidable (_ ∈ _))

def callA : Monitoring Micro Script :=
  { testId := str "a", timeout := ⟨1000000⟩, portPollInterval := ⟨0⟩ }

/-- A device that prints the lines. -/
def printing (lines : List String) : Script :=
  { chunks := lines.map fun line => Utf8.encode (line ++ "\n").toList, answers := [] }

/-- A run of the test `a` on the lines. -/
def runOn (lines : List String) :
    Except Stop (TestOutcome Micro) × TestSession Micro Script :=
  run (monitor scripted callA 3 20) { environment := printing lines }

def outcomeOn (lines : List String) : TestOutcome Micro :=
  match (runOn lines).1 with
  | .ok outcome => outcome
  | .error _ => { testId := [] }

theorem returnedOnStop_outcomeOn {lines : List String}
    (stopped : (outcomeOn lines).Marked (str "TEST_STOPPED"))
    (unslept : ¬ Slept 3 (outcomeOn lines)) :
    ReturnedOnStop scripted callA 3 (outcomeOn lines) := by
  refine ⟨⟨20, { environment := printing lines }, (runOn lines).2, ?_⟩, stopped, unslept⟩
  unfold outcomeOn at stopped ⊢
  cases ran : (runOn lines).1 with
  | ok outcome => exact Prod.ext ran rfl
  | error stop =>
    rw [ran] at stopped
    cases stopped

/-- The lines of a test that fails. -/
def failing : List String :=
  ["T=1 TEST_STARTED:a", "\x7b\"type\":\"test_end\",\"id\":\"a\",\"status\":\"fail\"\x7d",
    "T=2 TEST_STOPPED:a"]

/-- The same lines among those of a test `b`, which ends before. -/
def failingAfter : List String :=
  ["T=1 TEST_STARTED:a", "\x7b\"type\":\"test_end\",\"id\":\"b\"\x7d", "T=2 TEST_STOPPED:b",
    "\x7b\"type\":\"test_end\",\"id\":\"a\",\"status\":\"fail\"\x7d", "T=2 TEST_STOPPED:a"]

/-- The same, when `b` ends afterwards. -/
def failingBefore : List String :=
  ["T=1 TEST_STARTED:a", "\x7b\"type\":\"test_end\",\"id\":\"a\",\"status\":\"fail\"\x7d",
    "\x7b\"type\":\"test_end\",\"id\":\"b\"\x7d", "T=2 TEST_STOPPED:a"]

/-- The lines of a test after whose start a test `b` starts. -/
def startedBefore : List String :=
  ["T=1 TEST_STARTED:a", "T=2 TEST_STARTED:b", "T=3 TEST_STOPPED:a"]

theorem undisturbed_of_last {depth : Nat} {outcome : TestOutcome φ}
    (last : ((testEnds depth outcome.serialLog).getLast?.all
      (isOwn (φ := φ) outcome.testId)) = true)
    (started : (outcome.serialLog.all fun line => (payloadIn φ depth line).all fun payload =>
      !(str "TEST_STARTED:").isPrefixOf payload || payload == startMarker outcome.testId) = true) :
    Undisturbed depth outcome := by
  refine ⟨fun obj isLast => .inl ?_, fun line member other isStart => ?_⟩
  · rw [isLast] at last
    exact last
  · have own := List.all_eq_true.mp started line member
    rw [isStart, Option.all_some, isPrefixOf_startMarker, Bool.not_true, Bool.false_or, beq_iff_eq] at own
    exact List.append_cancel_left own

theorem foreign_of_end {depth : Nat} {testId line : Str}
    (ended : ((testEnd depth line).any fun obj : List (Str × Json φ) => !isOwn testId obj) = true) :
    Foreign φ depth testId line := by
  obtain ⟨obj, isEnd, notOwn⟩ := (Option.any_eq_true _ _).mp ended
  exact .inl ⟨obj, isEnd, by simpa using notOwn⟩

theorem outcomes_iff_failing :
    Own scripted callA 3 (outcomeOn failing) ∧
      SameOutcome (outcomeOn failing) (outcomeOn failingAfter) := by
  -- each run is evaluated once
  have ran : (outcomeOn failing).Marked (str "TEST_STOPPED") ∧ ¬ Slept 3 (outcomeOn failing) ∧
      (outcomeOn failing).serialLog = failing.map str ∧ (outcomeOn failing).testId = str "a" := by
    decide +kernel
  have ran' : (outcomeOn failingAfter).Marked (str "TEST_STOPPED") ∧
      ¬ Slept 3 (outcomeOn failingAfter) ∧
      (outcomeOn failingAfter).serialLog = failingAfter.map str ∧
      (outcomeOn failingAfter).testId = str "a" := by
    decide +kernel
  obtain ⟨stopped, unslept, log, test⟩ := ran
  obtain ⟨stopped', unslept', log', test'⟩ := ran'
  have undisturbed : Undisturbed 3 (outcomeOn failing) := by
    refine undisturbed_of_last ?_ ?_
    · rw [log, test]
      decide +kernel
    · rw [log, test]
      decide +kernel
  have undisturbed' : Undisturbed 3 (outcomeOn failingAfter) := by
    refine undisturbed_of_last ?_ ?_
    · rw [log', test']
      decide +kernel
    · rw [log', test']
      decide +kernel
  have inserted : Inserted (Foreign Micro 3 (outcomeOn failing).testId)
      (outcomeOn failing).serialLog (outcomeOn failingAfter).serialLog := by
    rw [log, log', test]
    refine .keep (.insert (foreign_of_end (by decide +kernel)) (.insert (.inr ?_)
      (.keep (.keep .nil))))
    exact ⟨str "b", by decide +kernel, .inr (by decide +kernel)⟩
  have returned := returnedOnStop_outcomeOn stopped unslept
  have returned' := returnedOnStop_outcomeOn stopped' unslept'
  have same := test.trans test'.symm
  exact ⟨((outcomes_iff 3).1 _ scripted callA _ returned).mpr undisturbed,
    ((outcomes_iff 3).2 _ _ scripted scripted callA callA _ _ returned returned' same inserted).mpr
      (unchanged_of_undisturbed same undisturbed undisturbed' inserted)⟩

/-- The `test_end` of another test, after the own one: a failure becomes a success.  The start
of another test, after the own one: it sets the marker. -/
theorem outcomes_disturbed :
    (ReturnedOnStop scripted callA 3 (outcomeOn failingBefore) ∧
      ¬ Own scripted callA 3 (outcomeOn failingBefore)) ∧
    ReturnedOnStop scripted callA 3 (outcomeOn startedBefore) ∧
      ¬ Own scripted callA 3 (outcomeOn startedBefore) := by
  have ran : (outcomeOn failingBefore).Marked (str "TEST_STOPPED") ∧
      ¬ Slept 3 (outcomeOn failingBefore) ∧
      (outcomeOn failingBefore).serialLog = failingBefore.map str ∧
      (outcomeOn failingBefore).testId = str "a" ∧
      (outcomeOn failingBefore).status.isStr (str "ok") = true := by
    decide +kernel
  have ran' : (outcomeOn startedBefore).Marked (str "TEST_STOPPED") ∧
      ¬ Slept 3 (outcomeOn startedBefore) ∧
      (outcomeOn startedBefore).serialLog = startedBefore.map str ∧
      (outcomeOn startedBefore).testId = str "a" := by
    decide +kernel
  obtain ⟨stopped, unslept, log, test, status⟩ := ran
  obtain ⟨stopped', unslept', log', test'⟩ := ran'
  refine ⟨⟨returnedOnStop_outcomeOn stopped unslept, fun own => ?_⟩,
    returnedOnStop_outcomeOn stopped' unslept', fun own => ?_⟩
  · have last := own.status
    rw [log, test] at last
    rw [last] at status
    exact absurd status (by decide +kernel)
  · have member : str "T=2 TEST_STARTED:b" ∈ (outcomeOn startedBefore).serialLog := by
      rw [log']
      decide +kernel
    have isStart : payloadIn Micro 3 (str "T=2 TEST_STARTED:b") = some (startMarker (str "b")) := by
      decide +kernel
    have isOwn := own.set _ member ((sets_started_iff scripted callA
      { environment := printing [] }).mpr ⟨_, isStart⟩)
    rw [isStart, test'] at isOwn
    exact absurd isOwn (by decide)

end EmbeddedBridge.Python.TestSession
