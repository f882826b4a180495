import EmbeddedBridge.Library.Settling
import EmbeddedBridge.Verified.SessionLines

/-! # Every call ends

Each loop of a session looks at the clock.  So if the clock gets past the deadlines that the
timeouts of the calls have, whatever else the session does, every call ends, and how it ends does
not depend on how many turns its loops are given.
-/

namespace EmbeddedBridge.Python.TestSession

open Library Py Methods

variable {φ ω α : Type} [PyFloat φ]

/-- The clock gets past the deadline after as many readings at most, and nothing else that is
called puts it back. -/
structure Passing (env : Environment φ ω) (detectors : List (ω → Option Str × ω)) (deadline : φ)
    (left : ω → Nat) : Prop extends Passes env deadline left where
  sleep : ∀ seconds world, left (env.sleep seconds world).2 ≤ left world
  write : ∀ data world, left (env.write data world).2 ≤ left world
  connect : ∀ world, left (env.connect world).2 ≤ left world
  disconnect : ∀ world, left (env.disconnect world).2 ≤ left world
  portPath : ∀ world, left (env.portPath world).2 ≤ left world
  pathExists : ∀ path world, left (env.pathExists path world).2 ≤ left world
  detect : ∀ detect ∈ detectors, ∀ world, left (detect world).2 ≤ left world

/-- And past every deadline that these timeouts can have. -/
def RunsOn (env : Environment φ ω) (timeouts : List φ) (detectors : List (ω → Option Str × ω)) :
    Prop :=
  ∀ timeout ∈ timeouts, ∀ world, ∃ left,
    Passing env detectors (PyFloat.add (env.clock world).1 timeout) left

/-- Past every deadline of one timeout. -/
def RunsOut (env : Environment φ ω) (timeout : φ) : Prop :=
  ∀ world, ∃ left, Passes env (PyFloat.add (env.clock world).1 timeout) left

theorem runsOut_of_runsOn {env : Environment φ ω} {timeouts : List φ}
    {detectors : List (ω → Option Str × ω)} (runs : RunsOn env timeouts detectors) {timeout : φ}
    (member : timeout ∈ timeouts) : RunsOut env timeout := by
  intro world
  obtain ⟨left, passing⟩ := runs timeout member world
  exact ⟨left, passing.toPasses⟩

/-! ## Waiting for an answer -/

section Waiting

variable {env : Environment φ ω} {answer : Str → Except DiscoverStop (Option α)}

theorem readLine_settles {timeout : φ} (reads : RunsOut env timeout) {deadline : φ}
    {left : ω → Nat} (passes : Passes env deadline left) (session : TestSession φ ω) :
    ∃ line after, Settles (readLine env timeout) session (.ok line, after) ∧
      left after.environment ≤ left session.environment := by
  obtain ⟨left', passes'⟩ := reads session.environment
  let session' : TestSession φ ω :=
    { session with environment := (env.clock session.environment).2 }
  obtain ⟨line, after, ends, later⟩ := readLineLoop_ends timeout session' passes'
  refine ⟨line, after, ⟨left' session'.environment, fun fuel enough => ?_⟩,
    (later _ _ passes).trans (passes.later _)⟩
  rw [readLine, run_bind_ok _ (run_clock session)]
  exact ends fuel enough

/-- The loop ends with an answer, or when the time is up. -/
theorem awaitLoop_settles (reads : RunsOut env (PyFloat.literal 5 1)) {deadline : φ}
    {left : ω → Nat} (passes : Passes env deadline left)
    (own : ∀ line stop, answer line = .error stop → stop ≠ .session .cutOff) (message : Str)
    (session : TestSession φ ω) :
    ∃ outcome, Settles (awaitLoop env answer message deadline) session outcome ∧
      outcome.1 ≠ .error (.session .cutOff) := by
  induction count : left session.environment using Nat.strong_induction_on generalizing session
    with
  | _ bound inductionHypothesis =>
    let now := (env.clock session.environment).1
    let session' : TestSession φ ω :=
      { session with environment := (env.clock session.environment).2 }
    have asked : Settles (fun _ => (part (clock env) : Discovering φ ω φ)) session
        (.ok now, session') := ⟨0, fun _ _ => run_part_ok (run_clock session)⟩
    cases early : PyFloat.lt now deadline with
    | false =>
      refine ⟨(.error (.timeoutError message), session'), .turn (asked.bind ?_), nofun⟩
      rw [early]
      exact .const _ _
    | true =>
      obtain ⟨line, after, reads, later⟩ :=
        readLine_settles reads passes session'
      have fewer : left after.environment < bound := by
        have below := passes.clock session.environment early
        have later' : left session'.environment = left (env.clock session.environment).2 := rfl
        omega
      obtain ⟨outcome, ends, uncut⟩ := inductionHypothesis _ fewer after rfl
      have heard : Settles (fun fuel => (part (readLine env (PyFloat.literal 5 1) fuel) :
          Discovering φ ω (Option Str))) session' (.ok line, after) := reads.adapt_ok
      cases line with
      | none =>
        refine ⟨outcome, .turn (asked.bind ?_), uncut⟩
        simp only [now, early, ↓reduceIte]
        exact heard.bind ends
      | some line =>
        cases answered : answer line with
        | error stop =>
          refine ⟨(.error stop, after), .turn (asked.bind ?_), ?_⟩
          · simp only [now, early, ↓reduceIte]
            refine heard.bind ?_
            simp only [answered]
            exact .const _ _
          · intro cutOff
            exact own line stop answered (Except.error.inj cutOff)
        | ok result =>
          have answers : Settles (fun _ => (MonadExcept.ofExcept (answer line) :
              Discovering φ ω (Option α))) after (.ok result, after) := by
            refine ⟨0, fun _ _ => ?_⟩
            rw [run_ofExcept, answered]
          cases result with
          | none =>
            refine ⟨outcome, .turn (asked.bind ?_), uncut⟩
            simp only [now, early, ↓reduceIte]
            exact heard.bind (answers.bind ends)
          | some result =>
            refine ⟨(.ok result, after), .turn (asked.bind ?_), nofun⟩
            simp only [now, early, ↓reduceIte]
            exact heard.bind (answers.bind (.const _ _))

end Waiting

/-! ## Monitoring -/

section Monitoring

variable {env : Environment φ ω} {call : Monitoring φ ω} {deadline : φ} {left : ω → Nat}

/-- As many readings of the clock are left, at most. -/
def Within (left : ω → Nat) (bound : Nat) (session : TestSession φ ω) : Prop :=
  left session.environment ≤ bound

/-- The method does not put the clock back, and is not cut off. -/
def Timely (left : ω → Nat) (method : Method φ ω α) : Prop :=
  ∀ bound, Ensures (Within left bound) method (fun _ => Within left bound)
    fun stop session => stop ≠ .cutOff ∧ Within left bound session

theorem plain_timely (passing : Passing env call.sleepDetector.toList deadline left)
    {method : Method φ ω α} (plain : Plain env call.sleepDetector method) : Timely left method := by
  intro bound
  refine plain.ensures fun basic session within => ?_
  cases basic with
  | clock => exact (passing.later _).trans within
  | sleep seconds => exact (passing.sleep seconds _).trans within
  | write data => exact (passing.write data _).trans within
  | connect => exact (passing.connect _).trans within
  | disconnect => exact (passing.disconnect _).trans within
  | portPath => exact (passing.portPath _).trans within
  | pathExists path => exact (passing.pathExists path _).trans within
  | detect given => exact (passing.detect _ (by rw [given]; exact List.mem_cons_self) _).trans within
  | emit noRead noReconnect noWrite => exact within

theorem sleepTurn_timely (passing : Passing env call.sleepDetector.toList deadline left)
    (monitor : Monitor φ) : Timely left (sleepTurn env call monitor) := by
  intro bound
  refine sleepTurn_keeps env call monitor (fun plain => plain_timely passing plain bound) ?_
  have plain {α : Type} {method : Method φ ω α} (plain : Plain env call.sleepDetector method) :=
    plain_timely passing plain bound
  have begins : Ensures (Within left bound) (emit .reconnect : Method φ ω Unit)
      (fun _ => Within left bound) fun stop session => stop ≠ .cutOff ∧ Within left bound session :=
    fun _ within => within
  have resets : Ensures (Within left bound) (modify fun session =>
      { session with decoder := .start, lineBuf := [] } : Method φ ω Unit)
      (fun _ => Within left bound) fun stop session => stop ≠ .cutOff ∧ Within left bound session :=
    fun _ within => within
  exact begins.bind fun _ => (plain (disconnect_plain env)).bind fun _ => resets.bind fun _ =>
    plain (reconnectAttempts_plain env _ 10)

omit [PyFloat φ] in
/-- A method without a loop settles at once. -/
theorem settles_timely {method : Method φ ω α} (timely : Timely left method)
    (session : TestSession φ ω) :
    ∃ outcome, Settles (fun _ => method) session outcome ∧ outcome.1 ≠ .error .cutOff ∧
      left outcome.2.environment ≤ left session.environment := by
  refine ⟨run method session, .const method session, ?_⟩
  have holds := timely (left session.environment) session (Nat.le_refl _)
  cases ran : run method session with
  | mk outcome after =>
    rw [ran] at holds
    cases outcome with
    | ok result => exact ⟨nofun, holds⟩
    | error stop => exact ⟨fun cutOff => holds.1 (Except.error.inj cutOff), holds.2⟩

theorem turn_settles (reads : RunsOut env (PyFloat.literal 5 1))
    (passing : Passing env call.sleepDetector.toList deadline left) (depth : Nat)
    (monitor : Monitor φ) (session : TestSession φ ω) :
    ∃ outcome, Settles (fun fuel => turn env call depth fuel monitor) session outcome ∧
      outcome.1 ≠ .error .cutOff ∧ left outcome.2.environment ≤ left session.environment := by
  cases asleep : monitor.sleeping with
  | true =>
    simp only [turn, asleep, ↓reduceIte]
    exact settles_timely (sleepTurn_timely passing monitor) session
  | false =>
    have isRead (fuel : Nat) : turn env call depth fuel monitor =
        readTurn env call depth fuel monitor := by
      rw [turn, asleep]
      rfl
    simp only [isRead, readTurn]
    obtain ⟨line, after, read, later⟩ := readLine_settles reads passing.toPasses session
    cases line with
    | none => exact ⟨_, read.bind (.const _ _), nofun, later⟩
    | some line =>
      obtain ⟨outcome, settles, uncut, later'⟩ := settles_timely
        (plain_timely passing (lineTurn_plain env call.sleepDetector call
          { monitor with outcome := monitor.outcome.log line } depth line)) after
      exact ⟨outcome, read.bind settles, uncut, later'.trans later⟩

theorem monitorLoop_settles (reads : RunsOut env (PyFloat.literal 5 1))
    (passing : Passing env call.sleepDetector.toList deadline left) (depth : Nat)
    (monitor : Monitor φ) (session : TestSession φ ω) :
    ∃ outcome, Settles (fun fuel => monitorLoop env call depth deadline fuel monitor) session outcome ∧
      outcome.1 ≠ .error .cutOff := by
  induction count : left session.environment using Nat.strong_induction_on
    generalizing session monitor with
  | _ bound inductionHypothesis =>
    let now := (env.clock session.environment).1
    let session' : TestSession φ ω :=
      { session with environment := (env.clock session.environment).2 }
    have asked : Settles (fun _ => clock env) session (.ok now, session') :=
      ⟨0, fun _ _ => run_clock session⟩
    cases early : PyFloat.lt now deadline with
    | false =>
      refine ⟨(.ok (monitor.outcome.fail (str "Test did not complete within " ++
        PyFloat.toStr call.timeout ++ str "s") (str "timeout")), session'),
        .turn (asked.bind ?_), nofun⟩
      simp only [now, early, Bool.false_eq_true, ↓reduceIte]
      exact .const _ _
    | true =>
      obtain ⟨⟨outcome, after⟩, settles, uncut, later⟩ :=
        turn_settles reads passing depth monitor session'
      have fewer : left after.environment < bound := by
        have below := passing.clock session.environment early
        have later' : left session'.environment = left (env.clock session.environment).2 := rfl
        dsimp only at later
        omega
      cases outcome with
      | error stop =>
        refine ⟨(.error stop, after), .turn (asked.bind ?_),
          fun cutOff => uncut (congrArg Except.error (Except.error.inj cutOff))⟩
        simp only [now, early, ↓reduceIte]
        exact settles.bind_error
      | ok turned =>
        cases turned with
        | finished outcome =>
          refine ⟨(.ok outcome, after), .turn (asked.bind ?_), nofun⟩
          simp only [now, early, ↓reduceIte]
          exact settles.bind (.const _ _)
        | goOn next =>
          obtain ⟨outcome, ends, uncut'⟩ := inductionHypothesis _ fewer next after rfl
          refine ⟨outcome, .turn (asked.bind ?_), uncut'⟩
          simp only [now, early, ↓reduceIte]
          exact settles.bind ends

end Monitoring

/-! ## Main result -/

/-- The call has been cut off. -/
def Answer.CutOff : Answer φ → Prop
  | .discovered result => result = .error (.session .cutOff)
  | .started _ result => result = .error (.session .cutOff)
  | .monitored result => result = .error .cutOff

section Calls

variable {env : Environment φ ω} (depth : Nat)

theorem RunsOn.mono {timeouts moreTimeouts : List φ} {detectors more : List (ω → Option Str × ω)}
    (runs : RunsOn env moreTimeouts more) (fewerTimeouts : timeouts ⊆ moreTimeouts)
    (fewer : detectors ⊆ more) : RunsOn env timeouts detectors := by
  intro timeout member world
  obtain ⟨left, passing⟩ := runs timeout (fewerTimeouts member) world
  exact ⟨left, { passing with detect := fun detect given => passing.detect detect (fewer given) }⟩

/-- The timeouts of a call: its own, and that of reading a line. -/
def Call.timeouts : Call φ ω → List φ
  | .discover timeout => [timeout, PyFloat.literal 5 1]
  | .startTest _ timeout _ => [timeout, PyFloat.literal 5 1]
  | .monitor monitoring => [monitoring.timeout, PyFloat.literal 5 1]

theorem own_of_catalogIn (line : Str) (stop : DiscoverStop)
    (raises : (catalogIn depth line : Except DiscoverStop (Option (List (TestInfo φ)))) =
      .error stop) : stop ≠ .session .cutOff := by
  have decides : decided φ depth line = some (.error stop) := by simp only [decided, raises]
  have foreign : stop.IsForeign := foreign_of_decided decides
  rintro rfl
  exact foreign

theorem own_of_startedIn (testId line : Str) (stop : DiscoverStop)
    (raises : startedIn φ testId line = .error stop) : stop ≠ .session .cutOff := by
  unfold startedIn at raises
  cases marker : (parseMarker line : Except Raised (Option (φ × Str))) with
  | error error =>
    rw [marker] at raises
    cases raises
    nofun
  | ok found =>
    rw [marker] at raises
    cases found with
    | none => cases raises
    | some found => cases raises

theorem asked_settles {answer : Str → Except DiscoverStop (Option α)}
    (reads : RunsOut env (PyFloat.literal 5 1)) {timeout : φ} (ends : RunsOut env timeout)
    (own : ∀ line stop, answer line = .error stop → stop ≠ .session .cutOff) (data : List UInt8)
    (message : Str) (session : TestSession φ ω) :
    ∃ outcome, Settles (fun fuel => do
        if ← part (write env data) then do
          let now ← part (clock env)
          awaitLoop env answer message (PyFloat.add now timeout) fuel
        else throw (.session .foreign)) session outcome ∧
      outcome.1 ≠ .error (.session .cutOff) := by
  have wrote : Settles (fun _ => (part (write env data) : Discovering φ ω Bool)) session
      (.ok (env.write data session.environment).1, (run (write env data) session).2) :=
    ⟨0, fun _ _ => run_part_ok rfl⟩
  cases done : (env.write data session.environment).1 with
  | false =>
    rw [done] at wrote
    exact ⟨(.error (.session .foreign), _), wrote.bind (.const _ _), nofun⟩
  | true =>
    rw [done] at wrote
    generalize (run (write env data) session).2 = session' at wrote
    have asked : Settles (fun _ => (part (clock env) : Discovering φ ω φ)) session'
        (.ok _, _) := ⟨0, fun _ _ => run_part_ok (run_clock session')⟩
    obtain ⟨left, passes⟩ := ends session'.environment
    obtain ⟨outcome, settles, uncut⟩ := awaitLoop_settles reads passes own message _
    exact ⟨outcome, wrote.bind (asked.bind settles), uncut⟩

theorem callOn_settles (call : Call φ ω) (runs : RunsOn env call.timeouts call.detector.toList)
    (session : TestSession φ ω) : ∃ answer after, ¬ answer.CutOff ∧
      ∃ enough, ∀ fuel, enough < fuel → callOn env depth session (call, fuel) = (after, [answer]) := by
  cases call with
  | discover timeout =>
    have own : ∀ line stop,
        (catalogIn depth line : Except DiscoverStop (Option (List (TestInfo φ)))) = .error stop →
          stop ≠ .session .cutOff := own_of_catalogIn depth
    obtain ⟨outcome, ⟨enough, ends⟩, uncut⟩ := asked_settles
      (runsOut_of_runsOn runs (List.mem_cons_of_mem _ (List.mem_singleton.mpr rfl)))
      (runsOut_of_runsOn runs List.mem_cons_self) own SOH
      (str "No test_catalog received within " ++ PyFloat.toStr timeout ++ str "s") session
    refine ⟨.discovered outcome.1, outcome.2, uncut, enough, fun fuel longer => ?_⟩
    have same := ends fuel longer
    simp only [← discoverLoop_eq] at same
    simp only [callOn, discover, same]
  | startTest testId timeout params =>
    simp only [callOn, startTest]
    cases command depth testId params with
    | error error =>
      refine ⟨.started testId (.error (.session (.raised error))), session, ?_, 0, fun _ _ => rfl⟩
      intro cutOff
      cases cutOff
    | ok cmd =>
      have own : ∀ line stop, startedIn φ testId line = .error stop → stop ≠ .session .cutOff :=
        own_of_startedIn testId
      obtain ⟨outcome, ⟨enough, ends⟩, uncut⟩ := asked_settles
        (runsOut_of_runsOn runs (List.mem_cons_of_mem _ (List.mem_singleton.mpr rfl)))
        (runsOut_of_runsOn runs List.mem_cons_self) own cmd
        (str "TEST_STARTED:" ++ testId ++ str " not received within " ++ PyFloat.toStr timeout ++
          str "s") session
      refine ⟨.started testId outcome.1, outcome.2, uncut, enough, fun fuel longer => ?_⟩
      exact Prod.ext (congrArg Prod.snd (ends fuel longer))
        (congrArg (fun ran => [Answer.started testId ran.1]) (ends fuel longer))
  | monitor monitoring =>
    have asked : Settles (fun _ => clock env) session (.ok _, _) :=
      ⟨0, fun _ _ => run_clock session⟩
    obtain ⟨left, passing⟩ := runs monitoring.timeout List.mem_cons_self session.environment
    obtain ⟨outcome, loop, uncut⟩ := monitorLoop_settles
      (runsOut_of_runsOn runs (List.mem_cons_of_mem _ (List.mem_singleton.mpr rfl))) passing depth
      { outcome := { testId := monitoring.testId } } _
    have both : Settles (monitor env monitoring depth) session outcome := asked.bind loop
    obtain ⟨enough, ends⟩ := both
    refine ⟨.monitored outcome.1, outcome.2, uncut, enough, fun fuel longer => ?_⟩
    simp only [callOn, ends fuel longer]

/-- If the clock gets past every deadline that the calls have, every call of a session ends: it
returns or raises, the same however many turns more its loops are given. -/
theorem calls_end (calls : List (Call φ ω))
    (runs : RunsOn env (calls.flatMap Call.timeouts)
      (calls.flatMap fun call => call.detector.toList))
    (session : TestSession φ ω) :
    ∃ after answers enough, answers.length = calls.length ∧ (∀ answer ∈ answers, ¬ answer.CutOff) ∧
      ∀ asked : List (Call φ ω × Nat), asked.map Prod.fst = calls →
        (∀ call ∈ asked, enough < call.2) →
          Transducer.run (callOn env depth) session asked = (after, answers) := by
  refine run_settles calls (fun call given session => callOn_settles depth call ?_ session) session
  exact runs.mono (fun timeout member => List.mem_flatMap.mpr ⟨call, given, member⟩)
    fun detect member => List.mem_flatMap.mpr ⟨call, given, member⟩

/-- A clock that goes on, and a detector that has no part in it. -/
theorem runsOn_scripted (timeouts : List Micro) :
    RunsOn scripted timeouts [fun script : Script => (some (str "active"), script)] := by
  intro timeout _ world
  obtain ⟨left, passes⟩ := runs_scripted (PyFloat.add (scripted.clock world).1 timeout)
  refine ⟨left, { passes with
    sleep := fun _ _ => le_refl _
    write := fun _ _ => le_refl _
    connect := fun _ => le_refl _
    disconnect := fun _ => le_refl _
    portPath := fun _ => le_refl _
    pathExists := fun _ _ => le_refl _
    detect := ?_ }⟩
  intro detect given world
  rw [List.mem_singleton.mp given]

/-- A test that is discovered, started and monitored. -/
def someCalls : List (Call Micro Script) :=
  [.discover ⟨3⟩, .startTest (str "a") ⟨3⟩ none,
    .monitor { testId := str "a", timeout := ⟨3⟩, portPollInterval := ⟨1⟩
               sleepDetector := some fun script => (some (str "active"), script) }]

theorem calls_end_someCalls :
    ∃ after answers enough, answers.length = 3 ∧ (∀ answer ∈ answers, ¬ answer.CutOff) ∧
      ∀ asked : List (Call Micro Script × Nat), asked.map Prod.fst = someCalls →
        (∀ call ∈ asked, enough < call.2) →
          Transducer.run (callOn scripted 4) { environment := { chunks := [], answers := [] } }
            asked = (after, answers) :=
  calls_end 4 someCalls (runsOn_scripted _) { environment := { chunks := [], answers := [] } }

end Calls

end EmbeddedBridge.Python.TestSession
