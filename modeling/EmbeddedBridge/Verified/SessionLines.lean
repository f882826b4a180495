import EmbeddedBridge.Testing.Start
import EmbeddedBridge.Verified.LineReading
import EmbeddedBridge.Verified.SessionSteps
import EmbeddedBridge.Verified.TestOutcomes

/-! # Which call a line goes to

Discovery, the start of a test and monitoring read from one buffer.  Each line that the device
has sent goes to one call, in order, and none is left out: `discover` and `start_test` take
lines up to the one that answers them, and what `monitor` takes is its log.  Only when the
session reconnects after a sleep, what it has not taken of the old connection is dropped.
-/

namespace EmbeddedBridge.Python.TestSession

open Library Py Methods

variable {φ ω α : Type}

/-! ## Connections -/

/-- A call that has no part in what is read. -/
def aside (action : ω → α × ω) (world : ω × List (List UInt8)) : α × ω × List (List UInt8) :=
  ((action world.1).1, (action world.1).2, world.2)

/-- An environment that keeps what each call of `read` has returned, too. -/
def noting (env : Environment φ ω) : Environment φ (ω × List (List UInt8)) where
  clock := aside env.clock
  sleep seconds := aside (env.sleep seconds)
  read timeout world :=
    let answered := env.read timeout world.1
    (answered.1, answered.2, world.2 ++ [answered.1.getD []])
  write data := aside (env.write data)
  connect := aside env.connect
  disconnect := aside env.disconnect
  portPath := aside env.portPath
  pathExists path := aside (env.pathExists path)

/-- What has been read, by connection: those that are over, and the last. -/
inductive Connections :
    List (Event φ) → List (List UInt8) → List (List UInt8) → List UInt8 → Prop where
  | start : Connections [] [] [] []
  | read {trace : List (Event φ)} {reads past : List (List UInt8)} {bytes : List UInt8}
      (before : Connections trace reads past bytes) (data : List UInt8) :
      Connections (trace ++ [.read]) (reads ++ [data]) past (bytes ++ data)
  | reconnect {trace : List (Event φ)} {reads past : List (List UInt8)} {bytes : List UInt8}
      (before : Connections trace reads past bytes) :
      Connections (trace ++ [.reconnect]) reads (past ++ [bytes]) []
  | other {trace : List (Event φ)} {reads past : List (List UInt8)} {bytes : List UInt8}
      {event : Event φ} (before : Connections trace reads past bytes) (noRead : event ≠ .read)
      (noReconnect : event ≠ .reconnect) : Connections (trace ++ [event]) reads past bytes

/-- The lines of some bytes. -/
def linesOf (bytes : List UInt8) : List Str := shown (ofChars (Utf8.decode bytes))

/-- Of each connection that is over, lines from its beginning have been taken. -/
inductive TakenOf : List (List UInt8) → List Str → Prop where
  | none : TakenOf [] []
  | more {past : List (List UInt8)} {lines taken : List Str} {bytes : List UInt8}
      (before : TakenOf past lines) (begins : taken <+: linesOf bytes) :
      TakenOf (past ++ [bytes]) (lines ++ taken)

/-- Where the lines that have been taken come from, what is in the buffer being the rest. -/
structure Accounted (trace : List (Event φ)) (reads : List (List UInt8)) (buffered taken : List Str) :
    Prop where
  connections : ∃ past bytes earlier current, Connections trace reads past bytes ∧
    TakenOf past earlier ∧ taken = earlier ++ current ∧ current ++ buffered = linesOf bytes

/-! ## Between calls -/

/-- The last connection is the one that the decoder and the buffer are about. -/
def Accounts (taken : List Str) (session : TestSession φ (ω × List (List UInt8))) : Prop :=
  ∃ past bytes earlier current, Connections session.trace session.environment.2 past bytes ∧
    TakenOf past earlier ∧ taken = earlier ++ current ∧ Kept bytes current session

theorem linesOf_kept {bytes : List UInt8} {current : List Str} {session : TestSession φ ω}
    (kept : Kept bytes current session) : current ++ shown session.lineBuf = linesOf bytes := by
  obtain ⟨decoder, text, decoded, ended, shows⟩ := kept
  rw [linesOf, (decode_lines bytes).1, decoded, shown_append ended, shows]

theorem accounted_of_accounts {taken : List Str} {session : TestSession φ (ω × List (List UInt8))}
    (accounts : Accounts taken session) :
    Accounted session.trace session.environment.2 (shown session.lineBuf) taken := by
  obtain ⟨past, bytes, earlier, current, connections, takenOf, split, kept⟩ := accounts
  exact ⟨past, bytes, earlier, current, connections, takenOf, split, linesOf_kept kept⟩

/-! ## What takes no line -/

/-- Nothing is read, and the connection stays. -/
structure Aside (before after : TestSession φ (ω × List (List UInt8))) : Prop where
  decoder : after.decoder = before.decoder
  lineBuf : after.lineBuf = before.lineBuf
  reads : after.environment.2 = before.environment.2
  events : ∃ events, after.trace = before.trace ++ events ∧
    ∀ event ∈ events, event ≠ .read ∧ event ≠ .reconnect

theorem connections_aside {trace events : List (Event φ)} {reads past : List (List UInt8)}
    {bytes : List UInt8} (before : Connections trace reads past bytes)
    (plain : ∀ event ∈ events, event ≠ .read ∧ event ≠ .reconnect) :
    Connections (trace ++ events) reads past bytes := by
  induction events generalizing trace with
  | nil => rwa [List.append_nil]
  | cons event events inductionHypothesis =>
    obtain ⟨here, later⟩ := List.forall_mem_cons.mp plain
    rw [List.append_cons]
    exact inductionHypothesis (before.other here.1 here.2) later

theorem accounts_aside {taken : List Str} {before after : TestSession φ (ω × List (List UInt8))}
    (aside : Aside before after) (accounts : Accounts taken before) : Accounts taken after := by
  obtain ⟨past, bytes, earlier, current, connections, takenOf, split, kept⟩ := accounts
  obtain ⟨events, trace, plain⟩ := aside.events
  refine ⟨past, bytes, earlier, current, ?_, takenOf, split, ?_, ?_⟩
  · rw [trace, aside.reads]
    exact connections_aside connections plain
  · rw [aside.decoder]
    exact kept.decoder
  · rw [aside.lineBuf]
    exact kept.consumed

section

variable {env : Environment φ ω} {detector : Option (ω → Option Str × ω)}

/-- No step reads. -/
theorem basic_aside {method : Method φ (ω × List (List UInt8)) α}
    (basic : Basic (noting env) (detector.map aside) α method)
    (session : TestSession φ (ω × List (List UInt8))) :
    ∃ result after, run method session = (.ok result, after) ∧ Aside session after := by
  cases basic with
  | detect given =>
    cases detector with
    | none => cases given
    | some detect =>
      cases given
      exact ⟨_, _, rfl, rfl, rfl, rfl, [], (List.append_nil _).symm, nofun⟩
  | emit noRead noReconnect noWrite =>
    exact ⟨_, _, rfl, rfl, rfl, rfl, [_], rfl,
      List.forall_mem_singleton.mpr ⟨noRead, noReconnect⟩⟩
  | write data =>
    exact ⟨_, _, rfl, rfl, rfl, rfl, [_], rfl, List.forall_mem_singleton.mpr ⟨nofun, nofun⟩⟩
  | _ => exact ⟨_, _, rfl, rfl, rfl, rfl, [], (List.append_nil _).symm, nofun⟩

theorem ensures_aside {invariant : TestSession φ (ω × List (List UInt8)) → Prop}
    (kept : ∀ before after, Aside before after → invariant before → invariant after)
    {method : Method φ (ω × List (List UInt8)) α}
    (plain : Plain (noting env) (detector.map aside) method) :
    Ensures invariant method (fun _ => invariant)
      fun stop session => stop ≠ .cutOff ∧ invariant session := by
  refine plain.ensures fun basic session holds => ?_
  obtain ⟨result, after, ran, same⟩ := basic_aside basic session
  rw [ran]
  exact kept _ _ same holds

/-- What reads no line takes none. -/
theorem plain_accounts {taken : List Str} {method : Method φ (ω × List (List UInt8)) α}
    (plain : Plain (noting env) (detector.map aside) method) :
    Ensures (Accounts taken) method (fun _ => Accounts taken) fun _ => Accounts taken :=
  (ensures_aside (fun _ _ => accounts_aside) plain).weaken (fun _ => id) (fun _ _ => id)
    fun _ _ => And.right

end

/-! ## Reading a line -/

/-- What has been read last has not been decoded yet. -/
def Unread (taken : List Str) (data : List UInt8)
    (session : TestSession φ (ω × List (List UInt8))) : Prop :=
  ∃ past bytes earlier current,
    Connections session.trace session.environment.2 past (bytes ++ data) ∧
      TakenOf past earlier ∧ taken = earlier ++ current ∧ Kept bytes current session

/-- The session as if it had had one connection only. -/
def alone (bytes : List UInt8) (session : TestSession φ (ω × List (List UInt8))) :
    TestSession φ (Unit × List UInt8) :=
  { decoder := session.decoder, lineBuf := session.lineBuf, environment := ((), bytes) }

section Reading

variable {taken : List Str} {raised : Stop → TestSession φ (ω × List (List UInt8)) → Prop}

theorem read_unread (env : Environment φ ω) (timeout : φ) :
    Ensures (Accounts taken) (read (noting env) timeout) (Unread taken) raised := by
  intro session accounts
  obtain ⟨past, bytes, earlier, current, connections, takenOf, split, kept⟩ := accounts
  exact ⟨past, bytes, earlier, current, connections.read _, takenOf, split, kept.decoder,
    kept.consumed⟩

theorem decode_accounts (data : List UInt8) :
    Ensures (Unread taken data) (decode data : Method φ (ω × List (List UInt8)) Unit)
      (fun _ => Accounts taken) raised := by
  intro session unread
  obtain ⟨past, bytes, earlier, current, connections, takenOf, split, kept⟩ := unread
  have decoded : Recorded current _ := @decode_ensures φ Unit current (fun _ _ => False) data
    (alone (bytes ++ data) session) ⟨bytes, rfl, kept.decoder, kept.consumed⟩
  exact ⟨past, bytes ++ data, earlier, current, connections, takenOf, split, decoded.decoder,
    decoded.consumed⟩

theorem takeLine_accounts :
    Ensures (Accounts taken) (takeLine : Method φ (ω × List (List UInt8)) (Option Str))
      (fun line => Accounts (taken ++ line.toList.filter fun line => line ≠ [])) raised := by
  intro session accounts
  obtain ⟨past, bytes, earlier, current, connections, takenOf, split, kept⟩ := accounts
  have took := @takeLine_ensures φ Unit current (fun _ _ => False) (alone bytes session)
    ⟨kept.decoder, kept.consumed⟩
  unfold takeLine at took ⊢
  rw [run_bind_ok _ (run_get _)] at took ⊢
  have same : (alone bytes session).lineBuf = session.lineBuf := rfl
  rw [same] at took
  cases found : partition 0x0A session.lineBuf with
  | none =>
    rw [found] at took
    obtain ⟨decoder, consumed⟩ : Recorded _ _ := took
    exact ⟨past, bytes, earlier, _, connections, takenOf, by rw [split, List.append_assoc],
      decoder, consumed⟩
  | some parts =>
    rw [found] at took
    obtain ⟨decoder, consumed⟩ : Recorded _ _ := took
    exact ⟨past, bytes, earlier, _, connections, takenOf, by rw [split, List.append_assoc],
      decoder, consumed⟩

theorem accounts_nothing {session : TestSession φ (ω × List (List UInt8))}
    (unread : Unread taken [] session) : Accounts taken session := by
  obtain ⟨past, bytes, earlier, current, connections, takenOf, split, kept⟩ := unread
  rw [List.append_nil] at connections
  exact ⟨past, bytes, earlier, current, connections, takenOf, split, kept⟩

variable [PyFloat φ] (env : Environment φ ω)

/-- A turn of `_read_line` returns the line that it has taken, unless that is blank. -/
theorem readOnce_accounts (timeout : φ) :
    Ensures (Accounts taken) (readOnce (noting env) timeout)
      (fun line => Accounts (taken ++ line.join.toList)) raised := by
  unfold readOnce
  refine (read_unread env _).bind fun data => .ite (fun noData => ?_) fun _ => ?_
  · subst noData
    refine (takeLine_accounts.weaken (fun _ => accounts_nothing) (fun _ _ => id)
      fun _ _ => id).bind fun line => ?_
    cases line with
    | none => exact .ofPure fun _ accounts => accounts
    | some stripped =>
      refine .ofPure fun _ accounts => ?_
      by_cases nonblank : stripped ≠ []
      · simpa [nonblank] using accounts
      · simpa [not_not.mp nonblank] using accounts
  · refine (decode_accounts data).bind fun _ => takeLine_accounts.bind fun line => ?_
    cases line with
    | none => exact .ofPure fun _ accounts => accounts
    | some stripped =>
      refine .ofPure fun _ accounts => ?_
      by_cases nonblank : stripped ≠ []
      · simpa [nonblank] using accounts
      · simpa [not_not.mp nonblank] using accounts

omit [PyFloat φ] in
theorem clock_accounts : Ensures (Accounts taken) (clock (noting env)) (fun _ => Accounts taken)
    raised := by
  intro session accounts
  obtain ⟨now, after, ran, same⟩ := @basic_aside φ ω _ env none _ .clock session
  rw [clock, ran]
  exact accounts_aside same accounts

theorem readLine_accounts (timeout : φ) (fuel : Nat) :
    Ensures (Accounts taken) (readLine (noting env) timeout fuel)
      (fun line => Accounts (taken ++ line.toList))
      fun stop session => stop = .cutOff ∧ Accounts taken session := by
  refine Ensures.bind (clock_accounts env) fun now => ?_
  generalize PyFloat.add now timeout = deadline
  induction fuel with
  | zero => exact .ofThrow fun _ accounts => ⟨rfl, accounts⟩
  | succ fuel inductionHypothesis =>
    rw [readLineLoop_succ]
    refine Ensures.bind (clock_accounts env) fun now => .ite (fun _ => ?_) fun _ => ?_
    · refine (readOnce_accounts env timeout).bind fun line => ?_
      cases line with
      | none => simpa using inductionHypothesis
      | some line => exact .ofPure fun _ accounts => accounts
    · exact .ofPure fun _ accounts => by simpa using accounts

end Reading

/-! ## Monitoring -/

/-- A new connection has begun, of which nothing has been read. -/
def Renewed (taken : List Str) (session : TestSession φ (ω × List (List UInt8))) : Prop :=
  ∃ past, Connections session.trace session.environment.2 past [] ∧ TakenOf past taken

section Turns

variable [PyFloat φ] (env : Environment φ ω) {taken : List Str}

omit [PyFloat φ] in
theorem renew {raised : Stop → TestSession φ (ω × List (List UInt8)) → Prop} :
    Ensures (Accounts taken) (emit .reconnect : Method φ (ω × List (List UInt8)) Unit)
      (fun _ => Renewed taken) raised := by
  intro session accounts
  obtain ⟨past, bytes, earlier, current, connections, takenOf, rfl, kept⟩ := accounts
  exact ⟨past ++ [bytes], connections.reconnect, takenOf.more ⟨_, linesOf_kept kept⟩⟩

omit [PyFloat φ] in
theorem renewed_aside {before after : TestSession φ (ω × List (List UInt8))}
    (aside : Aside before after) (renewed : Renewed taken before) : Renewed taken after := by
  obtain ⟨past, connections, takenOf⟩ := renewed
  obtain ⟨events, trace, plain⟩ := aside.events
  refine ⟨past, ?_, takenOf⟩
  rw [trace, aside.reads]
  exact connections_aside connections plain

theorem reconnectAfterWake_accounts (attempts : Nat) :
    Ensures (Accounts taken) (reconnectAfterWake (noting env) attempts) (fun _ => Accounts taken)
      fun _ => Accounts taken := by
  -- what has been buffered goes with the old connection
  have reset : Ensures (Renewed taken) (modify fun session =>
      { session with decoder := .start, lineBuf := [] } : Method φ (ω × List (List UInt8)) Unit)
      (fun _ => Accounts taken) fun _ => Accounts taken := by
    intro session renewed
    obtain ⟨past, connections, takenOf⟩ := renewed
    exact ⟨past, [], taken, [], connections, takenOf, (List.append_nil _).symm, rfl, [], rfl, rfl,
      rfl⟩
  have closed : Ensures (Renewed taken) (disconnect (noting env)) (fun _ => Renewed taken)
      fun _ => Accounts taken := by
    intro session renewed
    have same : Aside session (run (disconnect (noting env)) session).2 :=
      ⟨rfl, rfl, rfl, [_], rfl, List.forall_mem_singleton.mpr ⟨nofun, nofun⟩⟩
    exact renewed_aside same renewed
  refine renew.bind fun _ => closed.bind fun _ => reset.bind fun _ => ?_
  exact @plain_accounts φ ω _ env none _ _ (reconnectAttempts_plain (noting env) _ attempts)

variable (call : Monitoring φ ω)

/-- The arguments of a call that is made in an environment that notes what is read. -/
def Monitoring.noted (call : Monitoring φ ω) : Monitoring φ (ω × List (List UInt8)) :=
  { call with sleepDetector := call.sleepDetector.map aside }

theorem sleepTurn_accounts (monitor : Monitor φ) :
    Ensures (Accounts taken) (sleepTurn (noting env) call.noted monitor)
      (fun turn session => SameLog monitor.outcome turn ∧ Accounts taken session)
      fun _ => Accounts taken := by
  refine Ensures.returning ?_ (sleepTurn_log (noting env) call.noted monitor)
  exact sleepTurn_keeps (noting env) call.noted monitor plain_accounts
    (reconnectAfterWake_accounts env 10)

/-- What has been taken if a call raises: also what it took. -/
def Taking (taken : List Str) (_ : Stop) (session : TestSession φ (ω × List (List UInt8))) : Prop :=
  ∃ more, Accounts (taken ++ more) session

theorem turn_accounts (depth fuel : Nat) (monitor : Monitor φ) :
    Ensures (Accounts (taken ++ monitor.outcome.serialLog))
      (turn (noting env) call.noted depth fuel monitor)
      (fun turn => Accounts (taken ++ turn.outcome.serialLog)) (Taking taken) := by
  refine .ite (fun _ => ?_) fun _ => ?_
  · refine (sleepTurn_accounts env call monitor).weaken (fun _ => id) ?_ ?_
    · intro turn session same
      rw [same.1.2]
      exact same.2
    · exact fun _ _ accounts => ⟨_, accounts⟩
  · unfold readTurn
    have reads : Ensures (Accounts (taken ++ monitor.outcome.serialLog))
        (readLine (noting env) (PyFloat.literal 5 1) fuel)
        (fun line => Accounts (taken ++ monitor.outcome.serialLog ++ line.toList))
        (Taking taken) :=
      (readLine_accounts env _ fuel).weaken (fun _ => id) (fun _ _ => id)
        fun _ _ accounts => ⟨_, accounts.2⟩
    refine reads.bind fun line => ?_
    cases line with
    | none =>
      refine .ofPure fun session accounts => ?_
      rw [Option.toList_none, List.append_nil] at accounts
      exact accounts
    | some line =>
      -- the line is in the log before it is looked at
      have logged : Ensures (Accounts (taken ++ monitor.outcome.serialLog ++ [line]))
          (lineTurn (noting env) call.noted depth
            { monitor with outcome := monitor.outcome.log line } line)
          (fun _ => Accounts (taken ++ monitor.outcome.serialLog ++ [line]))
          fun _ => Accounts (taken ++ monitor.outcome.serialLog ++ [line]) :=
        @plain_accounts φ ω _ env none _ _ (lineTurn_plain (noting env) _ call.noted _ depth line)
      refine (logged.returning (lineTurn_returns (noting env) call.noted _ depth line)).weaken
        (fun _ => id) ?_ ?_
      · intro turn session taken'
        rw [taken'.1.log.2]
        exact (List.append_assoc _ _ _) ▸ taken'.2
      · exact fun _ _ accounts => ⟨monitor.outcome.serialLog ++ [line],
          (List.append_assoc _ _ _) ▸ accounts⟩

theorem monitorLoop_accounts (depth : Nat) (deadline : φ) (fuel : Nat) (monitor : Monitor φ) :
    Ensures (Accounts (taken ++ monitor.outcome.serialLog))
      (monitorLoop (noting env) call.noted depth deadline fuel monitor)
      (fun outcome => Accounts (taken ++ outcome.serialLog)) (Taking taken) := by
  induction fuel generalizing monitor with
  | zero => exact .ofThrow fun _ accounts => ⟨_, accounts⟩
  | succ fuel inductionHypothesis =>
    unfold monitorLoop
    refine (clock_accounts env).bind fun now => .ite (fun _ => ?_) fun _ => .ofPure fun _ => id
    refine (turn_accounts env call depth fuel monitor).bind fun turn => ?_
    cases turn with
    | goOn monitor => exact inductionHypothesis monitor
    | finished outcome => exact .ofPure fun _ => id

theorem monitor_accounts (depth fuel : Nat) :
    Ensures (Accounts taken) (monitor (noting env) call.noted depth fuel)
      (fun outcome => Accounts (taken ++ outcome.serialLog)) (Taking taken) := by
  have asks : Ensures (Accounts taken) (clock (noting env)) (fun _ => Accounts (taken ++ []))
      (Taking taken) := by
    rw [List.append_nil]
    exact clock_accounts env
  exact asks.bind fun now =>
    monitorLoop_accounts env call depth _ fuel { outcome := { testId := call.testId } }

end Turns

/-! ## Waiting for an answer -/

/-- What the lines that a call has read say of its result. -/
inductive Awaited (answer : Str → Except DiscoverStop (Option α)) :
    Except DiscoverStop α → List Str → Prop where
  | answered {before : List Str} {line : Str} {result : α}
      (quiet : ∀ earlier ∈ before, answer earlier = .ok none)
      (answers : answer line = .ok (some result)) : Awaited answer (.ok result) (before ++ [line])
  | raised {before : List Str} {line : Str} {stop : DiscoverStop}
      (quiet : ∀ earlier ∈ before, answer earlier = .ok none)
      (raises : answer line = .error stop) : Awaited answer (.error stop) (before ++ [line])
  | gaveUp {lines : List Str} {stop : DiscoverStop}
      (quiet : ∀ line ∈ lines, answer line = .ok none)
      (own : stop = .session .cutOff ∨ ∃ message, stop = .timeoutError message) :
      Awaited answer (.error stop) lines

theorem Awaited.cons {answer : Str → Except DiscoverStop (Option α)}
    {result : Except DiscoverStop α} {line : Str} {lines : List Str}
    (quiet : answer line = .ok none) (awaited : Awaited answer result lines) :
    Awaited answer result (line :: lines) := by
  cases awaited with
  | answered quiet' answers =>
    exact .answered (List.forall_mem_cons.mpr ⟨quiet, quiet'⟩) answers
  | raised quiet' raises => exact .raised (List.forall_mem_cons.mpr ⟨quiet, quiet'⟩) raises
  | gaveUp quiet' own => exact .gaveUp (List.forall_mem_cons.mpr ⟨quiet, quiet'⟩) own

/-- The lines that a call has taken account for its result. -/
def Took (answer : Str → Except DiscoverStop (Option α)) (taken : List Str)
    (result : Except DiscoverStop α) (session : TestSession φ (ω × List (List UInt8))) : Prop :=
  ∃ lines, Awaited answer result lines ∧ Accounts (taken ++ lines) session

section Waiting

variable [PyFloat φ] (env : Environment φ ω)

/-- `discover` waits as `start_test` does. -/
theorem discoverLoop_eq (depth : Nat) (timeout deadline : φ) (fuel : Nat) :
    discoverLoop env depth timeout deadline fuel =
      awaitLoop env (catalogIn depth)
        (str "No test_catalog received within " ++ PyFloat.toStr timeout ++ str "s")
        deadline fuel := by
  induction fuel with
  | zero => rfl
  | succ fuel inductionHypothesis =>
    rw [discoverLoop, awaitLoop, inductionHypothesis]
    congr 1
    funext now
    congr 2
    funext line
    cases line with
    | none => rfl
    | some line =>
      dsimp only
      congr 1
      funext tests
      cases tests with
      | none => rfl
      | some tests => rfl

theorem awaitLoop_accounts (answer : Str → Except DiscoverStop (Option α)) (message : Str)
    (deadline : φ) (fuel : Nat) (taken : List Str) :
    Ensures (Accounts taken) (awaitLoop (noting env) answer message deadline fuel)
      (fun result => Took answer taken (.ok result)) fun stop => Took answer taken (.error stop) := by
  have nothing {taken : List Str} {session : TestSession φ (ω × List (List UInt8))}
      {stop : DiscoverStop} (own : stop = .session .cutOff ∨ ∃ message, stop = .timeoutError message)
      (accounts : Accounts taken session) : Took answer taken (.error stop) session :=
    ⟨[], .gaveUp nofun own, by rwa [List.append_nil]⟩
  induction fuel generalizing taken with
  | zero => exact .ofThrow fun _ => nothing (.inl rfl)
  | succ fuel inductionHypothesis =>
    have reads : Ensures (Accounts taken)
        (part (readLine (noting env) (PyFloat.literal 5 1) fuel))
        (fun line => Accounts (taken ++ line.toList)) fun stop => Took answer taken (.error stop) :=
      (readLine_accounts env _ fuel).adapt fun stop session cutOff => nothing (.inl (by rw [cutOff.1]))
        cutOff.2
    unfold awaitLoop
    refine Ensures.bind ((clock_accounts env).adapt fun _ _ => id) fun now => ?_
    refine .ite (fun _ => reads.bind fun line => ?_) fun _ =>
      .ofThrow fun _ => nothing (.inr ⟨message, rfl⟩)
    cases line with
    | none =>
      simp only [Option.toList_none, List.append_nil]
      exact inductionHypothesis taken
    | some line =>
      cases answered : answer line with
      | error stop =>
        intro session accounts
        rw [run_bind, run_ofExcept, answered]
        exact ⟨[] ++ [line], .raised nofun answered, accounts⟩
      | ok result =>
        intro session accounts
        rw [run_bind, run_ofExcept, answered]
        cases result with
        | some result => exact ⟨[] ++ [line], .answered nofun answered, accounts⟩
        | none =>
          -- the loop goes on with what has been taken
          have later {result : Except DiscoverStop α}
              {after : TestSession φ (ω × List (List UInt8))}
              (took : Took answer (taken ++ [line]) result after) : Took answer taken result after := by
            obtain ⟨lines, awaited, accounts⟩ := took
            refine ⟨line :: lines, awaited.cons answered, ?_⟩
            rwa [List.append_assoc] at accounts
          exact (inductionHypothesis (taken ++ [line])).weaken (fun _ => id) (fun _ _ => later)
            (fun _ _ => later) session accounts

end Waiting

/-! ## Main result -/

/-- What can be called on a session. -/
inductive Call (φ ω : Type) where
  | discover (timeout : φ)
  | startTest (testId : Str) (timeout : φ) (params : Option (List (Str × Json φ)))
  | monitor (monitoring : Monitoring φ ω)

/-- What else is called by it. -/
def Call.detector : Call φ ω → Option (ω → Option Str × ω)
  | discover _ => none
  | startTest _ _ _ => none
  | monitor monitoring => monitoring.sleepDetector

/-- How a call has ended. -/
inductive Answer (φ : Type) where
  | discovered (result : Except DiscoverStop (List (TestInfo φ)))
  | started (testId : Str) (result : Except DiscoverStop Unit)
  | monitored (result : Except Stop (TestOutcome φ))

def Call.noted : Call φ ω → Call φ (ω × List (List UInt8))
  | discover timeout => .discover timeout
  | startTest testId timeout params => .startTest testId timeout params
  | monitor monitoring => .monitor monitoring.noted

/-- Nothing has been asked of the device, which has not taken a write or cannot be sent it. -/
def Unasked (result : Except DiscoverStop α) (lines : List Str) : Prop :=
  (∃ stop, result = .error stop) ∧ lines = []

variable [PyFloat φ]

/-- The lines that a call has taken are those that it was due. -/
def Uses (depth : Nat) : Answer φ → List Str → Prop
  | .discovered result, lines => Awaited (catalogIn depth) result lines ∨ Unasked result lines
  | .started testId result, lines =>
    Awaited (startedIn φ testId) result lines ∨ Unasked result lines
  | .monitored (.ok outcome), lines => lines = outcome.serialLog
  -- the log is lost
  | .monitored (.error _), _ => True

/-- A call, which is cut off after `fuel` turns of each loop. -/
def callOn (env : Environment φ ω) (depth : Nat) :
    Transducer.Step (TestSession φ ω) (Call φ ω × Nat) (Answer φ) := fun session call =>
  match call with
  | (.discover timeout, fuel) =>
    let ran := run (discover env depth timeout fuel) session
    (ran.2, [.discovered ran.1])
  | (.startTest testId timeout params, fuel) =>
    let ran := run (startTest env depth testId timeout params fuel) session
    (ran.2, [.started testId ran.1])
  | (.monitor monitoring, fuel) =>
    let ran := run (monitor env monitoring depth fuel) session
    (ran.2, [.monitored ran.1])

variable (env : Environment φ ω) (depth : Nat)

/-- A call that is answered by a line. -/
theorem asked_accounts (answer : Str → Except DiscoverStop (Option α)) (taken : List Str)
    (data : List UInt8) (message : Str) (timeout : φ) (fuel : Nat) :
    Ensures (Accounts taken)
      (do
        if ← part (write (noting env) data) then do
          let now ← part (clock (noting env))
          awaitLoop (noting env) answer message (PyFloat.add now timeout) fuel
        else throw (.session .foreign))
      (fun result => Took answer taken (.ok result))
      fun stop session => Took answer taken (.error stop) session ∨ Accounts taken session := by
  have writes : Ensures (Accounts taken) (part (write (noting env) data)) (fun _ => Accounts taken)
      fun stop session => Took answer taken (.error stop) session ∨ Accounts taken session :=
    Ensures.adapt (@plain_accounts φ ω _ env none _ _ (write_plain (noting env) data))
      fun _ _ => .inr
  refine writes.bind fun done => ?_
  cases done with
  | false => exact .ofThrow fun _ => .inr
  | true =>
    refine Ensures.bind ((clock_accounts env).adapt fun _ _ => id) fun now => ?_
    exact (awaitLoop_accounts env answer message _ fuel taken).weaken (fun _ => id) (fun _ _ => id)
      fun _ _ => .inl

omit [PyFloat φ] in
theorem used_of_asked {answer : Str → Except DiscoverStop (Option α)} {taken : List Str}
    {method : Discovering φ (ω × List (List UInt8)) α}
    (asked : Ensures (Accounts taken) method (fun result => Took answer taken (.ok result))
      fun stop session => Took answer taken (.error stop) session ∨ Accounts taken session)
    {session : TestSession φ (ω × List (List UInt8))} (accounts : Accounts taken session) :
    ∃ lines, (Awaited answer (run method session).1 lines ∨ Unasked (run method session).1 lines) ∧
      Accounts (taken ++ lines) (run method session).2 := by
  have holds := asked session accounts
  cases ran : run method session with
  | mk outcome after =>
    rw [ran] at holds
    cases outcome with
    | ok result =>
      obtain ⟨lines, awaited, accounts⟩ := holds
      exact ⟨lines, .inl awaited, accounts⟩
    | error stop =>
      cases holds with
      | inl took =>
        obtain ⟨lines, awaited, accounts⟩ := took
        exact ⟨lines, .inl awaited, accounts⟩
      | inr accounts =>
        exact ⟨[], .inr ⟨⟨stop, rfl⟩, rfl⟩, (List.append_nil taken).symm ▸ accounts⟩

/-- What a call takes is what it is due. -/
theorem callOn_accounts (call : Call φ ω) (fuel : Nat) {taken : List Str}
    {session : TestSession φ (ω × List (List UInt8))} (accounts : Accounts taken session) :
    ∃ answer lines, (callOn (noting env) depth session (call.noted, fuel)).2 = [answer] ∧
      Uses depth answer lines ∧
      Accounts (taken ++ lines) (callOn (noting env) depth session (call.noted, fuel)).1 := by
  cases call with
  | discover timeout =>
    let answer : Str → Except DiscoverStop (Option (List (TestInfo φ))) := catalogIn depth
    have asked : Ensures (Accounts taken) (discover (noting env) depth timeout fuel)
        (fun result => Took answer taken (.ok result)) fun stop session =>
          Took answer taken (.error stop) session ∨ Accounts taken session := by
      unfold discover
      simp only [discoverLoop_eq]
      exact asked_accounts env _ taken SOH _ timeout fuel
    obtain ⟨lines, uses, accounts⟩ := used_of_asked asked accounts
    exact ⟨_, lines, rfl, uses, accounts⟩
  | startTest testId timeout params =>
    have asked : Ensures (Accounts taken)
        (startTest (noting env) depth testId timeout params fuel)
        (fun result => Took (startedIn φ testId) taken (.ok result)) fun stop session =>
          Took (startedIn φ testId) taken (.error stop) session ∨ Accounts taken session := by
      unfold startTest
      cases command depth testId params with
      | error error => exact .ofThrow fun _ => .inr
      | ok cmd => exact asked_accounts env _ taken cmd _ timeout fuel
    obtain ⟨lines, uses, accounts⟩ := used_of_asked asked accounts
    exact ⟨_, lines, rfl, uses, accounts⟩
  | monitor monitoring =>
    have holds := monitor_accounts env monitoring depth fuel session accounts
    simp only [callOn, Call.noted]
    cases ran : run (monitor (noting env) monitoring.noted depth fuel) session with
    | mk outcome after =>
      rw [ran] at holds
      cases outcome with
      | ok outcome => exact ⟨_, outcome.serialLog, rfl, rfl, holds⟩
      | error stop =>
        obtain ⟨lines, accounts⟩ := holds
        exact ⟨_, lines, rfl, trivial, accounts⟩

theorem run_accounts (calls : List (Call φ ω × Nat)) {taken : List Str}
    {session : TestSession φ (ω × List (List UInt8))} (accounts : Accounts taken session) :
    ∃ lines, List.Forall₂ (Uses depth)
      (Transducer.run (callOn (noting env) depth) session
        (calls.map fun call => (call.1.noted, call.2))).2 lines ∧
      Accounts (taken ++ lines.flatten) (Transducer.run (callOn (noting env) depth) session
        (calls.map fun call => (call.1.noted, call.2))).1 := by
  induction calls generalizing taken session with
  | nil => exact ⟨[], .nil, (List.append_nil taken).symm ▸ accounts⟩
  | cons call calls inductionHypothesis =>
    obtain ⟨answer, lines, answers, uses, accounts⟩ :=
      callOn_accounts env depth call.1 call.2 accounts
    obtain ⟨later, usesLater, accountsLater⟩ := inductionHypothesis accounts
    refine ⟨lines :: later, ?_, ?_⟩
    · rw [List.map_cons, Transducer.run_cons, answers]
      exact .cons uses usesLater
    · rw [List.map_cons, Transducer.run_cons, List.flatten_cons, ← List.append_assoc]
      exact accountsLater

/-- Over any calls of a new session: every line that the device has sent on a connection goes to
one call, in order, which is due it, or is still in the buffer; of the connections that a sleep
has ended, what was not taken by then is dropped. -/
theorem session_lines (world : ω) (calls : List (Call φ ω × Nat)) :
    let ran := Transducer.run (callOn (noting env) depth) { environment := (world, []) }
      (calls.map fun call => (call.1.noted, call.2))
    ∃ taken, List.Forall₂ (Uses depth) ran.2 taken ∧
      Accounted ran.1.trace ran.1.environment.2 (shown ran.1.lineBuf) taken.flatten := by
  intro ran
  have fresh : Accounts [] ({ environment := (world, []) } : TestSession φ _) :=
    ⟨[], [], [], [], .start, .none, rfl, rfl, [], rfl, rfl, rfl⟩
  obtain ⟨taken, uses, accounts⟩ := run_accounts env depth calls fresh
  exact ⟨taken, uses, accounted_of_accounts accounts⟩

end EmbeddedBridge.Python.TestSession
