import EmbeddedBridge.Verified.SerialStream
import EmbeddedBridge.Verified.SessionLines

/-! # A session over a serial transport

`TestSession` with a `SerialTransport`.  The transport hands on what its driver has received,
byte for byte, and the session accounts for it line by line; what the session writes is what the
driver is given to send.  The transport is connected by whoever made it, who may also disconnect
and connect it between the calls of the session.
-/

namespace EmbeddedBridge.Python

open Library Py Methods

variable {φ ω α : Type}

namespace SerialTransport

/-- A call that does not concern the transport. -/
def beside (action : ω → α × ω) (transport : SerialTransport ω) : α × SerialTransport ω :=
  ((action transport.world).1, { transport with world := (action transport.world).2 })

/-- A call of a method of the transport; one that is cut off counts as one that raises. -/
def attempt (method : Method ω α) (transport : SerialTransport ω) :
    Option α × SerialTransport ω :=
  match Methods.run method transport with
  | (.ok result, after) => (some result, after)
  | (.error _, after) => (none, after)

/-- `os.path.exists`, which raises nothing. -/
def osPathExists (driver : Driver φ ω) (path : Str) (world : ω) : Bool × ω :=
  match driver.pathExists path world with
  | (.ok present, world) => (present, world)
  | (.error _, world) => (false, world)

end SerialTransport

namespace TestSession

open SerialTransport (Driver Config Streaming beside attempt receivedIn sentIn)

/-- The environment of a session with a serial transport, whose loops run for `turns` turns. -/
def overSerial [PyFloatOrder φ] (driver : Driver φ ω) (config : Config φ) (turns : Nat) :
    Environment φ (SerialTransport ω) where
  clock := beside driver.monotonic
  sleep seconds := beside fun world => (true, driver.sleep seconds world)
  read timeout := attempt (SerialTransport.read driver config (-1) (some timeout) turns)
  write data transport :=
    let ended := attempt (SerialTransport.write driver config data turns) transport
    (ended.1.isSome, ended.2)
  connect transport :=
    let ended := attempt (SerialTransport.connect driver config) transport
    (ended.1.isSome, ended.2)
  disconnect transport :=
    let ended := attempt (SerialTransport.disconnect driver) transport
    (ended.1.isSome, ended.2)
  portPath transport := (some transport.portPath, transport)
  pathExists path := beside (SerialTransport.osPathExists driver path)

/-- The arguments of a call, with a detector that does not concern the transport. -/
def Monitoring.overSerial (call : Monitoring φ ω) : Monitoring φ (SerialTransport ω) :=
  { call with sleepDetector := call.sleepDetector.map beside }

def Call.overSerial : Call φ ω → Call φ (SerialTransport ω)
  | discover timeout => .discover timeout
  | startTest testId timeout params => .startTest testId timeout params
  | monitor monitoring => .monitor monitoring.overSerial

/-! ## What every call keeps -/

/-- Whatever a session calls keeps the invariant. -/
structure Steady (env : Environment φ ω) (detector : Option (ω → Option Str × ω))
    (invariant : TestSession φ ω → Prop) : Prop where
  basic : ∀ {α : Type} {method : Method φ ω α}, Basic env detector α method →
    Ensures invariant method (fun _ => invariant) fun stop session => stop ≠ .cutOff ∧ invariant session
  read : ∀ timeout session, invariant session → invariant (run (read env timeout) session).2
  reconnect : ∀ session, invariant session → invariant (run (emit .reconnect) session).2
  own : ∀ session decoder lineBuf, invariant session →
    invariant { session with decoder, lineBuf }

namespace Steady

variable {env : Environment φ ω} {invariant : TestSession φ ω → Prop}

section

variable {detector : Option (ω → Option Str × ω)} (steady : Steady env detector invariant)
  {raised : Stop → TestSession φ ω → Prop}

include steady

theorem plain {method : Method φ ω α} (plain : Plain env detector method) :
    Ensures invariant method (fun _ => invariant) fun _ => invariant :=
  (plain.ensures steady.basic).weaken (fun _ => id) (fun _ _ => id) fun _ _ => And.right

theorem takeLine : Ensures invariant (takeLine : Method φ ω (Option Str)) (fun _ => invariant)
    raised := by
  intro session holds
  unfold TestSession.takeLine
  rw [run_bind_ok _ (run_get _)]
  cases found : partition 0x0A session.lineBuf with
  | none => exact holds
  | some parts => exact steady.own session session.decoder parts.2 holds

variable [PyFloat φ]

theorem readOnce (timeout : φ) : Ensures invariant (readOnce env timeout) (fun _ => invariant)
    fun _ => invariant := by
  have reads (timeout : φ) : Ensures invariant (TestSession.read env timeout) (fun _ => invariant)
      fun _ => invariant := fun session holds => steady.read timeout session holds
  refine (reads _).bind fun data => .ite (fun _ => ?_) fun _ => ?_
  · refine steady.takeLine.bind fun line => ?_
    cases line with
    | none => exact .ofPure fun _ => id
    | some line => exact .ofPure fun _ => id
  · have decodes : Ensures invariant (decode data) (fun _ => invariant) fun _ => invariant :=
      fun session holds => steady.own session _ _ holds
    refine decodes.bind fun _ => steady.takeLine.bind fun line => ?_
    cases line with
    | none => exact .ofPure fun _ => id
    | some line => exact .ofPure fun _ => id

theorem readLine (timeout : φ) (fuel : Nat) :
    Ensures invariant (readLine env timeout fuel) (fun _ => invariant) fun _ => invariant := by
  refine (steady.plain (clock_plain env)).bind fun now => ?_
  generalize PyFloat.add now timeout = deadline
  induction fuel with
  | zero => exact .ofThrow fun _ => id
  | succ fuel inductionHypothesis =>
    rw [readLineLoop_succ]
    refine (steady.plain (clock_plain env)).bind fun now => .ite (fun _ => ?_) fun _ => .ofPure fun _ => id
    refine (steady.readOnce timeout).bind fun line => ?_
    cases line with
    | none => exact inductionHypothesis
    | some line => exact .ofPure fun _ => id

end

variable [PyFloat φ]

section Monitoring

variable {call : Monitoring φ ω} (steady : Steady env call.sleepDetector invariant)

include steady

theorem reconnectAfterWake (attempts : Nat) :
    Ensures invariant (reconnectAfterWake env attempts) (fun _ => invariant) fun _ => invariant := by
  have begins : Ensures invariant (emit .reconnect : Method φ ω Unit) (fun _ => invariant)
      fun _ => invariant := fun session holds => steady.reconnect session holds
  have resets : Ensures invariant (modify fun session =>
      { session with decoder := .start, lineBuf := [] } : Method φ ω Unit) (fun _ => invariant)
      fun _ => invariant := fun session holds => steady.own session _ _ holds
  exact begins.bind fun _ => (steady.plain (disconnect_plain env)).bind fun _ => resets.bind fun _ =>
    steady.plain (reconnectAttempts_plain env _ attempts)

theorem turn (depth fuel : Nat) (monitor : Monitor φ) :
    Ensures invariant (turn env call depth fuel monitor) (fun _ => invariant) fun _ => invariant := by
  refine .ite (fun _ => ?_) fun _ => ?_
  · exact sleepTurn_keeps env call monitor steady.plain (steady.reconnectAfterWake 10)
  · refine (steady.readLine _ fuel).bind fun line => ?_
    cases line with
    | none => exact .ofPure fun _ => id
    | some line => exact steady.plain (lineTurn_plain env _ call _ depth line)

theorem monitor (depth fuel : Nat) :
    Ensures invariant (monitor env call depth fuel) (fun _ => invariant) fun _ => invariant := by
  refine (steady.plain (clock_plain env)).bind fun now => ?_
  generalize PyFloat.add now call.timeout = deadline
  generalize ({ outcome := { testId := call.testId } } : Monitor φ) = monitor
  induction fuel generalizing monitor with
  | zero => exact .ofThrow fun _ => id
  | succ fuel inductionHypothesis =>
    refine (steady.plain (clock_plain env)).bind fun now => .ite (fun _ => ?_) fun _ => .ofPure fun _ => id
    refine (steady.turn depth fuel monitor).bind fun turn => ?_
    cases turn with
    | goOn monitor => exact inductionHypothesis monitor
    | finished outcome => exact .ofPure fun _ => id

end Monitoring

section Asking

variable {detector : Option (ω → Option Str × ω)} (steady : Steady env detector invariant)

include steady

/-- A call that is answered by a line. -/
theorem asked (answer : Str → Except DiscoverStop (Option α)) (data : List UInt8) (message : Str)
    (timeout : φ) (fuel : Nat) :
    Ensures invariant
      (do
        if ← part (write env data) then do
          let now ← part (clock env)
          awaitLoop env answer message (PyFloat.add now timeout) fuel
        else throw (.session .foreign))
      (fun _ => invariant) fun _ => invariant := by
  have clocks : Ensures invariant (part (clock env)) (fun _ => invariant) fun _ => invariant :=
    Ensures.adapt (steady.plain (clock_plain env)) fun _ _ => id
  refine Ensures.bind (Ensures.adapt (steady.plain (write_plain env data)) fun _ _ => id) fun done => ?_
  refine .ite (fun _ => clocks.bind fun now => ?_) fun _ => .ofThrow fun _ => id
  generalize PyFloat.add now timeout = deadline
  induction fuel with
  | zero => exact .ofThrow fun _ => id
  | succ fuel inductionHypothesis =>
    refine clocks.bind fun now => .ite (fun _ => ?_) fun _ => .ofThrow fun _ => id
    refine Ensures.bind (Ensures.adapt (steady.readLine _ fuel) fun _ _ => id) fun line => ?_
    cases line with
    | none => exact inductionHypothesis
    | some line =>
      have answers : Ensures invariant (MonadExcept.ofExcept (answer line) : Discovering φ ω (Option α))
          (fun _ => invariant) fun _ => invariant :=
        Preserves.ensures (Preserves.ofExcept (fun _ => rfl) _) fun _ _ same holds => same ▸ holds
      refine answers.bind fun result => ?_
      cases result with
      | none => exact inductionHypothesis
      | some result => exact .ofPure fun _ => id

end Asking

/-- And so does every call of the session. -/
theorem callOn (call : Call φ ω) (steady : Steady env call.detector invariant) (depth fuel : Nat)
    {session : TestSession φ ω} (holds : invariant session) :
    invariant (callOn env depth session (call, fuel)).1 := by
  cases call with
  | discover timeout =>
    have keeps : Ensures invariant (discover env depth timeout fuel) (fun _ => invariant)
        fun _ => invariant := by
      unfold discover
      simp only [discoverLoop_eq]
      exact steady.asked _ SOH _ timeout fuel
    exact keeps.after session holds
  | startTest testId timeout params =>
    have keeps : Ensures invariant (startTest env depth testId timeout params fuel)
        (fun _ => invariant) fun _ => invariant := by
      unfold startTest
      cases command depth testId params with
      | error error => exact .ofThrow fun _ => id
      | ok cmd => exact steady.asked _ cmd _ timeout fuel
    exact keeps.after session holds
  | monitor monitoring =>
    exact (steady.monitor depth fuel).after session holds

end Steady

/-! ## Over a serial transport -/

def writtenBy : Event φ → List (List UInt8)
  | .write data true => [data]
  | _ => []

/-- What a session has written. -/
def writtenIn (trace : List (Event φ)) : List (List UInt8) := trace.flatMap writtenBy

/-- What the session has read the transport has received, and what it has written has been sent. -/
def Linked (session : TestSession φ (SerialTransport ω × List (List UInt8))) : Prop :=
  Streaming session.environment.2.flatten (writtenIn session.trace) session.environment.1

section

variable {session : TestSession φ (SerialTransport ω × List (List UInt8))}

/-- An event that is no write. -/
theorem linked_emit (linked : Linked session) (event : Event φ) (noWrite : writtenBy event = []) :
    Linked { session with trace := session.trace ++ [event] } := by
  have same : writtenIn (session.trace ++ [event]) = writtenIn session.trace := by
    simp [writtenIn, noWrite]
  unfold Linked
  rwa [same]

theorem attempt_ensures {method : SerialTransport.Method ω α} {pre raised : SerialTransport ω → Prop}
    {post : α → SerialTransport ω → Prop} (ensures : Ensures pre method post fun _ => raised)
    {transport : SerialTransport ω} (holds : pre transport) :
    match attempt method transport with
    | (some result, after) => post result after
    | (none, after) => raised after := by
  have ends := ensures transport holds
  unfold attempt
  cases ran : Methods.run method transport with
  | mk outcome after =>
    rw [ran] at ends
    cases outcome with
    | ok result => exact ends
    | error stop => exact ends

theorem linked_attempt {method : SerialTransport.Method ω α}
    (keeps : SerialTransport.Keeps method) (linked : Linked session) :
    Linked { session with
      environment := ((attempt method session.environment.1).2, session.environment.2) } := by
  have holds := attempt_ensures keeps linked
  unfold Linked
  cases attempted : attempt method session.environment.1 with
  | mk result after =>
    rw [attempted] at holds
    cases result with
    | none => exact holds
    | some result => exact holds

variable [PyFloatOrder φ] (driver : Driver φ ω) (config : Config φ) (turns : Nat)

theorem linked_write (linked : Linked session) (data : List UInt8) :
    Linked (run (write (noting (overSerial driver config turns)) data) session).2 := by
  have holds := attempt_ensures (SerialTransport.write_sends driver config data turns) linked
  have ran : (run (write (noting (overSerial driver config turns)) data) session).2 =
      { session with
        environment := ((attempt (SerialTransport.write driver config data turns)
          session.environment.1).2, session.environment.2)
        trace := session.trace ++ [.write data (attempt (SerialTransport.write driver config data
          turns) session.environment.1).1.isSome] } := rfl
  rw [ran]
  cases attempted : attempt (SerialTransport.write driver config data turns) session.environment.1 with
  | mk result after =>
    rw [attempted] at holds
    cases result with
    | none =>
      have linked' : Linked { session with environment := (after, session.environment.2) } := holds
      exact linked_emit linked' _ rfl
    | some result =>
      have written : writtenIn (session.trace ++ [.write data true]) =
          writtenIn session.trace ++ [data] := by simp [writtenIn, writtenBy]
      unfold Linked
      rw [Option.isSome_some, written]
      exact holds

theorem linked_read (linked : Linked session) (timeout : φ) :
    Linked (run (read (noting (overSerial driver config turns)) timeout) session).2 := by
  have holds := attempt_ensures
    (SerialTransport.read_receives driver config (-1) (some timeout) turns) linked
  have ran : (run (read (noting (overSerial driver config turns)) timeout) session).2 =
      { session with
        environment := ((attempt (SerialTransport.read driver config (-1) (some timeout) turns)
          session.environment.1).2, session.environment.2 ++ [(attempt (SerialTransport.read driver
            config (-1) (some timeout) turns) session.environment.1).1.getD []])
        trace := session.trace ++ [.read] } := rfl
  rw [ran]
  refine @linked_emit φ ω { session with environment := _ } ?_ .read rfl
  unfold Linked
  cases attempted :
      attempt (SerialTransport.read driver config (-1) (some timeout) turns) session.environment.1 with
  | mk result after =>
    rw [attempted] at holds
    simp only [List.flatten_append, List.flatten_singleton]
    cases result with
    | none => exact (List.append_nil session.environment.2.flatten).symm ▸ holds
    | some data => exact holds

theorem steady_linked (detector : Option (ω → Option Str × ω)) :
    Steady (noting (overSerial driver config turns)) ((detector.map beside).map aside)
      (Linked : TestSession φ (SerialTransport ω × List (List UInt8)) → Prop) where
  basic basic session linked := by
    cases basic with
    | write data => exact linked_write driver config turns linked data
    | clock => exact linked.inWorld _
    | sleep seconds => exact linked.inWorld _
    | connect => exact linked_attempt (SerialTransport.connect_keeps driver config) linked
    | disconnect => exact linked_attempt (SerialTransport.disconnect_keeps driver) linked
    | portPath => exact linked
    | pathExists path => exact linked.inWorld _
    | detect given =>
      cases detector with
      | none => cases given
      | some detect =>
        cases given
        exact linked.inWorld _
    | @emit event noRead noReconnect noWrite =>
      refine linked_emit linked event ?_
      cases event with
      | write data done => exact absurd rfl (noWrite data done)
      | _ => rfl
  read timeout session linked := linked_read driver config turns linked timeout
  reconnect session linked := linked_emit linked .reconnect rfl
  own session decoder lineBuf linked := linked

end

/-! ## Main result -/

/-- What can be done with a session and its transport.  A call of the session is cut off after
`fuel` turns of each loop. -/
inductive Operation (φ ω : Type) where
  | connect
  | disconnect
  | call (call : Call φ ω) (fuel : Nat)

/-- A method of the transport that is not called by the session. -/
def onTransport (method : SerialTransport.Method ω Unit)
    (session : TestSession φ (SerialTransport ω × List (List UInt8))) :
    TestSession φ (SerialTransport ω × List (List UInt8)) :=
  { session with environment :=
    ((attempt method session.environment.1).2, session.environment.2) }

theorem accounts_onTransport {taken : List Str} (method : SerialTransport.Method ω Unit)
    {session : TestSession φ (SerialTransport ω × List (List UInt8))}
    (accounts : Accounts taken session) : Accounts taken (onTransport method session) := by
  have same : Aside session (onTransport method session) :=
    ⟨rfl, rfl, rfl, [], (List.append_nil _).symm, nofun⟩
  exact accounts_aside same accounts

variable [PyFloatOrder φ] (driver : Driver φ ω) (config : Config φ) (turns depth : Nat)

def operate : Transducer.Step (TestSession φ (SerialTransport ω × List (List UInt8)))
    (Operation φ ω) (Answer φ) := fun session operation =>
  match operation with
  | .connect => (onTransport (SerialTransport.connect driver config) session, [])
  | .disconnect => (onTransport (SerialTransport.disconnect driver) session, [])
  | .call call fuel =>
    callOn (noting (overSerial driver config turns)) depth session (call.overSerial.noted, fuel)

theorem operate_linked (operation : Operation φ ω)
    {session : TestSession φ (SerialTransport ω × List (List UInt8))} (linked : Linked session) :
    Linked (operate driver config turns depth session operation).1 := by
  cases operation with
  | connect => exact linked_attempt (SerialTransport.connect_keeps driver config) linked
  | disconnect => exact linked_attempt (SerialTransport.disconnect_keeps driver) linked
  | call call fuel =>
    have steady : Steady (noting (overSerial driver config turns))
        call.overSerial.noted.detector Linked := by
      cases call with
      | monitor monitoring => exact steady_linked driver config turns monitoring.sleepDetector
      | _ => exact steady_linked driver config turns none
    exact Steady.callOn _ steady depth fuel linked

theorem run_linked (operations : List (Operation φ ω))
    {session : TestSession φ (SerialTransport ω × List (List UInt8))} (linked : Linked session) :
    Linked (Transducer.run (operate driver config turns depth) session operations).1 := by
  induction operations generalizing session with
  | nil => exact linked
  | cons operation operations inductionHypothesis =>
    rw [Transducer.run_cons]
    exact inductionHypothesis (operate_linked driver config turns depth operation linked)

/-- An operation takes the lines that its answer is due, if it has one. -/
theorem operate_accounts (operation : Operation φ ω) {taken : List Str}
    {session : TestSession φ (SerialTransport ω × List (List UInt8))}
    (accounts : Accounts taken session) :
    ∃ lines, List.Forall₂ (Uses depth) (operate driver config turns depth session operation).2 lines ∧
      Accounts (taken ++ lines.flatten) (operate driver config turns depth session operation).1 := by
  cases operation with
  | connect => exact ⟨[], .nil, (List.append_nil taken).symm ▸ accounts_onTransport _ accounts⟩
  | disconnect => exact ⟨[], .nil, (List.append_nil taken).symm ▸ accounts_onTransport _ accounts⟩
  | call call fuel =>
    obtain ⟨answer, lines, answers, uses, accounts⟩ :=
      callOn_accounts (overSerial driver config turns) depth call.overSerial fuel accounts
    refine ⟨[lines], ?_, (List.flatten_singleton (l := lines)).symm ▸ accounts⟩
    exact answers ▸ .cons uses .nil

theorem run_operations (operations : List (Operation φ ω)) {taken : List Str}
    {session : TestSession φ (SerialTransport ω × List (List UInt8))}
    (accounts : Accounts taken session) :
    ∃ lines, List.Forall₂ (Uses depth)
      (Transducer.run (operate driver config turns depth) session operations).2 lines ∧
      Accounts (taken ++ lines.flatten)
        (Transducer.run (operate driver config turns depth) session operations).1 := by
  induction operations generalizing taken session with
  | nil => exact ⟨[], .nil, (List.append_nil taken).symm ▸ accounts⟩
  | cons operation operations inductionHypothesis =>
    obtain ⟨now, uses, accounts⟩ :=
      operate_accounts driver config turns depth operation accounts
    obtain ⟨later, usesLater, accountsLater⟩ := inductionHypothesis accounts
    rw [Transducer.run_cons]
    refine ⟨now ++ later, List.rel_append uses usesLater, ?_⟩
    rw [List.flatten_append, ← List.append_assoc]
    exact accountsLater

/-- Over any calls of a new session, while its transport is connected and disconnected at any
time between them: the lines of what the driver has received, port after port, go to the calls
that are due them, and what the session has written has been sent. -/
theorem serial_session (world : ω) (operations : List (Operation φ ω)) :
    let ran := Transducer.run (operate driver config turns depth)
      { environment := ({ world }, []) } operations
    let transport := ran.1.environment.1
    (∃ taken, List.Forall₂ (Uses depth) ran.2 taken ∧
      Accounted ran.1.trace ran.1.environment.2 (shown ran.1.lineBuf) taken.flatten) ∧
      ran.1.environment.2.flatten = (List.range transport.ports).flatMap
        (fun port => SerialTransport.receivedOn port transport.log) ∧
      writtenIn ran.1.trace = sentIn transport.log := by
  intro ran transport
  have fresh : Accounts [] ({ environment := ({ world }, []) } :
      TestSession φ (SerialTransport ω × List (List UInt8))) :=
    ⟨[], [], [], [], .start, .none, rfl, rfl, [], rfl, rfl, rfl⟩
  have unused : Linked ({ environment := ({ world }, []) } :
      TestSession φ (SerialTransport ω × List (List UInt8))) :=
    ⟨rfl, rfl, rfl, Histories.everywhere_nil, nofun⟩
  have linked := run_linked driver config turns depth operations unused
  refine ⟨?_, ?_, linked.sent.symm⟩
  · obtain ⟨taken, uses, accounts⟩ := run_operations driver config turns depth operations fresh
    exact ⟨taken, uses, accounted_of_accounts accounts⟩
  · rw [← linked.received, ← linked.numbered]
    exact SerialTransport.receivedIn_eq linked.current

/-- A device that says that the test `a` has started, once it has been written to. -/
def answering : Driver Micro (Int × Bool) where
  monotonic world := (⟨world.1⟩, (world.1 + 1, world.2))
  sleep _ world := world
  usbDevicePort _ world := (.ok ⟨0, str "/dev/ttyACM0", []⟩, world)
  pathExists _ world := (.ok true, world)
  openPort _ _ world := (.ok (), world)
  isOpen _ _ := true
  inWaiting _ world := (.ok (if world.2 then 22 else 0), world)
  read _ _ world := (.ok (Utf8.encode "T=1.5 TEST_STARTED:a\r\n".toList), (world.1, false))
  write _ _ world := (.ok (), (world.1, true))
  flush _ world := (.ok (), world)
  close _ world := world

def plainConfig : Config Micro where
  portSpec := str "/dev/ttyACM0"
  baudrate := 115200
  reconnect := false
  reconnectInterval := PyFloat.literal 10 1
  reconnectTimeout := PyFloat.literal 300 1

/-- Once its transport is connected, the session writes and reads. -/
example :
    let ran := Transducer.run (operate answering plainConfig 9 3)
      { environment := ({ world := (0, false) }, []) }
      [.call (.startTest (str "a") ⟨1000000⟩ none) 9, .connect,
        .call (.startTest (str "a") ⟨1000000⟩ none) 9, .disconnect]
    sentIn ran.1.environment.1.log = [STX ++ Utf8.encode "a\n".toList] ∧
      ran.1.environment.2 = [Utf8.encode "T=1.5 TEST_STARTED:a\r\n".toList] := by
  decide +kernel

end TestSession

end EmbeddedBridge.Python
