import EmbeddedBridge.Library.Histories
import EmbeddedBridge.Library.Transducer
import EmbeddedBridge.Transport.Serial

/-! # Ports are read one after the other

A port is used only until the next one is opened.  So what `read` has returned is what the
driver has handed over, first on the first port, then on the second; and what the driver has
been given to send is what the calls of `write` that have returned were given.
-/

namespace EmbeddedBridge.Python.SerialTransport

open Library Py Transport Methods Histories

variable {φ ω α : Type}

/-! ## Ports in the log -/

def Event.receivedBytes : Event → List UInt8
  | .received _ data => data
  | _ => []

def Event.receivedOn (port : Nat) : Event → List UInt8
  | .received other data => if other = port then data else []
  | _ => []

def Event.sentData : Event → List (List UInt8)
  | .sent _ data => [data]
  | _ => []

def Event.openedPort : Event → List Nat
  | .opened port => [port]
  | _ => []

/-- The port that is used. -/
def Event.usedPort? : Event → Option Nat
  | .opened _ => none
  | .received port _ => some port
  | .readFailed port _ => some port
  | .sent port _ => some port
  | .sendFailed port _ => some port

def receivedIn (log : List Event) : List UInt8 := log.flatMap Event.receivedBytes

def receivedOn (port : Nat) (log : List Event) : List UInt8 := log.flatMap (Event.receivedOn port)

def sentIn (log : List Event) : List (List UInt8) := log.flatMap Event.sentData

def openedIn (log : List Event) : List Nat := log.flatMap Event.openedPort

/-- Of the ports opened so far, which are numbered, the last is used. -/
def Current (before : List Event) (event : Event) : Prop :=
  (∀ port, event = .opened port → port = (openedIn before).length) ∧
    ∀ port, event.usedPort? = some port → port + 1 = (openedIn before).length

theorem openedIn_snoc (log : List Event) (event : Event) :
    openedIn (log ++ [event]) = openedIn log ++ event.openedPort := by simp [openedIn]

theorem receivedIn_snoc (log : List Event) (event : Event) :
    receivedIn (log ++ [event]) = receivedIn log ++ event.receivedBytes := by simp [receivedIn]

theorem receivedOn_snoc (port : Nat) (log : List Event) (event : Event) :
    receivedOn port (log ++ [event]) = receivedOn port log ++ event.receivedOn port := by
  simp [receivedOn]

theorem sentIn_snoc (log : List Event) (event : Event) :
    sentIn (log ++ [event]) = sentIn log ++ event.sentData := by simp [sentIn]

/-- Nothing is received on a port that has not been opened. -/
theorem receivedOn_unopened {log : List Event} (current : Everywhere Current log) {port : Nat}
    (unopened : (openedIn log).length ≤ port) : receivedOn port log = [] := by
  induction log using List.reverseRecOn with
  | nil => rfl
  | append_singleton log event inductionHypothesis =>
    obtain ⟨earlier, now⟩ := everywhere_snoc.mp current
    rw [openedIn_snoc, List.length_append] at unopened
    rw [receivedOn_snoc, inductionHypothesis earlier (by omega), List.nil_append]
    cases event with
    | received other data =>
      have used := now.2 other rfl
      have differs : other ≠ port := by omega
      exact if_neg differs
    | _ => rfl

/-- What has been received, port by port. -/
theorem receivedIn_eq {log : List Event} (current : Everywhere Current log) :
    receivedIn log = (List.range (openedIn log).length).flatMap fun port => receivedOn port log := by
  induction log using List.reverseRecOn with
  | nil => rfl
  | append_singleton log event inductionHypothesis =>
    obtain ⟨earlier, now⟩ := everywhere_snoc.mp current
    have same := inductionHypothesis earlier
    rw [receivedIn_snoc, openedIn_snoc, List.length_append]
    simp only [receivedOn_snoc]
    cases event with
    | opened port =>
      simp only [Event.receivedBytes, Event.openedPort, Event.receivedOn, List.append_nil,
        List.length_singleton, List.range_succ, List.flatMap_append, List.flatMap_singleton]
      rw [receivedOn_unopened earlier (le_refl _), List.append_nil, same]
    | received port data =>
      -- the port is the last one, and the others are as before
      have last := now.2 port rfl
      simp only [Event.receivedBytes, Event.openedPort, Event.receivedOn, List.length_nil,
        Nat.add_zero]
      rw [← last] at same ⊢
      rw [same, List.range_succ, List.flatMap_append, List.flatMap_append, List.flatMap_singleton,
        List.flatMap_singleton, if_pos rfl, List.append_assoc]
      congr 1
      refine List.flatMap_congr fun other below => ?_
      have differs : port ≠ other := by
        have := List.mem_range.mp below
        omega
      rw [if_neg differs, List.append_nil]
    | _ => simpa [Event.receivedBytes, Event.openedPort, Event.receivedOn] using same

/-! ## The calls -/

/-- What has been received and sent so far, and the port held is the last. -/
structure Streaming (received : List UInt8) (sent : List (List UInt8))
    (transport : SerialTransport ω) : Prop where
  received : receivedIn transport.log = received
  sent : sentIn transport.log = sent
  numbered : (openedIn transport.log).length = transport.ports
  current : Everywhere Current transport.log
  held : ∀ port, transport.serial = some port → port + 1 = transport.ports

/-- The port may be used. -/
def Holding (ser : Nat) (received : List UInt8) (sent : List (List UInt8))
    (transport : SerialTransport ω) : Prop :=
  Streaming received sent transport ∧ ser + 1 = transport.ports

section

variable {received : List UInt8} {sent : List (List UInt8)} {transport : SerialTransport ω}

theorem Streaming.inWorld (streaming : Streaming received sent transport) (world : ω) :
    Streaming received sent { transport with world } :=
  ⟨streaming.received, streaming.sent, streaming.numbered, streaming.current, streaming.held⟩

theorem Holding.inWorld {ser : Nat} (holding : Holding ser received sent transport) (world : ω) :
    Holding ser received sent { transport with world } := ⟨holding.1.inWorld world, holding.2⟩

theorem Streaming.opens (streaming : Streaming received sent transport) :
    Streaming received sent
      { transport with
        ports := transport.ports + 1
        log := transport.log ++ [.opened transport.ports]
        serial := some transport.ports } where
  received := by rw [receivedIn_snoc, streaming.received]; exact List.append_nil _
  sent := by rw [sentIn_snoc, streaming.sent]; exact List.append_nil _
  numbered := by
    rw [openedIn_snoc, List.length_append, streaming.numbered]
    rfl
  current := by
    refine everywhere_snoc.mpr ⟨streaming.current, ?_, nofun⟩
    intro port same
    cases same
    exact streaming.numbered.symm
  held port same := by
    cases same
    rfl

theorem Holding.uses {ser : Nat} (holding : Holding ser received sent transport) (event : Event)
    (uses : event.usedPort? = some ser) :
    Holding ser (received ++ event.receivedBytes) (sent ++ event.sentData)
      { transport with log := transport.log ++ [event] } := by
  obtain ⟨streaming, last⟩ := holding
  have notOpened : event.openedPort = [] := by
    cases event with
    | opened port => cases uses
    | _ => rfl
  refine ⟨⟨?_, ?_, ?_, ?_, streaming.held⟩, last⟩
  · rw [receivedIn_snoc, streaming.received]
  · rw [sentIn_snoc, streaming.sent]
  · rw [openedIn_snoc, notOpened, List.append_nil, streaming.numbered]
  · refine everywhere_snoc.mpr ⟨streaming.current, ?_, ?_⟩
    · rintro port rfl
      cases uses
    · intro port same
      cases uses.symm.trans same
      exact last.trans streaming.numbered.symm

end

section

variable {received : List UInt8} {sent : List (List UInt8)}

/-- What leaves the streams as they are, however it ends. -/
abbrev Keeps (method : Method ω α) : Prop :=
  ∀ {received : List UInt8} {sent : List (List UInt8)},
    Ensures (Streaming received sent) method (fun _ => Streaming received sent)
      fun _ => Streaming received sent

theorem perform_keeps (action : ω → α × ω) : Keeps (perform action) :=
  fun _ streaming => streaming.inWorld _

theorem orRaise_keeps (answer : Except PyException α) :
    Keeps (orRaise answer : Method ω α) := by
  cases answer with
  | ok value => exact .ofPure fun _ => id
  | error exception => exact .ofThrow fun _ => id

theorem raise_keeps (cls : ExceptionClass) (text : Str) :
    Keeps (raise cls text : Method ω α) := .ofThrow fun _ => id

variable (driver : Driver φ ω) (config : Config φ)

theorem resolvePort_keeps (deviceName : Str) : Keeps (resolvePort driver deviceName) := by
  refine .ite (fun _ => .ofPure fun _ => id) fun _ => (perform_keeps _).bind fun answer => ?_
  cases answer with
  | ok result =>
    exact .ite (fun _ => raise_keeps _ _) fun _ => .ite (fun _ => raise_keeps _ _) fun _ =>
      .ofPure fun _ => id
  | error exception =>
    exact .ite (fun _ => .ofThrow fun _ => id) fun _ => .ite (fun _ => raise_keeps _ _) fun _ =>
      .ite (fun _ => raise_keeps _ _) fun _ => .ofThrow fun _ => id

/-- A port that is opened is held. -/
theorem open_keeps (path : Str) (baudrate : Int) : Keeps (do
    let ser ← openSerial driver path baudrate
    modify fun transport => { transport with serial := some ser } : Method ω Unit) := by
  intro received sent
  unfold openSerial
  simp only [bind_assoc]
  refine (perform_keeps _).bind fun answer => (orRaise_keeps answer).bind fun _ => ?_
  exact Ensures.ofGet.bind fun before transport holds => holds.1 ▸ holds.2.opens

theorem named_keeps (path : Str) : Keeps (modify fun transport =>
    { transport with portPath := some path } : Method ω Unit) :=
  fun _ streaming => ⟨streaming.received, streaming.sent, streaming.numbered, streaming.current,
    streaming.held⟩

theorem connect_keeps : Keeps (connect driver config) := by
  intro received sent
  refine Ensures.ofGet.bind fun before => ?_
  refine (Ensures.ite (fun _ => .ofPure fun _ => id) fun _ => ?_).weaken (fun _ holds => holds.2)
    (fun _ _ => id) fun _ _ => id
  exact (resolvePort_keeps driver config.portSpec).bind fun path =>
    (named_keeps path).bind fun _ => open_keeps driver path config.baudrate

theorem disconnect_keeps : Keeps (disconnect driver : Method ω Unit) := by
  intro received sent transport streaming
  obtain ⟨serial, portPath, world, ports, log⟩ := transport
  cases serial with
  | none => exact streaming
  | some ser =>
    exact ⟨streaming.received, streaming.sent, streaming.numbered, streaming.current, nofun⟩

theorem reopen_keeps : Keeps (reopen driver config) := by
  refine (resolvePort_keeps driver config.portSpec).bind fun path =>
    (named_keeps path).bind fun _ => ?_
  refine Ensures.bind ((perform_keeps _).bind fun answer => orRaise_keeps answer) fun present => ?_
  exact .ite (fun _ => open_keeps driver path config.baudrate) fun _ => raise_keeps _ _

/-- The port that is returned is the last. -/
theorem ensureConnected_holds :
    Ensures (Streaming received sent) (ensureConnected driver : Method ω Nat)
      (fun ser => Holding ser received sent) fun _ => Streaming received sent := by
  intro transport streaming
  obtain ⟨serial, portPath, world, ports, log⟩ := transport
  unfold ensureConnected
  rw [run_bind_ok _ (run_get _)]
  cases serial with
  | none => exact streaming
  | some ser =>
    cases isOpen : driver.isOpen ser world with
    | false =>
      simp only [isOpen, Bool.false_eq_true, ↓reduceIte]
      exact streaming
    | true =>
      simp only [isOpen, ↓reduceIte]
      exact ⟨streaming, streaming.held ser rfl⟩

theorem writeAndFlush_sends (ser : Nat) (data : List UInt8) :
    Ensures (Holding ser received sent) (writeAndFlush driver ser data)
      (fun answer => Streaming received (if answer.isOk then sent ++ [data] else sent))
      fun _ => Streaming received sent := by
  refine Ensures.bindVia (fun _ => Holding ser received sent)
    (fun transport holding => holding.inWorld _) fun answer => ?_
  · cases answer with
    | ok result =>
      intro transport holding
      have sends := (holding.uses (.sent ser data) rfl).1
      exact (List.append_nil received) ▸ sends
    | error exception =>
      intro transport holding
      have fails := (holding.uses (.sendFailed ser exception) rfl).1
      exact (List.append_nil received) ▸ (List.append_nil sent) ▸ fails

/-- What is read is received, and nothing otherwise. -/
theorem readAvailable_receives (ser : Nat) (size : Int) :
    Ensures (Holding ser received sent) (readAvailable driver ser size)
      (fun answer => match answer with
        | .ok (some data) => Streaming (received ++ data) sent
        | _ => Holding ser received sent)
      fun _ => Streaming received sent := by
  have performs {α : Type} (action : ω → α × ω) :
      Ensures (Holding ser received sent) (perform action) (fun _ => Holding ser received sent)
        fun _ => Streaming received sent :=
    fun transport holding => holding.inWorld _
  have fails (exception : PyException) :
      Ensures (Holding ser received sent)
        (do
          emit (.readFailed ser exception)
          return .error exception : Method ω (Except PyException (Option (List UInt8))))
        (fun answer => match answer with
          | .ok (some data) => Streaming (received ++ data) sent
          | _ => Holding ser received sent)
        fun _ => Streaming received sent := by
    intro transport holding
    have failed := holding.uses (.readFailed ser exception) rfl
    exact (List.append_nil received) ▸ (List.append_nil sent) ▸ failed
  refine (performs _).bind fun answer => ?_
  cases answer with
  | error exception => exact fails exception
  | ok waiting =>
    refine .ite (fun _ => (performs _).bind fun answer => ?_) fun _ => .ofPure fun _ => id
    cases answer with
    | error exception => exact fails exception
    | ok data =>
      intro transport holding
      have receives := (holding.uses (.received ser data) rfl).1
      exact (List.append_nil sent) ▸ receives

variable [PyFloatOrder φ]

theorem doReconnect_keeps (fuel : Nat) : Keeps (doReconnect driver config fuel) := by
  intro received sent
  refine (disconnect_keeps driver).bind fun _ => (perform_keeps _).bind fun start => ?_
  exact attemptLoop_keeps (perform_keeps _) (perform_keeps _) (reopen_keeps driver config) _ fuel 0

theorem readLoop_receives (size : Int) (deadline : Option φ) (fuel ser : Nat) :
    Ensures (Holding ser received sent) (readLoop driver config size deadline fuel ser)
      (fun data => Streaming (received ++ data) sent) fun _ => Streaming received sent := by
  have nothing (transport : SerialTransport ω) (streaming : Streaming received sent transport) :
      Streaming (received ++ []) sent transport := (List.append_nil received).symm ▸ streaming
  induction fuel generalizing ser with
  | zero => exact .ofThrow fun _ holding => holding.1
  | succ fuel inductionHypothesis =>
    refine (readAvailable_receives driver ser size).bind fun answer => ?_
    cases answer with
    | ok available =>
      cases available with
      | some data => exact .ofPure fun _ => id
      | none =>
        refine Ensures.bindVia (fun _ => Holding ser received sent) ?_ fun isOver => ?_
        · intro transport holding
          cases deadline with
          | none => exact holding
          | some deadline => exact holding.inWorld _
        · refine .ite (fun _ => .ofPure fun transport holding => nothing transport holding.1)
            fun _ => ?_
          refine Ensures.bindVia (fun _ => Holding ser received sent)
            (fun transport holding => holding.inWorld _) fun _ => inductionHypothesis ser
    | error exception =>
      have reconnects := (doReconnect_keeps driver config fuel).bind fun _ =>
        (ensureConnected_holds driver).bind fun ser => inductionHypothesis ser
      exact .ite (fun _ => .ite
          (fun _ => reconnects.weaken (fun _ holding => holding.1) (fun _ _ => id) fun _ _ => id)
          fun _ => .ofThrow fun _ holding => holding.1)
        fun _ => .ofThrow fun _ holding => holding.1

/-- What `read` returns is what has been received by it. -/
theorem read_receives (size : Int) (timeout : Option φ) (fuel : Nat) :
    Ensures (Streaming received sent) (read driver config size timeout fuel)
      (fun data => Streaming (received ++ data) sent) fun _ => Streaming received sent := by
  refine (ensureConnected_holds driver).bind fun ser => ?_
  refine Ensures.bindVia (fun _ => Holding ser received sent) (fun transport holding => ?_)
    fun deadline => readLoop_receives driver config size deadline fuel ser
  cases timeout with
  | none => exact holding
  | some timeout => exact holding.inWorld _

/-- `write` returns when its data has been sent, by it and once. -/
theorem write_sends (data : List UInt8) (fuel : Nat) :
    Ensures (Streaming received sent) (write driver config data fuel)
      (fun _ => Streaming received (sent ++ [data])) fun _ => Streaming received sent := by
  refine (ensureConnected_holds driver).bind fun ser =>
    (writeAndFlush_sends driver ser data).bind fun answer => ?_
  cases answer with
  | ok result => exact .ofPure fun _ => id
  | error exception =>
    refine .ite (fun _ => .ite (fun _ => ?_) fun _ => .ofThrow fun _ => id)
      fun _ => .ofThrow fun _ => id
    refine (doReconnect_keeps driver config fuel).bind fun _ =>
      (ensureConnected_holds driver).bind fun ser =>
        (writeAndFlush_sends driver ser data).bind fun answer => ?_
    cases answer with
    | ok result => exact .ofPure fun _ => id
    | error exception => exact .ofThrow fun _ => id

/-! ## How much is read -/

/-- pyserial reads no more than it is asked for. -/
def Driver.Bounded : Prop :=
  ∀ port (size : Int) world data after, 0 ≤ size → driver.read port size world = (.ok data, after) →
    (data.length : Int) ≤ size

omit [PyFloatOrder φ] in
theorem readAvailable_bounded {driver : Driver φ ω} (bounded : driver.Bounded) {size : Int}
    (natural : 0 ≤ size) (ser : Nat) :
    Returns (readAvailable driver ser size)
      fun answer => ∀ data, answer = .ok (some data) → (data.length : Int) ≤ size := by
  have others {answer : Except PyException (Option (List UInt8))}
      (other : ∀ data, answer ≠ .ok (some data)) {before : Method ω Unit} :
      Returns (do before; return answer : Method ω (Except PyException (Option (List UInt8))))
        fun answer => ∀ data, answer = .ok (some data) → (data.length : Int) ≤ size :=
    .bindAny fun _ => .ofPure fun data same => absurd same (other data)
  refine .bindAny fun answer => ?_
  cases answer with
  | error exception => exact others fun _ same => by cases same
  | ok waiting =>
    refine .ite (fun some => ?_) fun _ => .ofPure fun _ same => by cases same
    have noMinusOne : size ≠ -1 := by omega
    simp only [if_neg noMinusOne]
    have reads : Returns (perform (driver.read ser (min size waiting)))
        fun answer => ∀ data, answer = .ok data → (data.length : Int) ≤ size := by
      intro transport answer after ran data same
      have asked : 0 ≤ min size (waiting : Int) := by omega
      have read : (driver.read ser (min size waiting) transport.world).1 = .ok data :=
        (Except.ok.inj (congrArg Prod.fst ran)).trans same
      exact Int.le_trans (bounded _ _ _ _ _ asked (Prod.ext read rfl)) (Int.min_le_left _ _)
    refine reads.bind fun answer short => ?_
    cases answer with
    | error exception => exact others fun _ same => by cases same
    | ok data =>
      refine .bindAny fun _ => .ofPure fun data' same => ?_
      cases same
      exact short data rfl

theorem read_bounded {driver : Driver φ ω} (bounded : driver.Bounded) {size : Int}
    (natural : 0 ≤ size) (timeout : Option φ) (fuel : Nat) :
    Returns (read driver config size timeout fuel) fun data => (data.length : Int) ≤ size := by
  refine .bindAny fun ser => .bindAny fun deadline => ?_
  induction fuel generalizing ser with
  | zero => exact .ofThrow _
  | succ fuel inductionHypothesis =>
    refine (readAvailable_bounded bounded natural ser).bind fun answer short => ?_
    cases answer with
    | ok available =>
      cases available with
      | some data => exact .ofPure (short data rfl)
      | none =>
        exact .bindAny fun isOver => .ite (fun _ => .ofPure natural) fun _ =>
          .bindAny fun _ => inductionHypothesis ser
    | error exception =>
      exact .ite (fun _ => .ite (fun _ => .bindAny fun _ => .bindAny fun ser =>
        inductionHypothesis ser) fun _ => .ofThrow _) fun _ => .ofThrow _

end

/-! ## Main result -/

/-- A call and how it has ended. -/
abbrev Answer (φ : Type) := Call φ × Except Transport.Stop (List UInt8)

/-- What the call has returned. -/
def Answer.returned : Answer φ → List UInt8
  | (_, .ok data) => data
  | (_, .error _) => []

/-- What the call has written, if it has returned. -/
def Answer.written : Answer φ → List (List UInt8)
  | (.write data _, .ok _) => [data]
  | _ => []

/-- A call of `read` is not given more than it asks for. -/
def Answer.Short : Answer φ → Prop
  | (.read size _ _, .ok data) => 0 ≤ size → (data.length : Int) ≤ size
  | _ => True

section

variable [PyFloatOrder φ] (driver : Driver φ ω) (config : Config φ)

/-- The method that is called; only `read` returns something. -/
def methodOf : Call φ → Method ω (List UInt8)
  | .connect => do connect driver config; return []
  | .disconnect => do disconnect driver; return []
  | .read size timeout fuel => read driver config size timeout fuel
  | .write data fuel => do write driver config data fuel; return []

def answer : Transducer.Step (SerialTransport ω) (Call φ) (Answer φ) := fun transport call =>
  let ran := Methods.run (methodOf driver config call) transport
  (ran.2, [(call, ran.1)])

/-- What a call returns has been received, and what it has been given has been sent. -/
theorem answer_streams (call : Call φ) {received : List UInt8} {sent : List (List UInt8)}
    {transport : SerialTransport ω} (streaming : Streaming received sent transport) :
    Streaming (received ++ (answer driver config transport call).2.flatMap Answer.returned)
      (sent ++ (answer driver config transport call).2.flatMap Answer.written)
      (answer driver config transport call).1 := by
  have ends : Ensures (Streaming received sent) (methodOf driver config call)
      (fun data => Streaming (received ++ data) (sent ++ Answer.written (call, .ok data)))
      fun _ => Streaming received sent := by
    have nothing (transport : SerialTransport ω) (streaming : Streaming received sent transport) :
        Streaming (received ++ []) (sent ++ []) transport := by
      rwa [List.append_nil, List.append_nil]
    cases call with
    | connect => exact (connect_keeps driver config).bind fun _ => .ofPure nothing
    | disconnect => exact (disconnect_keeps driver).bind fun _ => .ofPure nothing
    | read size timeout fuel =>
      exact (read_receives driver config size timeout fuel).weaken (fun _ => id)
        (fun _ _ streaming => (List.append_nil sent).symm ▸ streaming) fun _ _ => id
    | write data fuel =>
      exact (write_sends driver config data fuel).bind fun _ =>
        .ofPure fun _ streaming => (List.append_nil received).symm ▸ streaming
  have holds := ends transport streaming
  unfold answer
  cases ran : Methods.run (methodOf driver config call) transport with
  | mk outcome after =>
    rw [ran] at holds
    simp only [List.flatMap_singleton]
    cases outcome with
    | ok data => exact holds
    | error stop =>
      cases call <;> simpa [Answer.returned, Answer.written] using holds

theorem run_streams (calls : List (Call φ)) {received : List UInt8} {sent : List (List UInt8)}
    {transport : SerialTransport ω} (streaming : Streaming received sent transport) :
    Streaming
      (received ++ (Transducer.run (answer driver config) transport calls).2.flatMap Answer.returned)
      (sent ++ (Transducer.run (answer driver config) transport calls).2.flatMap Answer.written)
      (Transducer.run (answer driver config) transport calls).1 := by
  induction calls generalizing received sent transport with
  | nil => simpa using streaming
  | cons call calls inductionHypothesis =>
    have first := answer_streams driver config call streaming
    have later := inductionHypothesis first
    rw [Transducer.run_cons]
    simpa only [List.flatMap_append, List.append_assoc] using later

theorem answer_short (bounded : driver.Bounded) (transport : SerialTransport ω) (call : Call φ) :
    ∀ entry ∈ (answer driver config transport call).2, entry.Short := by
  refine List.forall_mem_singleton.mpr ?_
  cases call with
  | read size timeout fuel =>
    cases ran : Methods.run (methodOf driver config (.read size timeout fuel)) transport with
    | mk outcome after =>
      cases outcome with
      | ok data => exact fun natural => read_bounded config bounded natural timeout fuel _ _ _ ran
      | error stop => trivial
  | _ => trivial

theorem run_short (bounded : driver.Bounded) (calls : List (Call φ)) (transport : SerialTransport ω) :
    ∀ entry ∈ (Transducer.run (answer driver config) transport calls).2, entry.Short := by
  induction calls generalizing transport with
  | nil => exact nofun
  | cons call calls inductionHypothesis =>
    rw [Transducer.run_cons]
    exact List.forall_mem_append.mpr
      ⟨answer_short driver config bounded transport call, inductionHypothesis _⟩

/-- Over any calls of a new transport: what `read` has returned is what has been received on the
ports, one port after the other; what `write` has returned for is what has been sent; no port is
used when another has been opened; and `read` returns no more than it was asked for. -/
theorem serial_stream (world : ω) (calls : List (Call φ)) :
    let ran := Transducer.run (answer driver config) { world } calls
    ran.2.flatMap Answer.returned =
        (List.range ran.1.ports).flatMap (fun port => receivedOn port ran.1.log) ∧
      ran.2.flatMap Answer.written = sentIn ran.1.log ∧
      Everywhere Current ran.1.log ∧
      (driver.Bounded → ∀ entry ∈ ran.2, entry.Short) := by
  intro ran
  have fresh : Streaming [] [] ({ world } : SerialTransport ω) :=
    ⟨rfl, rfl, rfl, everywhere_nil, nofun⟩
  have streaming : Streaming (ran.2.flatMap Answer.returned) (ran.2.flatMap Answer.written) ran.1 :=
    run_streams driver config calls fresh
  refine ⟨?_, streaming.sent.symm, streaming.current, fun bounded =>
    run_short driver config bounded calls _⟩
  rw [← streaming.received, ← streaming.numbered]
  exact receivedIn_eq streaming.current

end

end EmbeddedBridge.Python.SerialTransport
