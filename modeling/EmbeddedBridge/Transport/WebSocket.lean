import EmbeddedBridge.Library.Utf8
import EmbeddedBridge.Transport.Reconnect

/-! # WebSocket transport

`WebSocketTransport` of `transport/websocket.py`.  The `websockets` library, the clock
and `time.sleep` are a `Driver`: whatever state it has, each call may answer anything
and change it.  Connections are numbered in the order in which they are opened.

What the driver answers, and what `read` returns, is in the log.
-/

namespace EmbeddedBridge.Python

open Library Py Transport

inductive WebSocketMessage where
  | text (chars : List Char)
  | binary (data : List UInt8)
deriving DecidableEq, Repr

/-- Text is UTF-8 encoded. -/
def WebSocketMessage.bytes : WebSocketMessage → List UInt8
  | .text chars => Utf8.encode chars
  | .binary data => data

namespace WebSocketTransport

/-- An exception of `close` is ignored. -/
structure Driver (φ ω : Type) where
  monotonic : ω → φ × ω
  sleep : φ → ω → ω
  connect : Str → φ → ω → Except PyException Unit × ω
  recv : (connection : Nat) → Option φ → ω → Except PyException WebSocketMessage × ω
  send : (connection : Nat) → List UInt8 → ω → Except PyException Unit × ω
  close : (connection : Nat) → ω → ω

structure Config (φ : Type) where
  uri : Str
  openTimeout : φ
  reconnect : Bool
  reconnectInterval : φ
  reconnectTimeout : φ

inductive Event where
  | opened (connection : Nat)
  | openFailed (exception : PyException)
  | received (connection : Nat) (message : WebSocketMessage)
  | recvFailed (connection : Nat) (exception : PyException)
  | sent (connection : Nat) (data : List UInt8)
  | sendFailed (connection : Nat) (exception : PyException)
  | returned (data : List UInt8)
deriving DecidableEq, Repr

end WebSocketTransport

structure WebSocketTransport (ω : Type) where
  ws : Option Nat := none
  buffer : List UInt8 := []
  world : ω
  connections : Nat := 0
  log : List WebSocketTransport.Event := []

namespace WebSocketTransport

variable {φ ω α : Type}

abbrev Method (ω α : Type) := Transport.Method (WebSocketTransport ω) α

/-! ## The driver -/

section

variable (driver : Driver φ ω)

def emit (event : Event) : Method ω Unit :=
  modify fun transport => { transport with log := transport.log ++ [event] }

/-- The driver answers. -/
def perform (action : ω → α × ω) : Method ω α := do
  let transport ← get
  let answered := action transport.world
  set { transport with world := answered.2 }
  return answered.1

/-- `time.monotonic()` -/
def clock : Method ω φ := perform driver.monotonic

/-- `time.sleep(seconds)` -/
def pause (seconds : φ) : Method ω Unit := perform fun world => ((), driver.sleep seconds world)

/-- `ws_connect(..)` -/
def wsConnect (config : Config φ) : Method ω Nat := do
  match ← perform (driver.connect config.uri config.openTimeout) with
  | .ok () =>
    let connection := (← get).connections
    modify fun transport => { transport with connections := connection + 1 }
    emit (.opened connection)
    return connection
  | .error exception => do
    emit (.openFailed exception)
    throw (.raised exception)

/-- `ws.recv(timeout)`, with what it raises as an answer. -/
def recv (ws : Nat) (timeout : Option φ) : Method ω (Except PyException WebSocketMessage) := do
  let answer ← perform (driver.recv ws timeout)
  match answer with
  | .ok message => emit (.received ws message)
  | .error exception => emit (.recvFailed ws exception)
  return answer

/-- `ws.send(data)`, with what it raises as an answer. -/
def send (ws : Nat) (data : List UInt8) : Method ω (Except PyException Unit) := do
  let answer ← perform (driver.send ws data)
  match answer with
  | .ok () => emit (.sent ws data)
  | .error exception => emit (.sendFailed ws exception)
  return answer

end

/-! ## The transport -/

section

variable (driver : Driver φ ω) (config : Config φ)

def connect : Method ω Unit := do
  match (← get).ws with
  | some _ => return
  | none =>
    tryCatch
      (do
        let connection ← wsConnect driver config
        modify fun transport => { transport with ws := some connection })
      fun stop =>
        match stop with
        | .raised exception =>
          if exception.isAny [.webSocketException, .osError, .timeoutError] then
            raise .connectionError
              (str "Failed to connect to " ++ config.uri ++ str ": " ++ exception.text)
          else throw stop
        | .cutOff => throw stop

def disconnect : Method ω Unit := do
  match (← get).ws with
  | some ws => do
    perform fun world => ((), driver.close ws world)
    modify fun transport => { transport with ws := none }
  | none => pure ()
  modify fun transport => { transport with buffer := [] }

def ensureConnected : Method ω Nat := do
  match (← get).ws with
  | some ws => return ws
  | none => raise .connectionError (str "Not connected. Call connect() first.")

/-- How much of something `[:size]` is; a negative `size` counts from the end. -/
def sliceLength (length : Nat) (size : Int) : Nat :=
  if size < 0 then length - size.natAbs else min size.toNat length

def drainBuffer (size : Int) : Method ω (List UInt8) := do
  let buffer := (← get).buffer
  if size = -1 ∨ (buffer.length : Int) ≤ size then do
    modify fun transport => { transport with buffer := [] }
    return buffer
  else do
    let count := sliceLength buffer.length size
    modify fun transport => { transport with buffer := buffer.drop count }
    return buffer.take count

variable [PyFloat φ]

def doReconnect (fuel : Nat) : Method ω Unit := do
  disconnect driver
  let start ← clock driver
  attemptLoop (clock driver) (pause driver config.reconnectInterval)
    (do
      let connection ← wsConnect driver config
      modify fun transport => { transport with ws := some connection, buffer := [] })
    [.webSocketException, .osError, .timeoutError]
    (gaveUp config.uri config.reconnectTimeout)
    (PyFloat.add start config.reconnectTimeout) fuel 0

/-- `time.monotonic() + timeout`, if there is a timeout. -/
def deadlineAfter (timeout : Option φ) : Method ω (Option φ) := do
  match timeout with
  | none => return none
  | some timeout => do
    let now ← clock driver
    return some (PyFloat.add now timeout)

/-- `max(0.0, seconds)` -/
def max0 (seconds : φ) : φ :=
  if PyFloat.lt (PyFloat.literal 0 0) seconds then seconds else PyFloat.literal 0 0

/-- The time that is left until the deadline, if there is one. -/
def remainingUntil (deadline : Option φ) : Method ω (Option φ) := do
  match deadline with
  | none => return none
  | some deadline => do
    let now ← clock driver
    return some (max0 (PyFloat.sub deadline now))

/-- `remaining == 0.0` -/
def isUp (remaining : Option φ) : Bool :=
  match remaining with
  | some seconds => PyFloat.eqInt seconds 0
  | none => false

/-- The `while` loop of `read`. -/
def readLoop (size : Int) (deadline : Option φ) : (fuel : Nat) → (ws : Nat) → Method ω (List UInt8)
  | 0, _ => throw .cutOff
  | fuel + 1, ws => do
    let remaining ← remainingUntil driver deadline
    if isUp remaining ∧ (← get).buffer = [] then return []
    else
      match ← recv driver ws remaining with
      | .ok message => do
        modify fun transport => { transport with buffer := transport.buffer ++ message.bytes }
        drainBuffer size
      | .error exception =>
        if exception.isAny [.timeoutError] then return []
        else if exception.isAny [.connectionClosed] then
          if config.reconnect then do
            doReconnect driver config fuel
            let ws ← ensureConnected
            readLoop size deadline fuel ws
          else
            raise .connectionError (str "WebSocket connection closed: " ++ exception.text)
        else throw (.raised exception)

def receiveBytes (size : Int) (timeout : Option φ) (fuel : Nat) : Method ω (List UInt8) := do
  let ws ← ensureConnected
  if (← get).buffer ≠ [] then drainBuffer size
  else do
    let deadline ← deadlineAfter driver timeout
    readLoop driver config size deadline fuel ws

def read (size : Int) (timeout : Option φ) (fuel : Nat) : Method ω (List UInt8) := do
  let data ← receiveBytes driver config size timeout fuel
  emit (.returned data)
  return data

def write (data : List UInt8) (fuel : Nat) : Method ω Unit := do
  let ws ← ensureConnected
  match ← send driver ws data with
  | .ok () => return
  | .error exception =>
    if exception.isAny [.connectionClosed] then
      if config.reconnect then do
        doReconnect driver config fuel
        let ws ← ensureConnected
        -- inside the handler: what this raises, no other handler catches
        orRaise (← send driver ws data)
      else raise .connectionError (str "WebSocket write failed: " ++ exception.text)
    else if exception.isAny [.webSocketException] then
      raise .connectionError (str "WebSocket write failed: " ++ exception.text)
    else throw (.raised exception)

end

def isConnected (transport : WebSocketTransport ω) : Bool := transport.ws.isSome

/-! ## Runs -/

/-- Everything that can be done to a transport. -/
inductive Call (φ : Type) where
  | connect
  | disconnect
  | read (size : Int) (timeout : Option φ) (fuel : Nat)
  | write (data : List UInt8) (fuel : Nat)

variable [PyFloat φ] (driver : Driver φ ω) (config : Config φ)

/-- How a call ends, when what it returns is left out. -/
def call (transport : WebSocketTransport ω) : Call φ → Except Transport.Stop Unit × WebSocketTransport ω
  | .connect => Methods.run (connect driver config) transport
  | .disconnect => Methods.run (disconnect driver) transport
  | .read size timeout fuel =>
    Methods.run (do let _ ← read driver config size timeout fuel) transport
  | .write data fuel => Methods.run (write driver config data fuel) transport

/-- After the calls, one after the other, whatever they raise; a call that is cut off
is interrupted where it is. -/
def run (transport : WebSocketTransport ω) (calls : List (Call φ)) : WebSocketTransport ω :=
  calls.foldl (fun transport call => (transport.call driver config call).2) transport

/-! ## What each part does -/

open Methods

section

variable (transport : WebSocketTransport ω)

theorem run_perform (action : ω → α × ω) :
    Methods.run (perform action) transport =
      (.ok (action transport.world).1, { transport with world := (action transport.world).2 }) := rfl

omit [PyFloat φ] in
theorem run_wsConnect :
    Methods.run (wsConnect driver config) transport =
      match driver.connect config.uri config.openTimeout transport.world with
      | (.ok (), world) =>
        (.ok transport.connections,
          { transport with
            world, connections := transport.connections + 1
            log := transport.log ++ [.opened transport.connections] })
      | (.error exception, world) =>
        (.error (.raised exception),
          { transport with world, log := transport.log ++ [.openFailed exception] }) := by
  rw [wsConnect, run_bind, run_perform]
  cases driver.connect config.uri config.openTimeout transport.world with
  | mk answer world => cases answer <;> rfl

omit [PyFloat φ] in
theorem run_recv (ws : Nat) (timeout : Option φ) :
    Methods.run (recv driver ws timeout) transport =
      (.ok (driver.recv ws timeout transport.world).1,
        { transport with
          world := (driver.recv ws timeout transport.world).2
          log := transport.log ++ [match (driver.recv ws timeout transport.world).1 with
            | .ok message => .received ws message
            | .error exception => .recvFailed ws exception] }) := by
  rw [recv, run_bind, run_perform]
  cases driver.recv ws timeout transport.world with
  | mk answer world => cases answer <;> rfl

omit [PyFloat φ] in
theorem run_send (ws : Nat) (data : List UInt8) :
    Methods.run (send driver ws data) transport =
      (.ok (driver.send ws data transport.world).1,
        { transport with
          world := (driver.send ws data transport.world).2
          log := transport.log ++ [match (driver.send ws data transport.world).1 with
            | .ok () => .sent ws data
            | .error exception => .sendFailed ws exception] }) := by
  rw [send, run_bind, run_perform]
  cases driver.send ws data transport.world with
  | mk answer world => cases answer <;> rfl

omit [PyFloat φ] in
theorem run_disconnect :
    ∃ world, Methods.run (disconnect driver) transport =
      (.ok (), { transport with ws := none, buffer := [], world }) := by
  obtain ⟨ws, buffer, world, connections, log⟩ := transport
  cases ws with
  | none => exact ⟨world, rfl⟩
  | some ws => exact ⟨driver.close ws world, rfl⟩

theorem run_ensureConnected :
    Methods.run ensureConnected transport =
      match transport.ws with
      | some ws => (.ok ws, transport)
      | none =>
        (.error (.raised ⟨.connectionError, str "Not connected. Call connect() first."⟩),
          transport) := by
  rw [ensureConnected, run_bind_ok _ (run_get _)]
  cases transport.ws <;> rfl

omit [PyFloat φ] in
/-- Nothing is done while a connection is held; otherwise it is opened or refused. -/
theorem run_connect :
    (∃ ws, transport.ws = some ws ∧
      Methods.run (connect driver config) transport = (.ok (), transport)) ∨
    transport.ws = none ∧ ∃ world,
      Methods.run (connect driver config) transport =
          (.ok (), { transport with
            ws := some transport.connections, world
            connections := transport.connections + 1
            log := transport.log ++ [.opened transport.connections] }) ∨
        ∃ exception stop, Methods.run (connect driver config) transport =
          (.error stop,
            { transport with world, log := transport.log ++ [.openFailed exception] }) := by
  obtain ⟨ws, buffer, world, connections, log⟩ := transport
  rw [connect, run_bind_ok _ (run_get _)]
  cases ws with
  | some ws => exact .inl ⟨ws, rfl, rfl⟩
  | none =>
    refine .inr ⟨rfl, ?_⟩
    dsimp only
    rw [run_tryCatch, run_bind, run_wsConnect]
    cases driver.connect config.uri config.openTimeout world with
    | mk answer world =>
      refine ⟨world, ?_⟩
      cases answer with
      | ok opened => exact .inl rfl
      | error exception =>
        refine .inr ⟨exception, ?_⟩
        dsimp only
        split
        · exact ⟨_, rfl⟩
        · exact ⟨_, rfl⟩

/-- What is drained is taken from the front. -/
theorem run_drainBuffer (size : Int) :
    ∃ taken rest, transport.buffer = taken ++ rest ∧
      Methods.run (drainBuffer size) transport = (.ok taken, { transport with buffer := rest }) := by
  rw [drainBuffer, run_bind_ok _ (run_get _)]
  dsimp only
  split
  · exact ⟨transport.buffer, [], (List.append_nil _).symm, rfl⟩
  · exact ⟨_, _, (List.take_append_drop _ _).symm, rfl⟩

/-- Without a connection nothing happens. -/
theorem run_read_disconnected (size : Int) (timeout : Option φ) (fuel : Nat)
    (idle : transport.ws = none) :
    Methods.run (read driver config size timeout fuel) transport =
      (.error (.raised ⟨.connectionError, str "Not connected. Call connect() first."⟩),
        transport) := by
  rw [read, run_bind, receiveBytes, run_bind, run_ensureConnected, idle]

theorem run_write_disconnected (data : List UInt8) (fuel : Nat) (idle : transport.ws = none) :
    Methods.run (write driver config data fuel) transport =
      (.error (.raised ⟨.connectionError, str "Not connected. Call connect() first."⟩),
        transport) := by
  rw [write, run_bind, run_ensureConnected, idle]

end

/-! ## Reconnecting -/

/-- Disconnected, and all attempts since then refused. -/
structure Disconnected (before transport : WebSocketTransport ω) : Prop where
  ws : transport.ws = none
  buffer : transport.buffer = []
  connections : transport.connections = before.connections
  log : ∃ refusals : List PyException, transport.log = before.log ++ refusals.map .openFailed

/-- On a new connection, of which nothing has been received. -/
structure Reopened (before transport : WebSocketTransport ω) : Prop where
  ws : transport.ws = some before.connections
  buffer : transport.buffer = []
  connections : transport.connections = before.connections + 1
  log : ∃ refusals : List PyException,
    transport.log = before.log ++ refusals.map .openFailed ++ [.opened before.connections]

/-- How `_do_reconnect` may fail: with its own exception, or with one of `ws_connect`
that is not caught. -/
def ReconnectStops : Transport.Stop → Prop
  | .cutOff => True
  | .raised exception => exception.cls = .connectionError ∨
    exception.isAny [.webSocketException, .osError, .timeoutError] = false ∧
      ∃ world, (driver.connect config.uri config.openTimeout world).1 = .error exception

theorem doReconnect_ensures (before : WebSocketTransport ω) (fuel : Nat) :
    Ensures (fun transport => transport = before) (doReconnect driver config fuel)
      (fun _ => Reopened before)
      fun stop transport => Disconnected before transport ∧ ReconnectStops driver config stop := by
  have disconnects : Ensures (fun transport => transport = before) (disconnect driver)
      (fun _ => Disconnected before)
      fun stop transport => Disconnected before transport ∧ ReconnectStops driver config stop := by
    rintro transport rfl
    obtain ⟨world, ran⟩ := run_disconnect driver transport
    rw [ran]
    exact ⟨rfl, rfl, rfl, [], (List.append_nil _).symm⟩
  have performs : ∀ {β : Type} (action : ω → β × ω), Ensures (Disconnected before)
      (perform action) (fun _ => Disconnected before)
      fun stop transport => Disconnected before transport ∧ ReconnectStops driver config stop :=
    fun action transport holds => ⟨holds.ws, holds.buffer, holds.connections, holds.log⟩
  refine disconnects.bind fun _ => (performs _).bind fun start => ?_
  refine attemptLoop_ensures (performs _) (performs _) ?_ (fun count transport holds => ?_)
    (fun transport holds => ⟨holds, trivial⟩) _ fuel 0
  · intro transport holds
    obtain ⟨refusals, log⟩ := holds.log
    rw [run_bind, run_wsConnect]
    cases answered : driver.connect config.uri config.openTimeout transport.world with
    | mk answer world =>
      cases answer with
      | ok opened =>
        refine ⟨congrArg some holds.connections, rfl, ?_, refusals, ?_⟩
        · exact congrArg (· + 1) holds.connections
        · exact congrArg₂ (· ++ ·) log (by rw [holds.connections])
      | error exception =>
        have still : Disconnected before { transport with
            world := world, log := transport.log ++ [.openFailed exception] } :=
          ⟨holds.ws, holds.buffer, holds.connections, refusals ++ [exception], by simp [log]⟩
        by_cases caught : exception.isAny [.webSocketException, .osError, .timeoutError] = true
        · exact refused_of_caught caught still
        · refine refused_of_uncaught caught ⟨still, .inr ⟨Bool.eq_false_iff.mpr caught, ?_⟩⟩
          exact ⟨transport.world, by rw [answered]⟩
  · exact ⟨holds, .inl rfl⟩

end WebSocketTransport

end EmbeddedBridge.Python
