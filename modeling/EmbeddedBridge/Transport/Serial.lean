import EmbeddedBridge.Transport.Reconnect

/-! # Serial transport

`SerialTransport` of `transport/serial.py`, with `resolve_port` and `port_exists`.
pyserial, the clock, `time.sleep`, the file system and the `usb-device` program are a
`Driver`, as for the WebSocket transport; what it answers is in the log.
-/

namespace EmbeddedBridge.Python

open Library Py Transport

namespace SerialTransport

structure CompletedProcess where
  returncode : Int
  stdout : Str
  stderr : Str
deriving DecidableEq, Repr

/-- Ports are numbered in the order in which they are opened.  An exception of `close`
is ignored. -/
structure Driver (φ ω : Type) where
  monotonic : ω → φ × ω
  sleep : φ → ω → ω
  /-- `usb-device port` -/
  usbDevicePort : (deviceName : Str) → ω → Except PyException CompletedProcess × ω
  pathExists : Str → ω → Except PyException Bool × ω
  openPort : (path : Str) → (baudrate : Int) → ω → Except PyException Unit × ω
  isOpen : (port : Nat) → ω → Bool
  inWaiting : (port : Nat) → ω → Except PyException Nat × ω
  read : (port : Nat) → (size : Int) → ω → Except PyException (List UInt8) × ω
  write : (port : Nat) → List UInt8 → ω → Except PyException Unit × ω
  flush : (port : Nat) → ω → Except PyException Unit × ω
  close : (port : Nat) → ω → ω

structure Config (φ : Type) where
  portSpec : Str
  baudrate : Int
  reconnect : Bool
  reconnectInterval : φ
  reconnectTimeout : φ

inductive Event where
  | opened (port : Nat)
  | received (port : Nat) (data : List UInt8)
  | readFailed (port : Nat) (exception : PyException)
  | sent (port : Nat) (data : List UInt8)
  | sendFailed (port : Nat) (exception : PyException)
deriving DecidableEq, Repr

end SerialTransport

structure SerialTransport (ω : Type) where
  serial : Option Nat := none
  portPath : Option Str := none
  world : ω
  ports : Nat := 0
  log : List SerialTransport.Event := []

namespace SerialTransport

variable {φ ω α : Type}

abbrev Method (ω α : Type) := Transport.Method (SerialTransport ω) α

section

variable (driver : Driver φ ω)

/-! ## The driver -/

def emit (event : Event) : Method ω Unit :=
  modify fun transport => { transport with log := transport.log ++ [event] }

/-- The driver answers. -/
def perform (action : ω → α × ω) : Method ω α := do
  let transport ← get
  let answered := action transport.world
  set { transport with world := answered.2 }
  return answered.1

/-- `time.monotonic()` -/
def clock : Method ω φ := perform driver.monotonic

/-- `time.sleep(seconds)` -/
def pause (seconds : φ) : Method ω Unit := perform fun world => ((), driver.sleep seconds world)

def resolvePort (deviceName : Str) : Method ω Str := do
  if (str "/dev/").isPrefixOf deviceName ∨ (str "COM").isPrefixOf deviceName then return deviceName
  else
    match ← perform (driver.usbDevicePort deviceName) with
    | .ok result =>
      if result.returncode ≠ 0 then
        raise .fileNotFoundError
          (str "usb-device port '" ++ deviceName ++ str "' failed: " ++ strip result.stderr)
      else
        let port := strip result.stdout
        if port = [] then
          raise .fileNotFoundError
            (str "usb-device returned empty port for '" ++ deviceName ++ str "'")
        else return port
    | .error exception =>
      if exception.isAny [.fileNotFoundError] then throw (.raised exception)
      else if exception.isAny [.timeoutExpired] then
        raise .fileNotFoundError (str "usb-device timed out resolving '" ++ deviceName ++ str "'")
      else if exception.isAny [.osError] then
        raise .fileNotFoundError (str "usb-device not found on PATH: " ++ exception.text)
      else throw (.raised exception)

def portExists (portPath : Str) : Method ω Bool := do
  orRaise (← perform (driver.pathExists portPath))

/-- `serial.Serial(..)` -/
def openSerial (path : Str) (baudrate : Int) : Method ω Nat := do
  orRaise (← perform (driver.openPort path baudrate))
  let port := (← get).ports
  modify fun transport => { transport with ports := port + 1 }
  emit (.opened port)
  return port

/-- What the `try` of `read` does before it waits: `in_waiting`, and a read if there is
anything; what either raises is the answer. -/
def readAvailable (ser : Nat) (size : Int) : Method ω (Except PyException (Option (List UInt8))) := do
  match ← perform (driver.inWaiting ser) with
  | .error exception => do
    emit (.readFailed ser exception)
    return .error exception
  | .ok waiting =>
    if waiting > 0 then do
      let count := if size = -1 then (waiting : Int) else min size waiting
      match ← perform (driver.read ser count) with
      | .error exception => do
        emit (.readFailed ser exception)
        return .error exception
      | .ok data => do
        emit (.received ser data)
        return .ok (some data)
    else return .ok none

/-- `ser.write(data)` and `ser.flush()`, with what they raise as an answer. -/
def writeAndFlush (ser : Nat) (data : List UInt8) : Method ω (Except PyException Unit) := do
  let answer ← perform fun world =>
    match driver.write ser data world with
    | (.ok (), world) => driver.flush ser world
    | (.error exception, world) => (.error exception, world)
  match answer with
  | .ok () => emit (.sent ser data)
  | .error exception => emit (.sendFailed ser exception)
  return answer

end

/-! ## The transport -/

section

variable (driver : Driver φ ω) (config : Config φ)

def connect : Method ω Unit := do
  let transport ← get
  if transport.serial.any fun ser => driver.isOpen ser transport.world then return
  else do
    let path ← resolvePort driver config.portSpec
    modify fun transport => { transport with portPath := some path }
    let ser ← openSerial driver path config.baudrate
    modify fun transport => { transport with serial := some ser }

def disconnect : Method ω Unit := do
  match (← get).serial with
  | some ser => do
    perform fun world => ((), driver.close ser world)
    modify fun transport => { transport with serial := none }
  | none => return

def ensureConnected : Method ω Nat := do
  let transport ← get
  match transport.serial with
  | some ser =>
    if driver.isOpen ser transport.world then return ser
    else raise .connectionError (str "Not connected. Call connect() first.")
  | none => raise .connectionError (str "Not connected. Call connect() first.")

/-- The `try` of `_do_reconnect`. -/
def reopen : Method ω Unit := do
  -- the port may have changed
  let path ← resolvePort driver config.portSpec
  modify fun transport => { transport with portPath := some path }
  if ← portExists driver path then
    let ser ← openSerial driver path config.baudrate
    modify fun transport => { transport with serial := some ser }
  else raise .fileNotFoundError (str "Port " ++ path ++ str " not found")

variable [PyFloatOrder φ]

def doReconnect (fuel : Nat) : Method ω Unit := do
  disconnect driver
  let start ← clock driver
  attemptLoop (clock driver) (pause driver config.reconnectInterval) (reopen driver config)
    [.serialException, .fileNotFoundError, .osError]
    (gaveUp config.portSpec config.reconnectTimeout)
    (PyFloat.add start config.reconnectTimeout) fuel 0

/-- `time.monotonic() + timeout`, if there is a timeout. -/
def deadlineAfter (timeout : Option φ) : Method ω (Option φ) := do
  match timeout with
  | none => return none
  | some timeout => do
    let now ← clock driver
    return some (PyFloat.add now timeout)

/-- The deadline, if there is one, has passed. -/
def isOver (deadline : Option φ) : Method ω Bool := do
  match deadline with
  | none => return false
  | some deadline => do
    let now ← clock driver
    return PyFloatOrder.le deadline now

/-- The `while` loop of `read`. -/
def readLoop (size : Int) (deadline : Option φ) : (fuel : Nat) → (ser : Nat) → Method ω (List UInt8)
  | 0, _ => throw .cutOff
  | fuel + 1, ser => do
    match ← readAvailable driver ser size with
    | .ok (some data) => return data
    | .ok none =>
      if ← isOver driver deadline then return []
      else do
        pause driver (PyFloat.literal 1 2)
        readLoop size deadline fuel ser
    | .error exception =>
      if exception.isAny [.serialException, .osError] then
        if config.reconnect then do
          doReconnect driver config fuel
          let ser ← ensureConnected driver
          readLoop size deadline fuel ser
        else raise .connectionError (str "Serial read failed: " ++ exception.text)
      else throw (.raised exception)

def read (size : Int) (timeout : Option φ) (fuel : Nat) : Method ω (List UInt8) := do
  let ser ← ensureConnected driver
  let deadline ← deadlineAfter driver timeout
  readLoop driver config size deadline fuel ser

def write (data : List UInt8) (fuel : Nat) : Method ω Unit := do
  let ser ← ensureConnected driver
  match ← writeAndFlush driver ser data with
  | .ok () => return
  | .error exception =>
    if exception.isAny [.serialException, .osError] then
      if config.reconnect then do
        doReconnect driver config fuel
        let ser ← ensureConnected driver
        -- inside the handler: what this raises is not caught
        orRaise (← writeAndFlush driver ser data)
      else raise .connectionError (str "Serial write failed: " ++ exception.text)
    else throw (.raised exception)

end

/-- Everything that can be done to a transport. -/
inductive Call (φ : Type) where
  | connect
  | disconnect
  | read (size : Int) (timeout : Option φ) (fuel : Nat)
  | write (data : List UInt8) (fuel : Nat)

/-- How a call ends, when what it returns is left out. -/
def call [PyFloatOrder φ] (driver : Driver φ ω) (config : Config φ)
    (transport : SerialTransport ω) : Call φ → Except Transport.Stop Unit × SerialTransport ω
  | .connect => Methods.run (connect driver config) transport
  | .disconnect => Methods.run (disconnect driver) transport
  | .read size timeout fuel =>
    Methods.run (do let _ ← read driver config size timeout fuel) transport
  | .write data fuel => Methods.run (write driver config data fuel) transport

end SerialTransport

end EmbeddedBridge.Python
