import EmbeddedBridge.Library.Methods
import EmbeddedBridge.Library.Utf8
import EmbeddedBridge.Testing.Protocol

/-! # Test sessions

`TestSession.monitor` of `testing/session.py`, with `_read_line`,
`_check_sleep_state` and `_reconnect_after_wake`.  What is outside of a session, the
clock, the transport and the file system, is an `Environment`: whatever state it
has, each call may answer anything and change it.

A session keeps a trace of what it does.  The loops run for `fuel` turns; a run that
needs more is cut off there, and its trace is the beginning of the whole one.
-/

namespace EmbeddedBridge.Python

open Library Py

/-! ## Outcomes -/

structure TestOutcome (φ : Type) where
  testId : Str
  status : Json φ := .str (str "ok")
  markers : List (Str × φ) := []
  serialLog : List Str := []
  warnings : List Str := []
  sleepExpectedS : Option φ := none
  sleepActualS : Option φ := none

namespace TestOutcome

variable {φ : Type}

def mark (outcome : TestOutcome φ) (name : Str) (hostTs : φ) : TestOutcome φ :=
  { outcome with
    markers := Json.setItem (fun left right => left == right) name hostTs outcome.markers }

def warn (outcome : TestOutcome φ) (warning : Str) : TestOutcome φ :=
  { outcome with warnings := outcome.warnings ++ [warning] }

def log (outcome : TestOutcome φ) (line : Str) : TestOutcome φ :=
  { outcome with serialLog := outcome.serialLog ++ [line] }

/-- A warning and the status that goes with it. -/
def fail (outcome : TestOutcome φ) (warning status : Str) : TestOutcome φ :=
  { outcome.warn warning with status := .str status }

/-- `name in outcome.markers` -/
def Marked (outcome : TestOutcome φ) (name : Str) : Prop := name ∈ outcome.markers.map Prod.fst

/-- The test went wrong, and the outcome says how. -/
def Failed (outcome : TestOutcome φ) : Prop :=
  (outcome.status = .str (str "timeout") ∨ outcome.status = .str (str "error")) ∧
    outcome.warnings ≠ []

@[simp] theorem marked_mark (outcome : TestOutcome φ) (name other : Str) (hostTs : φ) :
    (outcome.mark name hostTs).Marked other ↔ other = name ∨ outcome.Marked other :=
  Json.mem_setItem

@[simp] theorem marked_warn (outcome : TestOutcome φ) (warning other : Str) :
    (outcome.warn warning).Marked other ↔ outcome.Marked other := Iff.rfl

@[simp] theorem marked_log (outcome : TestOutcome φ) (line other : Str) :
    (outcome.log line).Marked other ↔ outcome.Marked other := Iff.rfl

theorem failed_fail (outcome : TestOutcome φ) (warning status : Str)
    (known : status = str "timeout" ∨ status = str "error") :
    (outcome.fail warning status).Failed := by
  refine ⟨?_, List.append_ne_nil_of_right_ne_nil _ (List.cons_ne_nil _ _)⟩
  cases known with
  | inl timeout => exact .inl (congrArg Json.str timeout)
  | inr error => exact .inr (congrArg Json.str error)

end TestOutcome

/-! ## The session and its environment -/

/-- A call answers `none` or `false` where it raises. -/
structure Environment (φ ω : Type) where
  clock : ω → φ × ω
  sleep : φ → ω → Bool × ω
  read : φ → ω → Option (List UInt8) × ω
  write : List UInt8 → ω → Bool × ω
  connect : ω → Bool × ω
  disconnect : ω → Bool × ω
  portPath : ω → Option (Option Str) × ω
  pathExists : Str → ω → Bool × ω

/-- What a session does that can be seen from outside, and the places in `monitor`
that the results are about. -/
inductive Event (φ : Type) where
  | read
  | write (data : List UInt8) (done : Bool)
  | connect (done : Bool)
  | disconnect (done : Bool)
  /-- a marker line is consumed -/
  | marker (payload : Str)
  /-- `_check_sleep_state` returns -/
  | answer (state : Str)
  /-- a time since `sleep_start_time` is computed -/
  | elapsed (sleepStartTime : Option φ)
  /-- `_reconnect_after_wake` is called -/
  | reconnect
deriving DecidableEq, Repr

structure TestSession (φ ω : Type) where
  decoder : Utf8.State := .start
  lineBuf : Str := []
  environment : ω
  trace : List (Event φ) := []

/-- Why a run does not return. -/
inductive Stop where
  | raised (error : Raised)
  /-- something that was called raised -/
  | foreign
  | cutOff
deriving DecidableEq, Repr

namespace TestSession

variable {φ ω α : Type}

abbrev Method (φ ω α : Type) := Methods.Method Stop (TestSession φ ω) α

def emit (event : Event φ) : Method φ ω Unit :=
  modify fun session => { session with trace := session.trace ++ [event] }

/-- The environment answers. -/
def perform (action : ω → α × ω) : Method φ ω α := do
  let session ← get
  let answered := action session.environment
  set { session with environment := answered.2 }
  return answered.1

def orRaise (result : Except Raised α) : Method φ ω α :=
  match result with
  | .ok value => return value
  | .error error => throw (.raised error)

variable (env : Environment φ ω)

def clock : Method φ ω φ := perform env.clock

def sleep (seconds : φ) : Method φ ω Unit := do
  if ← perform (env.sleep seconds) then return else throw .foreign

/-- An exception counts as no data. -/
def read (timeout : φ) : Method φ ω (List UInt8) := do
  let data ← perform (env.read timeout)
  emit .read
  return data.getD []

def write (data : List UInt8) : Method φ ω Bool := do
  let done ← perform (env.write data)
  emit (.write data done)
  return done

def connect : Method φ ω Bool := do
  let done ← perform env.connect
  emit (.connect done)
  return done

def disconnect : Method φ ω Bool := do
  let done ← perform env.disconnect
  emit (.disconnect done)
  return done

/-! ## Lines -/

/-- `text.partition("\n")` of what is buffered, which keeps what comes after. -/
def takeLine : Method φ ω (Option Str) := do
  let session ← get
  match partition 0x0A session.lineBuf with
  | none => return none
  | some (before, after) => do
    set { session with lineBuf := after }
    return some (strip before)

/-- Appends what the decoder makes of some data. -/
def decode (data : List UInt8) : Method φ ω Unit :=
  modify fun session =>
    let decoded := Transducer.run Utf8.step session.decoder data
    { session with decoder := decoded.1, lineBuf := session.lineBuf ++ ofChars decoded.2 }

variable [PyFloat φ]

/-- The `while` loop of `_read_line`. -/
def readLineLoop (timeout deadline : φ) : (fuel : Nat) → Method φ ω (Option Str)
  | 0 => throw .cutOff
  | fuel + 1 => do
    let now ← clock env
    if PyFloat.lt now deadline then do
      let tenth := PyFloat.literal 1 1
      let data ← read env (if PyFloat.lt timeout tenth then timeout else tenth)
      if data = [] then do
        match ← takeLine with
        -- a blank line ends the call here
        | some stripped => return if stripped ≠ [] then some stripped else none
        | none => readLineLoop timeout deadline fuel
      else do
        decode data
        match ← takeLine with
        -- and is skipped here
        | some stripped =>
          if stripped ≠ [] then return some stripped else readLineLoop timeout deadline fuel
        | none => readLineLoop timeout deadline fuel
    else return none

def readLine (timeout : φ) (fuel : Nat) : Method φ ω (Option Str) := do
  let now ← clock env
  readLineLoop env timeout (PyFloat.add now timeout) fuel

/-! ## Sleep and wake -/

def askSleepState (detector : Option (ω → Option Str × ω)) : Method φ ω Str := do
  match detector with
  | some detector =>
    match ← perform detector with
    | some state => return state
    | none => throw .foreign
  | none =>
    match ← perform env.portPath with
    | none => throw .foreign
    | some none => return str "unknown"
    | some (some []) => return str "unknown"
    | some (some path) => do
      if ← perform (env.pathExists path) then return str "active" else return str "sleeping"

def checkSleepState (detector : Option (ω → Option Str × ω)) : Method φ ω Str := do
  let state ← askSleepState env detector
  emit (.answer state)
  return state

/-- The `for` loop of `_reconnect_after_wake`. -/
def reconnectAttempts : (attempts : Nat) → Method φ ω Bool
  | 0 => return false
  | attempts + 1 => do
    if ← connect env then do
      if ← write env SOH then return true
      else do
        sleep env (PyFloat.literal 1 0)
        reconnectAttempts attempts
    else do
      sleep env (PyFloat.literal 1 0)
      reconnectAttempts attempts

def reconnectAfterWake (maxAttempts : Nat) : Method φ ω Bool := do
  emit .reconnect
  let _ ← disconnect env
  modify fun session => { session with decoder := .start, lineBuf := [] }
  reconnectAttempts env maxAttempts

/-! ## Monitor -/

/-- The arguments of `monitor`. -/
structure Monitoring (φ ω : Type) where
  testId : Str
  timeout : φ
  portPollInterval : φ
  sleepDetector : Option (ω → Option Str × ω) := none

/-- The variables of `monitor`. -/
structure Monitor (φ : Type) where
  outcome : TestOutcome φ
  sleeping : Bool := false
  sleepConfirmed : Bool := false
  sleepStartTime : Option φ := none
  sleepExpectedS : Option φ := none

/-- What a turn of the loop comes to. -/
inductive Turn (φ : Type) where
  | goOn (monitor : Monitor φ)
  | finished (outcome : TestOutcome φ)

/-- `now - sleep_start_time` -/
def since (now : φ) (sleepStartTime : Option φ) : Method φ ω φ := do
  emit (.elapsed sleepStartTime)
  match sleepStartTime with
  | some start => return PyFloat.sub now start
  | none => throw (.raised .typeError)

/-- `(expected {expected:.0f}s)` and what stands before it -/
def expectation (expected : φ) (text : Str) : Str :=
  text ++ str " (expected " ++ PyFloat.format 0 expected ++ str "s)"

/-- Slept for much less than expected, or for much more. -/
def checkSleepTime (actual : φ) (expected : Option φ) (outcome : TestOutcome φ) : TestOutcome φ :=
  match expected with
  | none => outcome
  | some expected =>
    if PyFloat.lt actual (PyFloat.mul expected (PyFloat.literal 8 1)) then
      outcome.warn
        (expectation expected (str "Premature wake: " ++ PyFloat.format 1 actual ++ str "s"))
    else if PyFloat.lt (PyFloat.mul expected (PyFloat.literal 13 1)) actual then
      outcome.warn (expectation expected (str "Late wake: " ++ PyFloat.format 1 actual ++ str "s"))
    else outcome

variable (call : Monitoring φ ω)

/-- The device is waking: reconnect and handshake. -/
def wakeTurn (monitor : Monitor φ) : Method φ ω (Turn φ) := do
  let wakeTime ← clock env
  let actualSleep ← since wakeTime monitor.sleepStartTime
  let outcome := checkSleepTime actualSleep monitor.sleepExpectedS
    { monitor.outcome with sleepActualS := some actualSleep }
  if ← reconnectAfterWake env 10 then
    return .goOn { monitor with outcome, sleeping := false, sleepConfirmed := false }
  else
    return .finished (outcome.fail (str "Failed to reconnect after wake") (str "error"))

/-- Waiting for the device to sleep, and then to wake. -/
def pollTurn (elapsed : φ) (monitor : Monitor φ) : Method φ ω (Turn φ) := do
  sleep env call.portPollInterval
  let state ← checkSleepState env call.sleepDetector
  if monitor.sleepConfirmed then
    if state = str "sleeping" then return .goOn monitor else wakeTurn env monitor
  else if state = str "sleeping" then return .goOn { monitor with sleepConfirmed := true }
  else if state = str "active" ∧ PyFloat.lt (PyFloat.literal 10 0) elapsed then
    return .finished (monitor.outcome.fail
      (str "Device did not enter deep sleep within 10s of SLEEP marker") (str "error"))
  else return .goOn monitor

/-- A turn while `sleeping`. -/
def sleepTurn (monitor : Monitor φ) : Method φ ω (Turn φ) := do
  let now ← clock env
  let elapsed ← since now monitor.sleepStartTime
  match monitor.sleepExpectedS with
  | some expected =>
    if PyFloat.lt (PyFloat.add expected (PyFloat.literal 15 0)) elapsed then
      return .finished (monitor.outcome.fail
        (expectation expected
          (str "Device did not wake after " ++ PyFloat.format 0 elapsed ++ str "s"))
        (str "timeout"))
    else pollTurn env call elapsed monitor
  | none => pollTurn env call elapsed monitor

/-- A `SLEEP:` marker, consumed at `hostTs`. -/
def sleepMarker (monitor : Monitor φ) (payload : Str) (hostTs : φ) : Method φ ω (Turn φ) := do
  let duration := PyFloat.ofText (payload.drop (str "SLEEP:").length)
  let outcome := { monitor.outcome with sleepExpectedS := duration }.mark (str "SLEEP") hostTs
  let _ ← write env ACK
  let _ ← disconnect env
  return .goOn { monitor with
    outcome, sleepExpectedS := duration, sleepStartTime := some hostTs, sleeping := true }

def markerTurn (monitor : Monitor φ) (payload : Str) : Method φ ω (Turn φ) := do
  emit (.marker payload)
  let hostTs ← clock env
  if payload = str "PPK_START" then
    return .goOn { monitor with outcome := monitor.outcome.mark (str "PPK_START") hostTs }
  else if payload = str "PPK_STOP" then
    return .goOn { monitor with outcome := monitor.outcome.mark (str "PPK_STOP") hostTs }
  else if (str "SLEEP:").isPrefixOf payload then sleepMarker env monitor payload hostTs
  else if payload = str "TEST_STOPPED:" ++ call.testId then
    return .finished (monitor.outcome.mark (str "TEST_STOPPED") hostTs)
  else if (str "TEST_STARTED:").isPrefixOf payload then
    return .goOn { monitor with outcome := monitor.outcome.mark (str "TEST_STARTED") hostTs }
  else return .goOn monitor

/-- A line that is a JSON object says how the test ended, or nothing. -/
def jsonTurn (monitor : Monitor φ) (obj : List (Str × Json φ)) : Turn φ :=
  if ((Json.get obj (str "type")).getD .null).isStr (str "test_end") then
    let status := (Json.get obj (str "status")).getD (.str (str "ok"))
    .goOn { monitor with outcome := { monitor.outcome with status } }
  else .goOn monitor

/-- A line that is no JSON object may be a marker. -/
def plainTurn (monitor : Monitor φ) (line : Str) : Method φ ω (Turn φ) := do
  match ← orRaise (parseMarker line : Except Raised (Option (φ × Str))) with
  | some (_, payload) => markerTurn env call monitor payload
  | none => return .goOn monitor

/-- A line that is logged; `depth` is how deep `json.loads` goes. -/
def lineTurn (depth : Nat) (monitor : Monitor φ) (line : Str) : Method φ ω (Turn φ) := do
  match ← orRaise (parseJsonLine depth line) with
  | some (field :: fields) => return jsonTurn monitor (field :: fields)
  -- an empty object counts as none
  | _ => plainTurn env call monitor line

/-- A turn while awake. -/
def readTurn (depth fuel : Nat) (monitor : Monitor φ) : Method φ ω (Turn φ) := do
  match ← readLine env (PyFloat.literal 5 1) fuel with
  | none => return .goOn monitor
  | some line =>
    lineTurn env call depth { monitor with outcome := monitor.outcome.log line } line

def turn (depth fuel : Nat) (monitor : Monitor φ) : Method φ ω (Turn φ) :=
  if monitor.sleeping then sleepTurn env call monitor else readTurn env call depth fuel monitor

/-- The `while` loop of `monitor`. -/
def monitorLoop (depth : Nat) (deadline : φ) : (fuel : Nat) → Monitor φ → Method φ ω (TestOutcome φ)
  | 0, _ => throw .cutOff
  | fuel + 1, monitor => do
    let now ← clock env
    if PyFloat.lt now deadline then do
      match ← turn env call depth fuel monitor with
      | .finished outcome => return outcome
      | .goOn monitor => monitorLoop depth deadline fuel monitor
    else
      return monitor.outcome.fail
        (str "Test did not complete within " ++ PyFloat.toStr call.timeout ++ str "s")
        (str "timeout")

def monitor (depth fuel : Nat) : Method φ ω (TestOutcome φ) := do
  let now ← clock env
  monitorLoop env call depth (PyFloat.add now call.timeout) fuel
    { outcome := { testId := call.testId } }

end TestSession

end EmbeddedBridge.Python
