import EmbeddedBridge.Library.Py.Dumps
import EmbeddedBridge.Testing.Discovery

/-! # Starting a test

`TestSession.start_test` of `testing/session.py`: sends a command with the id of a test, and
reads lines until the device says that it has started.  What is sent is ASCII; an id that is
not cannot be sent.
-/

namespace EmbeddedBridge.Python

open Library Py

def STX : List UInt8 := [0x02]

/-- `text.encode("ascii")`; a `UnicodeEncodeError` is a `ValueError`. -/
def encodeAscii (text : Str) : Except Raised (List UInt8) :=
  if text.all (· < 0x80) then .ok (text.map UInt8.ofNat) else .error .valueError

namespace TestSession

variable {φ ω α : Type} [PyFloat φ]

/-! ## The command -/

/-- The id and the parameters; a dictionary that is empty counts as none. -/
def commandLine (depth : Nat) (testId : Str) (params : Option (List (Str × Json φ))) :
    Except Raised Str :=
  match params with
  | some (field :: fields) => do
    let text ← Json.dumps depth (.object (field :: fields))
    return testId ++ str " " ++ text
  | _ => .ok testId

def command (depth : Nat) (testId : Str) (params : Option (List (Str × Json φ))) :
    Except Raised (List UInt8) := do
  let line ← commandLine depth testId params
  let encoded ← encodeAscii line
  return STX ++ encoded ++ [0x0A]

/-! ## Waiting for an answer -/

/-- Whether a line says that the test has started. -/
def startedIn (φ : Type) [PyFloat φ] (testId line : Str) : Except DiscoverStop (Option Unit) :=
  match (parseMarker line : Except Raised (Option (φ × Str))) with
  | .error error => .error (.session (.raised error))
  | .ok none => .ok none
  | .ok (some (_, payload)) =>
    .ok (if payload = str "TEST_STARTED:" ++ testId then some () else none)

variable (env : Environment φ ω)

/-- A `while` loop that reads lines until one of them is an answer. -/
def awaitLoop (answer : Str → Except DiscoverStop (Option α)) (message : Str) (deadline : φ) :
    (fuel : Nat) → Discovering φ ω α
  | 0 => throw (.session .cutOff)
  | fuel + 1 => do
    let now ← part (clock env)
    if PyFloat.lt now deadline then do
      match ← part (readLine env (PyFloat.literal 5 1) fuel) with
      | none => awaitLoop answer message deadline fuel
      | some line =>
        match ← MonadExcept.ofExcept (answer line) with
        | some result => return result
        | none => awaitLoop answer message deadline fuel
    else throw (.timeoutError message)

def startTest (depth : Nat) (testId : Str) (timeout : φ) (params : Option (List (Str × Json φ)))
    (fuel : Nat) : Discovering φ ω Unit := do
  let cmd ← MonadExcept.ofExcept
    ((command depth testId params).mapError fun error => .session (.raised error))
  if ← part (write env cmd) then do
    let now ← part (clock env)
    awaitLoop env (startedIn φ testId)
      (str "TEST_STARTED:" ++ testId ++ str " not received within " ++ PyFloat.toStr timeout ++
        str "s") (PyFloat.add now timeout) fuel
  else throw (.session .foreign)

end TestSession

end EmbeddedBridge.Python
