import EmbeddedBridge.Library.Regex
import EmbeddedBridge.Receivers.EventCapture

/-! # Sleep and wake detection

`SleepWakeMonitor` of `receivers/sleep_wake.py`: follows whether a device is awake, by what
it prints and by whether its port exists.  The patterns are the caller's, and a pattern is
what it finds in a line.  What the clock reads and whether the port exists are arguments;
`notified` is what the callbacks have been called with.
-/

namespace EmbeddedBridge.Python

open Library Py

structure SleepEvent (φ : Type) where
  duration : Option φ
  reason : Option Str
  timestamp : φ
deriving DecidableEq, Repr

/-- `search` has the groups of the match, each with its text if it took part in it. -/
structure SleepPattern where
  name : Str
  search : Str → Option (List (Option Str))

namespace SleepPattern

/-- `re.IGNORECASE`; of the letters below, only `s` has a third form. -/
def ignoreCase (letter c : Nat) : Bool :=
  let lower := if 0x41 ≤ letter ∧ letter ≤ 0x5A then letter + 0x20 else letter
  c == lower || (0x61 ≤ lower && lower ≤ 0x7A && c + 0x20 == lower) || (lower == 0x73 && c == 0x17F)

def literal (text : String) : Regex Nat := .text ((str text).map ignoreCase)

def compile (name : String) (groups : Nat) (regex : Regex Nat) : SleepPattern where
  name := str name
  search line :=
    (regex.search line).map fun found => (List.range groups).map fun i => found.group (i + 1)

end SleepPattern

open SleepPattern in
/-- `sleep for (\d+) seconds?,?\s*(?:because\s+)?(.+)?` -/
def esp32SleepPatterns : List SleepPattern :=
  [compile "esp32_sleep" 2 <| .all
    [literal "sleep for ", .group 1 (.plus true isDecimal), literal " second",
      .option (literal "s"), .option (literal ","), .many true isSpace,
      .option (.seq (literal "because") (.plus true isSpace)),
      .option (.group 2 (.plus true notNewline))]]

open SleepPattern in
/-- `warm boot` and `rst:0x5.*DEEPSLEEP_RESET` -/
def esp32WakePatterns : List SleepPattern :=
  [compile "esp32_warm_boot" 0 (literal "warm boot"),
    compile "esp32_wakeup" 0 <| .all
      [literal "rst:0x5", .many true notNewline, literal "DEEPSLEEP_RESET"]]

inductive SleepWakeMonitor.State where
  | awake
  | sleeping
  | waking
deriving DecidableEq, Repr

inductive SleepWakeMonitor.Notice (φ : Type) where
  | onSleep (event : SleepEvent φ)
  | onWake
deriving DecidableEq, Repr

structure SleepWakeMonitor (φ : Type) where
  portPath : Option Str := none
  sleepPatterns : List SleepPattern := esp32SleepPatterns
  wakePatterns : List SleepPattern := esp32WakePatterns
  onSleep : Bool := false
  onWake : Bool := false
  state : SleepWakeMonitor.State := .awake
  sleepEvent : Option (SleepEvent φ) := none
  portWasGone : Bool := false
  notified : List (SleepWakeMonitor.Notice φ) := []

namespace SleepWakeMonitor

variable {φ : Type} [PyFloat φ]

omit [PyFloat φ] in
def transitionToSleeping (monitor : SleepWakeMonitor φ) (duration : Option φ) (reason : Option Str)
    (now : φ) : SleepWakeMonitor φ :=
  let event : SleepEvent φ := { duration, reason, timestamp := now }
  { monitor with
    sleepEvent := some event
    state := .sleeping
    notified := if monitor.onSleep then monitor.notified ++ [.onSleep event] else monitor.notified }

/-- A group that is missing, did not take part or is no float gives no duration. -/
def durationOf (groups : List (Option Str)) : Option φ := groups[0]?.join.bind PyFloat.ofText

def reasonOf (groups : List (Option Str)) : Option Str :=
  groups[1]?.join.bind fun reason => if strip reason = [] then none else some (strip reason)

def checkSleepPatterns (monitor : SleepWakeMonitor φ) (line : Str) (now : φ) :
    SleepWakeMonitor φ :=
  match monitor.sleepPatterns.findSome? fun sp => sp.search line with
  | none => monitor
  | some groups => monitor.transitionToSleeping (durationOf groups) (reasonOf groups) now

def checkWakePatterns (monitor : SleepWakeMonitor φ) (line : Str) : SleepWakeMonitor φ :=
  if monitor.wakePatterns.any fun wp => (wp.search line).isSome then
    { monitor with
      state := .awake
      portWasGone := false
      notified := if monitor.onWake then monitor.notified ++ [.onWake] else monitor.notified }
  else monitor

def feed (monitor : SleepWakeMonitor φ) (message : Line) (now : φ) : SleepWakeMonitor φ :=
  match monitor.state with
  | .awake => monitor.checkSleepPatterns message.text now
  | .sleeping | .waking => monitor.checkWakePatterns message.text

def checkPort (monitor : SleepWakeMonitor φ) (portExists : Bool) (now : φ) : SleepWakeMonitor φ :=
  if monitor.portPath = none then monitor
  else if monitor.state = .awake ∧ portExists = false then
    { monitor with portWasGone := true }.transitionToSleeping none none now
  else if monitor.state = .sleeping ∧ portExists ∧ monitor.portWasGone then
    { monitor with state := .waking }
  else monitor

def reset (monitor : SleepWakeMonitor φ) : SleepWakeMonitor φ :=
  { monitor with state := .awake, sleepEvent := none, portWasGone := false }

/-- The calls, each with what the clock reads. -/
inductive Call (φ : Type) where
  | feed (message : Line) (now : φ)
  | checkPort (portExists : Bool) (now : φ)
deriving DecidableEq, Repr

def apply (monitor : SleepWakeMonitor φ) : Call φ → SleepWakeMonitor φ
  | .feed message now => monitor.feed message now
  | .checkPort portExists now => monitor.checkPort portExists now

def run (monitor : SleepWakeMonitor φ) (calls : List (Call φ)) : SleepWakeMonitor φ :=
  calls.foldl apply monitor

end SleepWakeMonitor

end EmbeddedBridge.Python
