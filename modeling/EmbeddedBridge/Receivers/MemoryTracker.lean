import Mathlib.Logic.Function.Iterate
import EmbeddedBridge.Library.Py.Conversion
import EmbeddedBridge.Library.Py.Dictionary
import EmbeddedBridge.Library.Py.Dumps
import EmbeddedBridge.Library.Py.Sorted
import EmbeddedBridge.Library.Regex
import EmbeddedBridge.Receivers.EventCapture

/-! # Memory tracking

`receivers/memory_tracker.py`: the inline parser of `ETST:` lines, and `MemoryTracker`,
which records what they say of the heap for each test.  `linePrefix` is the module's
`_prefix`, and `isWord` is Unicode's `\w`.
-/

namespace EmbeddedBridge.Python

open Library Py

/-! ## The parser -/

namespace MemoryTracker

def defaultPrefix : Str := str "ETST:"

variable (isWord : Nat → Bool) (linePrefix : Str)

def isHex (c : Nat) : Bool :=
  (0x30 ≤ c && c ≤ 0x39) || (0x41 ≤ c && c ≤ 0x46) || (0x61 ≤ c && c ≤ 0x66)

def literal (text : Str) : Regex Nat := .text (text.map fun letter c => c == letter)

/-- `^{prefix}(\S+?)(?:\s+(.*?))?\s+\*([0-9A-Fa-f]{2})$` -/
def lineRe : Regex Nat :=
  .all [literal linePrefix, .group 1 (.plus false notSpace),
    .option (.seq (.plus true isSpace) (.group 2 (.many false notNewline))),
    .plus true isSpace, literal (str "*"), .group 3 (.text [isHex, isHex]), .followedBy atEnd]

/-- `^{prefix}(\S+?)(?:\s+(.*))?$` -/
def lineNoCrcRe : Regex Nat :=
  .all [literal linePrefix, .group 1 (.plus false notSpace),
    .option (.seq (.plus true isSpace) (.group 2 (.many true notNewline))), .followedBy atEnd]

/-- `(\w+)="([^"]*)"|(\w+)=(\S+)|(\w+)` -/
def tokenRe : Regex Nat :=
  .alt (.all [.group 1 (.plus true isWord), literal (str "=\""),
      .group 2 (.many true fun c => c != 0x22), literal (str "\"")])
    (.alt (.all [.group 3 (.plus true isWord), literal (str "="), .group 4 (.plus true notSpace)])
      (.group 5 (.plus true isWord)))

structure ParsedTag where
  tag : Str
  payloadStr : Str
  crcValid : Option Bool
  raw : Str
deriving DecidableEq, Repr

def crc8Shift (crc : Nat) : Nat :=
  if crc &&& 0x80 ≠ 0 then ((crc <<< 1) ^^^ 0x31) &&& 0xFF else (crc <<< 1) &&& 0xFF

def crc8 (data : Str) : Except Raised Nat := do
  return (← encode data).foldl (fun crc byte => crc8Shift^[8] (crc ^^^ byte.toNat)) 0x00

/-- What the checksum of a line is over. -/
def contentOf (stripped crcHex : Str) : Str :=
  sliceTo stripped (rfind stripped (str " *" ++ crcHex))

def parseLine (line : Str) : Except Raised (Option ParsedTag) := do
  let stripped := strip line
  if !linePrefix.isPrefixOf stripped then return none
  match (lineRe linePrefix).match? stripped with
  | some m =>
    let tag := (m.group 1).getD []
    let payloadStr := (m.group 2).getD []
    let crcHex := (m.group 3).getD []
    let valid := (← crc8 (contentOf stripped crcHex)) == hexValue crcHex
    return some { tag, payloadStr, crcValid := some valid, raw := stripped }
  | none =>
    match (lineNoCrcRe linePrefix).match? stripped with
    | some m =>
      let tag := (m.group 1).getD []
      return some { tag, payloadStr := (m.group 2).getD [], crcValid := none, raw := stripped }
    | none => return none

/-- What a payload holds under a name; `flag` is `True`, of a name alone. -/
inductive Value where
  | text (value : Str)
  | flag
deriving DecidableEq, Repr

abbrev Payload := List (Str × Value)

/-- One token of a payload. -/
def addToken (result : Payload) (m : Regex.Match Nat) : Payload :=
  match m.group 1, m.group 3, m.group 5 with
  | some name, _, _ => Json.setItem (· == ·) name (.text ((m.group 2).getD [])) result
  | none, some name, _ => Json.setItem (· == ·) name (.text ((m.group 4).getD [])) result
  | none, none, some name => Json.setItem (· == ·) name .flag result
  | none, none, none => result

def parsePayload (payloadStr : Str) : Payload :=
  ((tokenRe isWord).findAll payloadStr).foldl addToken []

end MemoryTracker

/-! ## The tracker -/

structure MemoryInfo where
  freeBefore : Int := 0
  minBefore : Int := 0
  freeAfter : Int := 0
  minAfter : Int := 0
  delta : Int := 0
deriving DecidableEq, Repr

structure MemoryTracker where
  leakThreshold : Int := -1000
  currentTest : Str := []
  data : List (Str × MemoryInfo) := []
deriving DecidableEq, Repr

namespace MemoryTracker

abbrev Method (α : Type) := Methods.Method Raised MemoryTracker α

/-- The record of a test. -/
def infoOf (tracker : MemoryTracker) (name : Str) : Option MemoryInfo :=
  Json.getItem (· == ·) name tracker.data

/-- `self._data.setdefault(self._current_test, MemoryInfo())` -/
def setDefault (tracker : MemoryTracker) : MemoryTracker :=
  match tracker.infoOf tracker.currentTest with
  | some _ => tracker
  | none =>
    { tracker with data := Json.setItem (· == ·) tracker.currentTest {} tracker.data }

/-- An assignment to a field of the record of the current test. -/
def assign (change : MemoryInfo → MemoryInfo) (tracker : MemoryTracker) : MemoryTracker :=
  match tracker.infoOf tracker.currentTest with
  | none => tracker
  | some info =>
    { tracker with data := Json.setItem (· == ·) tracker.currentTest (change info) tracker.data }

/-- `int(value) if isinstance(value, str) else 0`, of what the payload has under the name or
else `"0"`. -/
def fieldValue (payload : Payload) (name : String) : Except Raised Int :=
  match (Json.getItem (· == ·) (str name) payload).getD (.text (str "0")) with
  | .text value => intOfText value
  | .flag => .ok 0

def recordBefore (payload : Payload) : Method Unit := do
  modify setDefault
  let free ← MonadExcept.ofExcept (fieldValue payload "free")
  modify (assign fun info => { info with freeBefore := free })
  let min ← MonadExcept.ofExcept (fieldValue payload "min")
  modify (assign fun info => { info with minBefore := min })

def recordAfter (payload : Payload) : Method Unit := do
  modify setDefault
  let free ← MonadExcept.ofExcept (fieldValue payload "free")
  modify (assign fun info => { info with freeAfter := free })
  let delta ← MonadExcept.ofExcept (fieldValue payload "delta")
  modify (assign fun info => { info with delta := delta })
  let min ← MonadExcept.ofExcept (fieldValue payload "min")
  modify (assign fun info => { info with minAfter := min })

/-- What `feed` does with a line that is parsed. -/
def feedParsed (isWord : Nat → Bool) (parsed : ParsedTag) : Method Unit := do
  if parsed.crcValid = some false then return
  let currentTest := (← get).currentTest
  if parsed.tag = str "MEM:BEFORE" ∧ currentTest ≠ [] then
    recordBefore (parsePayload isWord parsed.payloadStr)
  else if parsed.tag = str "MEM:AFTER" ∧ currentTest ≠ [] then
    recordAfter (parsePayload isWord parsed.payloadStr)

def feed (isWord : Nat → Bool) (linePrefix : Str) (message : Line) : Method Unit := do
  match ← MonadExcept.ofExcept (parseLine linePrefix message.text) with
  | none => return
  | some parsed => feedParsed isWord parsed

def setCurrentTest (tracker : MemoryTracker) (name : Str) : MemoryTracker :=
  { tracker with currentTest := name }

/-- The tests with a `delta` below the threshold. -/
def leaks (tracker : MemoryTracker) : List (Str × MemoryInfo) :=
  tracker.data.filter fun entry => entry.2.delta < tracker.leakThreshold

def allTests (tracker : MemoryTracker) : List (Str × MemoryInfo) := tracker.data

/-- `{value:+d}` -/
def formatSigned (value : Int) : Except Raised Str := do
  let digits ← reprInt value
  return if value < 0 then digits else str "+" ++ digits

def reportLine (entry : Str × MemoryInfo) : Except Raised Str := do
  let delta ← formatSigned entry.2.delta
  let freeBefore ← reprInt entry.2.freeBefore
  let freeAfter ← reprInt entry.2.freeAfter
  return str "  " ++ entry.1 ++ str ": " ++ delta ++ str " bytes (free: " ++ freeBefore ++
    str " -> " ++ freeAfter ++ str ")"

def reportOf (leakItems : List (Str × MemoryInfo)) : Except Raised Str :=
  if leakItems = [] then .ok []
  else do
    let lines ← leakItems.mapM reportLine
    return List.intercalate (str "\n") (str "Memory Report:" :: lines)

def report (tracker : MemoryTracker) : Except Raised Str :=
  reportOf (sortedBy (fun entry => entry.2.delta) tracker.leaks)

def reset (tracker : MemoryTracker) : MemoryTracker :=
  { tracker with currentTest := [], data := [] }

/-- What is called on a tracker, and `set_prefix` of the module. -/
inductive Call where
  | feed (message : Line)
  | setCurrentTest (name : Str)
  | setPrefix (linePrefix : Str)
  | reset
deriving DecidableEq, Repr

/-- A call, with the prefix that the lines have; one that raises does not stop the next. -/
def call (isWord : Nat → Bool) (state : MemoryTracker × Str) : Call → MemoryTracker × Str
  | .feed message => ((Methods.run (feed isWord state.2 message) state.1).2, state.2)
  | .setCurrentTest name => (state.1.setCurrentTest name, state.2)
  | .setPrefix linePrefix => (state.1, linePrefix)
  | .reset => (state.1.reset, state.2)

end MemoryTracker

end EmbeddedBridge.Python
