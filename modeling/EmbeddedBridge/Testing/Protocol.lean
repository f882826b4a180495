import EmbeddedBridge.Library.Py.Json

/-! # The test protocol

`testing/protocol.py`: control characters, and how a line of the device is read,
as JSON or as a marker `T=<ts> <payload>`.
-/

namespace EmbeddedBridge.Python

open Library Py

/-! ## Control characters -/

def SOH : List UInt8 := [0x01]
def ACK : List UInt8 := [0x06]

variable {φ : Type} [PyFloat φ]

/-- What `_MARKER_PATTERN` matches: the digits before and after the point, and the
payload.  The text is stripped, so that the payload begins and ends with no space. -/
def matchMarker (text : Str) : Option (Str × Str × Str) :=
  match text with
  | 0x54 :: 0x3D :: rest =>
    let (whole, afterWhole) := rest.span isDecimal
    let (frac, afterFrac) :=
      match afterWhole with
      | 0x2E :: rest => rest.span isDecimal
      | _ => ([], afterWhole)
    -- digits have to follow the point
    let spaced := if frac = [] then afterWhole else afterFrac
    let (spaces, payload) := spaced.span isSpace
    if whole = [] ∨ spaces = [] ∨ payload = [] ∨ 0x0A ∈ payload then none
    else some (whole, frac, payload)
  | _ => none

/-- `T=` markers. -/
def parseMarker (line : Str) : Except Raised (Option (φ × Str)) :=
  match matchMarker (strip line) with
  | none => .ok none
  | some (wholeStr, frac, payload) => do
    let whole ← intOfDigits wholeStr
    let fracStr := if frac = [] then str "0" else frac
    let fraction ← intOfDigits fracStr
    let fraction ← (Number.int fraction : Number φ).divInt (10 ^ fracStr.length)
    let timestamp ← (← (Number.int whole : Number φ).add (.float fraction)).toFloat
    return some (timestamp, payload)

/-- `none` where the line is no JSON object; a `RecursionError` is not caught. -/
def parseJsonLine (depth : Nat) (line : Str) : Except Raised (Option (List (Str × Json φ))) :=
  let stripped := strip line
  if stripped.head? ≠ some 0x7B then .ok none
  else match Json.loads depth stripped with
    | .ok (.object obj) => .ok (some obj)
    | .ok _ => .ok none
    | .error .valueError => .ok none
    | .error raised => .error raised

end EmbeddedBridge.Python
