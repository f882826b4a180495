import Mathlib.Tactic.Tauto
import EmbeddedBridge.Library.Py.Number

/-! # JSON, as Python's `json` reads it

A recursive descent over the code points of a text.  It takes what the standard
takes, and besides `NaN` and the infinities, lone surrogates in strings, and a key
that occurs twice, of which the last counts.  It raises a `ValueError` on anything
else, also on an integer with too many digits, and a `RecursionError` on arrays and
objects that are nested deeper than the interpreter goes, which is the parameter
`depth`.
-/

namespace EmbeddedBridge.Library.Py

inductive Json (φ : Type) where
  | null
  | bool (value : Bool)
  | number (value : Number φ)
  | str (value : Str)
  | array (elements : List (Json φ))
  | object (fields : List (Str × Json φ))

namespace Json

variable {φ : Type}

/-- A dictionary keeps the place of a key that is set again. -/
def setItem {κ ν : Type} (same : κ → κ → Bool) (key : κ) (value : ν) : List (κ × ν) → List (κ × ν)
  | [] => [(key, value)]
  | field :: fields =>
    if same field.1 key then (field.1, value) :: fields
    else field :: setItem same key value fields

/-- `dict.get` -/
def getItem {κ ν : Type} (same : κ → κ → Bool) (key : κ) (fields : List (κ × ν)) : Option ν :=
  (fields.find? fun field => same field.1 key).map Prod.snd

theorem mem_setItem {κ ν : Type} [BEq κ] [LawfulBEq κ] {key other : κ} {value : ν}
    {fields : List (κ × ν)} :
    other ∈ (setItem (fun left right => left == right) key value fields).map Prod.fst ↔
      other = key ∨ other ∈ fields.map Prod.fst := by
  induction fields with
  | nil => simp [setItem]
  | cons field fields inductionHypothesis =>
    rw [setItem]
    by_cases here : field.1 = key
    · simp [here]
    · simp only [beq_iff_eq, here, ↓reduceIte, List.map_cons, List.mem_cons, inductionHypothesis]
      tauto

/-- `obj.get(key)` of an object. -/
def get (fields : List (Str × Json φ)) (key : Str) : Option (Json φ) :=
  getItem (fun left right => left == right) key fields

def truthy [PyFloat φ] : Json φ → Bool
  | .null => false
  | .bool value => value
  | .number value => !value.isZero
  | .str value => value ≠ []
  | .array elements => !elements.isEmpty
  | .object fields => !fields.isEmpty

/-- What arithmetic with a number takes; a `bool` is an integer. -/
def toNumber : Json φ → Except Raised (Number φ)
  | .bool value => .ok (.int (if value then 1 else 0))
  | .number value => .ok value
  | _ => .error .typeError

def isStr (text : Str) : Json φ → Bool
  | .str value => value == text
  | _ => false

/-- What can be a key of a dictionary. -/
inductive Key (φ : Type) where
  | none
  | number (value : Number φ)
  | str (value : Str)

def Key.same [PyFloat φ] : Key φ → Key φ → Bool
  | .none, .none => true
  | .number left, .number right => left.same right
  | .str left, .str right => left == right
  | _, _ => false

/-- Arrays and objects have no hash. -/
def toKey : Json φ → Except Raised (Key φ)
  | .null => .ok .none
  | .bool value => .ok (.number (.int (if value then 1 else 0)))
  | .number value => .ok (.number value)
  | .str value => .ok (.str value)
  | .array _ => .error .typeError
  | .object _ => .error .typeError

/-! ## Reading -/

def skipSpace (text : Str) : Str :=
  text.dropWhile fun c => c == 0x20 || c == 0x09 || c == 0x0A || c == 0x0D

def hexDigit (c : Nat) : Option Nat :=
  if 0x30 ≤ c ∧ c ≤ 0x39 then some (c - 0x30)
  else if 0x41 ≤ c ∧ c ≤ 0x46 then some (c - 0x41 + 10)
  else if 0x61 ≤ c ∧ c ≤ 0x66 then some (c - 0x61 + 10)
  else none

/-- The four digits of `\uXXXX`. -/
def scanHex : Str → Option (Nat × Str)
  | a :: b :: c :: d :: text => do
    let a ← hexDigit a
    let b ← hexDigit b
    let c ← hexDigit c
    let d ← hexDigit d
    some (((a * 16 + b) * 16 + c) * 16 + d, text)
  | _ => none

def simpleEscape (c : Nat) : Option Nat :=
  if c = 0x22 ∨ c = 0x5C ∨ c = 0x2F then some c
  else if c = 0x62 then some 0x08
  else if c = 0x66 then some 0x0C
  else if c = 0x6E then some 0x0A
  else if c = 0x72 then some 0x0D
  else if c = 0x74 then some 0x09
  else none

/-- `\uXXXX`, where two surrogates that make a pair are one character. -/
def scanUnicode (text : Str) : Option (Nat × Str) := do
  let (high, rest) ← scanHex text
  if 0xD800 ≤ high ∧ high ≤ 0xDBFF then
    match rest with
    | 0x5C :: 0x75 :: after => do
      let (low, rest') ← scanHex after
      if 0xDC00 ≤ low ∧ low ≤ 0xDFFF then
        some (0x10000 + (high - 0xD800) * 0x400 + (low - 0xDC00), rest')
      else some (high, rest)
    | _ => some (high, rest)
  else some (high, rest)

/-- The rest of a string, after its opening quote.  Every turn takes a character,
so a `fuel` of the length of the text is enough. -/
def scanString : (fuel : Nat) → Str → Except Raised (Str × Str)
  | 0, _ => .error .valueError
  | fuel + 1, text =>
    match text with
    | [] => .error .valueError
    | c :: rest =>
      if c = 0x22 then .ok ([], rest)
      else if c = 0x5C then
        match rest with
        | [] => .error .valueError
        | escape :: rest' =>
          let escaped :=
            if escape = 0x75 then scanUnicode rest'
            else (simpleEscape escape).map fun c => (c, rest')
          match escaped with
          | none => .error .valueError
          | some (c, after) =>
            (scanString fuel after).map fun scanned => (c :: scanned.1, scanned.2)
      -- a control character
      else if c ≤ 0x1F then .error .valueError
      else (scanString fuel rest).map fun scanned => (c :: scanned.1, scanned.2)

def isDigit (c : Nat) : Bool := 0x30 ≤ c && c ≤ 0x39

/-- The digits that a text begins with, and the rest. -/
def scanDigits (text : Str) : Str × Str := text.span isDigit

/-- `.` and digits, if there are any. -/
def scanFraction (text : Str) : Str × Str :=
  match text with
  | 0x2E :: rest =>
    match scanDigits rest with
    | ([], _) => ([], text)
    | (digits, after) => (0x2E :: digits, after)
  | _ => ([], text)

/-- `e`, a sign and digits, if there are any. -/
def scanExponent (text : Str) : Str × Str :=
  match text with
  | e :: rest =>
    if e = 0x65 ∨ e = 0x45 then
      let sign := rest.takeWhile (fun c => c == 0x2B || c == 0x2D) |>.take 1
      match scanDigits (rest.drop sign.length) with
      | ([], _) => ([], text)
      | (digits, after) => (e :: sign ++ digits, after)
    else ([], text)
  | [] => ([], text)

/-- `-?(0|[1-9]\d*)(\.\d+)?([eE][-+]?\d+)?` -/
def scanNumber [PyFloat φ] (text : Str) : Except Raised (Number φ × Str) := do
  let minus := (text.takeWhile (· == 0x2D)).take 1
  let (digits, afterDigits) :=
    match text.drop minus.length with
    -- nothing follows a leading zero
    | 0x30 :: rest => ([0x30], rest)
    | rest => scanDigits rest
  if digits = [] then .error .valueError
  let (fraction, afterFraction) := scanFraction afterDigits
  let (exponent, rest) := scanExponent afterFraction
  if fraction = [] ∧ exponent = [] then
    let value ← intOfDigits digits
    return (.int (if minus = [] then value else -value), rest)
  else
    match PyFloat.ofText (minus ++ digits ++ fraction ++ exponent) with
    | some value => return (.float value, rest)
    | none => .error .valueError

/-- What a text begins with that is read as it stands. -/
def scanConstant [PyFloat φ] (text : Str) : Option (Json φ × Str) :=
  let constants : List (Str × Json φ) :=
    [(Py.str "null", .null), (Py.str "true", .bool true), (Py.str "false", .bool false),
      (Py.str "NaN", .number (.float PyFloat.nan)),
      (Py.str "Infinity", .number (.float PyFloat.infinity)),
      (Py.str "-Infinity", .number (.float (PyFloat.neg PyFloat.infinity)))]
  (constants.find? fun constant => constant.1.isPrefixOf text).map fun constant =>
    (constant.2, text.drop constant.1.length)

/-- The elements of an array up to its closing bracket; `scan` reads one. -/
def scanElements (scan : Str → Except Raised (Json φ × Str)) :
    (fuel : Nat) → Str → Except Raised (List (Json φ) × Str)
  | 0, _ => .error .valueError
  | fuel + 1, text => do
    let (value, rest) ← scan text
    match skipSpace rest with
    | 0x5D :: rest => return ([value], rest)
    | 0x2C :: rest => do
      let (values, rest) ← scanElements scan fuel (skipSpace rest)
      return (value :: values, rest)
    | _ => .error .valueError

/-- The fields of an object up to its closing brace. -/
def scanFields (scan : Str → Except Raised (Json φ × Str)) :
    (fuel : Nat) → List (Str × Json φ) → Str → Except Raised (List (Str × Json φ) × Str)
  | 0, _, _ => .error .valueError
  | fuel + 1, fields, text =>
    match text with
    | 0x22 :: rest => do
      let (key, rest) ← scanString rest.length rest
      match skipSpace rest with
      | 0x3A :: rest => do
        let (value, rest) ← scan (skipSpace rest)
        let fields := setItem (fun left right => left == right) key value fields
        match skipSpace rest with
        | 0x7D :: rest => return (fields, rest)
        | 0x2C :: rest => scanFields scan fuel fields (skipSpace rest)
        | _ => .error .valueError
      | _ => .error .valueError
    | _ => .error .valueError

/-- `scan_once`: a value and what is left of the text. -/
def scanOnce [PyFloat φ] : (depth : Nat) → Str → Except Raised (Json φ × Str)
  | _, 0x22 :: rest => (scanString rest.length rest).map fun scanned => (.str scanned.1, scanned.2)
  | 0, 0x7B :: _ => .error .recursionError
  | 0, 0x5B :: _ => .error .recursionError
  | depth + 1, 0x7B :: rest =>
    match skipSpace rest with
    | 0x7D :: rest => .ok (.object [], rest)
    | rest => (scanFields (scanOnce depth) rest.length [] rest).map fun scanned =>
      (.object scanned.1, scanned.2)
  | depth + 1, 0x5B :: rest =>
    match skipSpace rest with
    | 0x5D :: rest => .ok (.array [], rest)
    | rest => (scanElements (scanOnce depth) rest.length rest).map fun scanned =>
      (.array scanned.1, scanned.2)
  | _, text =>
    match scanConstant text with
    | some scanned => .ok scanned
    | none => (scanNumber text).map fun scanned => (.number scanned.1, scanned.2)

/-- `json.loads` -/
def loads [PyFloat φ] (depth : Nat) (text : Str) : Except Raised (Json φ) :=
  -- a byte order mark
  if text.head? = some 0xFEFF then .error .valueError
  else do
    let (value, rest) ← scanOnce depth (skipSpace text)
    if skipSpace rest = [] then return value else .error .valueError

theorem scanElements_last {scan : Str → Except Raised (Json φ × Str)} {text rest after : Str}
    {value : Json φ} (scanned : scan text = .ok (value, rest))
    (closes : skipSpace rest = 0x5D :: after) (fuel : Nat) :
    scanElements scan (fuel + 1) text = .ok ([value], after) := by
  rw [scanElements, scanned]
  simp only [bind, Except.bind, closes]
  rfl

theorem scanElements_more {scan : Str → Except Raised (Json φ × Str)} {text rest more : Str}
    {value : Json φ} (scanned : scan text = .ok (value, rest))
    (continues : skipSpace rest = 0x2C :: more) (fuel : Nat) :
    scanElements scan (fuel + 1) text =
      (scanElements scan fuel (skipSpace more)).map fun later => (value :: later.1, later.2) := by
  rw [scanElements, scanned]
  simp only [bind, Except.bind, continues]
  rfl

theorem scanOnce_array [PyFloat φ] {depth : Nat} {text rest : Str} {c : Nat}
    (begins : skipSpace text = c :: rest) (noClose : c ≠ 0x5D) :
    (scanOnce (depth + 1) (0x5B :: text) : Except Raised (Json φ × Str)) =
      (scanElements (scanOnce depth) (c :: rest).length (c :: rest)).map fun scanned =>
        (.array scanned.1, scanned.2) := by
  rw [scanOnce.eq_def]
  simp only [begins]
  split
  · rename_i closes
    exact absurd (List.head_eq_of_cons_eq closes) noClose
  · rfl

theorem scanOnce_object [PyFloat φ] {depth : Nat} {text rest : Str} {c : Nat}
    (begins : skipSpace text = c :: rest) (noClose : c ≠ 0x7D) :
    (scanOnce (depth + 1) (0x7B :: text) : Except Raised (Json φ × Str)) =
      (scanFields (scanOnce depth) (c :: rest).length [] (c :: rest)).map fun scanned =>
        (.object scanned.1, scanned.2) := by
  rw [scanOnce.eq_def]
  simp only [begins]
  split
  · rename_i closes
    exact absurd (List.head_eq_of_cons_eq closes) noClose
  · rfl

section

variable {scan : Str → Except Raised (Json φ × Str)} {text afterKey valueText rest more : Str}
  {key : Str} {value : Json φ}

theorem scanFields_last (scannedKey : scanString text.length text = .ok (key, afterKey))
    (colon : skipSpace afterKey = 0x3A :: valueText)
    (scanned : scan (skipSpace valueText) = .ok (value, rest))
    (closes : skipSpace rest = 0x7D :: more) (fuel : Nat) (fields : List (Str × Json φ)) :
    scanFields scan (fuel + 1) fields (0x22 :: text) =
      .ok (setItem (fun left right => left == right) key value fields, more) := by
  rw [scanFields, scannedKey]
  simp only [bind, Except.bind, colon, scanned, closes]
  rfl

theorem scanFields_more (scannedKey : scanString text.length text = .ok (key, afterKey))
    (colon : skipSpace afterKey = 0x3A :: valueText)
    (scanned : scan (skipSpace valueText) = .ok (value, rest))
    (continues : skipSpace rest = 0x2C :: more) (fuel : Nat) (fields : List (Str × Json φ)) :
    scanFields scan (fuel + 1) fields (0x22 :: text) =
      scanFields scan fuel (setItem (fun left right => left == right) key value fields)
        (skipSpace more) := by
  rw [scanFields, scannedKey]
  simp only [bind, Except.bind, colon, scanned, continues]

end

theorem scanOnce_brace [PyFloat φ] {depth : Nat} {rest after : Str} {value : Json φ}
    (scanned : scanOnce depth (0x7B :: rest) = .ok (value, after)) :
    ∃ fields, value = .object fields := by
  cases depth with
  | zero => cases scanned
  | succ depth =>
    rw [scanOnce] at scanned
    split at scanned
    · cases scanned
      exact ⟨[], rfl⟩
    · generalize scanFields _ _ _ _ = fields at scanned
      cases fields with
      | error raised => cases scanned
      | ok scannedFields =>
        cases scanned
        exact ⟨_, rfl⟩

/-- What begins with a brace is an object, if it is anything. -/
theorem loads_brace [PyFloat φ] {depth : Nat} {text : Str} {value : Json φ}
    (brace : text.head? = some 0x7B) (loaded : loads depth text = .ok value) :
    ∃ fields, value = .object fields := by
  cases text with
  | nil => cases brace
  | cons c rest =>
    cases brace
    have same : skipSpace (0x7B :: rest) = 0x7B :: rest := rfl
    rw [loads, if_neg (by simp), same] at loaded
    cases scanned : (scanOnce depth (0x7B :: rest) : Except Raised (Json φ × Str)) with
    | error raised => rw [scanned] at loaded; cases loaded
    | ok result =>
      obtain ⟨first, after⟩ := result
      obtain ⟨fields, isObject⟩ := scanOnce_brace scanned
      rw [scanned] at loaded
      change (if skipSpace after = [] then Except.ok first else .error Raised.valueError) = _
        at loaded
      split at loaded
      · cases loaded
        exact ⟨fields, isObject⟩
      · cases loaded

end Json

end EmbeddedBridge.Library.Py
