import EmbeddedBridge.Library.Py.Json
import EmbeddedBridge.Library.Utf8
import EmbeddedBridge.Library.Methods

/-! # Event capture

`EventCapture` of `receivers/event_capture.py`: trace events out of the lines of a
device, with their times unwrapped, and paired into spans.  A line is whatever the
device prints, so that every field of an event can hold any JSON, and `feed` may
raise half way; what it has changed by then stays changed.

The callbacks, where there are any, are told what is in `notified`.  The numbers
that `adjusted_ts_us` stood for are kept in `adjusted`; the source keeps only what
they are in seconds.
-/

namespace EmbeddedBridge.Python

open Library Py

/-- What a receiver is fed. -/
inductive Line where
  | bytes (data : List UInt8)
  | str (text : Str)
deriving DecidableEq, Repr

/-- Decoded, with what is no UTF-8 replaced. -/
def Line.text : Line → Str
  | .bytes data => ofChars (Utf8.decode data)
  | .str text => text

def timestampWrapUs : Int := 2 ^ 32
def wrapThresholdUs : Int := 2 ^ 31

inductive TraceEvent.Action where
  | started
  | stopped
deriving DecidableEq, Repr

structure TraceEvent (φ : Type) where
  name : Json φ
  action : TraceEvent.Action
  deviceTimestampS : φ
  hostTimestampS : φ

structure EventSpan (φ : Type) where
  name : Json φ
  start : TraceEvent φ
  stop : TraceEvent φ

def EventSpan.deviceDurationS {φ : Type} [PyFloat φ] (span : EventSpan φ) : φ :=
  PyFloat.sub span.stop.deviceTimestampS span.start.deviceTimestampS

/-- `_last_raw_ts_us` is `None` before the first event, and also after a `ts` that
is `null`. -/
structure EventCapture (φ : Type) where
  events : List (TraceEvent φ) := []
  spans : List (EventSpan φ) := []
  pending : List (Json.Key φ × TraceEvent φ) := []
  lastRawTsUs : Json φ := .null
  wrapCount : Nat := 0
  notified : List (TraceEvent φ ⊕ EventSpan φ) := []
  adjusted : List (Number φ) := []

namespace EventCapture

variable {φ : Type} [PyFloat φ]

abbrev Method (φ α : Type) := Methods.Method Raised (EventCapture φ) α

/-- Only a large step back is a wrap. -/
def hasWrapped (lastRawTsUs rawTsUs : Json φ) : Except Raised Bool :=
  match lastRawTsUs with
  | .null => .ok false
  | last => do
    let step ← (← rawTsUs.toNumber).sub (← last.toNumber)
    return step.ltInt (-wrapThresholdUs)

/-- `adjusted_ts_us`, with the wrap detection before it. -/
def adjust (rawTsUs : Json φ) : Method φ (Number φ) := do
  if ← MonadExcept.ofExcept (hasWrapped (← get).lastRawTsUs rawTsUs) then
    modify fun capture => { capture with wrapCount := capture.wrapCount + 1 }
  modify fun capture => { capture with lastRawTsUs := rawTsUs }
  let raw ← MonadExcept.ofExcept rawTsUs.toNumber
  let adjusted ← MonadExcept.ofExcept (raw.add (.int ((← get).wrapCount * timestampWrapUs)))
  modify fun capture => { capture with adjusted := capture.adjusted ++ [adjusted] }
  return adjusted

/-- The most recent start of a name wins; a stop without one is only logged. -/
def pair (event : TraceEvent φ) : Method φ Unit :=
  match event.action with
  | .started => do
    let key ← MonadExcept.ofExcept event.name.toKey
    modify fun capture =>
      { capture with pending := Json.setItem Json.Key.same key event capture.pending }
  | .stopped => do
    -- `pop` of an empty dictionary does not hash the name
    if (← get).pending.isEmpty then return
    else do
      let key ← MonadExcept.ofExcept event.name.toKey
      match Json.getItem Json.Key.same key (← get).pending with
      | none => return
      | some start =>
        let span : EventSpan φ := { name := event.name, start, stop := event }
        modify fun capture =>
          { capture with
            pending := capture.pending.eraseP fun entry => entry.1.same key
            spans := capture.spans ++ [span]
            notified := capture.notified ++ [.inr span] }

/-- An event whose time is unwrapped; `hostTs` is what the clock reads. -/
def record (name : Json φ) (action : TraceEvent.Action) (adjusted : Number φ) (hostTs : φ) :
    Method φ Unit := do
  let deviceTs ← MonadExcept.ofExcept (adjusted.divInt 1000000)
  let event : TraceEvent φ :=
    { name, action, deviceTimestampS := deviceTs, hostTimestampS := hostTs }
  modify fun capture =>
    { capture with
      events := capture.events ++ [event], notified := capture.notified ++ [.inl event] }
  pair event

/-- A line that is an object. -/
def feedObject (hostTs : φ) (obj : List (Str × Json φ)) : Method φ Unit :=
  let ph := (Json.get obj (str "ph")).getD .null
  let name := (Json.get obj (str "name")).getD .null
  let rawTsUs := (Json.get obj (str "ts")).getD (.number (.int 0))
  if !(ph.isStr (str "B") || ph.isStr (str "E")) then return
  else if !name.truthy then return
  else do
    let adjusted ← adjust rawTsUs
    record name (if ph.isStr (str "B") then .started else .stopped) adjusted hostTs

/-- `depth` is how deep `json.loads` goes. -/
def feed (depth : Nat) (hostTs : φ) (message : Line) : Method φ Unit :=
  let line := strip message.text
  if line.head? ≠ some 0x7B then return
  else match Json.loads depth line with
    | .error .valueError => return
    | .error raised => throw raised
    | .ok (.object obj) => feedObject hostTs obj
    | .ok _ => throw .attributeError

def reset : Method φ Unit :=
  modify fun capture =>
    { capture with events := [], spans := [], pending := [], lastRawTsUs := .null, wrapCount := 0 }

/-- Lines with the clock readings they are fed at; one that makes `feed` raise does
not stop the next. -/
def feedAll (depth : Nat) (capture : EventCapture φ) (lines : List (φ × Line)) : EventCapture φ :=
  lines.foldl (fun capture line => (Methods.run (feed depth line.1 line.2) capture).2) capture

/-! ## What a line comes to -/

/-- The fields of an object that is a trace event. -/
structure Trace (φ : Type) where
  name : Json φ
  action : TraceEvent.Action
  ts : Json φ

/-- The checks of `feedObject`. -/
def traceOf (obj : List (Str × Json φ)) : Option (Trace φ) :=
  let ph := (Json.get obj (str "ph")).getD .null
  let name := (Json.get obj (str "name")).getD .null
  if (ph.isStr (str "B") || ph.isStr (str "E")) && name.truthy then
    some { name, action := if ph.isStr (str "B") then .started else .stopped,
           ts := (Json.get obj (str "ts")).getD (.number (.int 0)) }
  else none

/-- The event in a line, if it holds one; `json.loads` may give up on the line. -/
def traceIn (depth : Nat) (message : Line) : Except Raised (Option (Trace φ)) :=
  let line := strip message.text
  if line.head? ≠ some 0x7B then .ok none
  else match Json.loads depth line with
    | .error .valueError => .ok none
    | .error raised => .error raised
    | .ok (.object obj) => .ok (traceOf obj)
    | .ok _ => .ok none

/-- What is done with an event. -/
def feedTrace (hostTs : φ) (trace : Trace φ) : Method φ Unit := do
  let adjusted ← adjust trace.ts
  record trace.name trace.action adjusted hostTs

theorem feedObject_eq (hostTs : φ) (obj : List (Str × Json φ)) :
    feedObject hostTs obj =
      match traceOf obj with
      | none => pure ()
      | some trace => feedTrace hostTs trace := by
  simp only [feedObject, traceOf]
  cases ((Json.get obj (str "ph")).getD .null).isStr (str "B") ||
      ((Json.get obj (str "ph")).getD .null).isStr (str "E") with
  | false => simp
  | true =>
    cases ((Json.get obj (str "name")).getD .null).truthy with
    | false => simp
    | true => simp [feedTrace]

/-- `feed` raises what `json.loads` raises, and takes the event otherwise. -/
theorem feed_eq (depth : Nat) (hostTs : φ) (message : Line) :
    feed depth hostTs message =
      match traceIn depth message with
      | .error raised => throw raised
      | .ok none => pure ()
      | .ok (some trace) => feedTrace hostTs trace := by
  unfold feed traceIn
  by_cases brace : (strip message.text).head? = some 0x7B
  · simp only [ne_eq, brace, not_true_eq_false, ↓reduceIte]
    cases loaded : (Json.loads depth (strip message.text) : Except Raised (Json φ)) with
    | error raised => cases raised <;> rfl
    | ok value =>
      obtain ⟨obj, rfl⟩ := Json.loads_brace brace loaded
      simp only [feedObject_eq]
      cases traceOf obj <;> rfl
  · simp only [ne_eq, brace, not_false_eq_true, ↓reduceIte]

/-- The rest of `adjust`, when the wraps have been counted. -/
def addWraps (rawTsUs : Json φ) : Method φ (Number φ) := do
  modify fun capture => { capture with lastRawTsUs := rawTsUs }
  let raw ← MonadExcept.ofExcept rawTsUs.toNumber
  let adjusted ← MonadExcept.ofExcept (raw.add (.int ((← get).wrapCount * timestampWrapUs)))
  modify fun capture => { capture with adjusted := capture.adjusted ++ [adjusted] }
  return adjusted

theorem adjust_eq (rawTsUs : Json φ) :
    adjust rawTsUs = (do
      if ← MonadExcept.ofExcept (hasWrapped (← get).lastRawTsUs rawTsUs) then
        modify fun capture => { capture with wrapCount := capture.wrapCount + 1 }
      addWraps rawTsUs) := rfl

theorem run_addWraps (capture : EventCapture φ) {rawTsUs : Json φ} {raw adjusted : Number φ}
    (isNumber : rawTsUs.toNumber = .ok raw)
    (sum : raw.add (.int (capture.wrapCount * timestampWrapUs)) = .ok adjusted) :
    Methods.run (addWraps rawTsUs) capture =
      (.ok adjusted,
        { capture with lastRawTsUs := rawTsUs, adjusted := capture.adjusted ++ [adjusted] }) := by
  rw [addWraps, Methods.run_bind_ok _ (Methods.run_modify _ _), isNumber,
    Methods.run_bind_ok _ (Methods.run_ofExcept _ _), Methods.run_bind_ok _ (Methods.run_get _),
    sum, Methods.run_bind_ok _ (Methods.run_ofExcept _ _),
    Methods.run_bind_ok _ (Methods.run_modify _ _), Methods.run_pure]

/-- A number that can be added to is adjusted by the wraps so far. -/
theorem run_adjust (capture : EventCapture φ) (rawTsUs : Json φ) (wrapped : Bool)
    (raw adjusted : Number φ) (detected : hasWrapped capture.lastRawTsUs rawTsUs = .ok wrapped)
    (isNumber : rawTsUs.toNumber = .ok raw)
    (sum : raw.add (.int (((if wrapped then capture.wrapCount + 1 else capture.wrapCount : Nat) :
      Int) * timestampWrapUs)) = .ok adjusted) :
    Methods.run (adjust rawTsUs) capture =
      (.ok adjusted, { capture with
        lastRawTsUs := rawTsUs
        wrapCount := if wrapped then capture.wrapCount + 1 else capture.wrapCount
        adjusted := capture.adjusted ++ [adjusted] }) := by
  rw [adjust_eq, Methods.run_bind_ok _ (Methods.run_get _), detected,
    Methods.run_bind_ok _ (Methods.run_ofExcept _ _)]
  cases wrapped with
  | false => exact run_addWraps capture isNumber sum
  | true =>
    simp only [↓reduceIte] at sum ⊢
    rw [Methods.run_bind_ok _ (Methods.run_modify _ _)]
    exact run_addWraps { capture with wrapCount := capture.wrapCount + 1 } isNumber sum

/-- The effect of `pair` when the name is hashed. -/
def paired (key : Json.Key φ) (event : TraceEvent φ) (capture : EventCapture φ) : EventCapture φ :=
  match event.action with
  | .started => { capture with pending := Json.setItem Json.Key.same key event capture.pending }
  | .stopped =>
    match Json.getItem Json.Key.same key capture.pending with
    | none => capture
    | some start =>
      let span : EventSpan φ := { name := event.name, start, stop := event }
      { capture with
        pending := capture.pending.eraseP fun entry => entry.1.same key
        spans := capture.spans ++ [span]
        notified := capture.notified ++ [.inr span] }

theorem run_pair (capture : EventCapture φ) {event : TraceEvent φ} {key : Json.Key φ}
    (hashed : event.name.toKey = .ok key) :
    Methods.run (pair event) capture = (.ok (), paired key event capture) := by
  rw [pair, hashed, paired]
  cases event.action with
  | started => exact Methods.run_bind_ok _ (Methods.run_ofExcept _ _)
  | stopped =>
    simp only
    rw [Methods.run_bind_ok _ (Methods.run_get _)]
    cases nonempty : capture.pending.isEmpty with
    | true =>
      rw [List.isEmpty_iff.mp nonempty]
      rfl
    | false =>
      simp only [Bool.false_eq_true, ↓reduceIte]
      rw [Methods.run_bind_ok _ (Methods.run_ofExcept _ _),
        Methods.run_bind_ok _ (Methods.run_get _)]
      cases Json.getItem Json.Key.same key capture.pending with
      | none => rfl
      | some start => rfl

/-- A stop when nothing is pending. -/
theorem run_pair_empty (capture : EventCapture φ) {event : TraceEvent φ}
    (stops : event.action = .stopped) (empty : capture.pending = []) :
    Methods.run (pair event) capture = (.ok (), capture) := by
  rw [pair, stops]
  simp only
  rw [Methods.run_bind_ok _ (Methods.run_get _), empty]
  rfl

/-- The event is there before it is paired. -/
theorem run_record_eq (capture : EventCapture φ) {name : Json φ} {action : TraceEvent.Action}
    {adjusted : Number φ} {hostTs deviceTs : φ} (divided : adjusted.divInt 1000000 = .ok deviceTs) :
    let event : TraceEvent φ :=
      { name, action, deviceTimestampS := deviceTs, hostTimestampS := hostTs }
    Methods.run (record name action adjusted hostTs) capture =
      Methods.run (pair event) { capture with
        events := capture.events ++ [event], notified := capture.notified ++ [.inl event] } := by
  intro event
  rw [record, divided, Methods.run_bind_ok _ (Methods.run_ofExcept _ _),
    Methods.run_bind_ok _ (Methods.run_modify _ _)]

theorem run_record (capture : EventCapture φ) {name : Json φ} {action : TraceEvent.Action}
    {adjusted : Number φ} {hostTs deviceTs : φ} {key : Json.Key φ}
    (divided : adjusted.divInt 1000000 = .ok deviceTs) (hashed : name.toKey = .ok key) :
    let event : TraceEvent φ :=
      { name, action, deviceTimestampS := deviceTs, hostTimestampS := hostTs }
    Methods.run (record name action adjusted hostTs) capture =
      (.ok (), paired key event { capture with
        events := capture.events ++ [event], notified := capture.notified ++ [.inl event] }) := by
  intro event
  rw [run_record_eq capture divided]
  exact run_pair _ hashed

end EventCapture

end EmbeddedBridge.Python
