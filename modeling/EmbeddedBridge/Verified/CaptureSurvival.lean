import EmbeddedBridge.Library.Histories
import EmbeddedBridge.Receivers.EventCapture

/-! # What event capture survives

A line that is no event changes nothing, and an event is appended.  In between are
the lines that make `feed` raise: a `ts` that is no number, or a number that does not
go with the others as a float, which is also kept for the next event to be compared
with; a name that has no hash, whose event is appended by then, unless it stops when
nothing is pending; and JSON that is nested too deep.
-/

namespace EmbeddedBridge.Python.EventCapture

open Library Py Histories

variable {φ : Type}

/-- What can be called on a capture. -/
inductive Call (φ : Type) where
  | feed (hostTs : φ) (message : Line)
  | reset

/-- All that a capture remembers. -/
def SameRecord (before after : EventCapture φ) : Prop :=
  after.events = before.events ∧ after.spans = before.spans ∧ after.pending = before.pending ∧
    after.lastRawTsUs = before.lastRawTsUs ∧ after.wrapCount = before.wrapCount

/-- Nothing but arrays and objects is without a hash. -/
def Hashable : Json φ → Prop
  | .array _ => False
  | .object _ => False
  | _ => True

theorem hashable_iff {name : Json φ} : (∃ key, name.toKey = .ok key) ↔ Hashable name := by
  cases name with
  | array elements => exact iff_of_false nofun id
  | object fields => exact iff_of_false nofun id
  | null => exact iff_of_true ⟨_, rfl⟩ trivial
  | bool value => exact iff_of_true ⟨_, rfl⟩ trivial
  | number value => exact iff_of_true ⟨_, rfl⟩ trivial
  | str value => exact iff_of_true ⟨_, rfl⟩ trivial

variable [PyFloat φ]

def Call.perform (depth : Nat) : Call φ → Method φ Unit
  | .feed hostTs message => EventCapture.feed depth hostTs message
  | .reset => EventCapture.reset

/-- A capture after calls, of which some may have raised. -/
def after (depth : Nat) (calls : List (Call φ)) : EventCapture φ :=
  calls.foldl (fun capture call => (Methods.run (call.perform depth) capture).2) {}

theorem after_snoc (depth : Nat) (calls : List (Call φ)) (call : Call φ) :
    after depth (calls ++ [call]) = (Methods.run (call.perform depth) (after depth calls)).2 := by
  rw [after, after, List.foldl_append]
  rfl

/-- `feed` does not raise, and it appends an event or changes nothing. -/
def Survives (depth : Nat) (capture : EventCapture φ) : Call φ → Prop
  | .feed hostTs message =>
    let ran := Methods.run (EventCapture.feed depth hostTs message) capture
    ran.1 = .ok () ∧
      ((∃ event, ran.2.events = capture.events ++ [event]) ∨ SameRecord capture ran.2)
  | .reset => True

/-! ## Lines that are survived -/

/-- Wraps that have been counted when the time of a trace has been looked at. -/
def wrapsWith (capture : EventCapture φ) (ts : Json φ) : Nat :=
  if hasWrapped capture.lastRawTsUs ts = .ok true then capture.wrapCount + 1 else capture.wrapCount

/-- The seconds are in range that a time comes to with an offset. -/
def SecondsInRange : Number φ → Int → Prop
  | .int value, offset => Number.QuotientInRange (.int (value + offset) : Number φ) 1000000
  | .float value, _ => Number.QuotientInRange (.float value) 1000000

/-- The arithmetic on the time of a trace stays in the range of a float. -/
structure TimeInRange (capture : EventCapture φ) (ts : Json φ) (raw : Number φ) : Prop where
  step : ∀ last, capture.lastRawTsUs.toNumber = .ok last → raw.Compatible last
  offset : raw.Compatible (.int (capture.wrapsWith ts * timestampWrapUs))
  seconds : SecondsInRange raw (capture.wrapsWith ts * timestampWrapUs)

/-- An event whose name is hashed has one with a hash.  A stop is not looked for when nothing
is pending. -/
def Nameable (capture : EventCapture φ) (name : Json φ) (action : TraceEvent.Action) : Prop :=
  Hashable name ∨ action = .stopped ∧ capture.pending = []

/-- A trace that can be recorded: its name can be hashed, if it is, and its time is a number. -/
def Recordable (capture : EventCapture φ) (trace : Trace φ) : Prop :=
  Nameable capture trace.name trace.action ∧
    ∃ raw, trace.ts.toNumber = .ok raw ∧ TimeInRange capture trace.ts raw

/-- `json.loads` does not give up on the line, and what is in it can be recorded. -/
def Sound (depth : Nat) (capture : EventCapture φ) : Call φ → Prop
  | .feed _ message => ∃ found, traceIn depth message = .ok found ∧
    ∀ trace, found = some trace → Recordable capture trace
  | .reset => True

/-- The last time is one to compare with. -/
def Timed (capture : EventCapture φ) : Prop :=
  capture.lastRawTsUs = .null ∨ ∃ last, capture.lastRawTsUs.toNumber = .ok last

/-- Two times are compared unless they do not go together. -/
theorem hasWrapped_isOk {last ts : Json φ} {raw : Number φ} (isNumber : ts.toNumber = .ok raw)
    (timed : last = .null ∨ ∃ before, last.toNumber = .ok before) :
    (∃ wrapped, hasWrapped last ts = .ok wrapped) ↔
      ∀ before, last.toNumber = .ok before → raw.Compatible before := by
  cases timed with
  | inl first =>
    rw [first]
    exact iff_of_true ⟨false, rfl⟩ nofun
  | inr later =>
    obtain ⟨before, isBefore⟩ := later
    have compared : hasWrapped last ts =
        (raw.sub before).map fun step => step.ltInt (-wrapThresholdUs) := by
      cases last with
      | null => cases isBefore
      | _ => simp only [hasWrapped, isNumber, isBefore]; rfl
    have mapped : (∃ wrapped, hasWrapped last ts = .ok wrapped) ↔
        ∃ step, raw.sub before = .ok step := by
      rw [compared]
      cases raw.sub before with
      | error error => exact iff_of_false nofun nofun
      | ok step => exact iff_of_true ⟨_, rfl⟩ ⟨_, rfl⟩
    rw [mapped, Number.sub, Number.arithmetic_isOk]
    constructor
    · intro compatible other same
      rw [isBefore] at same
      cases same
      exact compatible
    · exact fun compatible => compatible before isBefore

/-! ## One event -/

theorem paired_keeps (key : Json.Key φ) (event : TraceEvent φ) (capture : EventCapture φ) :
    (paired key event capture).events = capture.events ∧
      (paired key event capture).lastRawTsUs = capture.lastRawTsUs := by
  rw [paired]
  cases event.action with
  | started => exact ⟨rfl, rfl⟩
  | stopped =>
    simp only
    cases Json.getItem Json.Key.same key capture.pending with
    | none => exact ⟨rfl, rfl⟩
    | some start => exact ⟨rfl, rfl⟩

theorem wrapsWith_eq {capture : EventCapture φ} {ts : Json φ} {wrapped : Bool}
    (detected : hasWrapped capture.lastRawTsUs ts = .ok wrapped) :
    (if wrapped then capture.wrapCount + 1 else capture.wrapCount) = capture.wrapsWith ts := by
  rw [wrapsWith, detected]
  cases wrapped <;> simp

theorem secondsInRange_iff {raw adjusted : Number φ} {offset : Int}
    (sum : raw.add (.int offset) = .ok adjusted) :
    (∃ deviceTs, adjusted.divInt 1000000 = .ok deviceTs) ↔ SecondsInRange raw offset := by
  rw [Number.divInt_isOk]
  cases raw with
  | int value =>
    cases sum
    exact Iff.rfl
  | float value =>
    obtain ⟨result, rfl⟩ := Number.add_float sum
    exact Iff.rfl

theorem feedTrace_of_recordable {capture : EventCapture φ} {trace : Trace φ} (hostTs : φ)
    (timed : Timed capture) (recordable : Recordable capture trace) :
    ∃ final, Methods.run (feedTrace hostTs trace) capture = (.ok (), final) ∧
      (∃ event, final.events = capture.events ++ [event]) ∧ final.lastRawTsUs = trace.ts := by
  obtain ⟨nameable, raw, isNumber, inRange⟩ := recordable
  obtain ⟨wrapped, detected⟩ := (hasWrapped_isOk isNumber timed).mpr inRange.step
  obtain ⟨adjusted, sum⟩ := Number.arithmetic_isOk.mpr inRange.offset
  obtain ⟨deviceTs, divided⟩ := (secondsInRange_iff sum).mpr inRange.seconds
  have ran := run_adjust capture trace.ts wrapped raw adjusted detected isNumber
    (by rw [wrapsWith_eq detected]; exact sum)
  have recorded : Methods.run (feedTrace hostTs trace) capture =
      Methods.run (record trace.name trace.action adjusted hostTs) _ := Methods.run_bind_ok _ ran
  have whole := recorded.trans (run_record_eq _ divided)
  cases nameable with
  | inl hashable =>
    obtain ⟨key, hashed⟩ := hashable_iff.mpr hashable
    exact ⟨_, whole.trans (run_pair _ hashed), ⟨_, (paired_keeps _ _ _).1⟩, (paired_keeps _ _ _).2⟩
  | inr unasked =>
    exact ⟨_, whole.trans (run_pair_empty _ unasked.1 unasked.2), ⟨_, rfl⟩, rfl⟩

theorem addWraps_returned {capture final : EventCapture φ} {ts : Json φ} {adjusted : Number φ}
    (ran : Methods.run (addWraps ts) capture = (.ok adjusted, final)) :
    ∃ raw, ts.toNumber = .ok raw ∧
      raw.add (.int (capture.wrapCount * timestampWrapUs)) = .ok adjusted := by
  rw [addWraps, Methods.run_bind_ok _ (Methods.run_modify _ _)] at ran
  obtain ⟨raw, _, ranNumber, ranRest⟩ := Methods.run_bind_eq_ok.mp ran
  rw [Methods.run_ofExcept, Prod.mk.injEq] at ranNumber
  obtain ⟨isNumber, rfl⟩ := ranNumber
  rw [Methods.run_bind_ok _ (Methods.run_get _)] at ranRest
  obtain ⟨sum, _, ranSum, ranKept⟩ := Methods.run_bind_eq_ok.mp ranRest
  rw [Methods.run_ofExcept, Prod.mk.injEq] at ranSum
  rw [Methods.run_bind_ok _ (Methods.run_modify _ _), Methods.run_pure, Prod.mk.injEq,
    Except.ok.injEq] at ranKept
  rw [ranKept.1] at ranSum
  exact ⟨raw, isNumber, ranSum.1⟩

theorem adjust_returned {capture final : EventCapture φ} {ts : Json φ} {adjusted : Number φ}
    (ran : Methods.run (adjust ts) capture = (.ok adjusted, final)) :
    (∃ wrapped, hasWrapped capture.lastRawTsUs ts = .ok wrapped) ∧ ∃ raw, ts.toNumber = .ok raw ∧
      raw.add (.int (capture.wrapsWith ts * timestampWrapUs)) = .ok adjusted := by
  rw [adjust_eq, Methods.run_bind_ok _ (Methods.run_get _)] at ran
  obtain ⟨wrapped, between, ranDetected, ranRest⟩ := Methods.run_bind_eq_ok.mp ran
  rw [Methods.run_ofExcept, Prod.mk.injEq] at ranDetected
  obtain ⟨detected, rfl⟩ := ranDetected
  refine ⟨⟨wrapped, detected⟩, ?_⟩
  rw [← wrapsWith_eq detected]
  cases wrapped with
  | false => exact addWraps_returned ranRest
  | true =>
    simp only [↓reduceIte] at ranRest ⊢
    rw [Methods.run_bind_ok _ (Methods.run_modify _ _)] at ranRest
    have summed := addWraps_returned ranRest
    exact summed

theorem adjust_pending (ts : Json φ) :
    Methods.Preserves (fun before after => after.pending = before.pending) (adjust ts) := by
  have refl (capture : EventCapture φ) : capture.pending = capture.pending := rfl
  have trans (first second third : EventCapture φ) (here : second.pending = first.pending)
      (later : third.pending = second.pending) : third.pending = first.pending := later.trans here
  have adds : Methods.Preserves (fun before after => after.pending = before.pending)
      (addWraps ts) :=
    .bind trans (.ofModify fun _ => rfl) fun _ => .bind trans (.ofExcept refl _) fun _ =>
      .bind trans (.ofGet refl) fun _ => .bind trans (.ofExcept refl _) fun _ =>
        .bind trans (.ofModify fun _ => rfl) fun _ => .ofPure refl _
  rw [adjust_eq]
  refine .bind trans (.ofGet refl) fun capture => .bind trans (.ofExcept refl _) fun wrapped => ?_
  cases wrapped with
  | false => exact adds
  | true => exact .bind trans (.ofModify fun _ => rfl) fun _ => adds

omit [PyFloat φ] in
theorem hashable_of_hashed {capture final : EventCapture φ} {name : Json φ}
    {later : Json.Key φ → Method φ Unit}
    (ran : Methods.run (MonadExcept.ofExcept name.toKey >>= later) capture = (.ok (), final)) :
    Hashable name := by
  obtain ⟨key, _, ranHashed, _⟩ := Methods.run_bind_eq_ok.mp ran
  rw [Methods.run_ofExcept, Prod.mk.injEq] at ranHashed
  exact hashable_iff.mp ⟨key, ranHashed.1⟩

/-- `pair` does not return if it has to hash what has no hash. -/
theorem nameable_of_pair {capture final : EventCapture φ} {event : TraceEvent φ}
    (ran : Methods.run (pair event) capture = (.ok (), final)) :
    Nameable capture event.name event.action := by
  rw [pair] at ran
  cases action : event.action with
  | started =>
    rw [action] at ran
    exact .inl (hashable_of_hashed ran)
  | stopped =>
    rw [action] at ran
    simp only at ran
    rw [Methods.run_bind_ok _ (Methods.run_get _)] at ran
    cases empty : capture.pending.isEmpty with
    | true => exact .inr ⟨rfl, List.isEmpty_iff.mp empty⟩
    | false =>
      simp only [empty, Bool.false_eq_true, ↓reduceIte] at ran
      exact .inl (hashable_of_hashed ran)

/-- What goes through without raising could be recorded. -/
theorem recordable_of_feedTrace {capture final : EventCapture φ} {trace : Trace φ} {hostTs : φ}
    (timed : Timed capture) (ran : Methods.run (feedTrace hostTs trace) capture = (.ok (), final)) :
    Recordable capture trace := by
  obtain ⟨adjusted, timedCapture, ranAdjust, ranRecord⟩ := Methods.run_bind_eq_ok.mp ran
  -- the event could be made and paired
  obtain ⟨deviceTs, _, ranDivided, _⟩ := Methods.run_bind_eq_ok.mp ranRecord
  rw [Methods.run_ofExcept, Prod.mk.injEq] at ranDivided
  rw [run_record_eq _ ranDivided.1] at ranRecord
  have nameable := nameable_of_pair ranRecord
  have pending := adjust_pending trace.ts capture
  rw [ranAdjust] at pending
  -- and its time be looked at
  obtain ⟨detected, raw, isNumber, sum⟩ := adjust_returned ranAdjust
  refine ⟨nameable.imp_right fun unasked => ⟨unasked.1, pending.symm.trans unasked.2⟩, raw,
    isNumber, (hasWrapped_isOk isNumber timed).mp detected,
    Number.arithmetic_isOk.mp ⟨adjusted, sum⟩, (secondsInRange_iff sum).mp ⟨deviceTs, ranDivided.1⟩⟩

/-- One line: it is survived when it is sound, and leaves a time to compare with. -/
theorem feed_survives_iff (depth : Nat) (capture : EventCapture φ) (timed : Timed capture)
    (hostTs : φ) (message : Line) :
    (Survives depth capture (.feed hostTs message) ↔ Sound depth capture (.feed hostTs message)) ∧
      (Sound depth capture (.feed hostTs message) →
        Timed (Methods.run (EventCapture.feed depth hostTs message) capture).2) := by
  simp only [Survives, Sound, feed_eq]
  cases (traceIn depth message : Except Raised (Option (Trace φ))) with
  | error raised => exact ⟨iff_of_false nofun nofun, nofun⟩
  | ok found =>
    cases found with
    | none =>
      exact ⟨iff_of_true ⟨rfl, .inr ⟨rfl, rfl, rfl, rfl, rfl⟩⟩ ⟨none, rfl, nofun⟩, fun _ => timed⟩
    | some trace =>
      constructor
      · constructor
        · intro survives
          refine ⟨some trace, rfl, fun other same => ?_⟩
          cases same
          exact recordable_of_feedTrace timed (Prod.ext survives.1 rfl)
        · intro sound
          obtain ⟨_, same, recordable⟩ := sound
          obtain ⟨final, ran, appended, _⟩ :=
            feedTrace_of_recordable hostTs timed (recordable trace (Except.ok.inj same).symm)
          simp only [ran]
          exact ⟨trivial, .inl appended⟩
      · intro sound
        obtain ⟨_, same, recordable⟩ := sound
        have recordable := recordable trace (Except.ok.inj same).symm
        obtain ⟨final, ran, _, last⟩ := feedTrace_of_recordable hostTs timed recordable
        obtain ⟨_, raw, isNumber, _⟩ := recordable
        simp only [ran]
        exact .inr ⟨raw, last ▸ isNumber⟩

/-! ## Main result -/

/-- Every call of a run is survived if and only if every line is sound: `json.loads` does
not give up on it, and an event in it has a name with a hash, or stops when nothing is
pending, and a time that is a number and stays in range. -/
theorem survival_iff (depth : Nat) (calls : List (Call φ)) :
    Everywhere (fun before => Survives depth (after depth before)) calls ↔
      Everywhere (fun before => Sound depth (after depth before)) calls := by
  apply everywhere_iff fun before => Timed (after depth before)
  · exact .inl rfl
  · intro before call timed sound
    rw [after_snoc]
    cases call with
    | feed hostTs message => exact (feed_survives_iff depth _ timed hostTs message).2 sound
    | reset => exact .inl rfl
  · intro before call timed
    cases call with
    | feed hostTs message => exact (feed_survives_iff depth _ timed hostTs message).1
    | reset => exact Iff.rfl

/-- A `ts` that is a string makes `feed` raise, and the next event as well. -/
theorem survival_broken :
    let badTs : Call Micro :=
      .feed ⟨0⟩ (.str (str "\x7b\"ph\":\"B\",\"name\":\"a\",\"ts\":\"x\"\x7d"))
    let wellFormed : Call Micro :=
      .feed ⟨0⟩ (.str (str "\x7b\"ph\":\"B\",\"name\":\"a\",\"ts\":1\x7d"))
    ¬ Everywhere (fun before => Survives 9 (after 9 before)) [badTs] ∧
      ¬ Survives 9 (after 9 [badTs]) wellFormed ∧ Survives 9 (after 9 []) wellFormed := by
  intro badTs wellFormed
  refine ⟨?_, ?_, ?_⟩
  · intro everywhere
    have returned := (everywhere [] badTs [] rfl).1
    exact absurd returned (by decide +kernel)
  · intro survives
    exact absurd survives.1 (by decide +kernel)
  · refine ⟨by decide +kernel, .inl ⟨⟨.str (str "a"), .started, ⟨1⟩, ⟨0⟩⟩, ?_⟩⟩
    rfl

end EmbeddedBridge.Python.EventCapture
