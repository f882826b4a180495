import Mathlib.Data.List.Forall2
import EmbeddedBridge.Verified.SpanPairing
import EmbeddedBridge.Verified.Timeline

/-! # Durations of spans

The timeline of an event capture may be late by whole periods of the 32-bit microseconds, one
for each step back across a wrap (`Library.Unwrap`).  A span is too long by the steps back
between its start and its stop, and by nothing else (`span_durations`): wraps do no harm, nor
do steps back before it.
-/

namespace EmbeddedBridge.Python.EventCapture

open Library Py

variable {φ : Type} [PyFloat φ] {depth : Nat} {message : Line}

/-! ## Lines of events -/

/-- A well-formed line has an event that is named by a text. -/
theorem traceIn_stamped {raw : Nat} (stamped : stamp φ depth message = some raw) :
    ∃ name action, (traceIn depth message : Except Raised (Option (Trace φ))) =
      .ok (some { name := .str name, action, ts := .number (.int raw) }) := by
  rw [stamp] at stamped
  split at stamped
  · cases stamped
  rename_i brace
  split at stamped
  · rename_i obj loaded
    split at stamped
    · rename_i ph name raw' isPh isName isTs
      split at stamped
      · rename_i event
        cases stamped
        obtain ⟨begins, named⟩ := event
        have known : (Json.isStr (str "B") (.str ph : Json φ) ||
            Json.isStr (str "E") (.str ph : Json φ)) = true := by
          simpa [Json.isStr] using begins
        have truthy : (Json.str name : Json φ).truthy = true := by
          simpa [Json.truthy] using named
        refine ⟨name, if Json.isStr (str "B") (.str ph : Json φ) then .started else .stopped, ?_⟩
        simp only [traceIn, if_neg brace, loaded, traceOf, isPh, isName, isTs, Option.getD_some,
          known, truthy, Bool.and_self, ↓reduceIte]
        rfl
      · cases stamped
    · cases stamped
  · cases stamped

/-- The time, in seconds. -/
def Seconds (event : TraceEvent φ) (time : Nat) : Prop :=
  PyFloat.trueDiv time 1000000 = some event.deviceTimestampS

/-- The captured events have these times. -/
def Dated (capture : EventCapture φ) (times : List Nat) : Prop :=
  List.Forall₂ Seconds capture.events times

theorem paired_events (key : Json.Key φ) (event : TraceEvent φ) (capture : EventCapture φ) :
    (paired key event capture).events = capture.events := by
  rw [paired]
  split
  · rfl
  · split <;> rfl

/-- A line without an event changes nothing. -/
theorem feed_ignored (hostTs : φ) (capture : EventCapture φ)
    (ignored : ∀ trace : Trace φ, traceIn depth message ≠ .ok (some trace)) :
    (Methods.run (feed depth hostTs message) capture).2 = capture := by
  rw [feed_eq]
  cases found : (traceIn depth message : Except Raised (Option (Trace φ))) with
  | error raised => rfl
  | ok trace? =>
    cases trace? with
    | none => rfl
    | some trace => exact absurd found (ignored trace)

/-- A line with an event appends it, with the time that the unwrapper gives it. -/
theorem feed_dated {reading : Nat} (hostTs : φ) {capture : EventCapture φ}
    {unwrap : Unwrap.State} {times : List Nat} (unwraps : capture.Unwraps unwrap)
    (dated : Dated capture times) (stamped : stamp φ depth message = some reading)
    (divides : ∀ time ∈ (Unwrap.step (2 ^ 31) unwrap reading).2,
      ∃ quotient : φ, PyFloat.trueDiv time 1000000 = some quotient) :
    let after := (Methods.run (feed depth hostTs message) capture).2
    after.Unwraps (Unwrap.step (2 ^ 31) unwrap reading).1 ∧
      Dated after (times ++ (Unwrap.step (2 ^ 31) unwrap reading).2) := by
  obtain ⟨name, action, isTrace⟩ := traceIn_stamped stamped
  obtain ⟨_, _, unwraps', _⟩ := run_feed depth capture unwrap hostTs message reading unwraps stamped
  refine ⟨unwraps', ?_⟩
  obtain ⟨time, after, ran, emits, _, _⟩ := run_adjust_int capture unwrap reading unwraps
  rw [emits] at divides ⊢
  obtain ⟨quotient, isQuotient⟩ := divides time (List.mem_singleton.mpr rfl)
  have divided : (Number.int (time : Int) : Number φ).divInt 1000000 = .ok quotient := by
    rw [Number.divInt, isQuotient]
  have same : after.events = capture.events := by
    have unchanged := adjust_sameSpans (.number (.int reading)) capture
    rw [ran] at unchanged
    exact unchanged.1
  have hashed : (Json.str name : Json φ).toKey = .ok (.str name) := rfl
  rw [feed_eq, isTrace]
  simp only [feedTrace]
  rw [Methods.run_bind_ok _ ran, run_record after divided hashed, Dated, paired_events, same]
  exact List.rel_append dated (.cons isQuotient .nil)

/-! ## The run -/

/-- All lines with an event are well formed. -/
def Stamped (φ : Type) [PyFloat φ] (depth : Nat) (message : Line) : Prop :=
  stamp φ depth message = none → ∀ trace : Trace φ, traceIn depth message ≠ .ok (some trace)

theorem named_of_stamped (stamped : Stamped φ depth message) : Named φ depth message := by
  intro trace isTrace
  cases isStamp : stamp φ depth message with
  | none => exact absurd isTrace (stamped isStamp trace)
  | some reading =>
    obtain ⟨name, action, isTrace'⟩ := traceIn_stamped isStamp
    cases isTrace.symm.trans isTrace'
    exact ⟨name, rfl⟩

theorem feedAll_dated (lines : List (φ × Line)) (wellFormed : ∀ line ∈ lines, Stamped φ depth line.2)
    {capture : EventCapture φ} {unwrap : Unwrap.State} {times : List Nat}
    (unwraps : capture.Unwraps unwrap) (dated : Dated capture times) (tracked : Tracked capture)
    (divides : ∀ time ∈ (Transducer.run (Unwrap.step (2 ^ 31)) unwrap
        (lines.filterMap fun line => stamp φ depth line.2)).2,
      ∃ quotient : φ, PyFloat.trueDiv time 1000000 = some quotient) :
    Tracked (feedAll depth capture lines) ∧
      Dated (feedAll depth capture lines) (times ++ (Transducer.run (Unwrap.step (2 ^ 31)) unwrap
        (lines.filterMap fun line => stamp φ depth line.2)).2) := by
  induction lines generalizing capture unwrap times with
  | nil =>
    rw [List.filterMap_nil, Transducer.run_nil, List.append_nil]
    exact ⟨tracked, dated⟩
  | cons line lines inductionHypothesis =>
    have stamped := wellFormed line List.mem_cons_self
    have later := fun other member => wellFormed other (List.mem_cons_of_mem line member)
    have tracked' : Tracked (Methods.run (feed depth line.1 line.2) capture).2 :=
      feed_tracked (named_of_stamped stamped) capture tracked
    rw [feedAll, List.foldl_cons]
    cases isStamp : stamp φ depth line.2 with
    | none =>
      have skipped : (line :: lines).filterMap (fun line => stamp φ depth line.2) =
          lines.filterMap fun line => stamp φ depth line.2 := List.filterMap_cons_none isStamp
      rw [skipped] at divides ⊢
      rw [feed_ignored line.1 capture (stamped isStamp)] at tracked' ⊢
      exact inductionHypothesis later unwraps dated tracked' divides
    | some reading =>
      have first : (line :: lines).filterMap (fun line => stamp φ depth line.2) =
          reading :: lines.filterMap fun line => stamp φ depth line.2 :=
        List.filterMap_cons_some isStamp
      rw [first, Transducer.run_cons] at divides ⊢
      obtain ⟨unwraps', dated'⟩ := feed_dated line.1 unwraps dated isStamp
        fun time member => divides time (List.mem_append_left _ member)
      rw [← List.append_assoc]
      exact inductionHypothesis later unwraps' dated' tracked'
        fun time member => divides time (List.mem_append_right _ member)

/-! ## Spans -/

omit [PyFloat φ] in
/-- A span is of the events at its pair. -/
theorem span_events {capture : EventCapture φ} {pairs : List (Nat × Nat)}
    (tracks : Tracks capture pairs) {span : EventSpan φ} {pair : Nat × Nat}
    (member : (span, pair) ∈ capture.spans.zip pairs) :
    pair.1 < pair.2 ∧ capture.events[pair.1]? = some span.start ∧
      capture.events[pair.2]? = some span.stop := by
  obtain ⟨k, found⟩ := List.mem_iff_getElem?.mp member
  obtain ⟨isSpan, isPair⟩ := List.getElem?_zip_eq_some.mp found
  have same := congrArg (fun spans => spans[k]?) tracks.spans
  simp only [List.getElem?_map, isSpan, isPair, Option.map_some, Option.some.injEq] at same
  obtain ⟨start, stop, isStart, isStop, _, _, _, ordered, _⟩ :=
    (tracks.pairsOf.exact pair.1 pair.2).mp (List.of_mem_zip member).2
  rw [spanOf, isStart, isStop] at same
  cases same
  exact ⟨ordered, isStart, isStop⟩

theorem dated_at {capture : EventCapture φ} {times : List Nat} (dated : Dated capture times)
    {i time : Nat} {event : TraceEvent φ} (isEvent : capture.events[i]? = some event)
    (isTime : times[i]? = some time) : Seconds event time := by
  obtain ⟨inside, same⟩ := List.getElem?_eq_some_iff.mp isEvent
  obtain ⟨inside', same'⟩ := List.getElem?_eq_some_iff.mp isTime
  have seconds := List.Forall₂.get dated inside inside'
  rwa [List.get_eq_getElem, List.get_eq_getElem, same, same'] at seconds

/-! ## Main result -/

/-- Over lines of events whose times have steps of less than 2³¹ µs either way, and any lines
between them: the duration of a span is the difference of two times in seconds, which are those
of its start and its stop, but too far apart by as many periods as there are steps back across a
multiple of 2³² µs between the two. -/
theorem span_durations (depth : Nat) (lines : List (φ × Line)) (times : List Nat) (most : Nat)
    (quotients : ∀ time : Nat, time < most →
      ∃ quotient : φ, PyFloat.trueDiv time 1000000 = some quotient)
    (small : ∀ time ∈ times, time + times.length * 2 ^ 32 < most)
    (begins : ∀ first ∈ times.head?, first < 2 ^ 32)
    (near : times.IsChain fun before now => now < before + 2 ^ 31 ∧ before < now + 2 ^ 31)
    (wellFormed : ∀ line ∈ lines, Stamped φ depth line.2)
    (stamped : lines.filterMap (fun line => stamp φ depth line.2) = times.map (· % 2 ^ 32)) :
    let capture := feedAll depth {} lines
    ∃ pairs, Tracks capture pairs ∧ ∀ span pair, (span, pair) ∈ capture.spans.zip pairs →
      ∃ (started stopped start stop : Nat) (first last : φ),
        times[pair.1]? = some started ∧ times[pair.2]? = some stopped ∧
        PyFloat.trueDiv start 1000000 = some first ∧ PyFloat.trueDiv stop 1000000 = some last ∧
        span.deviceDurationS = PyFloat.sub last first ∧
        (stop : Int) - start = stopped - started +
          2 ^ 32 * Unwrap.backs (2 ^ 31) ((times.take (pair.2 + 1)).drop pair.1) := by
  intro capture
  obtain ⟨length, late⟩ := Unwrap.run_late times begins near
  let out := (Transducer.run (Unwrap.step (2 ^ 31)) {} (times.map (· % 2 ^ 32))).2
  have divides : ∀ time ∈ out, ∃ quotient : φ, PyFloat.trueDiv time 1000000 = some quotient := by
    intro time member
    obtain ⟨i, found⟩ := List.mem_iff_getElem?.mp member
    have inside : i < times.length := length ▸ (List.getElem?_eq_some_iff.mp found).1
    have isTime := List.getElem?_eq_getElem inside
    have comesOut := (late i times[i] isTime).symm.trans found
    have few := (Unwrap.backs_le (2 ^ 31) (times.take (i + 1))).trans (List.length_take_le' _ _)
    have bound := small times[i] (List.getElem_mem inside)
    have same := Option.some.inj comesOut
    refine quotients time ?_
    omega
  have unwraps : ({} : EventCapture φ).Unwraps {} := ⟨rfl, rfl⟩
  have nothing : Dated ({} : EventCapture φ) [] := .nil
  have run := feedAll_dated lines wellFormed unwraps nothing tracked_empty
  rw [stamped] at run
  obtain ⟨⟨pairs, tracks⟩, dated⟩ := run divides
  refine ⟨pairs, tracks, fun span pair member => ?_⟩
  obtain ⟨ordered, isStart, isStop⟩ := span_events tracks member
  have known : capture.events.length = times.length := (List.Forall₂.length_eq dated).trans length
  have insideStop : pair.2 < times.length := known ▸ (List.getElem?_eq_some_iff.mp isStop).1
  have insideStart : pair.1 < times.length := Nat.lt_trans ordered insideStop
  have started := List.getElem?_eq_getElem insideStart
  have stopped := List.getElem?_eq_getElem insideStop
  refine ⟨_, _, _, _, _, _, started, stopped, dated_at dated isStart (late _ _ started),
    dated_at dated isStop (late _ _ stopped), rfl, ?_⟩
  have split := Unwrap.backs_split (2 ^ 31) (times.take (pair.2 + 1)) pair.1
  rw [List.take_take, Nat.min_eq_left (by omega)] at split
  rw [split]
  omega

/-- The span of `gps` starts before a wrap and stops after a step back across it. -/
theorem span_durations_skewed :
    let times : List Nat := [4294967290, 4294967301, 4294967291]
    let capture := feedAll 2 {} skewedLines
    ∃ pairs, Tracks capture pairs ∧ ∀ span pair, (span, pair) ∈ capture.spans.zip pairs →
      ∃ (started stopped start stop : Nat) (first last : Micro),
        times[pair.1]? = some started ∧ times[pair.2]? = some stopped ∧
        PyFloat.trueDiv start 1000000 = some first ∧ PyFloat.trueDiv stop 1000000 = some last ∧
        span.deviceDurationS = PyFloat.sub last first ∧
        (stop : Int) - start = stopped - started +
          2 ^ 32 * Unwrap.backs (2 ^ 31) ((times.take (pair.2 + 1)).drop pair.1) := by
  have stamped : ∀ line ∈ skewedLines, (stamp Micro 2 line.2).isSome := by decide +kernel
  refine span_durations 2 skewedLines [4294967290, 4294967301, 4294967291] (2 ^ 40)
    (fun time _ => ⟨_, rfl⟩) (by simp) (by simp) (by simp) ?_ (by decide +kernel)
  intro line member isNone
  have isSome := stamped line member
  rw [isNone] at isSome
  cases isSome

end EmbeddedBridge.Python.EventCapture
