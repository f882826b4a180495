import EmbeddedBridge.Library.Pairing
import EmbeddedBridge.Library.Py.Dictionary
import EmbeddedBridge.Receivers.EventCapture

/-! # Spans

`EventCapture` keeps the last start of every name, and takes it out for the next stop.
Over all the events that amounts to `Library.Pairing`: the spans are the pairs of a
start with the next event of its name, if that is a stop, in the order of the stops.
-/

namespace EmbeddedBridge.Python.EventCapture

open Library Py Pairing

variable {φ : Type}

def Started (event : TraceEvent φ) : Prop := event.action = .started

/-- The span from the event at one place to the one at another. -/
def spanOf (events : List (TraceEvent φ)) (pair : Nat × Nat) : Option (EventSpan φ) := do
  let start ← events[pair.1]?
  let stop ← events[pair.2]?
  return { name := stop.name, start, stop }

/-- What the callbacks are told: every event, and after a stop the span it completes. -/
def notifications (events : List (TraceEvent φ)) (completed : List (EventSpan φ × Nat × Nat)) :
    List (TraceEvent φ ⊕ EventSpan φ) :=
  events.zipIdx.flatMap fun entry =>
    .inl entry.1 :: (completed.filter fun span => span.2.2 == entry.2).map fun span => .inr span.1

/-- What is pending, by the events: the entries of a dictionary from texts. -/
def Pends (events : List (TraceEvent φ)) (entry : Json.Key φ × TraceEvent φ) : Prop :=
  ∃ name i, entry.1 = .str name ∧ Open TraceEvent.name Started events (.str name) i ∧
    events[i]? = some entry.2

/-- The spans of a capture are these pairs of its events, and what is pending is open. -/
structure Tracks (capture : EventCapture φ) (pairs : List (Nat × Nat)) : Prop where
  pairsOf : PairsOf TraceEvent.name Started capture.events pairs
  spans : capture.spans.map some = pairs.map (spanOf capture.events)
  distinct : Json.Distinct capture.pending
  pending : ∀ entry, entry ∈ capture.pending ↔ Pends capture.events entry
  notified : capture.notified = notifications capture.events (capture.spans.zip pairs)

/-! ## One more event -/

theorem spanOf_snoc {events : List (TraceEvent φ)} (event : TraceEvent φ) {pair : Nat × Nat}
    (left : pair.1 < events.length) (right : pair.2 < events.length) :
    spanOf (events ++ [event]) pair = spanOf events pair := by
  rw [spanOf, spanOf, List.getElem?_append_left left, List.getElem?_append_left right]

theorem notifications_snoc {events : List (TraceEvent φ)} (event : TraceEvent φ)
    {completed : List (EventSpan φ × Nat × Nat)} (new : List (EventSpan φ × Nat × Nat))
    (before : ∀ span ∈ completed, span.2.2 < events.length)
    (now : ∀ span ∈ new, span.2.2 = events.length) :
    notifications (events ++ [event]) (completed ++ new) =
      notifications events completed ++ .inl event :: new.map fun span => .inr span.1 := by
  have earlier : ∀ entry ∈ events.zipIdx,
      (completed ++ new).filter (fun span => span.2.2 == entry.2) =
        completed.filter fun span => span.2.2 == entry.2 := by
    intro entry member
    have inside := List.snd_lt_of_mem_zipIdx member
    have none : new.filter (fun span => span.2.2 == entry.2) = [] := by
      rw [List.filter_eq_nil_iff]
      intro span isNew
      rw [now span isNew, beq_iff_eq]
      omega
    rw [List.filter_append, none, List.append_nil]
  -- the new spans are all reported after the last event
  have last : (completed ++ new).filter (fun span => span.2.2 == events.length) = new := by
    have none : completed.filter (fun span => span.2.2 == events.length) = [] := by
      rw [List.filter_eq_nil_iff]
      intro span isOld
      rw [beq_iff_eq]
      exact Nat.ne_of_lt (before span isOld)
    rw [List.filter_append, none, List.nil_append, List.filter_eq_self]
    exact fun span isNew => beq_iff_eq.mpr (now span isNew)
  have same : events.zipIdx.flatMap (fun entry => .inl entry.1 ::
      ((completed ++ new).filter fun span => span.2.2 == entry.2).map fun span => .inr span.1) =
        notifications events completed :=
    List.flatMap_congr fun entry member => by rw [earlier entry member]
  rw [notifications, List.zipIdx_append, List.flatMap_append, same]
  simp only [List.zipIdx_singleton, List.flatMap_singleton, Nat.zero_add, last]

theorem pends_snoc {events : List (TraceEvent φ)} {event : TraceEvent φ} {name : Str}
    (named : event.name = .str name) {entry : Json.Key φ × TraceEvent φ} :
    Pends (events ++ [event]) entry ↔
      entry = (.str name, event) ∧ Started event ∨ entry.1 ≠ .str name ∧ Pends events entry := by
  obtain ⟨k, v⟩ := entry
  constructor
  · intro pends
    obtain ⟨name', i, rfl, opened, found⟩ := pends
    cases open_snoc.mp opened with
    | inl now =>
      obtain ⟨sameName, started, rfl⟩ := now
      cases named.symm.trans sameName
      cases get_snoc.mp found with
      | inl before => exact absurd (get_lt before) (Nat.lt_irrefl _)
      | inr last => exact .inl ⟨by rw [last.2], started⟩
    | inr before =>
      obtain ⟨otherName, opened⟩ := before
      have bound := open_lt opened
      refine .inr ⟨fun same => ?_, name', i, rfl, opened, ?_⟩
      · cases same
        exact otherName named
      · exact (get_snoc.mp found).resolve_right fun last => absurd last.1 (Nat.ne_of_lt bound)
  · intro pends
    cases pends with
    | inl now =>
      obtain ⟨same, started⟩ := now
      cases same
      exact ⟨name, events.length, rfl, open_snoc.mpr (.inl ⟨named, started, rfl⟩),
        get_snoc.mpr (.inr ⟨rfl, rfl⟩)⟩
    | inr before =>
      obtain ⟨otherName, name', i, rfl, opened, found⟩ := before
      refine ⟨name', i, rfl, open_snoc.mpr (.inr ⟨fun same => ?_, opened⟩),
        get_snoc.mpr (.inl found)⟩
      cases named.symm.trans same
      exact otherName rfl

/-- The events before have the spans they had. -/
theorem spans_snoc {capture : EventCapture φ} {pairs : List (Nat × Nat)}
    (tracks : Tracks capture pairs) (event : TraceEvent φ) :
    capture.spans.map some = pairs.map (spanOf (capture.events ++ [event])) := by
  rw [tracks.spans]
  apply List.map_congr_left
  intro pair member
  have bounds := tracks.pairsOf.bounds member
  exact (spanOf_snoc event bounds.1 bounds.2).symm

theorem completed_before {capture : EventCapture φ} {pairs : List (Nat × Nat)}
    (tracks : Tracks capture pairs) :
    ∀ span ∈ capture.spans.zip pairs, span.2.2 < capture.events.length :=
  fun _ member => (tracks.pairsOf.bounds (List.of_mem_zip member).2).2

theorem spans_length {capture : EventCapture φ} {pairs : List (Nat × Nat)}
    (tracks : Tracks capture pairs) : capture.spans.length = pairs.length := by
  have lengths := congrArg List.length tracks.spans
  rwa [List.length_map, List.length_map] at lengths

variable [PyFloat φ]

/-- A name that is a text is compared as a text. -/
theorem exact_str (name : Str) : Json.Exact Json.Key.same (.str name : Json.Key φ) := by
  intro other
  cases other with
  | none => exact iff_of_false nofun nofun
  | number value => exact iff_of_false nofun nofun
  | str text => simp [Json.Key.same]

/-- The capture when an event has been appended and reported. -/
def logged (capture : EventCapture φ) (event : TraceEvent φ) : EventCapture φ :=
  { capture with
    events := capture.events ++ [event], notified := capture.notified ++ [.inl event] }

section Step

variable {capture : EventCapture φ} {pairs : List (Nat × Nat)} {event : TraceEvent φ} {name : Str}

omit [PyFloat φ] in
/-- An event that completes no span. -/
theorem tracks_silent (tracks : Tracks capture pairs)
    (silent : Started event ∨ ∀ i, ¬ Open TraceEvent.name Started capture.events event.name i)
    {pending : List (Json.Key φ × TraceEvent φ)} (distinct : Json.Distinct pending)
    (pends : ∀ entry, entry ∈ pending ↔ Pends (capture.events ++ [event]) entry) :
    Tracks { logged capture event with pending } pairs := by
  refine ⟨pairsOf_silent tracks.pairsOf silent, spans_snoc tracks event, distinct, pends, ?_⟩
  have reported := notifications_snoc event [] (completed_before tracks) nofun
  rw [List.append_nil] at reported
  rw [logged, reported, tracks.notified]
  rfl

theorem tracks_started (tracks : Tracks capture pairs) (named : event.name = .str name)
    (started : event.action = .started) :
    Tracks (paired (.str name) event (logged capture event)) pairs := by
  rw [paired, started]
  refine tracks_silent tracks (.inl started) (Json.distinct_setItem (exact_str name) tracks.distinct)
    fun entry => ?_
  rw [pends_snoc named, ← tracks.pending]
  refine (Json.mem_setItem_iff (exact_str name) tracks.distinct).trans ?_
  rw [and_iff_left (show Started event from started)]

theorem tracks_stopped (tracks : Tracks capture pairs) (named : event.name = .str name)
    (stopped : event.action = .stopped) :
    ∃ pairs', Tracks (paired (.str name) event (logged capture event)) pairs' := by
  have closes : ¬ Started event := fun started => by
    rw [Started, stopped] at started
    cases started
  rw [paired, stopped]
  simp only [logged]
  cases popped : Json.getItem Json.Key.same (.str name) capture.pending with
  | none =>
    -- nothing of that name is open
    have absent : ∀ start, (Json.Key.str name, start) ∉ capture.pending := fun start member => by
      rw [(Json.getItem_eq_some (exact_str name) tracks.distinct).mpr member] at popped
      cases popped
    refine ⟨pairs, tracks_silent tracks (.inr fun i opened => ?_) tracks.distinct fun entry => ?_⟩
    · obtain ⟨start, found, _, _⟩ := opened.1
      exact absent start ((tracks.pending _).mpr ⟨name, i, rfl, named ▸ opened, found⟩)
    · rw [pends_snoc named, ← tracks.pending]
      constructor
      · exact fun member => .inr ⟨fun same => absent entry.2 (same ▸ member), member⟩
      · intro pends
        cases pends with
        | inl now => exact absurd now.2 closes
        | inr before => exact before.2
  | some start =>
    -- what is pending is the open event, so that the two are a pair
    have member := (Json.getItem_eq_some (exact_str name) tracks.distinct).mp popped
    obtain ⟨_, i, same, opened, found⟩ := (tracks.pending _).mp member
    cases same
    have length := spans_length tracks
    have here : (capture.events ++ [event])[i]? = some start := get_snoc.mpr (.inl found)
    have last : (capture.events ++ [event])[capture.events.length]? = some event :=
      get_snoc.mpr (.inr ⟨rfl, rfl⟩)
    refine ⟨pairs ++ [(i, capture.events.length)],
      pairsOf_closes tracks.pairsOf closes (named ▸ opened), ?_, Json.distinct_pop tracks.distinct,
      fun entry => ?_, ?_⟩
    · rw [List.map_append, List.map_append, spans_snoc tracks event]
      simp [spanOf, here]
    · rw [pends_snoc named, ← tracks.pending]
      refine (Json.mem_pop_iff (exact_str name) tracks.distinct).trans ?_
      exact ⟨.inr, fun pends => pends.resolve_left fun now => closes now.2⟩
    · have reported := notifications_snoc event
        [(({ name := event.name, start, stop := event } : EventSpan φ), i, capture.events.length)]
        (completed_before tracks) fun span isNew => by rw [List.mem_singleton.mp isNew]
      rw [List.zip_append length]
      simp [reported, tracks.notified]

end Step

/-! ## The run -/

/-- Some pairs are tracked. -/
def Tracked (capture : EventCapture φ) : Prop := ∃ pairs, Tracks capture pairs

omit [PyFloat φ] in
theorem tracked_empty : Tracked ({} : EventCapture φ) := by
  refine ⟨[], pairsOf_nil, rfl, .nil, fun entry => iff_of_false List.not_mem_nil ?_, rfl⟩
  intro pends
  obtain ⟨name, i, _, opened, _⟩ := pends
  exact absurd (open_lt opened) (Nat.not_lt_zero i)

/-- Spans are not touched. -/
def SameSpans (before after : EventCapture φ) : Prop :=
  after.events = before.events ∧ after.spans = before.spans ∧ after.pending = before.pending ∧
    after.notified = before.notified

omit [PyFloat φ] in
theorem tracked_of_sameSpans {before after : EventCapture φ} (same : SameSpans before after)
    (tracked : Tracked before) : Tracked after := by
  obtain ⟨events, spans, pending, notified⟩ := same
  obtain ⟨pairs, tracks⟩ := tracked
  exact ⟨pairs, events ▸ tracks.pairsOf, by rw [spans, events]; exact tracks.spans,
    pending ▸ tracks.distinct, by rw [pending, events]; exact tracks.pending,
    by rw [notified, events, spans]; exact tracks.notified⟩

omit [PyFloat φ] in
theorem sameSpans_refl (capture : EventCapture φ) : SameSpans capture capture :=
  ⟨rfl, rfl, rfl, rfl⟩

omit [PyFloat φ] in
theorem sameSpans_trans (first second third : EventCapture φ) (here : SameSpans first second)
    (later : SameSpans second third) : SameSpans first third :=
  ⟨later.1.trans here.1, later.2.1.trans here.2.1, later.2.2.1.trans here.2.2.1,
    later.2.2.2.trans here.2.2.2⟩

theorem addWraps_sameSpans (rawTsUs : Json φ) :
    Methods.Preserves SameSpans (addWraps rawTsUs) := by
  refine .bind sameSpans_trans (.ofModify fun _ => ⟨rfl, rfl, rfl, rfl⟩) fun _ => ?_
  refine .bind sameSpans_trans (.ofExcept sameSpans_refl _) fun raw => ?_
  refine .bind sameSpans_trans (.ofGet sameSpans_refl) fun _ => ?_
  refine .bind sameSpans_trans (.ofExcept sameSpans_refl _) fun adjusted => ?_
  exact .bind sameSpans_trans (.ofModify fun _ => ⟨rfl, rfl, rfl, rfl⟩) fun _ =>
    .ofPure sameSpans_refl _

theorem adjust_sameSpans (rawTsUs : Json φ) : Methods.Preserves SameSpans (adjust rawTsUs) := by
  rw [adjust_eq]
  refine .bind sameSpans_trans (.ofGet sameSpans_refl) fun _ => ?_
  refine .bind sameSpans_trans (.ofExcept sameSpans_refl _) fun wrapped => ?_
  cases wrapped with
  | false => exact addWraps_sameSpans rawTsUs
  | true =>
    exact .bind sameSpans_trans (.ofModify fun _ => ⟨rfl, rfl, rfl, rfl⟩) fun _ =>
      addWraps_sameSpans rawTsUs

/-- An event is recorded, or there is none. -/
theorem record_tracked {name : Str} (action : TraceEvent.Action) (adjusted : Number φ)
    (hostTs : φ) :
    Methods.Ensures Tracked (record (.str name) action adjusted hostTs) (fun _ => Tracked)
      fun _ => Tracked := by
  intro capture tracked
  cases divided : adjusted.divInt 1000000 with
  | error raised =>
    rw [record, divided]
    exact tracked
  | ok deviceTs =>
    rw [run_record capture divided rfl]
    obtain ⟨pairs, tracks⟩ := tracked
    cases action with
    | started => exact ⟨pairs, tracks_started tracks rfl rfl⟩
    | stopped => exact tracks_stopped tracks rfl rfl

/-- An event in the line has a text for its name. -/
def Named (φ : Type) [PyFloat φ] (depth : Nat) (message : Line) : Prop :=
  ∀ trace : Trace φ, traceIn depth message = .ok (some trace) → ∃ name, trace.name = .str name

def isText : Json φ → Bool
  | .str _ => true
  | _ => false

omit [PyFloat φ] in
theorem isText_iff {name : Json φ} : isText name = true ↔ ∃ text, name = .str text := by
  cases name <;> simp [isText]

instance (depth : Nat) (message : Line) : Decidable (Named φ depth message) :=
  match found : (traceIn depth message : Except Raised (Option (Trace φ))) with
  | .error _ => isTrue fun _ same => nomatch found.symm.trans same
  | .ok none => isTrue fun _ same => nomatch found.symm.trans same
  | .ok (some trace) =>
    decidable_of_iff (isText trace.name = true) (by
      rw [isText_iff, Named, found]
      simp)

theorem feed_tracked {depth : Nat} {hostTs : φ} {message : Line} (named : Named φ depth message)
    (capture : EventCapture φ) (tracked : Tracked capture) :
    Tracked (Methods.run (feed depth hostTs message) capture).2 := by
  rw [feed_eq]
  cases found : (traceIn depth message : Except Raised (Option (Trace φ))) with
  | error raised => exact tracked
  | ok trace? =>
    cases trace? with
    | none => exact tracked
    | some trace =>
      obtain ⟨name, isText⟩ := named trace found
      have ensures : Methods.Ensures Tracked (feedTrace hostTs trace) (fun _ => Tracked)
          fun _ => Tracked := by
        refine .bind ((adjust_sameSpans trace.ts).ensures fun _ _ => tracked_of_sameSpans) ?_
        rw [isText]
        exact fun adjusted => record_tracked trace.action adjusted hostTs
      exact ensures.after capture tracked

/-! ## Main result -/

/-- Over any lines whose events are named by texts: the spans are the pairs of a start
and the next event of its name, when that is a stop, in the order of the stops; what is
pending are the starts that are the last of their name; every event is in one span at
most; and the callbacks are told of every event and then of its span. -/
theorem spans_exact (depth : Nat) (lines : List (φ × Line))
    (named : ∀ line ∈ lines, Named φ depth line.2) :
    ∃ pairs, Tracks (feedAll depth {} lines) pairs ∧
      ∀ pair ∈ pairs, ∀ other ∈ pairs, ∀ k, (k = pair.1 ∨ k = pair.2) →
        (k = other.1 ∨ k = other.2) → pair = other := by
  have tracked : ∀ (later : List (φ × Line)) (capture : EventCapture φ),
      (∀ line ∈ later, Named φ depth line.2) → Tracked capture →
        Tracked (feedAll depth capture later) := by
    intro later
    induction later with
    | nil => exact fun _ _ tracked => tracked
    | cons line later inductionHypothesis =>
      intro capture named tracked
      exact inductionHypothesis _ (fun other member => named other (List.mem_cons_of_mem _ member))
        (feed_tracked (named line List.mem_cons_self) capture tracked)
  obtain ⟨pairs, tracks⟩ := tracked lines {} named tracked_empty
  refine ⟨pairs, tracks, fun pair member other member' k inPair inOther => ?_⟩
  have same := paired_unique ((tracks.pairsOf.exact pair.1 pair.2).mp member)
    ((tracks.pairsOf.exact other.1 other.2).mp member') inPair inOther
  exact Prod.ext same.1 same.2

/-- A span of `a` around a start of `b` and a line that is no event. -/
def nestedLines : List (Micro × Line) :=
  [(⟨0⟩, .str (str "\x7b\"ph\":\"B\",\"ts\":1,\"name\":\"a\"\x7d")),
    (⟨1⟩, .str (str "\x7b\"ph\":\"B\",\"ts\":2,\"name\":\"b\"\x7d")),
    (⟨2⟩, .str (str "boot")),
    (⟨3⟩, .str (str "\x7b\"ph\":\"E\",\"ts\":5,\"name\":\"a\"\x7d"))]

theorem spans_exact_nested :
    (∃ pairs, Tracks (feedAll 9 {} nestedLines) pairs ∧
      ∀ pair ∈ pairs, ∀ other ∈ pairs, ∀ k, (k = pair.1 ∨ k = pair.2) →
        (k = other.1 ∨ k = other.2) → pair = other) ∧
      (feedAll 9 {} nestedLines).spans.length = 1 :=
  ⟨spans_exact 9 nestedLines (by decide +kernel), by decide +kernel⟩

end EmbeddedBridge.Python.EventCapture
