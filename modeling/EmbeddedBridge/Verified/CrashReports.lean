import EmbeddedBridge.Library.Histories
import EmbeddedBridge.Receivers.CrashDetector

/-! # What is reported for a crash

As long as nothing is reported, the detector's state can be read off the calls since the
reset: `unfinished`.  A call finalizes the event either because enough lines have been
fed from the first that has a crash pattern on (`IsOpen` ends), or because a check finds
the last line too long ago (`Expired`); the latter also while a crash is being buffered.
-/

namespace EmbeddedBridge.Python.CrashDetector

open Library Py Histories

variable {φ : Type}

/-! ## Reading the calls -/

def Call.line? : Call φ → Option Str
  | .feed message _ => some message.text
  | .checkTimeout _ => none

def Call.feedTime? : Call φ → Option φ
  | .feed _ now => some now
  | .checkTimeout _ => none

def fedLines (calls : List (Call φ)) : List Str := calls.filterMap Call.line?

def lastFeed (calls : List (Call φ)) : Option φ := (calls.filterMap Call.feedTime?).getLast?

section

variable {calls : List (Call φ)} {message : Line} {now : φ}

theorem fedLines_feed :
    fedLines (calls ++ [.feed message now]) = fedLines calls ++ [message.text] := by
  simp [fedLines, Call.line?]

theorem fedLines_check : fedLines (calls ++ [.checkTimeout now]) = fedLines calls := by
  simp [fedLines, Call.line?]

theorem lastFeed_feed : lastFeed (calls ++ [.feed message now]) = some now := by
  simp [lastFeed, Call.feedTime?]

theorem lastFeed_check : lastFeed (calls ++ [.checkTimeout now]) = lastFeed calls := by
  simp [lastFeed, Call.feedTime?]

end

variable [PyFloatOrder φ] (detector : CrashDetector φ)

/-- The lines from the first with a crash pattern on. -/
def shown (calls : List (Call φ)) : List Str :=
  (fedLines calls).dropWhile fun line => (detector.match? line).isNone

/-- The check finds the device silent for `silent_timeout` or longer. -/
def Expired (before : List (Call φ)) : Call φ → Prop
  | .feed _ _ => False
  | .checkTimeout now => ∃ silentTimeout last, detector.silentTimeout = some silentTimeout ∧
      lastFeed before = some last ∧ PyFloatOrder.le silentTimeout (PyFloat.sub now last) = true

/-- No check has. -/
def Alive (calls : List (Call φ)) : Prop :=
  Everywhere (fun before call => ¬ detector.Expired before call) calls

/-- No crash, or not yet enough lines of it. -/
def IsOpen (calls : List (Call φ)) : Prop :=
  detector.shown calls = [] ∨ ((detector.shown calls).length : Int) < detector.crashLineLimit

/-- The state after the calls, if nothing has been reported. -/
def unfinished (calls : List (Call φ)) : CrashDetector φ :=
  { detector.reset with
    lastFeedTime := lastFeed calls
    crashDetected := decide (detector.shown calls ≠ [])
    crashLines := detector.shown calls
    triggeredPattern := (detector.shown calls).head?.bind detector.match? }

section

variable {detector} {calls : List (Call φ)} {message : Line} {now : φ}

theorem shown_check : detector.shown (calls ++ [.checkTimeout now]) = detector.shown calls := by
  rw [shown, fedLines_check, shown]

theorem shown_eq_nil_iff :
    detector.shown calls = [] ↔ ∀ line ∈ fedLines calls, detector.match? line = none := by
  simp [shown, List.dropWhile_eq_nil_iff]

theorem shown_feed_more (begun : detector.shown calls ≠ []) :
    detector.shown (calls ++ [.feed message now]) = detector.shown calls ++ [message.text] := by
  have notAll : ¬ ((fedLines calls).dropWhile fun line =>
      (detector.match? line).isNone).isEmpty := by
    simpa [shown] using begun
  rw [shown, fedLines_feed, List.dropWhile_append, if_neg notAll, shown]

theorem shown_feed_first (notYet : detector.shown calls = []) :
    detector.shown (calls ++ [.feed message now]) =
      if detector.match? message.text = none then [] else [message.text] := by
  have all : ((fedLines calls).dropWhile fun line => (detector.match? line).isNone).isEmpty := by
    simpa [shown] using notYet
  rw [shown, fedLines_feed, List.dropWhile_append, if_pos all]
  simp [List.dropWhile_cons]

/-- The first line shown has a pattern. -/
theorem match_of_shown {first : Str} {rest : List Str}
    (isShown : detector.shown calls = first :: rest) :
    ∃ cp, detector.match? first = some cp := by
  have head := List.head?_dropWhile_not (fun line => (detector.match? line).isNone)
    (fedLines calls)
  rw [← shown, isShown] at head
  exact Option.isSome_iff_exists.mp (by simpa using head)

end

/-! ## One call -/

variable (calls : List (Call φ)) (message : Line) (now : φ)

/-- Before a crash is seen. -/
theorem feed_watching (notYet : detector.shown calls = []) :
    let after := calls ++ [.feed message now]
    (detector.IsOpen after → (detector.unfinished calls).feed message now =
      detector.unfinished after) ∧
    (¬ detector.IsOpen after → (detector.unfinished calls).feed message now =
      (detector.unfinished after).finalizeCrash now) := by
  cases found : detector.match? message.text with
  | none =>
    -- only the time is new
    have still : detector.shown (calls ++ [.feed message now]) = [] := by
      rw [shown_feed_first notYet, if_pos found]
    have found' : (detector.patterns.find? fun cp => cp.isIn message.text) = none := found
    refine ⟨fun _ => ?_, fun closed => absurd (.inl still) closed⟩
    simp [feed, match?, unfinished, reset, notYet, still, lastFeed_feed, found']
  | some cp =>
    -- the first line of a crash, which a limit of one line or less does not wait after
    have first : detector.shown (calls ++ [.feed message now]) = [message.text] := by
      rw [shown_feed_first notYet, if_neg (by simp [found])]
    have found' : (detector.patterns.find? fun cp => cp.isIn message.text) = some cp := found
    constructor
    · intro isOpen
      have notFull : ¬ detector.crashLineLimit ≤ 1 := by simpa [IsOpen, first] using isOpen
      simp [feed, match?, unfinished, reset, notYet, first, lastFeed_feed, found', notFull]
    · intro isFull
      have full : detector.crashLineLimit ≤ 1 := by simpa [IsOpen, first] using isFull
      simp [feed, match?, unfinished, reset, notYet, first, lastFeed_feed, found', full]

/-- While one is being buffered. -/
theorem feed_buffering (begun : detector.shown calls ≠ []) :
    let after := calls ++ [.feed message now]
    (detector.IsOpen after → (detector.unfinished calls).feed message now =
      detector.unfinished after) ∧
    (¬ detector.IsOpen after → (detector.unfinished calls).feed message now =
      (detector.unfinished after).finalizeCrash now) := by
  have more : detector.shown (calls ++ [.feed message now]) =
      detector.shown calls ++ [message.text] := shown_feed_more begun
  have head : (detector.shown calls ++ [message.text]).head? = (detector.shown calls).head? :=
    List.head?_append_of_ne_nil _ begun
  constructor
  · intro isOpen
    have notFull : ¬ detector.crashLineLimit ≤ (detector.shown calls).length + 1 := by
      simpa [IsOpen, more] using isOpen
    simp [feed, unfinished, reset, begun, more, head, lastFeed_feed, notFull]
  · intro isFull
    have full : detector.crashLineLimit ≤ (detector.shown calls).length + 1 := by
      simpa [IsOpen, more] using isFull
    simp [feed, unfinished, reset, begun, more, head, lastFeed_feed, full]

theorem feed_open (isOpen : detector.IsOpen (calls ++ [.feed message now])) :
    (detector.unfinished calls).feed message now =
      detector.unfinished (calls ++ [.feed message now]) := by
  by_cases begun : detector.shown calls = []
  · exact (feed_watching detector calls message now begun).1 isOpen
  · exact (feed_buffering detector calls message now begun).1 isOpen

theorem feed_full (isFull : ¬ detector.IsOpen (calls ++ [.feed message now])) :
    (detector.unfinished calls).feed message now =
      (detector.unfinished (calls ++ [.feed message now])).finalizeCrash now := by
  by_cases begun : detector.shown calls = []
  · exact (feed_watching detector calls message now begun).2 isFull
  · exact (feed_buffering detector calls message now begun).2 isFull

theorem unfinished_check : detector.unfinished (calls ++ [.checkTimeout now]) =
    detector.unfinished calls := by
  simp only [unfinished, lastFeed_check, shown_check]

theorem check_expired (expired : detector.Expired calls (.checkTimeout now)) :
    ∃ event, event.pattern = none ∧
      (detector.unfinished calls).checkTimeout now = (detector.unfinished calls).report event := by
  obtain ⟨silentTimeout, last, limited, fed, reached⟩ := expired
  let hang : CrashEvent φ :=
    { reason := str "Silent hang: no output for " ++
        PyFloat.format 1 (PyFloat.sub now last) ++ str "s"
      pattern := none
      lines := []
      timestamp := now }
  refine ⟨hang, rfl, ?_⟩
  simp [checkTimeout, unfinished, reset, limited, fed, reached, hang]

theorem check_alive (alive : ¬ detector.Expired calls (.checkTimeout now)) :
    (detector.unfinished calls).checkTimeout now = detector.unfinished calls := by
  simp only [checkTimeout, unfinished, reset, Option.isSome_none, Bool.false_eq_true, if_false]
  split
  · rename_i silentTimeout last limited fed
    rw [if_neg fun reached => alive ⟨silentTimeout, last, limited, fed, reached⟩]
  · rfl

/-! ## Runs -/

section

variable {detector} {calls : List (Call φ)} {call : Call φ}

theorem run_snoc : run detector (calls ++ [call]) = (run detector calls).apply call :=
  List.foldl_concat ..

theorem isOpen_of_snoc (isOpen : detector.IsOpen (calls ++ [call])) : detector.IsOpen calls := by
  cases call with
  | checkTimeout now => rwa [IsOpen, shown_check] at isOpen
  | feed message now =>
    by_cases begun : detector.shown calls = []
    · exact .inl begun
    · rw [IsOpen, shown_feed_more begun] at isOpen
      cases isOpen with
      | inl empty => exact absurd (List.append_eq_nil_iff.mp empty).1 begun
      | inr short =>
        rw [List.length_append, List.length_singleton] at short
        exact .inr (by omega)

theorem apply_open (alive : ¬ detector.Expired calls call)
    (isOpen : detector.IsOpen (calls ++ [call])) :
    (detector.unfinished calls).apply call = detector.unfinished (calls ++ [call]) := by
  cases call with
  | feed message now => exact feed_open detector calls message now isOpen
  | checkTimeout now =>
    rw [unfinished_check]
    exact check_alive detector calls now alive

/-- Nothing is reported while no check finds the device silent and the buffer is open. -/
theorem run_open (alive : detector.Alive calls) (isOpen : detector.IsOpen calls) :
    run detector.reset calls = detector.unfinished calls := by
  induction calls using List.reverseRecOn with
  | nil => rfl
  | append_singleton before call inductionHypothesis =>
    obtain ⟨aliveBefore, aliveNow⟩ := everywhere_snoc.mp alive
    rw [run_snoc, inductionHypothesis aliveBefore (isOpen_of_snoc isOpen),
      apply_open aliveNow isOpen]

/-- An event stays until the reset. -/
theorem apply_reported (reported : detector.crashEvent.isSome) :
    detector.apply call = detector := by
  cases call with
  | feed message now => rw [apply, feed, if_pos reported]
  | checkTimeout now => rw [apply, checkTimeout, if_pos reported]

/-- And only then. -/
theorem open_of_run (pending : (run detector.reset calls).crashEvent = none) :
    detector.Alive calls ∧ detector.IsOpen calls := by
  induction calls using List.reverseRecOn with
  | nil => exact ⟨everywhere_nil, .inl rfl⟩
  | append_singleton before call inductionHypothesis =>
    rw [run_snoc] at pending
    -- an event would have stayed
    have pendingBefore : (run detector.reset before).crashEvent = none := by
      rw [← Option.not_isSome_iff_eq_none]
      intro reported
      rw [apply_reported reported] at pending
      simp [pending] at reported
    obtain ⟨alive, isOpen⟩ := inductionHypothesis pendingBefore
    rw [run_open alive isOpen] at pending
    cases call with
    | feed message now =>
      have isOpen' : detector.IsOpen (before ++ [.feed message now]) := by
        by_contra full
        rw [apply, feed_full detector before message now full] at pending
        cases pending
      exact ⟨everywhere_snoc.mpr ⟨alive, not_false⟩, isOpen'⟩
    | checkTimeout now =>
      have alive' : ¬ detector.Expired before (.checkTimeout now) := by
        intro expired
        obtain ⟨event, isHang, reports⟩ := check_expired detector before now expired
        rw [apply, reports] at pending
        cases pending
      refine ⟨everywhere_snoc.mpr ⟨alive, alive'⟩, ?_⟩
      rwa [IsOpen, shown_check]

variable (detector call) in
/-- A call changes what is reported by one event at most, and that if there was none. -/
theorem apply_cases : ∃ between : CrashDetector φ, between.crashEvent = detector.crashEvent ∧
    between.reports = detector.reports ∧ between.onCrash = detector.onCrash ∧
    (detector.apply call = between ∨
      detector.crashEvent = none ∧ ∃ event, detector.apply call = between.report event) := by
  cases pending : detector.crashEvent with
  | some event =>
    exact ⟨detector, pending, rfl, rfl, .inl (apply_reported (by rw [pending]; rfl))⟩
  | none =>
    cases call with
    | feed message now =>
      simp only [apply, feed, pending, Option.isSome_none, Bool.false_eq_true, if_false]
      split
      · split
        · exact ⟨_, by rfl, by rfl, by rfl, .inr ⟨trivial, _, rfl⟩⟩
        · exact ⟨_, by rfl, by rfl, by rfl, .inl rfl⟩
      · split
        · exact ⟨_, by rfl, by rfl, by rfl, .inl rfl⟩
        · split
          · exact ⟨_, by rfl, by rfl, by rfl, .inr ⟨trivial, _, rfl⟩⟩
          · exact ⟨_, by rfl, by rfl, by rfl, .inl rfl⟩
    | checkTimeout now =>
      simp only [apply, checkTimeout, pending, Option.isSome_none, Bool.false_eq_true, if_false]
      split
      · split
        · exact ⟨detector, pending, rfl, rfl, .inr ⟨trivial, _, rfl⟩⟩
        · exact ⟨detector, pending, rfl, rfl, .inl rfl⟩
      · exact ⟨detector, pending, rfl, rfl, .inl rfl⟩

variable (detector) in
/-- What `on_crash` is called with since the reset is what `crash` is. -/
theorem run_reports (calls : List (Call φ)) :
    (run detector.reset calls).onCrash = detector.onCrash ∧
      (run detector.reset calls).reports = detector.reports ++
        if detector.onCrash then (run detector.reset calls).crash.toList else [] := by
  induction calls using List.reverseRecOn with
  | nil => exact ⟨rfl, by simp [run, reset, crash]⟩
  | append_singleton before call inductionHypothesis =>
    obtain ⟨callback, reports⟩ := inductionHypothesis
    obtain ⟨between, event, same, callback', applied⟩ :=
      apply_cases (run detector.reset before) call
    rw [run_snoc]
    cases applied with
    | inl unreported =>
      rw [unreported, callback', callback, same, reports, crash, crash, event]
      exact ⟨rfl, rfl⟩
    | inr reported =>
      obtain ⟨pending, event', reported⟩ := reported
      rw [crash, pending] at reports
      rw [reported, report, crash, callback', callback, same, reports]
      cases detector.onCrash <;> simp

end

/-! ## Reports -/

/-- The call finalizes the event. -/
def Reports (before : List (Call φ)) (call : Call φ) (event : CrashEvent φ) : Prop :=
  (run detector.reset before).crash = none ∧
    (run detector.reset (before ++ [call])).crash = some event

/-- An event for the crash that the lines begin with, the first of which has its pattern. -/
def Carries (event : CrashEvent φ) (lines : List Str) : Prop :=
  ∃ cp first, lines.head? = some first ∧ detector.match? first = some cp ∧
    event.pattern = some cp.pattern ∧ event.reason = str "Crash: " ++ cp.name ∧
    event.lines = lines

/-- What is reported once a crash pattern has been fed is the crash. -/
def Faithful (before : List (Call φ)) (call : Call φ) : Prop :=
  ∀ event, detector.Reports before call event →
    (∃ line ∈ fedLines (before ++ [call]), ∃ cp ∈ detector.patterns, cp.isIn line) →
    detector.Carries event (detector.shown (before ++ [call]))

/-- The first check that finds the device silent, while a crash is being buffered. -/
def Interrupts (before : List (Call φ)) (call : Call φ) : Prop :=
  detector.Expired before call ∧ detector.Alive before ∧ detector.shown before ≠ [] ∧
    ((detector.shown before).length : Int) < detector.crashLineLimit

section

variable {detector} {before : List (Call φ)} {call : Call φ} {event : CrashEvent φ}

theorem shown_ne_nil_iff : detector.shown before ≠ [] ↔
    ∃ line ∈ fedLines before, ∃ cp ∈ detector.patterns, cp.isIn line := by
  simp [shown_eq_nil_iff, match?]

/-- A crash that is finalized has the lines that are shown. -/
theorem carries_finalized {calls : List (Call φ)} (begun : detector.shown calls ≠ []) {now : φ}
    (finalized : ((detector.unfinished calls).finalizeCrash now).crash = some event) :
    detector.Carries event (detector.shown calls) := by
  obtain ⟨first, rest, isShown⟩ := List.exists_cons_of_ne_nil begun
  obtain ⟨cp, found⟩ := match_of_shown isShown
  have head : (detector.shown calls).head? = some first := by rw [isShown, List.head?_cons]
  have triggered : (detector.unfinished calls).triggeredPattern = some cp := by
    rw [unfinished, head, Option.bind_some, found]
  cases finalized
  refine ⟨cp, first, head, found, ?_, ?_, rfl⟩
  · simp only [triggered, Option.map_some]
  · simp only [triggered]

theorem faithful_of_uninterrupted (uninterrupted : ¬ detector.Interrupts before call) :
    detector.Faithful before call := by
  intro event reported fed
  obtain ⟨pending, reports⟩ := reported
  have begun := shown_ne_nil_iff.mpr fed
  obtain ⟨alive, isOpen⟩ := open_of_run pending
  rw [run_snoc, run_open alive isOpen] at reports
  cases call with
  | feed message now =>
    have full : ¬ detector.IsOpen (before ++ [.feed message now]) := by
      intro isOpen'
      rw [apply, feed_open detector before message now isOpen'] at reports
      cases reports
    rw [apply, feed_full detector before message now full] at reports
    exact carries_finalized begun reports
  | checkTimeout now =>
    rw [shown_check] at begun
    -- a hang now would take the place of the crash
    have silent : ¬ detector.Expired before (.checkTimeout now) := by
      intro expired
      cases isOpen with
      | inl notYet => exact begun notYet
      | inr short => exact uninterrupted ⟨expired, alive, begun, short⟩
    rw [apply, check_alive detector before now silent] at reports
    cases reports

/-- An interrupted crash is reported as a hang. -/
theorem hang_of_interrupts (interrupts : detector.Interrupts before call) :
    ∃ event, detector.Reports before call event ∧ event.pattern = none := by
  obtain ⟨expired, alive, begun, short⟩ := interrupts
  have ran := run_open alive (.inr short)
  cases call with
  | feed message now => exact absurd expired not_false
  | checkTimeout now =>
    obtain ⟨event, isHang, reports⟩ := check_expired detector before now expired
    refine ⟨event, ⟨?_, ?_⟩, isHang⟩
    · rw [ran]
      rfl
    · rw [run_snoc, ran, apply, reports]
      rfl

theorem not_faithful_of_interrupts (interrupts : detector.Interrupts before call) :
    ¬ detector.Faithful before call := by
  intro faithful
  obtain ⟨event, reported, isHang⟩ := hang_of_interrupts interrupts
  have begun : detector.shown (before ++ [call]) ≠ [] := by
    cases call with
    | feed message now => exact absurd interrupts.1 not_false
    | checkTimeout now =>
      rw [shown_check]
      exact interrupts.2.2.1
  obtain ⟨cp, first, head, found, carried, rest⟩ :=
    faithful event reported (shown_ne_nil_iff.mp begun)
  cases isHang.symm.trans carried

end

theorem crash_reports_iff (calls : List (Call φ)) :
    Everywhere detector.Faithful calls ↔
      Everywhere (fun before call => ¬ detector.Interrupts before call) calls :=
  everywhere_congr (fun _ _ => ⟨fun faithful interrupts =>
    not_faithful_of_interrupts interrupts faithful, faithful_of_uninterrupted⟩) calls

/-- A backtrace of one line, and then silence. -/
theorem crash_interrupted :
    ¬ Everywhere (Faithful ({} : CrashDetector Micro))
      [.feed (.str (str "Backtrace: 0x400d1234:0x3ffb5e70")) ⟨0⟩, .checkTimeout ⟨45000000⟩] := by
  intro everywhere
  have faithful := everywhere [.feed (.str (str "Backtrace: 0x400d1234:0x3ffb5e70")) ⟨0⟩]
    (.checkTimeout ⟨45000000⟩) [] rfl
  obtain ⟨cp, first, head, found, carried, rest⟩ := faithful
    { reason := str "Silent hang: no output for 45s", pattern := none, lines := []
      timestamp := ⟨45000000⟩ } ⟨rfl, by decide +kernel⟩ (by decide +kernel)
  cases carried

end EmbeddedBridge.Python.CrashDetector
