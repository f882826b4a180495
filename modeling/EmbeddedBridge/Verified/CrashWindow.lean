import EmbeddedBridge.Library.Windows
import EmbeddedBridge.Verified.CrashReports

/-! # The lines of a crash

Unless a check finds the device silent first, the event of a `CrashDetector` is the window
behind the first line that has a crash pattern.  The buffer is open as long as the window
is not shut (`isOpen_iff`), and from then on no call changes the detector.
-/

namespace EmbeddedBridge.Python.CrashDetector

open Library Py Histories Windows

variable {φ : Type} [PyFloatOrder φ] (detector : CrashDetector φ)

def isHit (line : Str) : Bool := detector.patterns.any fun cp => cp.isIn line

/-- `max(1, crash_line_limit)` -/
def windowSize : Nat := (max 1 detector.crashLineLimit).toNat

def IsShut (calls : List (Call φ)) (start : Nat) : Prop :=
  Shut detector.isHit detector.windowSize (fedLines calls) start

/-- The event for the window that begins at the index. -/
structure Shows (lines : List Str) (start : Nat) (event : CrashEvent φ) : Prop where
  pattern : ∃ line cp, lines[start]? = some line ∧
    detector.patterns.find? (fun cp => cp.isIn line) = some cp ∧
    event.pattern = some cp.pattern ∧ event.reason = str "Crash: " ++ cp.name
  lines : event.lines = window detector.windowSize lines start
  length : event.lines.length = detector.windowSize

/-- What a detector has done with the calls since a reset. -/
structure Captures (calls : List (Call φ)) : Prop where
  early : ¬ (∃ start, detector.IsShut calls start) →
    (run detector.reset calls).crash = none ∧
      (run detector.reset calls).reports = detector.reports
  captured : ∀ start, detector.IsShut calls start → ∃ event,
    (run detector.reset calls).crash = some event ∧
      detector.Shows (fedLines calls) start event ∧
      (run detector.reset calls).reports =
        detector.reports ++ if detector.onCrash then [event] else []
  finalized : Everywhere (fun before call => (∃ event, detector.Reports before call event) ↔
    ∃ message now start, call = .feed message now ∧
      (fedLines calls).findIdx? detector.isHit = some start ∧
      (fedLines before).length + 1 = start + detector.windowSize) calls
  afterwards : ∀ start, detector.IsShut calls start → ∀ later,
    run detector.reset (calls ++ later) = run detector.reset calls
  afresh : (run detector.reset calls).reset =
    { detector.reset with reports := (run detector.reset calls).reports }

section

variable {detector} {calls : List (Call φ)} {start : Nat}

theorem windowSize_pos : 0 < detector.windowSize := by
  rw [windowSize]
  omega

omit [PyFloatOrder φ] in
theorem fedLines_append (later : List (Call φ)) :
    fedLines (calls ++ later) = fedLines calls ++ fedLines later :=
  List.filterMap_append ..

/-! ## The buffer as a window -/

theorem isHit_eq (line : Str) : detector.isHit line = !(detector.match? line).isNone := by
  rw [Option.not_isNone, Bool.eq_iff_iff, match?, List.find?_isSome, isHit, List.any_eq_true]

theorem shown_eq : detector.shown calls =
    (fedLines calls).drop ((fedLines calls).findIdx detector.isHit) := by
  rw [shown, List.dropWhile_eq_drop_findIdx_not]
  congr 2
  funext line
  exact (isHit_eq line).symm

theorem shown_of_first (first : (fedLines calls).findIdx? detector.isHit = some start) :
    detector.shown calls = (fedLines calls).drop start ∧ start < (fedLines calls).length := by
  obtain ⟨index, inside⟩ := List.findIdx?_eq_some_iff_findIdx_eq.mp first
  rw [shown_eq, inside]
  exact ⟨rfl, index⟩

theorem isOpen_iff : detector.IsOpen calls ↔ ¬ ∃ start, detector.IsShut calls start := by
  cases first : (fedLines calls).findIdx? detector.isHit with
  | none =>
    -- nothing is shown
    have index := List.findIdx?_eq_none_iff_findIdx_eq.mp first
    refine iff_of_true (.inl (by rw [shown_eq, index, List.drop_length])) ?_
    intro shut
    obtain ⟨start, shut⟩ := shut
    cases first.symm.trans shut.first
  | some start =>
    obtain ⟨isShown, inside⟩ := shown_of_first first
    have length : (detector.shown calls).length = (fedLines calls).length - start := by
      rw [isShown, List.length_drop]
    have begun : detector.shown calls ≠ [] := by
      rw [← List.length_pos_iff]
      omega
    have shut_iff : (∃ start, detector.IsShut calls start) ↔
        start + detector.windowSize ≤ (fedLines calls).length := by
      constructor
      · intro shut
        obtain ⟨start', shut⟩ := shut
        cases first.symm.trans shut.first
        exact shut.filled
      · intro filled
        exact ⟨start, first, filled⟩
    rw [IsOpen, or_iff_right begun, shut_iff, length, windowSize]
    omega

theorem isShut_append (shut : detector.IsShut calls start) (later : List (Call φ)) :
    detector.IsShut (calls ++ later) start := by
  rw [IsShut, fedLines_append]
  exact shut.append

/-! ## Finalizing -/

/-- The event for a window that the last line has shut. -/
theorem shows_finalized (shut : detector.IsShut calls start)
    (exact' : (fedLines calls).length = start + detector.windowSize) {now : φ}
    {event : CrashEvent φ}
    (finalized : ((detector.unfinished calls).finalizeCrash now).crash = some event) :
    detector.Shows (fedLines calls) start event := by
  obtain ⟨isShown, inside⟩ := shown_of_first shut.first
  have begun : detector.shown calls ≠ [] := by
    rw [isShown, ← List.length_pos_iff, List.length_drop]
    omega
  obtain ⟨cp, line, head, found, pattern, reason, lines⟩ := carries_finalized begun finalized
  have all : window detector.windowSize (fedLines calls) start = detector.shown calls := by
    rw [window, isShown, List.take_of_length_le]
    rw [List.length_drop]
    omega
  rw [isShown, List.head?_drop] at head
  exact ⟨⟨line, cp, head, found, pattern, reason⟩, lines.trans all.symm,
    by rw [lines, ← all, shut.length_window]⟩

theorem shows_append {event : CrashEvent φ} (shut : detector.IsShut calls start)
    (shows' : detector.Shows (fedLines calls) start event) (later : List (Call φ)) :
    detector.Shows (fedLines (calls ++ later)) start event := by
  obtain ⟨line, cp, isLine, rest⟩ := shows'.pattern
  have inside : start < (fedLines calls).length := (shown_of_first shut.first).2
  rw [fedLines_append]
  refine ⟨⟨line, cp, ?_, rest⟩, ?_, shows'.length⟩
  · rw [List.getElem?_append_left inside, isLine]
  · rw [shut.window_append]
    exact shows'.lines

/-! ## Runs -/

theorem run_reported (reported : detector.crashEvent.isSome) (later : List (Call φ)) :
    run detector later = detector := by
  induction later with
  | nil => rfl
  | cons call later inductionHypothesis =>
    rw [run, List.foldl_cons, apply_reported reported]
    exact inductionHypothesis

/-- No call changes what the detector was constructed with. -/
theorem reset_apply (call : Call φ) : (detector.apply call).reset =
    { detector.reset with reports := (detector.apply call).reports } := by
  cases call with
  | feed message now =>
    simp only [apply, feed]
    split
    · rfl
    · split
      · split <;> rfl
      · split
        · rfl
        · split <;> rfl
  | checkTimeout now =>
    simp only [apply, checkTimeout]
    split
    · rfl
    · split
      · split <;> rfl
      · rfl

theorem reset_run (calls : List (Call φ)) : (run detector calls).reset =
    { detector.reset with reports := (run detector calls).reports } := by
  induction calls using List.reverseRecOn with
  | nil => rfl
  | append_singleton before call inductionHypothesis =>
    rw [run_snoc, reset_apply, inductionHypothesis]

/-- Without a timeout no check expires. -/
theorem alive_of_none (unlimited : detector.silentTimeout = none) : detector.Alive calls := by
  intro before call after split expired
  cases call with
  | feed message now => exact expired
  | checkTimeout now =>
    obtain ⟨silentTimeout, last, limited, rest⟩ := expired
    cases unlimited.symm.trans limited

theorem pending_of_open (alive : detector.Alive calls)
    (notShut : ¬ ∃ start, detector.IsShut calls start) :
    (run detector.reset calls).crash = none := by
  rw [run_open alive (isOpen_iff.mpr notShut)]
  rfl

theorem captured_of_shut (alive : detector.Alive calls) (shut : detector.IsShut calls start) :
    ∃ event, (run detector.reset calls).crash = some event ∧
      detector.Shows (fedLines calls) start event := by
  induction calls using List.reverseRecOn with
  | nil => cases shut.first
  | append_singleton before call inductionHypothesis =>
    obtain ⟨aliveBefore, aliveNow⟩ := everywhere_snoc.mp alive
    rw [run_snoc]
    by_cases shutBefore : ∃ start, detector.IsShut before start
    · obtain ⟨start', shut'⟩ := shutBefore
      cases (isShut_append shut' [call]).first.symm.trans shut.first
      obtain ⟨event, crashed, shows'⟩ := inductionHypothesis aliveBefore shut'
      refine ⟨event, ?_, shows_append shut' shows' [call]⟩
      rw [apply_reported (by rw [← crash, crashed]; rfl), crashed]
    · rw [run_open aliveBefore (isOpen_iff.mpr shutBefore)]
      cases call with
      | checkTimeout now =>
        rw [IsShut, fedLines_check] at shut
        exact absurd ⟨start, shut⟩ shutBefore
      | feed message now =>
        -- the line that shuts the window
        have full : ¬ detector.IsOpen (before ++ [.feed message now]) := by
          rw [isOpen_iff, not_not]
          exact ⟨start, shut⟩
        have shut' := shut
        rw [IsShut, fedLines_feed] at shut'
        obtain ⟨start', first, length⟩ :=
          (shuts_iff windowSize_pos []).mp ⟨shutBefore, start, shut'⟩
        cases first.symm.trans shut'.first
        rw [apply, feed_full detector before message now full]
        refine ⟨_, rfl, shows_finalized shut ?_ rfl⟩
        rw [fedLines_feed, List.length_append, List.length_singleton, length]

theorem crash_isSome_iff (alive : detector.Alive calls) :
    (∃ event, (run detector.reset calls).crash = some event) ↔
      ∃ start, detector.IsShut calls start := by
  constructor
  · intro crashed
    obtain ⟨event, crashed⟩ := crashed
    by_contra notShut
    cases crashed.symm.trans (pending_of_open alive notShut)
  · intro shut
    obtain ⟨start, shut⟩ := shut
    obtain ⟨event, crashed, _⟩ := captured_of_shut alive shut
    exact ⟨event, crashed⟩

theorem reports_iff {before : List (Call φ)} {call : Call φ}
    (alive : detector.Alive (before ++ [call])) :
    (∃ event, detector.Reports before call event) ↔
      ¬ (∃ start, detector.IsShut before start) ∧
        ∃ start, detector.IsShut (before ++ [call]) start := by
  rw [← crash_isSome_iff alive, ← crash_isSome_iff (everywhere_of_append alive)]
  simp [Reports, Option.eq_none_iff_forall_ne_some]

theorem finalized_at (alive : detector.Alive calls) :
    Everywhere (fun before call => (∃ event, detector.Reports before call event) ↔
      ∃ message now start, call = .feed message now ∧
        (fedLines calls).findIdx? detector.isHit = some start ∧
        (fedLines before).length + 1 = start + detector.windowSize) calls := by
  intro before call after split
  have split' : calls = (before ++ [call]) ++ after := by simp [split]
  rw [split'] at alive
  rw [reports_iff (everywhere_of_append alive)]
  cases call with
  | checkTimeout now =>
    simp only [IsShut, fedLines_check]
    refine iff_of_false (fun shuts => shuts.1 shuts.2) ?_
    intro isFeed
    obtain ⟨message, now', start, same, rest⟩ := isFeed
    cases same
  | feed message now =>
    have all : fedLines calls = fedLines before ++ message.text :: fedLines after := by
      rw [split', fedLines_append, fedLines_feed, List.append_assoc, List.singleton_append]
    simp only [IsShut, fedLines_feed]
    rw [shuts_iff windowSize_pos (fedLines after), ← all]
    constructor
    · intro last
      obtain ⟨start, first, length⟩ := last
      exact ⟨message, now, start, rfl, first, length⟩
    · intro last
      obtain ⟨message', now', start, same, first, length⟩ := last
      exact ⟨start, first, length⟩

end

theorem window_captured (calls : List (Call φ)) (alive : detector.Alive calls) :
    detector.Captures calls where
  early notShut := by
    have pending := pending_of_open alive notShut
    refine ⟨pending, ?_⟩
    rw [(run_reports detector calls).2, pending]
    simp
  captured start shut := by
    obtain ⟨event, crashed, shows'⟩ := captured_of_shut alive shut
    refine ⟨event, crashed, shows', ?_⟩
    rw [(run_reports detector calls).2, crashed]
    rfl
  finalized := finalized_at alive
  afterwards start shut later := by
    obtain ⟨event, crashed, shows'⟩ := captured_of_shut alive shut
    have reported : (run detector.reset calls).crashEvent.isSome := by
      rw [← crash, crashed]
      rfl
    exact (List.foldl_append ..).trans (run_reported reported later)
  afresh := by
    rw [reset_run]
    rfl

/-- Two lines are shown, of which the second has another pattern, and a third is not. -/
theorem window_captured_twice :
    Captures ({ silentTimeout := none, crashLineLimit := 2, onCrash := true } : CrashDetector Micro)
      [.feed (.str (str "boot")) ⟨0⟩, .feed (.str (str "Backtrace: 0x400d1234")) ⟨1⟩,
        .checkTimeout ⟨2⟩, .feed (.str (str "abort() was called")) ⟨3⟩,
        .feed (.str (str "WDT reset")) ⟨4⟩] :=
  window_captured _ _ (alive_of_none rfl)

end EmbeddedBridge.Python.CrashDetector
