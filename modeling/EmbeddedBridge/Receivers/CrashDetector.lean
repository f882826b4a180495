import EmbeddedBridge.Receivers.EventCapture

/-! # Crash detection

`CrashDetector` of `receivers/crash_detector.py`: looks for crash patterns in the lines
of a device, buffers the lines that follow one, and on demand checks for how long the
device has been silent.  The clock is only read where the source reads it; what it reads
there is an argument.  `reports` is what `on_crash` has been called with.
-/

namespace EmbeddedBridge.Python

open Library Py

structure CrashPattern where
  name : Str
  pattern : Str
deriving DecidableEq, Repr

/-- `cp.pattern in line` -/
def CrashPattern.isIn (cp : CrashPattern) (line : Str) : Bool :=
  line.tails.any fun rest => cp.pattern.isPrefixOf rest

structure CrashEvent (φ : Type) where
  reason : Str
  pattern : Option Str
  lines : List Str
  timestamp : φ
deriving DecidableEq, Repr

def esp32Patterns : List CrashPattern :=
  [⟨str "backtrace", str "Backtrace:"⟩, ⟨str "backtrace", str "backtrace:"⟩,
    ⟨str "backtrace", str "BACKTRACE:"⟩, ⟨str "guru_meditation", str "Guru Meditation Error"⟩,
    ⟨str "panic_abort", str "panic_abort"⟩, ⟨str "abort", str "abort()"⟩,
    ⟨str "watchdog", str "Task watchdog got triggered"⟩, ⟨str "watchdog", str "WDT reset"⟩]

structure CrashDetector (φ : Type) [PyFloat φ] where
  patterns : List CrashPattern := esp32Patterns
  silentTimeout : Option φ := some (PyFloat.literal 450 1)
  crashLineLimit : Int := 20
  onCrash : Bool := false
  lastFeedTime : Option φ := none
  crashDetected : Bool := false
  crashLines : List Str := []
  crashEvent : Option (CrashEvent φ) := none
  triggeredPattern : Option CrashPattern := none
  reports : List (CrashEvent φ) := []
deriving DecidableEq

namespace CrashDetector

variable {φ : Type} [PyFloatOrder φ]

/-- What both ways of finalizing do with their event. -/
def report (detector : CrashDetector φ) (event : CrashEvent φ) : CrashDetector φ :=
  { detector with
    crashEvent := some event
    reports := if detector.onCrash then detector.reports ++ [event] else detector.reports }

def finalizeCrash (detector : CrashDetector φ) (now : φ) : CrashDetector φ :=
  detector.report
    { reason := match detector.triggeredPattern with
        | some cp => str "Crash: " ++ cp.name
        | none => str "Crash"
      pattern := detector.triggeredPattern.map (·.pattern)
      lines := detector.crashLines
      timestamp := now }

/-- The first of the patterns that is in the line. -/
def match? (detector : CrashDetector φ) (line : Str) : Option CrashPattern :=
  detector.patterns.find? fun cp => cp.isIn line

def feed (detector : CrashDetector φ) (message : Line) (now : φ) : CrashDetector φ :=
  if detector.crashEvent.isSome then detector
  else
    let detector := { detector with lastFeedTime := some now }
    let line := message.text
    if detector.crashDetected then
      let detector := { detector with crashLines := detector.crashLines ++ [line] }
      if detector.crashLineLimit ≤ detector.crashLines.length then detector.finalizeCrash now
      else detector
    else
      match detector.match? line with
      | none => detector
      | some cp =>
        let detector :=
          { detector with
            crashDetected := true
            triggeredPattern := some cp
            crashLines := detector.crashLines ++ [line] }
        if detector.crashLineLimit ≤ 1 then detector.finalizeCrash now else detector

def checkTimeout (detector : CrashDetector φ) (now : φ) : CrashDetector φ :=
  if detector.crashEvent.isSome then detector
  else
    match detector.silentTimeout, detector.lastFeedTime with
    | some silentTimeout, some lastFeedTime =>
      let elapsed := PyFloat.sub now lastFeedTime
      if PyFloatOrder.le silentTimeout elapsed then
        detector.report
          { reason := str "Silent hang: no output for " ++ PyFloat.format 1 elapsed ++ str "s"
            pattern := none
            lines := []
            timestamp := now }
      else detector
    | _, _ => detector

def crash (detector : CrashDetector φ) : Option (CrashEvent φ) := detector.crashEvent

def reset (detector : CrashDetector φ) : CrashDetector φ :=
  { detector with
    lastFeedTime := none
    crashDetected := false
    crashLines := []
    crashEvent := none
    triggeredPattern := none }

/-- The calls between two resets, each with what the clock reads. -/
inductive Call (φ : Type) where
  | feed (message : Line) (now : φ)
  | checkTimeout (now : φ)
deriving DecidableEq, Repr

def apply (detector : CrashDetector φ) : Call φ → CrashDetector φ
  | .feed message now => detector.feed message now
  | .checkTimeout now => detector.checkTimeout now

def run (detector : CrashDetector φ) (calls : List (Call φ)) : CrashDetector φ :=
  calls.foldl apply detector

end CrashDetector

end EmbeddedBridge.Python
