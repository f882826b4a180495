import Mathlib.Data.List.Chain
import EmbeddedBridge.Library.Transducer

/-! # Unwrapping a counter

A time is read modulo a period of `2 * half`.  The unwrapper counts a wrap when a
reading is more than half a period below the one before it, and adds a period for
each wrap.  It never takes a wrap back.

`run_unwrap_iff`: with steps of less than half a period either way, the times come
out as they were exactly when none goes back across a multiple of the period.
-/

namespace EmbeddedBridge.Library.Unwrap

open Transducer (Step run)

structure State where
  last : Option Nat := none
  wraps : Nat := 0
deriving DecidableEq, Repr

/-- A reading far below the one before it has wrapped. -/
def wrapped (half : Nat) (last : Option Nat) (reading : Nat) : Bool :=
  match last with
  | none => false
  | some last => decide ((reading : Int) - last < -(half : Int))

def step (half : Nat) : Step State Nat Nat := fun state reading =>
  let wraps := if wrapped half state.last reading then state.wraps + 1 else state.wraps
  ({ last := some reading, wraps }, [reading + wraps * (2 * half)])

/-- Not far from the time before. -/
def Near (half before now : Nat) : Prop := now < before + half ∧ before < now + half

/-- In the period of the time before, or later. -/
def Settled (half before now : Nat) : Prop := now < before → now / (2 * half) = before / (2 * half)

instance (half before now : Nat) : Decidable (Settled half before now) :=
  inferInstanceAs (Decidable (_ → _))

variable {half before now : Nat}

/-- Times that are near lie in the same period or in two that are next to each other. -/
theorem periods_of_near (near : Near half before now) :
    now / (2 * half) = before / (2 * half) ∨ now / (2 * half) = before / (2 * half) + 1 ∨
      now / (2 * half) + 1 = before / (2 * half) := by
  have long : 0 < 2 * half := by
    obtain ⟨after, ahead⟩ := near
    omega
  have split := fun time => Nat.div_add_mod time (2 * half)
  have below := fun time => Nat.mod_lt time long
  obtain ⟨ahead, behind⟩ := near
  have whole := split now
  have whole' := split before
  have rest := below now
  have rest' := below before
  -- two periods apart would be more than a period apart
  have notAhead : ¬ before / (2 * half) + 2 ≤ now / (2 * half) := by
    intro far
    have scaled := Nat.mul_le_mul_left (2 * half) far
    rw [Nat.mul_add] at scaled
    omega
  have notBehind : ¬ now / (2 * half) + 2 ≤ before / (2 * half) := by
    intro far
    have scaled := Nat.mul_le_mul_left (2 * half) far
    rw [Nat.mul_add] at scaled
    omega
  omega

/-- A wrap is counted exactly when the period is the next one. -/
theorem wrapped_iff (near : Near half before now) :
    wrapped half (some (before % (2 * half))) (now % (2 * half)) = true ↔
      now / (2 * half) = before / (2 * half) + 1 := by
  have whole := Nat.div_add_mod now (2 * half)
  have whole' := Nat.div_add_mod before (2 * half)
  obtain ⟨ahead, behind⟩ := near
  rw [wrapped, decide_eq_true_eq]
  obtain same | next | previous := periods_of_near ⟨ahead, behind⟩
  · rw [same] at whole ⊢
    omega
  · rw [next, Nat.mul_add] at whole
    omega
  · rw [← previous, Nat.mul_add] at whole'
    omega

theorem settled_iff (near : Near half before now) :
    Settled half before now ↔ now / (2 * half) + 1 ≠ before / (2 * half) := by
  have long : 0 < 2 * half := by
    obtain ⟨ahead, behind⟩ := near
    omega
  constructor
  · intro settled previous
    have earlier : now < before := by
      by_contra later
      have ordered := Nat.div_le_div_right (c := 2 * half) (not_lt.mp later)
      omega
    have same := settled earlier
    omega
  · intro notPrevious earlier
    have ordered := Nat.div_le_div_right (c := 2 * half) (Nat.le_of_lt earlier)
    obtain same | next | previous := periods_of_near near
    · exact same
    · omega
    · exact absurd previous notPrevious

/-- One reading, after as many wraps as there were periods: it comes out as it was
exactly when its time is settled. -/
theorem step_unwrap (near : Near half before now) :
    let after := step half ⟨some (before % (2 * half)), before / (2 * half)⟩ (now % (2 * half))
    (after.2 = [now] ↔ Settled half before now) ∧
      (Settled half before now → after.1 = ⟨some (now % (2 * half)), now / (2 * half)⟩) := by
  intro after
  have counted : after = (⟨some (now % (2 * half)),
      if now / (2 * half) = before / (2 * half) + 1 then before / (2 * half) + 1
        else before / (2 * half)⟩, [now % (2 * half) +
        (if now / (2 * half) = before / (2 * half) + 1 then before / (2 * half) + 1
          else before / (2 * half)) * (2 * half)]) := by
    simp only [after, step, wrapped_iff near]
  have whole := Nat.mod_add_div now (2 * half)
  have long : 0 < 2 * half := by
    obtain ⟨ahead, behind⟩ := near
    omega
  rw [counted, settled_iff near]
  -- what comes out lies in the period that was counted
  have comesOut : ∀ wraps,
      now % (2 * half) + wraps * (2 * half) = now ↔ wraps = now / (2 * half) := by
    intro wraps
    rw [Nat.mul_comm wraps]
    constructor
    · intro same
      have equal : 2 * half * wraps = 2 * half * (now / (2 * half)) := by omega
      exact Nat.eq_of_mul_eq_mul_left long equal
    · intro same
      rw [same]
      exact whole
  obtain same | next | previous := periods_of_near near
  · rw [if_neg (by omega), List.cons.injEq, comesOut, same]
    simp
  · rw [if_pos next, List.cons.injEq, comesOut, next]
    simp
    omega
  · rw [if_neg (by omega), List.cons.injEq, comesOut]
    constructor
    · constructor
      · rintro ⟨same, _⟩
        omega
      · intro notPrevious
        exact absurd previous notPrevious
    · intro notPrevious
      exact absurd previous notPrevious

/-- A run after as many wraps as there were periods. -/
theorem run_unwrap_from (before : Nat) (times : List Nat)
    (near : (before :: times).IsChain (Near half)) :
    (run (step half) ⟨some (before % (2 * half)), before / (2 * half)⟩
        (times.map (· % (2 * half)))).2 = times ↔
      (before :: times).IsChain (Settled half) := by
  induction times generalizing before with
  | nil => simp
  | cons now times inductionHypothesis =>
    obtain ⟨here, later⟩ := List.isChain_cons_cons.mp near
    obtain ⟨comesOut, counts⟩ := step_unwrap here
    rw [List.map_cons, Transducer.run_cons, List.isChain_cons_cons]
    constructor
    · intro all
      obtain ⟨first, rest⟩ := List.append_inj (all.trans (List.singleton_append.symm)) rfl
      have settled := comesOut.mp first
      rw [counts settled] at rest
      exact ⟨settled, (inductionHypothesis now later).mp rest⟩
    · rintro ⟨settled, chain⟩
      rw [comesOut.mpr settled, counts settled, (inductionHypothesis now later).mpr chain]
      rfl

/-- From the start, when the first time lies in the first period. -/
theorem run_unwrap_iff (times : List Nat) (begins : ∀ first ∈ times.head?, first < 2 * half)
    (near : times.IsChain (Near half)) :
    (run (step half) {} (times.map (· % (2 * half)))).2 = times ↔ times.IsChain (Settled half) := by
  cases times with
  | nil => simp
  | cons first times =>
    have small : first < 2 * half := begins first rfl
    have opened : step half {} (first % (2 * half)) =
        (⟨some (first % (2 * half)), first / (2 * half)⟩, [first]) := by
      simp [step, wrapped, Nat.mod_eq_of_lt small, Nat.div_eq_of_lt small]
    rw [List.map_cons, Transducer.run_step _ opened rfl]
    simp only [List.singleton_append, List.cons.injEq, true_and]
    exact run_unwrap_from first times near

/-! ## Steps back -/

/-- How often a time goes back across a multiple of the period. -/
def backs (half : Nat) : List Nat → Nat
  | before :: now :: times =>
    (if Settled half before now then 0 else 1) + backs half (now :: times)
  | _ => 0

theorem backs_le (half : Nat) (times : List Nat) : backs half times ≤ times.length := by
  fun_induction backs half times with
  | case1 before now times inductionHypothesis =>
    rw [List.length_cons]
    split <;> omega
  | case2 => exact Nat.zero_le _

/-- The steps before one of the times and the steps after it. -/
theorem backs_split (half : Nat) (times : List Nat) (i : Nat) :
    backs half times = backs half (times.take (i + 1)) + backs half (times.drop i) := by
  induction i generalizing times with
  | zero =>
    cases times with
    | nil => rfl
    | cons first times => simp [backs]
  | succ i inductionHypothesis =>
    cases times with
    | nil => rfl
    | cons first times =>
      cases times with
      | nil => simp [backs]
      | cons second times =>
        have rest := inductionHypothesis (second :: times)
        rw [List.take_succ_cons] at rest
        rw [List.take_succ_cons, List.take_succ_cons, List.drop_succ_cons, backs, backs, rest]
        omega

/-- Every step back over a multiple of the period is one more period that the times are late. -/
theorem step_late (near : Near half before now) (late : Nat) :
    let late' := late + if Settled half before now then 0 else 1
    step half ⟨some (before % (2 * half)), before / (2 * half) + late⟩ (now % (2 * half)) =
      (⟨some (now % (2 * half)), now / (2 * half) + late'⟩, [now + late' * (2 * half)]) := by
  intro late'
  have whole := Nat.mod_add_div now (2 * half)
  have comesOut (wraps : Nat) (counted : wraps = now / (2 * half) + late') :
      now % (2 * half) + wraps * (2 * half) = now + late' * (2 * half) := by
    rw [counted, Nat.add_mul, ← Nat.add_assoc, Nat.mul_comm (now / (2 * half)), whole]
  have settled := settled_iff near
  have counts := wrapped_iff near
  have periods := periods_of_near near
  have counted : (if wrapped half (some (before % (2 * half))) (now % (2 * half)) then
      before / (2 * half) + late + 1 else before / (2 * half) + late) = now / (2 * half) + late' := by
    simp only [late']
    split
    next isWrapped =>
      have next := counts.mp isWrapped
      rw [if_pos (settled.mpr (by omega))]
      omega
    next notWrapped =>
      have notNext : now / (2 * half) ≠ before / (2 * half) + 1 := fun next =>
        notWrapped (counts.mpr next)
      split
      next isSettled =>
        have notPrevious := settled.mp isSettled
        omega
      next notSettled =>
        have previous : now / (2 * half) + 1 = before / (2 * half) := by
          by_contra other
          exact notSettled (settled.mpr other)
        omega
  rw [step]
  simp only [counted, comesOut _ rfl]

/-- A run that is some periods late. -/
theorem run_late_from (before late : Nat) (times : List Nat)
    (near : (before :: times).IsChain (Near half)) :
    let out := (run (step half) ⟨some (before % (2 * half)), before / (2 * half) + late⟩
      (times.map (· % (2 * half)))).2
    out.length = times.length ∧ ∀ i time, times[i]? = some time →
      out[i]? = some (time + (late + backs half ((before :: times).take (i + 2))) * (2 * half)) := by
  induction times generalizing before late with
  | nil => exact ⟨rfl, fun i time found => by cases found⟩
  | cons now times inductionHypothesis =>
    obtain ⟨here, later⟩ := List.isChain_cons_cons.mp near
    obtain ⟨length, rest⟩ :=
      inductionHypothesis now (late + if Settled half before now then 0 else 1) later
    rw [List.map_cons, Transducer.run_cons, step_late here, List.singleton_append]
    refine ⟨by simpa using length, fun i time found => ?_⟩
    cases i with
    | zero =>
      cases found
      simp [backs]
    | succ i =>
      rw [List.getElem?_cons_succ] at found ⊢
      rw [rest i time found, List.take_succ_cons, List.take_succ_cons, List.take_succ_cons, backs,
        Nat.add_assoc]

/-- Each time comes out late by a period for each step back before it. -/
theorem run_late (times : List Nat) (begins : ∀ first ∈ times.head?, first < 2 * half)
    (near : times.IsChain (Near half)) :
    let out := (run (step half) {} (times.map (· % (2 * half)))).2
    out.length = times.length ∧ ∀ i time, times[i]? = some time →
      out[i]? = some (time + backs half (times.take (i + 1)) * (2 * half)) := by
  cases times with
  | nil => exact ⟨rfl, fun i time found => by cases found⟩
  | cons first times =>
    have small : first < 2 * half := begins first rfl
    have opened : step half {} (first % (2 * half)) =
        (⟨some (first % (2 * half)), first / (2 * half) + 0⟩, [first]) := by
      simp [step, wrapped, Nat.mod_eq_of_lt small, Nat.div_eq_of_lt small]
    obtain ⟨length, rest⟩ := run_late_from first 0 times near
    rw [List.map_cons, Transducer.run_step _ opened rfl, List.singleton_append]
    refine ⟨by simpa using length, fun i time found => ?_⟩
    cases i with
    | zero =>
      cases found
      simp [backs]
    | succ i =>
      rw [List.getElem?_cons_succ] at found ⊢
      rw [rest i time found, Nat.zero_add]

end EmbeddedBridge.Library.Unwrap
