import EmbeddedBridge.Library.Transducer

/-! # Lines

A stream cut at a delimiter: `step` collects a line and hands it on when the
delimiter comes.  A buffer that is split afresh each time, by `partition`, comes to
the same (`run_partition`), and so does splitting after a translation that turns
nothing else into a delimiter (`run_translated`).
-/

namespace EmbeddedBridge.Library.Lines

open Transducer (Step run)

variable {α β σ : Type} [DecidableEq α] [DecidableEq β] (delimiter : α)

def step : Step (List α) α (List α)
  | line, input => if input = delimiter then ([], [line]) else (line ++ [input], [])

/-- The lines of a text, and what comes after the last. -/
def lines (text : List α) : List (List α) := (run (step delimiter) [] text).2

def rest (text : List α) : List α := (run (step delimiter) [] text).1

variable {delimiter}

/-- Without a delimiter a line only grows. -/
theorem run_plain (line text : List α) (plain : delimiter ∉ text) :
    run (step delimiter) line text = (line ++ text, []) := by
  induction text generalizing line with
  | nil => simp
  | cons input text inductionHypothesis =>
    rw [List.mem_cons, not_or] at plain
    have grows : step delimiter line input = (line ++ [input], []) :=
      if_neg fun same => plain.1 same.symm
    refine Transducer.run_step_silent _ grows ?_
    rw [inductionHypothesis _ plain.2, List.append_assoc]
    rfl

theorem run_line (line text later : List α) (plain : delimiter ∉ text) :
    run (step delimiter) line (text ++ delimiter :: later) =
      ((run (step delimiter) [] later).1, (line ++ text) :: (run (step delimiter) [] later).2) := by
  have ends : step delimiter (line ++ text) delimiter = ([], [line ++ text]) := if_pos rfl
  apply Transducer.run_trans_silent _ (run_plain line text plain)
  rw [Transducer.run_cons, ends]
  rfl

/-- What has been collected has no delimiter in it. -/
theorem rest_plain (line text : List α) (plain : delimiter ∉ line) :
    delimiter ∉ (run (step delimiter) line text).1 := by
  apply Transducer.run_invariant (step delimiter) (fun line => delimiter ∉ line) _ line text plain
  intro line input plain
  rw [step]
  split
  · exact List.not_mem_nil
  · rename_i other
    rw [List.mem_append, List.mem_singleton, not_or]
    exact ⟨plain, fun same => other same.symm⟩

/-! ## Splitting afresh -/

variable (delimiter) in
/-- What is before the first delimiter and what after, if there is one. -/
def partition : List α → Option (List α × List α)
  | [] => none
  | input :: text =>
    if input = delimiter then some ([], text)
    else (partition text).map fun parts => (input :: parts.1, parts.2)

theorem partition_eq_none {text : List α} : partition delimiter text = none ↔ delimiter ∉ text := by
  induction text with
  | nil => simp [partition]
  | cons input text inductionHypothesis =>
    rw [partition]
    by_cases here : input = delimiter
    · simp [here]
    · simp [here, inductionHypothesis, Ne.symm here]

theorem partition_eq_some {text before after : List α} :
    partition delimiter text = some (before, after) ↔
      text = before ++ delimiter :: after ∧ delimiter ∉ before := by
  induction text generalizing before with
  | nil => simp [partition]
  | cons input text inductionHypothesis =>
    rw [partition]
    by_cases here : input = delimiter
    · rw [if_pos here, here]
      cases before with
      | nil => simp [eq_comm]
      | cons first before =>
        refine iff_of_false nofun fun split => ?_
        obtain ⟨same, absent⟩ := split
        exact absent (List.mem_cons.mpr (.inl (List.cons.inj same).1))
    · rw [if_neg here]
      cases before with
      | nil => simp [here]
      | cons first before =>
        rw [Option.map_eq_some_iff]
        constructor
        · intro found
          obtain ⟨parts, found, same⟩ := found
          cases same
          obtain ⟨rfl, absent⟩ := inductionHypothesis.mp found
          refine ⟨rfl, fun member => ?_⟩
          exact (List.mem_cons.mp member).elim (fun same => here same.symm) absent
        · intro split
          obtain ⟨same, absent⟩ := split
          obtain ⟨rfl, rfl⟩ := List.cons.inj same
          exact ⟨(before, after),
            inductionHypothesis.mpr ⟨rfl, fun member => absent (List.mem_cons_of_mem _ member)⟩, rfl⟩

theorem partition_length {text before after : List α}
    (found : partition delimiter text = some (before, after)) : after.length < text.length := by
  rw [(partition_eq_some.mp found).1, List.length_append, List.length_cons]
  omega

/-- The first line, and the lines of what follows it. -/
theorem lines_partition {text before after : List α}
    (found : partition delimiter text = some (before, after)) :
    lines delimiter text = before :: lines delimiter after ∧
      rest delimiter text = rest delimiter after := by
  obtain ⟨rfl, plain⟩ := partition_eq_some.mp found
  rw [lines, rest, run_line [] before after plain]
  exact ⟨rfl, rfl⟩

theorem lines_none {text : List α} (none : partition delimiter text = none) :
    lines delimiter text = [] ∧ rest delimiter text = text := by
  rw [lines, rest, run_plain [] text (partition_eq_none.mp none)]
  exact ⟨rfl, rfl⟩

/-- A buffer without a delimiter may as well have come in with the text. -/
theorem run_buffered (buffer text : List α) (plain : delimiter ∉ buffer) :
    run (step delimiter) buffer text = run (step delimiter) [] (buffer ++ text) := by
  rw [Transducer.run_append, run_plain [] buffer plain]
  rfl

/-! ## Splitting what has been translated -/

section Translated

variable {delimiter' : β} (translate : Step σ β α) (start : σ) (finish : σ → List α)

/-- A whole text translated, with what is left at its end. -/
def whole (text : List β) : List α :=
  (run translate start text).2 ++ finish (run translate start text).1

/-- One delimiter is translated to the other and finishes what was before it, and
nothing else is: the lines of the translation are the translations of the lines. -/
theorem run_translated (invariant : σ → Prop) (initial : invariant start)
    (preserved : ∀ state input, invariant state → invariant (translate state input).1)
    (plain : ∀ state input, invariant state → input ≠ delimiter' →
      delimiter ∉ (translate state input).2)
    (finishes : ∀ state, invariant state →
      translate state delimiter' = (start, finish state ++ [delimiter]) ∧ delimiter ∉ finish state)
    (line stream : List β) :
    run (Transducer.cascade translate (step delimiter)) (run translate start line) stream =
      (run translate start (run (step delimiter') line stream).1,
        (run (step delimiter') line stream).2.map (whole translate start finish)) := by
  induction stream generalizing line with
  | nil => rfl
  | cons input stream inductionHypothesis =>
    have reached := Transducer.run_invariant translate invariant preserved start line initial
    by_cases ends : input = delimiter'
    · rw [ends]
      obtain ⟨finished, absent⟩ := finishes _ reached
      have handed : Transducer.cascade translate (step delimiter) (run translate start line)
          delimiter' = (run translate start [], [whole translate start finish line]) := by
        rw [Transducer.cascade, finished]
        simp only [run_line _ _ [] absent]
        rfl
      have one : step delimiter' line delimiter' = ([], [line]) := if_pos rfl
      rw [Transducer.run_cons, handed, inductionHypothesis, Transducer.run_cons, one]
      rfl
    · have grows : step delimiter' line input = (line ++ [input], []) := if_neg ends
      have handed : Transducer.cascade translate (step delimiter) (run translate start line)
          input = (run translate start (line ++ [input]), []) := by
        rw [Transducer.cascade, Transducer.run_append, Transducer.run_singleton]
        simp only [run_plain _ _ (plain _ input reached ends)]
      rw [Transducer.run_cons, handed, inductionHypothesis, Transducer.run_cons, grows]
      rfl

end Translated

end EmbeddedBridge.Library.Lines
