import EmbeddedBridge.Library.Transducer

/-! # Delimited streams

The segment of a stream after its last delimiter, and transducers that every
delimiter takes to one clean state: what such a transducer has to say depends on
that segment alone.
-/

namespace EmbeddedBridge.Library.Delimited

variable {σ α β : Type*}

/-- A stream with a delimiter in it has a last one. -/
theorem lastSegment_exists {delimiter : α} {stream : List α} (member : delimiter ∈ stream) :
    ∃ earlier segment, stream = earlier ++ delimiter :: segment ∧ delimiter ∉ segment := by
  obtain ⟨after, before, split, absent⟩ :=
    List.eq_append_cons_of_mem (List.mem_reverse.mpr member)
  refine ⟨before.reverse, after.reverse, ?_, fun inSegment => absent (List.mem_reverse.mp inSegment)⟩
  rw [← List.reverse_reverse stream, split]
  simp

theorem lastSegment_unique {delimiter : α} {earlier earlier' segment segment' : List α}
    (same : earlier ++ delimiter :: segment = earlier' ++ delimiter :: segment')
    (absent : delimiter ∉ segment) (absent' : delimiter ∉ segment') : segment = segment' := by
  obtain ⟨middle, _, rest⟩ | ⟨middle, _, rest⟩ := List.append_eq_append_iff.mp same
  all_goals
    cases middle with
    | nil => simpa [eq_comm] using rest
    | cons head middle =>
      simp only [List.cons_append, List.cons.injEq] at rest
      simp [rest.2] at absent absent'

section Clean

variable (step : Transducer.Step σ α β) (clean : σ) (delimiter : α) (invariant : σ → Prop)

/-- The last delimiter wipes out what was before it. -/
theorem run_after_delimiter
    (preserved : ∀ state input, invariant state → invariant (step state input).1)
    (cleaned : ∀ state, invariant state → (step state delimiter).1 = clean)
    (state : σ) (initial : invariant state) (earlier segment : List α) :
    (Transducer.run step state (earlier ++ delimiter :: segment)).1 =
      (Transducer.run step clean segment).1 := by
  have reached := Transducer.run_invariant step invariant preserved state earlier initial
  rw [Transducer.run_append, Transducer.run_cons, cleaned _ reached]

end Clean

end EmbeddedBridge.Library.Delimited
