import Mathlib.Data.List.Induction

/-! # The window behind the first hit

In a list that grows at its end, the elements from the first with a property on, and of
these the first `size`.  `Shut` says that there are as many; from then on the window stays
what it is (`Shut.append`), and it is shut by one element (`shuts_iff`).
-/

namespace EmbeddedBridge.Library.Windows

variable {α : Type*} (hit : α → Bool) (size : Nat) (xs : List α)

/-- The first hit is at the index, and the window that begins there is shut. -/
structure Shut (start : Nat) : Prop where
  first : xs.findIdx? hit = some start
  filled : start + size ≤ xs.length

def window (start : Nat) : List α := (xs.drop start).take size

variable {hit size xs} {start start' : Nat} {x : α} {more : List α}

theorem findIdx?_more (first : xs.findIdx? hit = some start) :
    (xs ++ more).findIdx? hit = some start := by
  rw [List.findIdx?_append, first, Option.some_or]

/-- What is hit first is hit in each part that is long enough. -/
theorem findIdx?_less (first : (xs ++ more).findIdx? hit = some start)
    (inside : start < xs.length) : xs.findIdx? hit = some start := by
  rw [List.findIdx?_append] at first
  cases early : xs.findIdx? hit with
  | some start' =>
    rw [early, Option.some_or] at first
    exact first
  | none =>
    rw [early, Option.none_or] at first
    obtain ⟨offset, _, rfl⟩ := Option.map_eq_some_iff.mp first
    omega

theorem Shut.append (shut : Shut hit size xs start) : Shut hit size (xs ++ more) start where
  first := findIdx?_more shut.first
  filled := by
    have := shut.filled
    rw [List.length_append]
    omega

theorem Shut.window_append (shut : Shut hit size xs start) :
    window size (xs ++ more) start = window size xs start := by
  have filled := shut.filled
  have long : size ≤ (xs.drop start).length := by
    rw [List.length_drop]
    omega
  rw [window, List.drop_append_of_le_length (by omega), List.take_append_of_le_length long, window]

theorem Shut.length_window (shut : Shut hit size xs start) :
    (window size xs start).length = size := by
  have filled := shut.filled
  rw [window, List.length_take, List.length_drop]
  omega

/-- The element that shuts it is the last of the window, wherever the list goes on to. -/
theorem shuts_iff (nonempty : 0 < size) (more : List α) :
    (¬ (∃ start, Shut hit size xs start) ∧ ∃ start, Shut hit size (xs ++ [x]) start) ↔
      ∃ start, (xs ++ x :: more).findIdx? hit = some start ∧ xs.length + 1 = start + size := by
  have split : xs ++ x :: more = (xs ++ [x]) ++ more := by simp
  have length : (xs ++ [x]).length = xs.length + 1 := by simp
  constructor
  · intro shuts
    obtain ⟨still, start, shut⟩ := shuts
    refine ⟨start, by rw [split, findIdx?_more shut.first], ?_⟩
    have filled := shut.filled
    rw [length] at filled
    -- with more than that, it has been shut before
    by_contra longer
    exact still ⟨start, findIdx?_less shut.first (by omega), by omega⟩
  · intro last
    obtain ⟨start, first, full⟩ := last
    rw [split] at first
    have first' := findIdx?_less first (by omega)
    refine ⟨?_, start, first', by omega⟩
    intro before
    obtain ⟨start', shut⟩ := before
    have again : (xs ++ [x]).findIdx? hit = some start' := findIdx?_more shut.first
    cases again.symm.trans first'
    have filled := shut.filled
    omega

end EmbeddedBridge.Library.Windows
