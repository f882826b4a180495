import Mathlib.Data.List.Basic

/-! # Bounded buffers

A fixed-size array with a fill count, as its content: a list that carries the
bound it never exceeds.  `push?` stores one item if there is room, and
`appendClipped` stores as much of a block as there is room for.
-/

namespace EmbeddedBridge.Library

/-- The stored part of an array of `capacity` items. -/
structure BoundedBuffer (α : Type*) (capacity : Nat) where
  items : List α
  bounded : items.length ≤ capacity

namespace BoundedBuffer

variable {α : Type*} {capacity : Nat}

@[ext] theorem ext {left right : BoundedBuffer α capacity} (same : left.items = right.items) :
    left = right := by
  cases left; cases right; cases same; rfl

def empty : BoundedBuffer α capacity := ⟨[], Nat.zero_le _⟩

instance : Inhabited (BoundedBuffer α capacity) := ⟨empty⟩

@[simp] theorem empty_items : (empty : BoundedBuffer α capacity).items = [] := rfl

/-- Store one item, if there is room. -/
def push? (buffer : BoundedBuffer α capacity) (item : α) : Option (BoundedBuffer α capacity) :=
  if room : buffer.items.length < capacity then
    some ⟨buffer.items ++ [item], by simpa using Nat.succ_le_of_lt room⟩
  else none

/-- Store as many of `block`'s first items as there is room for. -/
def appendClipped (buffer : BoundedBuffer α capacity) (block : List α) :
    BoundedBuffer α capacity :=
  ⟨buffer.items ++ block.take (capacity - buffer.items.length), by
    have bounded := buffer.bounded
    simp only [List.length_append, List.length_take]
    omega⟩

theorem push?_of_room (buffer : BoundedBuffer α capacity) (item : α)
    (room : buffer.items.length < capacity) :
    ∃ stored, buffer.push? item = some stored ∧ stored.items = buffer.items ++ [item] :=
  ⟨_, dif_pos room, rfl⟩

theorem push?_of_full {buffer : BoundedBuffer α capacity} {item : α}
    (full : ¬ buffer.items.length < capacity) : buffer.push? item = none := dif_neg full

theorem push?_some {buffer stored : BoundedBuffer α capacity} {item : α}
    (pushed : buffer.push? item = some stored) :
    buffer.items.length < capacity ∧ stored.items = buffer.items ++ [item] := by
  unfold push? at pushed
  split at pushed
  · rename_i room
    cases pushed
    exact ⟨room, rfl⟩
  · cases pushed

theorem push?_none {buffer : BoundedBuffer α capacity} {item : α}
    (refused : buffer.push? item = none) : buffer.items.length = capacity := by
  have bounded := buffer.bounded
  unfold push? at refused
  split at refused
  · cases refused
  · omega

/-- Storing a block item by item. -/
theorem foldlM_push? (buffer : BoundedBuffer α capacity) (block : List α)
    (room : buffer.items.length + block.length ≤ capacity) :
    ∃ stored, block.foldlM push? buffer = some stored ∧ stored.items = buffer.items ++ block := by
  induction block generalizing buffer with
  | nil => exact ⟨buffer, rfl, by simp⟩
  | cons item block inductionHypothesis =>
    rw [List.length_cons] at room
    obtain ⟨next, pushed, items⟩ := push?_of_room buffer item (by omega)
    obtain ⟨stored, folded, content⟩ := inductionHypothesis next
      (by rw [items, List.length_append, List.length_singleton]; omega)
    refine ⟨stored, ?_, ?_⟩
    · rw [List.foldlM_cons, pushed]
      exact folded
    · rw [content, items, List.append_assoc]
      rfl

theorem appendClipped_append (buffer : BoundedBuffer α capacity) (left right : List α) :
    buffer.appendClipped (left ++ right) = (buffer.appendClipped left).appendClipped right := by
  apply ext
  have bounded := buffer.bounded
  simp only [appendClipped, List.take_append, List.length_append, List.length_take,
    List.append_assoc]
  congr 3
  omega

@[simp] theorem appendClipped_nil (buffer : BoundedBuffer α capacity) :
    buffer.appendClipped [] = buffer := by
  apply ext
  simp [appendClipped]

end BoundedBuffer

end EmbeddedBridge.Library
