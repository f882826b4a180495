import Mathlib.Data.List.Basic

/-! # Checksums that lose nothing

A checksum folds a step over the bytes of a text.  Where the step can be undone, in its
register and in its byte, a change of one byte is always seen (`foldl_changed`), and
whether one part of a text may stand for another is decided when both have been read
(`foldl_replaced`).
-/

namespace EmbeddedBridge.Library.Checksum

variable {σ β : Type*}

/-- On the registers that occur. -/
structure Lossless (step : σ → β → σ) (occurs : σ → Prop) : Prop where
  closed : ∀ register byte, occurs register → occurs (step register byte)
  register : ∀ left right byte, occurs left → occurs right →
    step left byte = step right byte → left = right
  byte : ∀ register left right, occurs register →
    step register left = step register right → left = right

variable {step : σ → β → σ} {occurs : σ → Prop} {left right register : σ}

theorem foldl_occurs (lossless : Lossless step occurs) (isLeft : occurs left) (bytes : List β) :
    occurs (bytes.foldl step left) := by
  induction bytes generalizing left with
  | nil => exact isLeft
  | cons byte bytes inductionHypothesis =>
    exact inductionHypothesis (lossless.closed left byte isLeft)

theorem foldl_inj (lossless : Lossless step occurs) (isLeft : occurs left) (isRight : occurs right)
    (bytes : List β) : bytes.foldl step left = bytes.foldl step right ↔ left = right := by
  induction bytes generalizing left right with
  | nil => exact Iff.rfl
  | cons byte bytes inductionHypothesis =>
    rw [List.foldl_cons, List.foldl_cons,
      inductionHypothesis (lossless.closed left byte isLeft) (lossless.closed right byte isRight)]
    exact ⟨lossless.register left right byte isLeft isRight, fun same => by rw [same]⟩

/-- What comes after a part does not tell it from another. -/
theorem foldl_replaced (lossless : Lossless step occurs) (isRegister : occurs register)
    (before before' after : List β) :
    (before ++ after).foldl step register = (before' ++ after).foldl step register ↔
      before.foldl step register = before'.foldl step register := by
  rw [List.foldl_append, List.foldl_append]
  exact foldl_inj lossless (foldl_occurs lossless isRegister before)
    (foldl_occurs lossless isRegister before') after

theorem foldl_changed (lossless : Lossless step occurs) (isRegister : occurs register)
    {byte byte' : β} (changed : byte ≠ byte') (before after : List β) :
    (before ++ byte :: after).foldl step register ≠
      (before ++ byte' :: after).foldl step register := by
  intro same
  rw [List.foldl_append, List.foldl_append, List.foldl_cons, List.foldl_cons] at same
  have isBefore := foldl_occurs lossless isRegister before
  have same' := (foldl_inj lossless (lossless.closed _ byte isBefore)
    (lossless.closed _ byte' isBefore) after).mp same
  exact changed (lossless.byte _ byte byte' isBefore same')

end EmbeddedBridge.Library.Checksum
