import Mathlib.Logic.Function.Iterate
import Mathlib.Data.BitVec

/-! # Reflected cyclic redundancy checks

The shift register of a reflected CRC over an arbitrary width and polynomial.
Everything rests on one fact: a shift is linear in exclusive or
(`shiftStep_xor`), hence so is the update by a byte (`byteStep_xor`).

For a 16-bit register the check bytes are the register itself, low byte first.
`checkBytes_residue`: running over them leaves a constant, whatever came before.
`checkBytes_unique`: no other two bytes leave the same register.
-/

namespace EmbeddedBridge.Library.Crc

variable {width : Nat} (poly : BitVec width)

/-- One shift of the register. -/
def shiftStep (register : BitVec width) : BitVec width :=
  if register.getLsbD 0 then (register >>> 1) ^^^ poly else register >>> 1

/-- A byte is added to the low end, then shifted out. -/
def byteStep (register : BitVec width) (byte : BitVec 8) : BitVec width :=
  (shiftStep poly)^[8] (register ^^^ byte.setWidth width)

theorem xor_swap_middle (a b c d : BitVec width) : a ^^^ b ^^^ (c ^^^ d) = a ^^^ c ^^^ (b ^^^ d) := by
  ac_rfl

@[simp] theorem shiftStep_zero : shiftStep poly (BitVec.ofNat width 0) = (BitVec.ofNat width 0) := by
  simp [shiftStep]

theorem shiftStep_xor (left right : BitVec width) :
    shiftStep poly (left ^^^ right) = shiftStep poly left ^^^ shiftStep poly right := by
  simp only [shiftStep, BitVec.getLsbD_xor, BitVec.ushiftRight_xor_distrib]
  -- where both low bits are set, the polynomial cancels
  cases left.getLsbD 0 <;> cases right.getLsbD 0 <;> simp
  · ac_rfl
  · ac_rfl
  · rw [xor_swap_middle, BitVec.xor_self, BitVec.xor_zero]

theorem shifts_xor (count : Nat) (left right : BitVec width) :
    (shiftStep poly)^[count] (left ^^^ right) =
      (shiftStep poly)^[count] left ^^^ (shiftStep poly)^[count] right := by
  induction count generalizing left right with
  | zero => rfl
  | succ count inductionHypothesis =>
    simp only [Function.iterate_succ_apply, shiftStep_xor, inductionHypothesis]

@[simp] theorem byteStep_zero : byteStep poly (BitVec.ofNat width 0) 0#8 = (BitVec.ofNat width 0) := by
  have fixed : ∀ count, (shiftStep poly)^[count] (BitVec.ofNat width 0) = (BitVec.ofNat width 0) := by
    intro count
    induction count with
    | zero => rfl
    | succ count inductionHypothesis =>
      rw [Function.iterate_succ_apply, shiftStep_zero, inductionHypothesis]
  simp only [byteStep, BitVec.setWidth_zero, BitVec.xor_zero]
  exact fixed 8

/-- The update is linear in the register and the byte together. -/
theorem byteStep_xor (left right : BitVec width) (byteLeft byteRight : BitVec 8) :
    byteStep poly (left ^^^ right) (byteLeft ^^^ byteRight) =
      byteStep poly left byteLeft ^^^ byteStep poly right byteRight := by
  simp only [byteStep, BitVec.setWidth_xor]
  rw [xor_swap_middle, shifts_xor]

/-- A register whose low end is clear only moves down. -/
theorem shifts_of_clear (register : BitVec width) (count : Nat)
    (clear : ∀ i, i < count → register.getLsbD i = false) :
    (shiftStep poly)^[count] register = register >>> count := by
  induction count with
  | zero => simp
  | succ count inductionHypothesis =>
    rw [Function.iterate_succ_apply', inductionHypothesis fun i bound => clear i (by omega)]
    have lowBit : (register >>> count).getLsbD 0 = false := by
      simpa using clear count (by omega)
    simp only [shiftStep, lowBit, Bool.false_eq_true, if_false, BitVec.shiftRight_add]

/-- Adding the low byte of the register clears it, and the rest moves down. -/
theorem byteStep_low (register : BitVec width) :
    byteStep poly register (register.setWidth 8) = register >>> 8 := by
  have clear : ∀ i, i < 8 →
      (register ^^^ (register.setWidth 8).setWidth width).getLsbD i = false := by
    intro i bound
    simp only [BitVec.getLsbD_xor, BitVec.getLsbD_setWidth, bound, decide_true, Bool.true_and]
    by_cases inside : i < width
    · simp [inside]
    · simp [inside, BitVec.getLsbD_of_ge register i (by omega)]
  rw [byteStep, shifts_of_clear poly _ 8 clear]
  apply BitVec.eq_of_getLsbD_eq
  intro i _
  simp only [BitVec.getLsbD_ushiftRight, BitVec.getLsbD_xor, BitVec.getLsbD_setWidth,
    show ¬ 8 + i < 8 by omega, decide_false, Bool.false_and, Bool.and_false, Bool.xor_false]

/-- What a byte leaves in an empty register: the entry of the usual table. -/
def entry (byte : BitVec 8) : BitVec width := byteStep poly (BitVec.ofNat width 0) byte

@[simp] theorem entry_zero : entry poly 0#8 = (BitVec.ofNat width 0) := byteStep_zero poly

/-- The table form of the update. -/
theorem byteStep_eq_entry (register : BitVec width) (byte : BitVec 8) :
    byteStep poly register byte = register >>> 8 ^^^ entry poly (register.setWidth 8 ^^^ byte) := by
  rw [← byteStep_low poly, entry, ← byteStep_xor, BitVec.xor_zero, ← BitVec.xor_assoc,
    BitVec.xor_self, BitVec.zero_xor]

/-! ## Sixteen bits -/

section Sixteen

variable (poly : BitVec 16)

def lowByte (register : BitVec 16) : BitVec 8 := register.setWidth 8

def highByte (register : BitVec 16) : BitVec 8 := (register >>> 8).setWidth 8

/-- Both check bytes in a row, low byte first. -/
def pairStep (register : BitVec 16) (low high : BitVec 8) : BitVec 16 :=
  byteStep poly (byteStep poly register low) high

theorem pairStep_xor (left right : BitVec 16) (lowLeft lowRight highLeft highRight : BitVec 8) :
    pairStep poly (left ^^^ right) (lowLeft ^^^ lowRight) (highLeft ^^^ highRight) =
      pairStep poly left lowLeft highLeft ^^^ pairStep poly right lowRight highRight := by
  simp only [pairStep, byteStep_xor]

theorem shiftRight_sixteen (register : BitVec 16) : register >>> 8 >>> 8 = 0#16 := by
  rw [← BitVec.shiftRight_add]
  exact BitVec.ushiftRight_eq_zero (by omega)

theorem pairStep_self (register : BitVec 16) :
    pairStep poly register (lowByte register) (highByte register) = 0#16 := by
  simp only [pairStep, lowByte, highByte, byteStep_low, shiftRight_sixteen]

/-- The register that a valid body with its check bytes leaves, when the check
bytes are sent exclusive or `mask`. -/
def residue (mask : BitVec 16) : BitVec 16 := pairStep poly 0#16 (lowByte mask) (highByte mask)

theorem checkBytes_residue (mask register : BitVec 16) :
    pairStep poly register (lowByte (register ^^^ mask)) (highByte (register ^^^ mask)) =
      residue poly mask := by
  have splitLow : lowByte (register ^^^ mask) = lowByte register ^^^ lowByte mask :=
    BitVec.setWidth_xor
  have splitHigh : highByte (register ^^^ mask) = highByte register ^^^ highByte mask := by
    simp only [highByte, BitVec.ushiftRight_xor_distrib, BitVec.setWidth_xor]
  have split := pairStep_xor poly register 0#16 (lowByte register) (lowByte mask)
    (highByte register) (highByte mask)
  rw [BitVec.xor_zero, pairStep_self, BitVec.zero_xor] at split
  rw [splitLow, splitHigh, split]
  rfl

/-- No two different bytes leave the same high half in the table. -/
def Faithful : Prop := ∀ byte : BitVec 8, entry poly byte >>> 8 = 0#16 → byte = 0#8

theorem pairStep_kernel (faithful : Faithful poly) {low high : BitVec 8}
    (cancelled : pairStep poly 0#16 low high = 0#16) : low = 0#8 ∧ high = 0#8 := by
  have whole : entry poly low >>> 8 ^^^ entry poly (lowByte (entry poly low) ^^^ high) = 0#16 := by
    rw [lowByte, ← byteStep_eq_entry]
    exact cancelled
  -- the first byte's entry has only its low half left, so the second's has no high half
  have upper : entry poly (lowByte (entry poly low) ^^^ high) >>> 8 = 0#16 := by
    have shifted := congrArg (fun word : BitVec 16 => word >>> 8) whole
    simpa [BitVec.ushiftRight_xor_distrib, shiftRight_sixteen] using shifted
  have index := faithful _ upper
  rw [index, entry_zero, BitVec.xor_zero] at whole
  have lowZero := faithful low whole
  rw [lowZero, entry_zero] at index
  refine ⟨lowZero, ?_⟩
  simpa [lowByte] using index

theorem pairStep_injective (faithful : Faithful poly) (register : BitVec 16)
    {low high low' high' : BitVec 8}
    (same : pairStep poly register low high = pairStep poly register low' high') :
    low = low' ∧ high = high' := by
  have difference := pairStep_xor poly register register low low' high high'
  rw [same, BitVec.xor_self, BitVec.xor_self] at difference
  obtain ⟨lows, highs⟩ := pairStep_kernel poly faithful difference
  exact ⟨BitVec.xor_eq_zero_iff.mp lows, BitVec.xor_eq_zero_iff.mp highs⟩

/-- Only the check bytes leave the residue. -/
theorem checkBytes_unique (faithful : Faithful poly) (mask register : BitVec 16)
    {low high : BitVec 8} (good : pairStep poly register low high = residue poly mask) :
    low = lowByte (register ^^^ mask) ∧ high = highByte (register ^^^ mask) := by
  rw [← checkBytes_residue poly mask register] at good
  exact pairStep_injective poly faithful register good

end Sixteen

end EmbeddedBridge.Library.Crc
