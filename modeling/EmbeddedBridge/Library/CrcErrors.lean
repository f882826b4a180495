import EmbeddedBridge.Library.Crc

/-! # Errors that a reflected CRC detects

The register bit by bit.  A run of at most `width` bits is the same as one word
added to the register and then shifted out (`foldl_bitStep`), and a shift loses
nothing when the polynomial has its top bit; so no burst of at most `width` bits
leaves an empty register empty.  When the polynomial has an odd number of bits,
shifts keep the parity of the register, and no error with an odd number of bits
does either.
-/

namespace EmbeddedBridge.Library.Crc

variable {width : Nat} (poly : BitVec width)

/-- A bit is added to the low end, then shifted out. -/
def bitStep (register : BitVec width) (bit : Bool) : BitVec width :=
  shiftStep poly (register ^^^ (BitVec.ofBool bit).setWidth width)

/-- The bits of a byte, least significant first. -/
def bitsOf (byte : BitVec 8) : List Bool := (List.range 8).map byte.getLsbD

/-- Bits side by side, the first one lowest. -/
def word (width : Nat) (bits : List Bool) : BitVec width :=
  (BitVec.ofBoolListLE bits).setWidth width

theorem getLsbD_word (bits : List Bool) (i : Nat) (inside : i < width) :
    (word width bits).getLsbD i = bits.getD i false := by
  rw [word, BitVec.getLsbD_setWidth, BitVec.getLsbD_ofBoolListLE]
  simp [inside]

theorem getLsbD_bit (bit : Bool) (i : Nat) (inside : i < width) :
    ((BitVec.ofBool bit).setWidth width).getLsbD i = (decide (i = 0) && bit) := by
  rw [BitVec.getLsbD_setWidth, BitVec.getLsbD_ofBool]
  simp [inside]

theorem word_snoc (bits : List Bool) (bit : Bool) (short : bits.length < width) :
    word width (bits ++ [bit]) =
      word width bits ^^^ (BitVec.ofBool bit).setWidth width <<< bits.length := by
  apply BitVec.eq_of_getLsbD_eq
  intro i inside
  rw [BitVec.getLsbD_xor, BitVec.getLsbD_shiftLeft, getLsbD_word _ i inside,
    getLsbD_word _ i inside, getLsbD_bit bit _ (by omega)]
  obtain before | here | after := Nat.lt_trichotomy i bits.length
  · simp [before, List.getD_eq_getElem?_getD, List.getElem?_append_left before]
  · simp [here, short, List.getD_eq_getElem?_getD]
  · have outside : ¬ i < bits.length := by omega
    have past : i - bits.length ≠ 0 := by omega
    have reached : bits.length ≤ i := by omega
    simp [outside, past, List.getD_eq_getElem?_getD, List.getElem?_append_right reached]

/-- A bit that is added early is shifted down to where it would be added late. -/
theorem shifts_bit (bit : Bool) (count : Nat) (inside : count < width) :
    (shiftStep poly)^[count] ((BitVec.ofBool bit).setWidth width <<< count) =
      (BitVec.ofBool bit).setWidth width := by
  rw [shifts_of_clear]
  · apply BitVec.eq_of_getLsbD_eq
    intro i bound
    rw [BitVec.getLsbD_ushiftRight, BitVec.getLsbD_shiftLeft, Nat.add_sub_cancel_left,
      getLsbD_bit bit i bound]
    cases i with
    | zero => simp [inside]
    | succ i => simp
  · intro i below
    rw [BitVec.getLsbD_shiftLeft]
    simp [below]

theorem foldl_bitStep (register : BitVec width) (bits : List Bool) (short : bits.length ≤ width) :
    bits.foldl (bitStep poly) register =
      (shiftStep poly)^[bits.length] (register ^^^ word width bits) := by
  induction bits using List.reverseRecOn with
  | nil =>
    have none : word width [] = BitVec.ofNat width 0 := by
      apply BitVec.eq_of_getLsbD_eq
      intro i inside
      rw [getLsbD_word _ i inside]
      simp
    rw [none, BitVec.xor_zero]
    rfl
  | append_singleton bits bit inductionHypothesis =>
    rw [List.length_append, List.length_singleton] at short
    rw [List.foldl_append, inductionHypothesis (by omega), List.length_append,
      List.length_singleton, Function.iterate_succ_apply', word_snoc bits bit (by omega), ← BitVec.xor_assoc,
      shifts_xor poly bits.length (register ^^^ word width bits), shifts_bit poly bit _ (by omega)]
    rfl

theorem word_bitsOf (byte : BitVec 8) : word width (bitsOf byte) = byte.setWidth width := by
  apply BitVec.eq_of_getLsbD_eq
  intro i inside
  rw [getLsbD_word _ i inside, BitVec.getLsbD_setWidth]
  by_cases small : i < 8
  · simp [bitsOf, inside, small, List.getD_eq_getElem?_getD]
  · simp [bitsOf, inside, List.getD_eq_getElem?_getD,
      List.getElem?_eq_none (by simp; omega : ((List.range 8).map byte.getLsbD).length ≤ i),
      BitVec.getLsbD_of_ge byte i (by omega)]

/-- The update by a byte is the update by its bits. -/
theorem byteStep_bits (wide : 8 ≤ width) (register : BitVec width) (byte : BitVec 8) :
    byteStep poly register byte = (bitsOf byte).foldl (bitStep poly) register := by
  rw [foldl_bitStep poly register (bitsOf byte) (by simpa [bitsOf] using wide), word_bitsOf]
  simp [byteStep, bitsOf]

theorem foldl_byteStep_bits (wide : 8 ≤ width) (register : BitVec width)
    (bytes : List (BitVec 8)) :
    bytes.foldl (byteStep poly) register =
      (bytes.flatMap bitsOf).foldl (bitStep poly) register := by
  induction bytes generalizing register with
  | nil => rfl
  | cons byte bytes inductionHypothesis =>
    rw [List.foldl_cons, inductionHypothesis, byteStep_bits poly wide, List.flatMap_cons,
      List.foldl_append]

/-- What an error makes of the register does not depend on the message. -/
theorem foldl_byteStep_xor (left right : BitVec width) (bytes errors : List (BitVec 8))
    (same : errors.length = bytes.length) :
    (List.zipWith (· ^^^ ·) bytes errors).foldl (byteStep poly) (left ^^^ right) =
      bytes.foldl (byteStep poly) left ^^^ errors.foldl (byteStep poly) right := by
  induction bytes generalizing left right errors with
  | nil =>
    cases errors with
    | nil => rfl
    | cons error errors => cases same
  | cons byte bytes inductionHypothesis =>
    cases errors with
    | nil => cases same
    | cons error errors =>
      rw [List.zipWith_cons_cons, List.foldl_cons, byteStep_xor,
        inductionHypothesis _ _ _ (Nat.succ.inj same)]
      rfl

/-! ## Bursts -/

theorem bitStep_zero : bitStep poly (BitVec.ofNat width 0) false = BitVec.ofNat width 0 := by
  have bit : (BitVec.ofBool false).setWidth width = BitVec.ofNat width 0 := by simp
  rw [bitStep, bit, BitVec.xor_zero, shiftStep_zero]

theorem foldl_zeros (bits : List Bool) (zeros : true ∉ bits) :
    bits.foldl (bitStep poly) (BitVec.ofNat width 0) = BitVec.ofNat width 0 := by
  induction bits with
  | nil => rfl
  | cons bit bits inductionHypothesis =>
    rw [List.mem_cons, not_or] at zeros
    cases bit with
    | true => exact absurd rfl zeros.1
    | false => rw [List.foldl_cons, bitStep_zero, inductionHypothesis zeros.2]

/-- The top bit of the polynomial tells which way a shift went. -/
theorem shiftStep_ne_zero (top : poly.getLsbD (width - 1) = true) {register : BitVec width}
    (some : register ≠ BitVec.ofNat width 0) : shiftStep poly register ≠ BitVec.ofNat width 0 := by
  intro lost
  rw [shiftStep] at lost
  split at lost
  · -- the shifted register has no top bit, so the polynomial's is left
    have topBit := congrArg (fun word : BitVec width => word.getLsbD (width - 1)) lost
    simp only [BitVec.getLsbD_xor, BitVec.getLsbD_ushiftRight, top] at topBit
    rw [BitVec.getLsbD_of_ge register _ (by omega)] at topBit
    simp at topBit
  · rename_i low
    apply some
    apply BitVec.eq_of_getLsbD_eq
    intro i inside
    cases i with
    | zero => simpa using low
    | succ i =>
      have bit := congrArg (fun word : BitVec width => word.getLsbD i) lost
      simp only [BitVec.getLsbD_ushiftRight, BitVec.getLsbD_zero] at bit
      rw [Nat.add_comm, bit, BitVec.getLsbD_zero]

theorem shifts_ne_zero (top : poly.getLsbD (width - 1) = true) (count : Nat)
    {register : BitVec width} (some : register ≠ BitVec.ofNat width 0) :
    (shiftStep poly)^[count] register ≠ BitVec.ofNat width 0 := by
  induction count with
  | zero => exact some
  | succ count inductionHypothesis =>
    rw [Function.iterate_succ_apply']
    exact shiftStep_ne_zero poly top inductionHypothesis

theorem foldl_ne_zero (top : poly.getLsbD (width - 1) = true) (bits : List Bool)
    {register : BitVec width} (some : register ≠ BitVec.ofNat width 0) (zeros : true ∉ bits) :
    bits.foldl (bitStep poly) register ≠ BitVec.ofNat width 0 := by
  induction bits generalizing register with
  | nil => exact some
  | cons bit bits inductionHypothesis =>
    rw [List.mem_cons, not_or] at zeros
    cases bit with
    | true => exact absurd rfl zeros.1
    | false =>
      refine inductionHypothesis ?_ zeros.2
      have bit : (BitVec.ofBool false).setWidth width = BitVec.ofNat width 0 := by simp
      rw [bitStep, bit, BitVec.xor_zero]
      exact shiftStep_ne_zero poly top some

/-- A burst that is no longer than the register. -/
theorem burst_detected (top : poly.getLsbD (width - 1) = true) (before burst after : List Bool)
    (zerosBefore : true ∉ before) (zerosAfter : true ∉ after) (short : burst.length ≤ width)
    (some : true ∈ burst) :
    (before ++ burst ++ after).foldl (bitStep poly) (BitVec.ofNat width 0) ≠
      BitVec.ofNat width 0 := by
  rw [List.foldl_append, List.foldl_append, foldl_zeros poly before zerosBefore]
  refine foldl_ne_zero poly top after ?_ zerosAfter
  rw [foldl_bitStep poly _ burst short, BitVec.zero_xor]
  refine shifts_ne_zero poly top burst.length ?_
  intro none
  obtain ⟨i, inside, bit⟩ := List.getElem_of_mem some
  have isSet : (word width burst).getLsbD i = true := by
    rw [getLsbD_word burst i (by omega), List.getD_eq_getElem?_getD,
      List.getElem?_eq_getElem inside, bit]
    rfl
  rw [none, BitVec.getLsbD_zero] at isSet
  cases isSet

/-! ## Parity -/

/-- Whether `f` holds of an odd number of the numbers below `bound`. -/
def oddBelow (f : Nat → Bool) : Nat → Bool
  | 0 => false
  | bound + 1 => oddBelow f bound ^^ f bound

/-- Whether the register has an odd number of bits. -/
def parity (register : BitVec width) : Bool := oddBelow register.getLsbD width

theorem oddBelow_xor (f g : Nat → Bool) (bound : Nat) :
    oddBelow (fun i => f i ^^ g i) bound = (oddBelow f bound ^^ oddBelow g bound) := by
  induction bound with
  | zero => rfl
  | succ bound inductionHypothesis =>
    rw [oddBelow, oddBelow, oddBelow, inductionHypothesis]
    cases f bound <;> cases g bound <;> simp

theorem oddBelow_succ (f : Nat → Bool) (bound : Nat) :
    oddBelow f (bound + 1) = (f 0 ^^ oddBelow (fun i => f (i + 1)) bound) := by
  induction bound with
  | zero => simp [oddBelow]
  | succ bound inductionHypothesis => rw [oddBelow, inductionHypothesis, oddBelow, Bool.xor_assoc]

theorem oddBelow_none (f : Nat → Bool) (bound : Nat) (none : ∀ i, i < bound → f i = false) :
    oddBelow f bound = false := by
  induction bound with
  | zero => rfl
  | succ bound inductionHypothesis =>
    rw [oddBelow, inductionHypothesis fun i below => none i (by omega), none bound (by omega)]
    rfl

theorem parity_xor (left right : BitVec width) :
    parity (left ^^^ right) = (parity left ^^ parity right) := by
  have bits : (left ^^^ right).getLsbD = fun i => left.getLsbD i ^^ right.getLsbD i :=
    funext fun i => BitVec.getLsbD_xor
  rw [parity, bits, oddBelow_xor]
  rfl

theorem parity_shiftRight (register : BitVec width) :
    parity (register >>> 1) = (parity register ^^ register.getLsbD 0) := by
  have bits : (register >>> 1).getLsbD = fun i => register.getLsbD (i + 1) := by
    funext i
    rw [BitVec.getLsbD_ushiftRight, Nat.add_comm]
  have whole : oddBelow register.getLsbD (width + 1) = parity register := by
    rw [oddBelow, BitVec.getLsbD_of_ge register width (Nat.le_refl _), Bool.xor_false]
    rfl
  rw [parity, bits, ← whole, oddBelow_succ]
  cases register.getLsbD 0 <;> simp

theorem parity_bit (bit : Bool) (some : 0 < width) :
    parity ((BitVec.ofBool bit).setWidth width) = bit := by
  obtain ⟨bound, rfl⟩ : ∃ bound, width = bound + 1 := ⟨width - 1, by omega⟩
  rw [parity, oddBelow_succ, getLsbD_bit bit 0 some, oddBelow_none]
  · simp
  · intro i below
    rw [getLsbD_bit bit (i + 1) (by omega)]
    simp

theorem parity_shiftStep (odd : parity poly = true) (register : BitVec width) :
    parity (shiftStep poly register) = parity register := by
  rw [shiftStep]
  split
  · rename_i low
    rw [parity_xor, parity_shiftRight, low, odd]
    simp
  · rename_i low
    rw [parity_shiftRight, Bool.eq_false_iff.mpr low, Bool.xor_false]

theorem parity_foldl (odd : parity poly = true) (some : 0 < width) (register : BitVec width)
    (bits : List Bool) :
    parity (bits.foldl (bitStep poly) register) =
      (parity register ^^ bits.count true % 2 == 1) := by
  induction bits generalizing register with
  | nil => simp
  | cons bit bits inductionHypothesis =>
    rw [List.foldl_cons, inductionHypothesis, bitStep, parity_shiftStep poly odd, parity_xor,
      parity_bit bit some]
    cases bit with
    | false => simp
    | true =>
      rw [List.count_cons_self]
      cases Nat.mod_two_eq_zero_or_one (bits.count true) with
      | inl even =>
        have next : (bits.count true + 1) % 2 = 1 := by omega
        simp [even, next]
      | inr odd =>
        have next : (bits.count true + 1) % 2 = 0 := by omega
        simp [odd, next]

/-- An error with an odd number of bits. -/
theorem odd_detected (odd : parity poly = true) (some : 0 < width) (bits : List Bool)
    (oddBits : bits.count true % 2 = 1) :
    bits.foldl (bitStep poly) (BitVec.ofNat width 0) ≠ BitVec.ofNat width 0 := by
  intro lost
  have zero : parity (BitVec.ofNat width 0) = false :=
    oddBelow_none _ width fun i _ => BitVec.getLsbD_zero
  have kept := parity_foldl poly odd some (BitVec.ofNat width 0) bits
  rw [lost, zero, oddBits] at kept
  cases kept

end EmbeddedBridge.Library.Crc
