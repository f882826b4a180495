import EmbeddedBridge.Library.CrcErrors
import EmbeddedBridge.Framing.Hdlc

/-! # What the CRC detects

Between an intact body and a damaged one the register differs by what the error
alone leaves in an empty register (`crc16HdlcRun_xor`).  The polynomial has its
top bit and an odd number of bits, so bursts of up to sixteen bits and errors of
an odd number of bits leave something there, and the framer's test fails.
-/

namespace EmbeddedBridge

open Library

/-- The bits of a body, those of each byte least significant first. -/
def bodyBits (body : List UInt8) : List Bool := body.flatMap fun byte => Crc.bitsOf byte.toBitVec

/-- The set bits lie within sixteen bit positions in a row. -/
def Burst (error : List UInt8) : Prop :=
  ∃ start, ∀ i, (bodyBits error)[i]? = some true → start ≤ i ∧ i < start + 16

/-- An odd number of bits is set. -/
def OddBits (error : List UInt8) : Prop := (bodyBits error).count true % 2 = 1

theorem poly_top : poly.getLsbD (16 - 1) = true := by decide

theorem poly_odd : Crc.parity poly = true := by decide

theorem crc16HdlcRun_toBitVec (data : List UInt8) :
    (Cpp.crc16HdlcRun data).toBitVec =
      (data.map UInt8.toBitVec).foldl (Crc.byteStep poly) Cpp.crc16Init.toBitVec := by
  have general : ∀ crc : UInt16, (data.foldl Cpp.crc16HdlcUpdate crc).toBitVec =
      (data.map UInt8.toBitVec).foldl (Crc.byteStep poly) crc.toBitVec := by
    induction data with
    | nil => intro crc; rfl
    | cons b data inductionHypothesis =>
      intro crc
      rw [List.foldl_cons, inductionHypothesis, crc16HdlcUpdate_toBitVec, List.map_cons,
        List.foldl_cons]
  exact general Cpp.crc16Init

/-- What an error leaves in an empty register. -/
def errorRegister (error : List UInt8) : BitVec 16 :=
  (bodyBits error).foldl (Crc.bitStep poly) (BitVec.ofNat 16 0)

theorem crc16HdlcRun_xor (body error : List UInt8) (same : error.length = body.length) :
    (Cpp.crc16HdlcRun (List.zipWith (· ^^^ ·) body error)).toBitVec =
      (Cpp.crc16HdlcRun body).toBitVec ^^^ errorRegister error := by
  have bytes : (List.zipWith (· ^^^ ·) body error).map UInt8.toBitVec =
      List.zipWith (· ^^^ ·) (body.map UInt8.toBitVec) (error.map UInt8.toBitVec) := by
    rw [List.map_zipWith, List.zipWith_map]
    rfl
  have bits := Crc.foldl_byteStep_bits poly (by decide) (BitVec.ofNat 16 0)
    (error.map UInt8.toBitVec)
  rw [List.flatMap_map] at bits
  rw [crc16HdlcRun_toBitVec, crc16HdlcRun_toBitVec, bytes, errorRegister, bodyBits, ← bits,
    ← Crc.foldl_byteStep_xor poly _ _ _ _ (by simpa using same), BitVec.xor_zero]

theorem mem_bodyBits {error : List UInt8} (damaged : ∃ byte ∈ error, byte ≠ 0) :
    true ∈ bodyBits error := by
  obtain ⟨byte, member, nonzero⟩ := damaged
  refine List.mem_flatMap.mpr ⟨byte, member, ?_⟩
  by_contra none
  apply nonzero
  rw [← UInt8.toBitVec_inj]
  apply BitVec.eq_of_getLsbD_eq
  intro i inside
  refine Eq.trans ?_ BitVec.getLsbD_zero.symm
  by_contra isSet
  exact none (List.mem_map.mpr ⟨i, List.mem_range.mpr inside, Bool.not_eq_false _ ▸ isSet⟩)

theorem errorRegister_burst {error : List UInt8} (damaged : true ∈ bodyBits error)
    (burst : Burst error) : errorRegister error ≠ BitVec.ofNat 16 0 := by
  obtain ⟨start, within⟩ := burst
  -- the bits before the burst, the sixteen positions of it, and the bits after
  have split : bodyBits error = (bodyBits error).take start ++
      ((bodyBits error).drop start).take 16 ++ ((bodyBits error).drop start).drop 16 := by
    rw [List.append_assoc, List.take_append_drop, List.take_append_drop]
  have before : true ∉ (bodyBits error).take start := by
    intro member
    obtain ⟨i, bit⟩ := List.mem_iff_getElem?.mp member
    rw [List.getElem?_take] at bit
    split at bit
    · have := within i bit
      omega
    · cases bit
  have after : true ∉ ((bodyBits error).drop start).drop 16 := by
    intro member
    obtain ⟨i, bit⟩ := List.mem_iff_getElem?.mp member
    rw [List.getElem?_drop, List.getElem?_drop] at bit
    have := within _ bit
    omega
  have inside : true ∈ ((bodyBits error).drop start).take 16 := by
    rw [split, List.mem_append, List.mem_append] at damaged
    cases damaged with
    | inl damaged =>
      cases damaged with
      | inl earlier => exact absurd earlier before
      | inr within => exact within
    | inr later => exact absurd later after
  rw [errorRegister, split]
  exact Crc.burst_detected poly poly_top _ _ _ before after (List.length_take_le _ _) inside

theorem errorRegister_odd {error : List UInt8} (odd : OddBits error) :
    errorRegister error ≠ BitVec.ofNat 16 0 :=
  Crc.odd_detected poly poly_odd (by decide) _ odd

namespace HdlcFramer

variable {bufSize : Nat}

/-- Whoever delivers has the good residue in its register. -/
theorem residue_of_deliver {language : Language} {framer : HdlcFramer bufSize}
    (delivers : framer.deliver language ≠ []) :
    Cpp.crc16HdlcRun framer.buf.items ^^^ 0xFFFF = Cpp.crc16Good := by
  obtain ⟨payload, member⟩ := List.exists_mem_of_ne_nil _ delivers
  have loaded := mem_deliver.mp member
  have long : 2 ≤ framer.buf.items.length := by
    rw [loaded, List.length_append, crcBytes_two]
    omega
  refine (residueGood_iff _ long).mpr ⟨payload, ?_⟩
  rw [← crcBytes_eq language]
  exact loaded

/-! ## Main result -/

/-- A body that is delivered is not delivered any more after a burst of up to
sixteen bits, or an error with an odd number of bits. -/
theorem error_detected (language : Language) (intact damaged : HdlcFramer bufSize)
    (error : List UInt8) (accepted : intact.deliver language ≠ [])
    (sameLength : error.length = intact.buf.items.length) (nonzero : ∃ byte ∈ error, byte ≠ 0)
    (detectable : Burst error ∨ OddBits error)
    (damage : damaged.buf.items = List.zipWith (· ^^^ ·) intact.buf.items error) :
    damaged.deliver language = [] := by
  by_contra delivers
  have good := residue_of_deliver accepted
  have bad := residue_of_deliver delivers
  rw [damage] at bad
  have same : Cpp.crc16HdlcRun (List.zipWith (· ^^^ ·) intact.buf.items error) =
      Cpp.crc16HdlcRun intact.buf.items := by
    have complements := bad.trans good.symm
    exact (UInt16.xor_left_inj 0xFFFF).mp complements
  have register := crc16HdlcRun_xor intact.buf.items error sameLength
  rw [same] at register
  have lost : errorRegister error = BitVec.ofNat 16 0 := by
    have cancelled := congrArg ((Cpp.crc16HdlcRun intact.buf.items).toBitVec ^^^ ·) register
    simpa [← BitVec.xor_assoc] using cancelled.symm
  cases detectable with
  | inl burst => exact errorRegister_burst (mem_bodyBits nonzero) burst lost
  | inr odd => exact errorRegister_odd odd lost

/-- Three bits of the payload. -/
theorem error_detected_three :
    ({ buf := ⟨[0x6E, 0xEA] ++ Cpp.crcBytes [0x6F, 0x6B], by decide⟩ } : HdlcFramer 4).deliver
      .cpp = [] :=
  error_detected .cpp { buf := ⟨[0x6F, 0x6B] ++ Cpp.crcBytes [0x6F, 0x6B], by decide⟩ } _
    [0x01, 0x81, 0x00, 0x00] (by decide +kernel) (by decide) (by decide)
    (.inr (by rw [OddBits]; decide)) (by decide +kernel)

end HdlcFramer

end EmbeddedBridge
