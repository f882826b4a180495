import EmbeddedBridge.Library.Crc

/-! # CRC-16/HDLC

`detail/crc16.h` and `framing/crc16.py`.  The device computes in `uint16_t`, the
host in unbounded integers masked to sixteen bits; `python_crc16Hdlc` says that
the two agree.  Both are the reflected CRC of `Library.Crc` with polynomial
`0x8408`, from which the residue test gets its meaning: `residueGood_iff`.
-/

namespace EmbeddedBridge

open Library

/-! ## C++ -/

namespace Cpp

def crc16Init : UInt16 := 0xFFFF

def crc16Good : UInt16 := 0x0F47

def crc16HdlcShift (crc : UInt16) : UInt16 :=
  if crc &&& 0x0001 ≠ 0 then (crc >>> 1) ^^^ 0x8408 else crc >>> 1

def crc16HdlcUpdate (crc : UInt16) (b : UInt8) : UInt16 :=
  crc16HdlcShift^[8] (crc ^^^ b.toUInt16)

/-- The register after a buffer, before the final complement. -/
def crc16HdlcRun (data : List UInt8) : UInt16 := data.foldl crc16HdlcUpdate crc16Init

def crc16Hdlc (data : List UInt8) : UInt16 := crc16HdlcRun data ^^^ 0xFFFF

/-- The check bytes that follow a payload, low byte first. -/
def crcBytes (payload : List UInt8) : List UInt8 :=
  let crc := crc16Hdlc payload
  [(crc &&& 0xFF).toUInt8, (crc >>> 8).toUInt8]

end Cpp

/-! ## Python -/

namespace Python

def crc16Init : Nat := 0xFFFF

def crc16Good : Nat := 0x0F47

def crc16HdlcShift (crc : Nat) : Nat :=
  if crc &&& 0x0001 ≠ 0 then (crc >>> 1) ^^^ 0x8408 else crc >>> 1

def crc16HdlcUpdate (crc : Nat) (byte : Nat) : Nat :=
  crc16HdlcShift^[8] (crc ^^^ (byte &&& 0xFF)) &&& 0xFFFF

def crc16HdlcRun (data : List UInt8) : Nat :=
  data.foldl (fun crc b => crc16HdlcUpdate crc b.toNat) crc16Init

def crc16Hdlc (data : List UInt8) : Nat := (crc16HdlcRun data ^^^ 0xFFFF) &&& 0xFFFF

def crcBytes (payload : List UInt8) : List UInt8 :=
  let crc := crc16Hdlc payload
  [UInt8.ofNat (crc &&& 0xFF), UInt8.ofNat (crc >>> 8)]

end Python

/-! ## The two agree -/

theorem python_crc16HdlcShift (crc : UInt16) :
    Python.crc16HdlcShift crc.toNat = (Cpp.crc16HdlcShift crc).toNat := by
  have bit : crc &&& 0x0001 ≠ 0 ↔ crc.toNat &&& 0x0001 ≠ 0 := by
    rw [Ne, ← UInt16.toNat_inj, UInt16.toNat_and]
    rfl
  unfold Python.crc16HdlcShift Cpp.crc16HdlcShift
  by_cases odd : crc &&& 0x0001 ≠ 0
  · rw [if_pos odd, if_pos (bit.mp odd), UInt16.toNat_xor, UInt16.toNat_shiftRight]
    rfl
  · rw [if_neg odd, if_neg fun odd' => odd (bit.mpr odd'), UInt16.toNat_shiftRight]
    rfl

theorem python_crc16HdlcShifts (count : Nat) (crc : UInt16) :
    Python.crc16HdlcShift^[count] crc.toNat = (Cpp.crc16HdlcShift^[count] crc).toNat := by
  induction count generalizing crc with
  | zero => rfl
  | succ count inductionHypothesis =>
    rw [Function.iterate_succ_apply, Function.iterate_succ_apply, python_crc16HdlcShift,
      inductionHypothesis]

theorem python_crc16HdlcUpdate (crc : UInt16) (b : UInt8) :
    Python.crc16HdlcUpdate crc.toNat b.toNat = (Cpp.crc16HdlcUpdate crc b).toNat := by
  have byte : b.toNat &&& 0xFF = b.toUInt16.toNat := by
    have bound := b.toNat_lt
    rw [UInt8.toNat_toUInt16, show (0xFF : Nat) = 2 ^ 8 - 1 from rfl, Nat.and_two_pow_sub_one_eq_mod]
    omega
  have word : ∀ crc : UInt16, crc.toNat &&& 0xFFFF = crc.toNat := by
    intro crc
    have bound := crc.toNat_lt
    rw [show (0xFFFF : Nat) = 2 ^ 16 - 1 from rfl, Nat.and_two_pow_sub_one_eq_mod]
    omega
  rw [Python.crc16HdlcUpdate, byte, ← UInt16.toNat_xor, python_crc16HdlcShifts, word,
    Cpp.crc16HdlcUpdate]

theorem foldl_python_crc16HdlcUpdate (crc : UInt16) (data : List UInt8) :
    data.foldl (fun crc b => Python.crc16HdlcUpdate crc b.toNat) crc.toNat =
      (data.foldl Cpp.crc16HdlcUpdate crc).toNat := by
  induction data generalizing crc with
  | nil => rfl
  | cons b data inductionHypothesis =>
    rw [List.foldl_cons, List.foldl_cons, python_crc16HdlcUpdate, inductionHypothesis]

theorem python_crc16HdlcRun (data : List UInt8) :
    Python.crc16HdlcRun data = (Cpp.crc16HdlcRun data).toNat :=
  foldl_python_crc16HdlcUpdate Cpp.crc16Init data

theorem python_crc16Hdlc (data : List UInt8) :
    Python.crc16Hdlc data = (Cpp.crc16Hdlc data).toNat := by
  have bound := (Cpp.crc16Hdlc data).toNat_lt
  have complement : Python.crc16HdlcRun data ^^^ 0xFFFF = (Cpp.crc16Hdlc data).toNat := by
    rw [python_crc16HdlcRun, Cpp.crc16Hdlc, UInt16.toNat_xor]
    rfl
  rw [Python.crc16Hdlc, complement, show (0xFFFF : Nat) = 2 ^ 16 - 1 from rfl,
    Nat.and_two_pow_sub_one_eq_mod]
  omega

theorem python_crcBytes (payload : List UInt8) : Python.crcBytes payload = Cpp.crcBytes payload := by
  have low : UInt8.ofNat ((Cpp.crc16Hdlc payload).toNat &&& 0xFF) =
      (Cpp.crc16Hdlc payload &&& 0xFF).toUInt8 := by
    apply UInt8.toNat_inj.mp
    rw [UInt8.toNat_ofNat', UInt16.toNat_toUInt8, UInt16.toNat_and]
    rfl
  have high : UInt8.ofNat ((Cpp.crc16Hdlc payload).toNat >>> 8) =
      (Cpp.crc16Hdlc payload >>> 8).toUInt8 := by
    apply UInt8.toNat_inj.mp
    rw [UInt8.toNat_ofNat', UInt16.toNat_toUInt8, UInt16.toNat_shiftRight]
    rfl
  simp only [Python.crcBytes, Cpp.crcBytes, python_crc16Hdlc, low, high]

/-! ## The reflected CRC -/

/-- The reflected polynomial. -/
def poly : BitVec 16 := 0x8408#16

theorem crc16HdlcShift_toBitVec (crc : UInt16) :
    (Cpp.crc16HdlcShift crc).toBitVec = Crc.shiftStep poly crc.toBitVec := by
  have bit : crc &&& 0x0001 ≠ 0 ↔ crc.toBitVec.getLsbD 0 = true := by
    rw [Ne, ← UInt16.toBitVec_inj, UInt16.toBitVec_and]
    have mask := BitVec.and_one_eq_setWidth_ofBool_getLsbD (x := crc.toBitVec)
    change ¬ crc.toBitVec &&& 1#16 = 0#16 ↔ _
    rw [mask]
    cases crc.toBitVec.getLsbD 0 <;> decide
  unfold Cpp.crc16HdlcShift Crc.shiftStep
  by_cases odd : crc &&& 0x0001 ≠ 0
  · rw [if_pos odd, if_pos (bit.mp odd), UInt16.toBitVec_xor, UInt16.toBitVec_shiftRight]
    rfl
  · rw [if_neg odd, if_neg fun odd' => odd (bit.mpr odd'), UInt16.toBitVec_shiftRight]
    rfl

theorem crc16HdlcUpdate_toBitVec (crc : UInt16) (b : UInt8) :
    (Cpp.crc16HdlcUpdate crc b).toBitVec = Crc.byteStep poly crc.toBitVec b.toBitVec := by
  have shifts : ∀ count (crc : UInt16), (Cpp.crc16HdlcShift^[count] crc).toBitVec =
      (Crc.shiftStep poly)^[count] crc.toBitVec := by
    intro count
    induction count with
    | zero => intro crc; rfl
    | succ count inductionHypothesis =>
      intro crc
      rw [Function.iterate_succ_apply, Function.iterate_succ_apply, inductionHypothesis,
        crc16HdlcShift_toBitVec]
  rw [Cpp.crc16HdlcUpdate, Crc.byteStep, shifts, UInt16.toBitVec_xor, UInt8.toBitVec_toUInt16]

theorem poly_faithful : Crc.Faithful poly := by
  unfold Crc.Faithful
  decide +kernel

theorem poly_residue : Crc.residue poly 0xFFFF#16 = 0xF0B8#16 := by decide +kernel

theorem crcBytes_length (payload : List UInt8) : (Cpp.crcBytes payload).length = 2 := rfl

/-- The register after a payload and two more bytes. -/
theorem crc16HdlcRun_pair (payload : List UInt8) (low high : UInt8) :
    (Cpp.crc16HdlcRun (payload ++ [low, high])).toBitVec =
      Crc.pairStep poly (Cpp.crc16HdlcRun payload).toBitVec low.toBitVec high.toBitVec := by
  rw [Cpp.crc16HdlcRun, List.foldl_append, List.foldl_cons, List.foldl_cons, List.foldl_nil,
    crc16HdlcUpdate_toBitVec, crc16HdlcUpdate_toBitVec]
  rfl

theorem lowByte_toBitVec (crc : UInt16) :
    (crc &&& 0xFF).toUInt8.toBitVec = Crc.lowByte crc.toBitVec := by
  apply BitVec.eq_of_toNat_eq
  have whole : (crc &&& 0xFF).toUInt8.toNat = crc.toNat % 256 := by
    rw [UInt16.toNat_toUInt8, UInt16.toNat_and, show (0xFF : UInt16).toNat = 2 ^ 8 - 1 from rfl,
      Nat.and_two_pow_sub_one_eq_mod]
    omega
  rw [Crc.lowByte, BitVec.toNat_setWidth]
  exact whole

theorem highByte_toBitVec (crc : UInt16) :
    (crc >>> 8).toUInt8.toBitVec = Crc.highByte crc.toBitVec := by
  apply BitVec.eq_of_toNat_eq
  rw [Crc.highByte, BitVec.toNat_setWidth, BitVec.toNat_ushiftRight]
  have whole : (crc >>> 8).toUInt8.toNat = crc.toNat >>> 8 % 256 := by
    rw [UInt16.toNat_toUInt8, UInt16.toNat_shiftRight]
    rfl
  exact whole

/-- The complemented register is the good residue exactly after the check bytes. -/
theorem residueGood_pair (payload : List UInt8) (low high : UInt8) :
    Cpp.crc16HdlcRun (payload ++ [low, high]) ^^^ 0xFFFF = Cpp.crc16Good ↔
      [low, high] = Cpp.crcBytes payload := by
  have complement : (Cpp.crc16Hdlc payload).toBitVec =
      (Cpp.crc16HdlcRun payload).toBitVec ^^^ 0xFFFF#16 := by
    rw [Cpp.crc16Hdlc, UInt16.toBitVec_xor]
    rfl
  have residue : Cpp.crc16HdlcRun (payload ++ [low, high]) ^^^ 0xFFFF = Cpp.crc16Good ↔
      Crc.pairStep poly (Cpp.crc16HdlcRun payload).toBitVec low.toBitVec high.toBitVec =
        Crc.residue poly 0xFFFF#16 := by
    rw [← UInt16.toBitVec_inj, UInt16.toBitVec_xor, crc16HdlcRun_pair, poly_residue]
    -- the final complement is moved to the other side
    constructor
    · intro good
      have cancelled : _ ^^^ 0xFFFF#16 ^^^ 0xFFFF#16 = 0x0F47#16 ^^^ 0xFFFF#16 :=
        congrArg (· ^^^ 0xFFFF#16) good
      rw [BitVec.xor_assoc, BitVec.xor_self, BitVec.xor_zero] at cancelled
      exact cancelled
    · intro good
      rw [good]
      rfl
  rw [residue, Cpp.crcBytes]
  simp only [List.cons.injEq, and_true, ← UInt8.toBitVec_inj, lowByte_toBitVec, highByte_toBitVec,
    complement]
  constructor
  · exact Crc.checkBytes_unique poly poly_faithful _ _
  · intro bytes
    rw [bytes.1, bytes.2]
    exact Crc.checkBytes_residue poly _ _

theorem residueGood_iff (body : List UInt8) (long : 2 ≤ body.length) :
    Cpp.crc16HdlcRun body ^^^ 0xFFFF = Cpp.crc16Good ↔
      ∃ payload, body = payload ++ Cpp.crcBytes payload := by
  obtain ⟨payload, trailer, split, two⟩ : ∃ payload trailer, body = payload ++ trailer ∧
      trailer.length = 2 :=
    ⟨body.take (body.length - 2), body.drop (body.length - 2), (List.take_append_drop _ _).symm,
      by rw [List.length_drop]; omega⟩
  obtain ⟨low, high, pair⟩ := List.length_eq_two.mp two
  rw [split, pair, residueGood_pair]
  constructor
  · intro check
    exact ⟨payload, by rw [check]⟩
  · rintro ⟨other, same⟩
    obtain ⟨samePayload, check⟩ := List.append_inj' same rfl
    rw [check, samePayload]

end EmbeddedBridge
