import EmbeddedBridge.Framing.CobsArrays

/-! # The COBS codec

The encoders and decoders of both languages against each other: what is encoded
is decoded, has no zero in it, and is longer by one byte and at most one more for
every 254.  The framers of the two languages deliver the same from every stream,
because what they keep of a frame is too short for the device's decoder to run out
of room.
-/

namespace EmbeddedBridge

open Library

/-- The properties of an encoding of `data`, with the decoder it is meant for. -/
structure CobsEncodes (decode : List UInt8 → Option (List UInt8)) (data encoded : List UInt8) :
    Prop where
  roundTrip : decode encoded = some data
  noZero : 0 ∉ encoded
  longer : data.length + 1 ≤ encoded.length
  bounded : encoded.length ≤ data.length + data.length / 254 + 1

theorem cobsEncodes {decode : List UInt8 → Option (List UInt8)} {data : List UInt8}
    (roundTrip : decode (Cobs.encode data) = some data) :
    CobsEncodes decode data (Cobs.encode data) := by
  have length := Cobs.encode_length data
  have bound := Cobs.encode_length_le data
  refine ⟨roundTrip, Cobs.zero_not_mem_encode data, by omega, ?_⟩
  rw [Nat.add_right_comm]
  exact bound

/-! ## Main results -/

/-- The host's codec, and the device's as soon as its arrays are large enough. -/
theorem cobs_codec (data : List UInt8) :
    CobsEncodes Python.cobsDecode data (Python.cobsEncode data) ∧
      ∀ (dst : List UInt8) (dstCap : Nat), data.length + data.length / 254 + 1 ≤ dst.length →
        data.length ≤ dstCap →
        ∃ encoded encLen, Cpp.cobsEncode data dst = some (encoded, encLen) ∧
          encoded.length = dst.length ∧ encLen ≤ dst.length ∧
          CobsEncodes (Cpp.cobsDecode dstCap) data (encoded.take encLen) := by
  constructor
  · rw [python_cobsEncode]
    exact cobsEncodes ((python_cobsDecode _).trans (Cobs.decode_encode data))
  · intro dst dstCap room fits
    have bound := Cobs.encode_length_le data
    have short : (Cobs.encode data).length ≤ dst.length := by
      simp only [Cobs.fullBlock] at bound
      omega
    obtain ⟨spare, encoded⟩ := cpp_cobsEncode data dst short
    refine ⟨_, _, encoded, Cpp.cobsEncode_length encoded, short, ?_⟩
    rw [List.take_left]
    exact cobsEncodes (cpp_cobsDecode (Cobs.decode_encode data) fits)

/-- A zero, and a scratch array with no byte to spare. -/
theorem cobs_codec_zero :
    ∃ encoded encLen, Cpp.cobsEncode [0x41, 0x00, 0x42] [9, 9, 9, 9] = some (encoded, encLen) ∧
      encoded.length = 4 ∧ encLen ≤ 4 ∧
      CobsEncodes (Cpp.cobsDecode 3) [0x41, 0x00, 0x42] (encoded.take encLen) :=
  (cobs_codec [0x41, 0x00, 0x42]).2 [9, 9, 9, 9] 3 (by decide) (by decide)

namespace CobsFramer

variable {bufSize : Nat}

/-- The languages differ in the decoder alone, and on what a framer can hold of a
frame the decoders agree. -/
theorem processByte_agrees (framer : CobsFramer bufSize) (c : UInt8) :
    framer.processByte .cpp c = framer.processByte .python c := by
  have decoded : Language.cobsDecode bufSize .cpp framer.raw.items =
      Language.cobsDecode bufSize .python framer.raw.items := by
    rw [Language.cobsDecode, Language.cobsDecode, Cpp.cobsDecode_short framer.raw.bounded,
      python_cobsDecode]
  rw [processByte, processByte, decoded]

/-- Every stream is delivered alike, and whenever the device decodes, whatever was
in its array before, it stays inside of both arrays, has the capacity it needs, and
comes to an end. -/
theorem framers_agree (bufSize : Nat) (stream : List UInt8) :
    (Transducer.run (processByte .cpp) ({} : CobsFramer bufSize) stream).2 =
        (Transducer.run (processByte .python) ({} : CobsFramer bufSize) stream).2 ∧
      ∀ before after dst, stream = before ++ 0x00 :: after → dst.length = bufSize →
        let raw := (Transducer.run (processByte .cpp) ({} : CobsFramer bufSize) before).1.raw.items
        Cpp.CobsEnds [] raw.length (Cpp.cobsDecode bufSize raw)
          (Cpp.cobsDecodeArrays bufSize raw raw.length { dst }) := by
  constructor
  · have same : (processByte .cpp : Transducer.Step (CobsFramer bufSize) UInt8 (List UInt8)) =
        processByte .python := funext fun framer => funext fun c => processByte_agrees framer c
    rw [same]
  · intro before after dst _ capacity raw
    exact Cpp.cobsDecodeArrays_cobsDecode raw dst capacity
      (Transducer.run (processByte .cpp) ({} : CobsFramer bufSize) before).1.raw.bounded

/-- A block that is longer than what is left of its frame. -/
theorem framers_agree_truncated :
    (Transducer.run (processByte .cpp) ({} : CobsFramer 4) [0x05, 0x41, 0x00]).2 =
        (Transducer.run (processByte .python) ({} : CobsFramer 4) [0x05, 0x41, 0x00]).2 ∧
      (let raw := (Transducer.run (processByte .cpp) ({} : CobsFramer 4) [0x05, 0x41]).1.raw.items
      Cpp.CobsEnds [] raw.length (Cpp.cobsDecode 4 raw)
        (Cpp.cobsDecodeArrays 4 raw raw.length { dst := [9, 9, 9, 9] })) :=
  ⟨(framers_agree 4 [0x05, 0x41, 0x00]).1,
    (framers_agree 4 [0x05, 0x41, 0x00]).2 [0x05, 0x41] [] [9, 9, 9, 9] rfl rfl⟩

end CobsFramer

end EmbeddedBridge
