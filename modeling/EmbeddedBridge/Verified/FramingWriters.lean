import EmbeddedBridge.Framing.Kinds

/-! # The framing writers refine the encoders

What a framing writer sends downstream is what the host's encoder makes of the
payloads whose bytes were all accepted, and of nothing else.  The writer is the
one on arrays, so that a run that has a result has left none of them.
-/

namespace EmbeddedBridge.Framing

open Library Cpp

variable {bufSize : Nat}

/-- A writer on an array that holds anything at first. -/
theorem represents_fresh {cells : List UInt8} (size : cells.length = bufSize) :
    Represents ({ cells } : ArrayWriter bufSize) ({} : FramingWriter bufSize) :=
  ⟨size, rfl, List.take_zero, rfl⟩

/-! ## Main result -/

/-- Any calls, on arrays that hold anything at first: no access fails, downstream
gets the frames of the payloads that were accepted whole, which are those of at
most `BufSize` bytes, and an `end_frame()` leaves an empty writer. -/
theorem writer_refines_encoder (framing : Framing) (cells : List UInt8)
    (scratch : List UInt8 → List UInt8) (calls : List WriterCall) (size : cells.length = bufSize)
    (scratchSize : ∀ payload, (scratch payload).length = bufSize + bufSize / 254 + 2) :
    framedPayloads bufSize calls =
        (requestedPayloads calls).filter (fun payload => decide (payload.length ≤ bufSize)) ∧
      ∃ final,
        ArrayWriter.run (framing.frameArrays scratch) ({ cells } : ArrayWriter bufSize) calls =
          some (final, (framedPayloads bufSize calls).flatMap framing.encode) ∧
        final.cells.length = bufSize ∧ final.len ≤ bufSize ∧
        ∀ before, calls = before ++ [.endFrame] → final.len = 0 ∧ final.overflow = false := by
  refine ⟨framedPayloads_eq bufSize calls, ?_⟩
  obtain ⟨final, ran, represents⟩ :=
    represents_run (frameArrays_eq framing scratchSize) { cells } {} (represents_fresh size) calls
  refine ⟨final, ?_, represents.size, ?_, ?_⟩
  · rw [ran, output_eq_frames]
  · rw [represents.len]
    exact BoundedBuffer.bounded _
  · intro before ends
    rw [ends, FramingWriter.run_endFrame] at represents
    exact ⟨represents.len, represents.overflow⟩

/-- A payload, one that overflows, one that is discarded, and an empty one. -/
theorem writer_refines_encoder_overflow :
    let calls := [.writeBuf [0x41, 0x00], .endFrame, .writeBuf [1, 2], .write 3, .endFrame,
      .write 4, .discard, WriterCall.endFrame]
    framedPayloads 2 calls =
        (requestedPayloads calls).filter (fun payload => decide (payload.length ≤ 2)) ∧
      ∃ final, ArrayWriter.run (Framing.cobs.frameArrays fun _ => [9, 9, 9, 9])
          ({ cells := [7, 7] } : ArrayWriter 2) calls =
          some (final, (framedPayloads 2 calls).flatMap Framing.cobs.encode) ∧
        final.cells.length = 2 ∧ final.len ≤ 2 ∧
        ∀ before, calls = before ++ [.endFrame] → final.len = 0 ∧ final.overflow = false :=
  writer_refines_encoder .cobs [7, 7] (fun _ => [9, 9, 9, 9]) _ rfl (fun _ => rfl)

end EmbeddedBridge.Framing
