import EmbeddedBridge.Framing.Cobs

/-! # COBS capacity

The writer takes payloads of up to `BufSize` bytes, and the framer keeps
`BufSize + 1` bytes of a frame, which is enough for a payload without a full
block.  Each full block of 254 bytes takes one byte more: `run_frames` says that
the framer delivers the payloads for which there is room for all of these, and
drops the others whole.
-/

namespace EmbeddedBridge.CobsFramer

open Library

variable {bufSize : Nat} {language : Language}

theorem processByte_zero (language : Language) (framer : CobsFramer bufSize) :
    framer.processByte language 0 =
      ({}, if framer.raw.items.length > 0 ∧ framer.error = false then
        (language.cobsDecode bufSize framer.raw.items).toList else []) := by
  rw [processByte, if_pos rfl]

/-- What a framer holds of the frame it has read so far. -/
def Read (framer : CobsFramer bufSize) (encoded : List UInt8) : Prop :=
  if encoded.length ≤ bufSize + 1 then framer.error = false ∧ framer.raw.items = encoded
  else framer.error = true ∧ framer.raw.items.length = bufSize + 1

theorem read_processByte (framer : CobsFramer bufSize) (encoded : List UInt8) (c : UInt8)
    (read : framer.Read encoded) (nonzero : c ≠ 0) :
    (framer.processByte language c).2 = [] ∧
      (framer.processByte language c).1.Read (encoded ++ [c]) := by
  rw [Read] at read
  rw [processByte, if_neg nonzero, Read, List.length_append, List.length_singleton]
  cases pushed : framer.raw.push? c with
  | some raw =>
    obtain ⟨room, items⟩ := BoundedBuffer.push?_some pushed
    split at read
    · obtain ⟨noError, held⟩ := read
      rw [held] at room items
      rw [if_pos (by omega)]
      exact ⟨rfl, noError, items⟩
    · omega
  | none =>
    have full := BoundedBuffer.push?_none pushed
    have long : ¬ encoded.length + 1 ≤ bufSize + 1 := by
      split at read
      · rw [read.2] at full
        omega
      · omega
    rw [if_neg long]
    exact ⟨rfl, rfl, full⟩

variable (bufSize) in
theorem run_encoded (language : Language) (encoded : List UInt8) (noZero : 0 ∉ encoded) :
    ∃ framer, Transducer.run (processByte language) ({} : CobsFramer bufSize) encoded =
      (framer, []) ∧ framer.Read encoded := by
  induction encoded using List.reverseRecOn with
  | nil => exact ⟨{}, rfl, rfl, rfl⟩
  | append_singleton encoded c inductionHypothesis =>
    rw [List.mem_append, not_or, List.mem_singleton] at noZero
    obtain ⟨framer, ran, read⟩ := inductionHypothesis noZero.1
    obtain ⟨silent, next⟩ := read_processByte framer encoded c read (Ne.symm noZero.2)
    refine ⟨(framer.processByte language c).1, ?_, next⟩
    apply Transducer.run_trans_silent _ ran
    rw [Transducer.run_singleton, ← silent]

/-- There is room for a payload, its code bytes included. -/
def Fits (bufSize : Nat) (payload : List UInt8) : Prop :=
  payload.length + Cobs.fullBlocks payload ≤ bufSize

instance : DecidablePred (Fits bufSize) := fun _ => inferInstanceAs (Decidable (_ ≤ _))

theorem run_frame (language : Language) (payload : List UInt8) :
    Transducer.run (processByte language) ({} : CobsFramer bufSize) (Cobs.encode payload ++ [0]) =
      ({}, if Fits bufSize payload then [payload] else []) := by
  obtain ⟨framer, ran, read⟩ := run_encoded bufSize language (Cobs.encode payload)
    (Cobs.zero_not_mem_encode payload)
  have length := Cobs.encode_length payload
  apply Transducer.run_trans_silent _ ran
  rw [Transducer.run_singleton, processByte_zero]
  rw [Read] at read
  -- the encoding fits the raw buffer exactly when the payload fits with its code bytes
  by_cases fits : Fits bufSize payload
  · have room : payload.length + Cobs.fullBlocks payload ≤ bufSize := fits
    rw [if_pos (by omega)] at read
    rw [if_pos fits, if_pos ⟨by rw [read.2]; omega, read.1⟩, read.2,
      cobsDecode_encode language (by omega), Option.toList_some]
  · have noRoom : ¬ payload.length + Cobs.fullBlocks payload ≤ bufSize := fits
    rw [if_neg (by omega)] at read
    rw [if_neg fits, if_neg (by rw [read.1]; simp)]

/-- The framer delivers the payloads that fit, and drops the others. -/
theorem run_frames (language : Language) (payloads : List (List UInt8)) :
    Transducer.run (processByte language) ({} : CobsFramer bufSize)
        (payloads.flatMap fun payload => Cobs.encode payload ++ [0]) =
      ({}, payloads.filter fun payload => decide (Fits bufSize payload)) := by
  have delivered : (payloads.flatMap fun payload => if Fits bufSize payload then [payload] else []) =
      payloads.filter fun payload => decide (Fits bufSize payload) := by
    induction payloads with
    | nil => rfl
    | cons payload payloads inductionHypothesis =>
      rw [List.flatMap_cons, inductionHypothesis]
      by_cases fits : Fits bufSize payload
      · simp [fits]
      · simp [fits]
  rw [← delivered]
  exact Transducer.run_frames _ _ _ _ payloads fun payload _ => run_frame language payload

theorem delivers_all_iff (language : Language) (payloads : List (List UInt8)) :
    (Transducer.run (processByte language) ({} : CobsFramer bufSize)
        (payloads.flatMap fun payload => Cobs.encode payload ++ [0])).2 = payloads ↔
      ∀ payload ∈ payloads, Fits bufSize payload := by
  rw [run_frames, List.filter_eq_self]
  simp only [decide_eq_true_eq]

open Cpp in
theorem writer_output (calls : List WriterCall) :
    (Transducer.run CobsFramingWriter.call ({} : FramingWriter bufSize) calls).2 =
      (framedPayloads bufSize calls).flatMap fun payload => Cobs.encode payload ++ [0] := by
  rw [CobsFramingWriter.call, output_eq_frames]
  exact List.flatMap_congr fun payload framed =>
    cobsFramingWriter_frame (mem_framedPayloads.mp framed).2

/-! ## Main results -/

open Cpp in
/-- After any history and one zero byte, the framer gets all of what the writer
or the encoder sends it exactly when each payload fits with its code bytes. -/
theorem writer_framer_iff_fits (history : List Call) :
    (∀ calls : List WriterCall,
      (Transducer.run (processByte .cpp)
          ((Transducer.run (call .cpp) ({} : CobsFramer bufSize) history).1.processByte .cpp 0).1
          (Transducer.run CobsFramingWriter.call ({} : FramingWriter bufSize) calls).2).2 =
          framedPayloads bufSize calls ↔
        ∀ payload ∈ requestedPayloads calls, payload.length ≤ bufSize → Fits bufSize payload) ∧
    ∀ payloads : List (List UInt8),
      (Transducer.run (processByte .python)
          ((Transducer.run (call .python) ({} : CobsFramer bufSize) history).1.processByte .python 0).1
          (payloads.flatMap Python.CobsFrameEncoder.encode)).2 = payloads ↔
        ∀ payload ∈ payloads, Fits bufSize payload := by
  constructor
  · intro calls
    rw [processByte_zero, writer_output, delivers_all_iff]
    simp only [mem_framedPayloads, and_imp]
  · intro payloads
    rw [processByte_zero, List.flatMap_congr fun payload _ => cobsFrameEncoder_encode payload,
      delivers_all_iff]

open Cpp in
/-- A full block in a writer of its size: accepted, framed, and lost. -/
theorem writer_framer_full_block :
    let calls := [WriterCall.writeBuf (List.replicate 254 0x41), WriterCall.endFrame]
    framedPayloads 254 calls = [List.replicate 254 0x41] ∧
      (Transducer.run (processByte .cpp)
        (({} : CobsFramer 254).processByte .cpp 0).1
        (Transducer.run CobsFramingWriter.call ({} : FramingWriter 254) calls).2).2 ≠
      framedPayloads 254 calls := by
  intro calls
  have framed : framedPayloads 254 calls = [List.replicate 254 0x41] := by
    rw [framedPayloads_eq]
    decide +kernel
  refine ⟨framed, fun delivered => ?_⟩
  rw [processByte_zero, writer_output, delivers_all_iff, framed] at delivered
  have fits := delivered _ (List.mem_singleton.mpr rfl)
  revert fits
  decide +kernel

end EmbeddedBridge.CobsFramer
