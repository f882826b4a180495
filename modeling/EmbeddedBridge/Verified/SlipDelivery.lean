import EmbeddedBridge.Framing.Slip

/-! # SLIP delivery

What the encoder frames, the framer delivers, but for empty payloads, which END
does not hand on.  The lemmas follow those for HDLC: one stuffed byte, a stuffed
body, one frame from any state, a list of frames.
-/

namespace EmbeddedBridge.SlipFramer

open Library Slip

variable {bufSize : Nat}

/-- No error, no escape, and `content` in the buffer. -/
structure Holds (framer : SlipFramer bufSize) (content : List UInt8) : Prop where
  noError : framer.error = false
  noEscape : framer.escape = false
  items : framer.buf.items = content

theorem holds_clean : Holds ({} : SlipFramer bufSize) [] := ⟨rfl, rfl, rfl⟩

theorem holds_store (framer : SlipFramer bufSize) (content : List UInt8) (c : UInt8)
    (holds : framer.Holds content) (room : (content ++ [c]).length ≤ bufSize) :
    (framer.store c).Holds (content ++ [c]) := by
  rw [← holds.items, List.length_append, List.length_singleton] at room
  obtain ⟨buf, stored, items⟩ := store_of_room framer c (by omega)
  rw [stored]
  exact ⟨holds.noError, holds.noEscape, by rw [items, holds.items]⟩

/-- Stuffing is undone, a byte at a time, as long as there is room. -/
theorem run_emitStuffed (framer : SlipFramer bufSize) (content : List UInt8) (c : UInt8)
    (holds : framer.Holds content) (room : (content ++ [c]).length ≤ bufSize) :
    ∃ next, Transducer.run processByte framer (emitStuffed c) = (next, []) ∧
      next.Holds (content ++ [c]) := by
  refine ⟨framer.store c, ?_, holds_store framer content c holds room⟩
  have settled : ({ framer with escape := false } : SlipFramer bufSize) = framer := by
    rw [← holds.noEscape]
  by_cases isEnd : c = endByte
  · rw [isEnd, emitStuffed, if_pos rfl]
    apply Transducer.run_step_silent _ (processByte_esc framer)
    rw [Transducer.run_singleton, processByte_escEnd _ rfl, settled]
  by_cases isEsc : c = esc
  · rw [isEsc, emitStuffed, if_neg (by decide), if_pos rfl]
    apply Transducer.run_step_silent _ (processByte_esc framer)
    rw [Transducer.run_singleton, processByte_escEsc _ rfl, settled]
  · rw [emitStuffed, if_neg isEnd, if_neg isEsc, Transducer.run_singleton,
      processByte_store framer c holds.noEscape isEnd isEsc]

/-- A stuffed payload that fits is loaded whole. -/
theorem run_body (payload : List UInt8) (fits : payload.length ≤ bufSize) :
    ∃ loaded, Transducer.run processByte ({} : SlipFramer bufSize) (payload.flatMap emitStuffed) =
      (loaded, []) ∧ loaded.Holds payload :=
  Transducer.run_codewords processByte Holds (fun content => content.length ≤ bufSize) emitStuffed
    (fun content symbol fits => by
      rw [List.length_append] at fits
      exact Nat.le_of_add_right_le fits)
    run_emitStuffed {} [] payload holds_clean fits

/-- What END hands on of a payload. -/
def delivered (payload : List UInt8) : List (List UInt8) := if payload = [] then [] else [payload]

theorem processByte_end_of_holds {framer : SlipFramer bufSize} {payload : List UInt8}
    (holds : framer.Holds payload) :
    framer.processByte endByte = ({}, delivered payload) := by
  rw [processByte_end, holds.items, holds.noError, delivered]
  cases payload with
  | nil => rfl
  | cons c payload => simp

/-- One frame, from any state. -/
theorem run_encode (framer : SlipFramer bufSize) (payload : List UInt8)
    (fits : payload.length ≤ bufSize) :
    Transducer.run processByte framer (SlipFrameEncoder.encode payload) =
      ({}, (framer.processByte endByte).2 ++ delivered payload) := by
  obtain ⟨loaded, ran, holds⟩ := run_body payload fits
  have opened : framer.processByte endByte = ({}, (framer.processByte endByte).2) := by
    rw [processByte_end]
  rw [SlipFrameEncoder.encode, List.append_assoc, List.singleton_append]
  apply Transducer.run_step _ opened
  apply Transducer.run_trans_silent _ ran
  rw [Transducer.run_singleton, processByte_end_of_holds holds]

/-- A list of frames, from any state. -/
theorem run_frames (framer : SlipFramer bufSize) (first : List UInt8)
    (payloads : List (List UInt8)) (fits : ∀ payload ∈ first :: payloads, payload.length ≤ bufSize) :
    Transducer.run processByte framer ((first :: payloads).flatMap SlipFrameEncoder.encode) =
      ({}, (framer.processByte endByte).2 ++ (first :: payloads).flatMap delivered) := by
  refine Transducer.run_frames_from processByte {} framer SlipFrameEncoder.encode delivered _ first
    payloads (run_encode framer first (fits first List.mem_cons_self)) ?_
  intro payload member
  rw [run_encode {} payload (fits payload (List.mem_cons_of_mem _ member))]
  rfl

theorem flatMap_delivered (payloads : List (List UInt8)) :
    payloads.flatMap delivered = payloads.filter (· ≠ []) := by
  induction payloads with
  | nil => rfl
  | cons payload payloads inductionHypothesis =>
    rw [List.flatMap_cons, inductionHypothesis, delivered]
    cases payload with
    | nil => simp
    | cons c payload => simp

/-! ## Main results -/

/-- `wire` delivers the non-empty ones of `payloads`, after at most one other
payload that its first END hands on, and leaves the framer empty. -/
def Delivers (framer : SlipFramer bufSize) (wire : List UInt8) (payloads : List (List UInt8)) :
    Prop :=
  ∃ other final,
    Transducer.run processByte framer wire = (final, other ++ payloads.filter (· ≠ [])) ∧
    other.length ≤ 1 ∧
    (payloads ≠ [] → other = (framer.processByte endByte).2 ∧
      final.buf.items = [] ∧ final.error = false ∧ final.escape = false)

theorem delivers_frames (framer : SlipFramer bufSize) (payloads : List (List UInt8))
    (fits : ∀ payload ∈ payloads, payload.length ≤ bufSize) :
    framer.Delivers (payloads.flatMap SlipFrameEncoder.encode) payloads := by
  cases payloads with
  | nil => exact ⟨[], framer, rfl, Nat.zero_le 1, fun some => absurd rfl some⟩
  | cons first payloads =>
    refine ⟨_, {}, ?_, ?_, fun _ => ⟨rfl, rfl, rfl, rfl⟩⟩
    · rw [run_frames framer first payloads fits, flatMap_delivered]
    · rw [processByte_end]
      split <;> simp

open Cpp in
/-- After any history, the encoder's frames are delivered, and so is the output
of a framing writer of the same size. -/
theorem slip_delivers (history : List Call) :
    let framer := (Transducer.run call ({} : SlipFramer bufSize) history).1
    (∀ payloads : List (List UInt8), (∀ payload ∈ payloads, payload.length ≤ bufSize) →
      framer.Delivers (payloads.flatMap SlipFrameEncoder.encode) payloads) ∧
    ∀ calls : List WriterCall,
      framer.Delivers
        (Transducer.run SlipFramingWriter.call ({} : FramingWriter bufSize) calls).2
        (framedPayloads bufSize calls) := by
  intro framer
  constructor
  · exact delivers_frames framer
  · intro calls
    rw [SlipFramingWriter.call, output_eq_frames]
    exact delivers_frames framer _ fun payload framed => (mem_framedPayloads.mp framed).2

/-- Two noise bytes, a pending escape, and then END and ESC themselves as payload. -/
theorem slip_delivers_after_noise :
    (Transducer.run call ({} : SlipFramer 4)
        ([0x41, 0x42, 0xDB].map Call.processByte)).1.Delivers
      ([[0xC0, 0xDB], []].flatMap SlipFrameEncoder.encode) [[0xC0, 0xDB], []] :=
  (slip_delivers ([0x41, 0x42, 0xDB].map Call.processByte)).1 [[0xC0, 0xDB], []] (by decide)

end EmbeddedBridge.SlipFramer
