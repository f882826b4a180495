import EmbeddedBridge.Framing.Hdlc

/-! # HDLC delivery

What the encoder frames, the framer delivers.  `run_emitStuffed` undoes the
stuffing of one byte, `run_body` that of a payload with its check bytes, and
`run_encode` is the spec of one frame from any state: its opening flag ends
whatever was going on before it, and its closing flag leaves the framer clean.
-/

namespace EmbeddedBridge.HdlcFramer

open Library Hdlc

variable {bufSize : Nat} {language : Language}

/-- In a frame, with `content` un-escaped so far. -/
structure Holds (framer : HdlcFramer bufSize) (content : List UInt8) : Prop where
  inFrame : framer.state = .inFrame
  off : framer.flowControl = false
  items : framer.buf.items = content

theorem holds_clean : Holds (clean : HdlcFramer bufSize) [] := ⟨rfl, rfl, rfl⟩

theorem escXor_twice (c : UInt8) : c ^^^ escXor ^^^ escXor = c := by
  rw [UInt8.xor_assoc, UInt8.xor_self, UInt8.xor_zero]

theorem xor_escXor_ne_flag {c : UInt8} (stuffed : c = flag ∨ c = esc) : c ^^^ escXor ≠ flag := by
  cases stuffed with
  | inl isFlag => rw [isFlag]; decide
  | inr isEsc => rw [isEsc]; decide

/-- Stuffing is undone, a byte at a time, as long as there is room. -/
theorem run_emitStuffed (framer : HdlcFramer bufSize) (content : List UInt8) (c : UInt8)
    (holds : framer.Holds content) (room : (content ++ [c]).length ≤ bufSize) :
    ∃ next, Transducer.run (processByte language) framer (emitStuffed c) = (next, []) ∧
      next.Holds (content ++ [c]) := by
  have room' : framer.buf.items.length < bufSize := by
    rw [holds.items]
    rw [List.length_append, List.length_singleton] at room
    omega
  by_cases stuffed : c = flag ∨ c = esc
  · obtain ⟨buf, stored, items⟩ := store_of_room { framer with state := .escape } c room'
    refine ⟨{ framer with state := .inFrame, buf }, ?_, rfl, holds.off, ?_⟩
    · rw [emitStuffed, if_pos stuffed]
      apply Transducer.run_step_silent _ (processByte_esc language framer holds.off holds.inFrame)
      have unescaped := processByte_escaped language { framer with state := .escape } (c ^^^ escXor)
        holds.off rfl (xor_escXor_ne_flag stuffed)
      rw [Transducer.run_singleton, unescaped, escXor_twice, stored]
    · rw [items, holds.items]
  · obtain ⟨buf, stored, items⟩ := store_of_room framer c room'
    refine ⟨{ framer with buf }, ?_, holds.inFrame, holds.off, ?_⟩
    · rw [emitStuffed, if_neg stuffed, Transducer.run_singleton,
        processByte_store language framer c holds.off holds.inFrame
          (fun isFlag => stuffed (.inl isFlag)) (fun isEsc => stuffed (.inr isEsc)), stored]
    · rw [items, holds.items]

/-- A stuffed body that fits is loaded whole. -/
theorem run_body (bufSize : Nat) (language : Language) (body : List UInt8)
    (fits : body.length ≤ bufSize) :
    ∃ loaded, Transducer.run (processByte language) (clean : HdlcFramer bufSize)
        (body.flatMap emitStuffed) = (loaded, []) ∧ loaded.Holds body :=
  Transducer.run_codewords (processByte language) Holds (fun content => content.length ≤ bufSize)
    emitStuffed (fun content symbol fits => by
      rw [List.length_append] at fits
      exact Nat.le_of_add_right_le fits)
    run_emitStuffed clean [] body holds_clean fits

theorem deliver_of_loaded {framer : HdlcFramer bufSize} {payload : List UInt8}
    (loaded : framer.buf.items = payload ++ language.crcBytes payload) :
    framer.deliver language = [payload] := by
  have delivered := mem_deliver.mpr loaded
  have atMostOne := framer.deliver_length_le language
  cases payloads : framer.deliver language with
  | nil => rw [payloads] at delivered; cases delivered
  | cons first others =>
    rw [payloads] at delivered atMostOne
    cases others with
    | nil => rw [List.mem_singleton.mp delivered]
    | cons second others => simp at atMostOne

/-- One frame, from any state. -/
theorem run_encode (framer : HdlcFramer bufSize) (payload : List UInt8)
    (off : framer.flowControl = false) (fits : payload.length + 2 ≤ bufSize) :
    Transducer.run (processByte language) framer (HdlcFrameEncoder.encode language payload) =
      (clean, (framer.processByte language flag).2 ++ [payload]) := by
  obtain ⟨loaded, ran, holds⟩ := run_body bufSize language
    (payload ++ language.crcBytes payload) (by rwa [List.length_append, crcBytes_two])
  have opened : framer.processByte language flag =
      (clean, (framer.processByte language flag).2) := by
    rw [processByte_flag framer off]
  have closed : loaded.processByte language flag = (clean, [payload]) := by
    rw [processByte_flag loaded holds.off, if_pos holds.inFrame, deliver_of_loaded holds.items]
  -- opening flag, stuffed body, closing flag
  rw [encode_eq]
  apply Transducer.run_step _ opened
  apply Transducer.run_trans_silent _ ran
  rw [Transducer.run_singleton, closed]

/-- From the clean state a frame delivers its payload and nothing else. -/
theorem run_encode_clean (payload : List UInt8) (fits : payload.length + 2 ≤ bufSize) :
    Transducer.run (processByte language) (clean : HdlcFramer bufSize)
      (HdlcFrameEncoder.encode language payload) = (clean, [payload]) := by
  rw [run_encode clean payload rfl fits, processByte_flag clean rfl]
  rfl

/-- A list of frames, from any state. -/
theorem run_frames (framer : HdlcFramer bufSize) (first : List UInt8)
    (payloads : List (List UInt8)) (off : framer.flowControl = false)
    (fits : ∀ payload ∈ first :: payloads, payload.length + 2 ≤ bufSize) :
    Transducer.run (processByte language) framer
        ((first :: payloads).flatMap (HdlcFrameEncoder.encode language)) =
      (clean, (framer.processByte language flag).2 ++ first :: payloads) := by
  have frames := Transducer.run_frames_from (processByte language) clean framer
    (HdlcFrameEncoder.encode language) (fun payload => [payload]) _ first payloads
    (run_encode framer first off (fits first List.mem_cons_self))
    (fun payload member => run_encode_clean payload (fits payload (List.mem_cons_of_mem _ member)))
  rwa [List.flatMap_singleton'] at frames

/-- A list of frames, from the start. -/
theorem run_frames_fresh (payloads : List (List UInt8))
    (fits : ∀ payload ∈ payloads, payload.length + 2 ≤ bufSize) :
    (Transducer.run (processByte language) ({} : HdlcFramer bufSize)
      (payloads.flatMap (HdlcFrameEncoder.encode language))).2 = payloads := by
  cases payloads with
  | nil => rfl
  | cons first payloads =>
    rw [run_frames {} first payloads rfl fits]
    rfl

theorem processByte_flag_length_le (framer : HdlcFramer bufSize) (off : framer.flowControl = false) :
    (framer.processByte language flag).2.length ≤ 1 := by
  rw [processByte_flag framer off]
  split
  · exact framer.deliver_length_le language
  · simp

/-! ## Main results -/

/-- After any history, a list of frames is delivered whole and in order.  At
most one other payload comes before it, out of the opening flag of the first
frame; the framer is left in a frame with an empty buffer. -/
theorem frames_delivered (language : Language) (history : List Call)
    (payloads : List (List UInt8))
    (off : (Transducer.run (call language) ({} : HdlcFramer bufSize) history).1.flowControl = false)
    (fits : ∀ payload ∈ payloads, payload.length + 2 ≤ bufSize) :
    let framer := (Transducer.run (call language) ({} : HdlcFramer bufSize) history).1
    ∃ other final,
      Transducer.run (processByte language) framer
        (payloads.flatMap (HdlcFrameEncoder.encode language)) = (final, other ++ payloads) ∧
      other.length ≤ 1 ∧
      (payloads ≠ [] → other = (framer.processByte language flag).2 ∧
        final.state = .inFrame ∧ final.buf.items = []) := by
  intro framer
  cases payloads with
  | nil => exact ⟨[], framer, rfl, Nat.zero_le 1, fun some => absurd rfl some⟩
  | cons first payloads =>
    exact ⟨_, clean, run_frames framer first payloads off fits,
      processByte_flag_length_le framer off, fun _ => ⟨rfl, rfl, rfl⟩⟩

/-- A frame whose CRC is right is still in the buffer when the next one opens. -/
theorem frames_delivered_after_noise :
    let noise := [0x41, 0x7E, 0x00, 0x78, 0xF0].map Call.processByte
    let framer := (Transducer.run (call .python) ({} : HdlcFramer 4) noise).1
    ∃ other final,
      Transducer.run (processByte .python) framer
        ([[0x7E, 0x7D], []].flatMap (HdlcFrameEncoder.encode .python)) =
          (final, other ++ [[0x7E, 0x7D], []]) ∧
      other.length ≤ 1 ∧
      (([[0x7E, 0x7D], []] : List (List UInt8)) ≠ [] →
        other = (framer.processByte .python flag).2 ∧
        final.state = .inFrame ∧ final.buf.items = []) :=
  frames_delivered .python _ _ rfl (by decide)

open Cpp in
/-- The writer accepts payloads of up to `BufSize` bytes, the framer has room for
their check bytes up to `BufSize - 2`: they agree when no payload lies between. -/
theorem writer_framer_iff (bufSize : Nat) (calls : List WriterCall) :
    (Transducer.run (processByte .cpp) ({} : HdlcFramer bufSize)
        (Transducer.run HdlcFramingWriter.call ({} : FramingWriter bufSize) calls).2).2 =
        framedPayloads bufSize calls ↔
      ∀ payload ∈ requestedPayloads calls,
        payload.length ≤ bufSize → payload.length + 2 ≤ bufSize := by
  constructor
  · intro delivered payload requested short
    have framed := mem_framedPayloads.mpr ⟨requested, short⟩
    rw [← delivered] at framed
    -- whatever a framer delivers left room for its check bytes
    exact Transducer.run_emits (processByte .cpp) (fun payload => payload.length + 2 ≤ bufSize)
      (fun framer c payload delivered => deliver_fits (processByte_delivers delivered).2.2)
      _ _ payload framed
  · intro room
    rw [HdlcFramingWriter.call, output_eq_frames]
    have fits : ∀ payload ∈ framedPayloads bufSize calls, payload.length + 2 ≤ bufSize := by
      intro payload framed
      obtain ⟨requested, short⟩ := mem_framedPayloads.mp framed
      exact room payload requested short
    exact run_frames_fresh _ fits

open Cpp in
/-- Three bytes in a writer of size four: accepted, framed, and lost. -/
theorem writer_framer_boundary :
    let calls := [WriterCall.writeBuf [0x61, 0x62, 0x63], WriterCall.endFrame]
    framedPayloads 4 calls = [[0x61, 0x62, 0x63]] ∧
      (Transducer.run (processByte .cpp) ({} : HdlcFramer 4)
        (Transducer.run HdlcFramingWriter.call ({} : FramingWriter 4) calls).2).2 ≠
        framedPayloads 4 calls := by
  decide +kernel

end EmbeddedBridge.HdlcFramer
