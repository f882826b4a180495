import EmbeddedBridge.Framing.Kinds
import EmbeddedBridge.Verified.HdlcDelivery
import EmbeddedBridge.Verified.MessageRoundTrip

/-! # The full stack

A message writer on a framing writer, and at the other end a framer with a reader
behind it.  Frames are chunks to the reader, so it does not matter where they are
cut (`stack_delivers`); when each frame holds one message, the reader is between
two messages at every frame boundary, and any frames may be lost.

The message writer never ends a frame itself.  `automaticallyFramed_iff` says what
comes of messages that are written without any other call.
-/

namespace EmbeddedBridge.Cpp

open Library

variable {bufSize framerSize textBufSize binaryBufSize : Nat}

/-! ## Calls that only write -/

/-- The calls of a message writer on its output. -/
def WriterCall.Writes : WriterCall → Prop
  | .write _ => True
  | .writeBuf _ => True
  | .endFrame => False
  | .discard => False

theorem send_writes (sent : Sent UInt8) : ∀ call ∈ MessageWriter.send sent, call.Writes := by
  obtain ⟨message, streamed⟩ := sent
  have header : ∀ length, ∀ call ∈ MessageWriter.writeBinaryHeader length, call.Writes := by
    simp [MessageWriter.writeBinaryHeader, WriterCall.Writes]
  have chunk : ∀ chunks : List (List UInt8),
      ∀ call ∈ chunks.flatMap MessageWriter.write, call.Writes := by
    intro chunks call member
    obtain ⟨data, _, written⟩ := List.mem_flatMap.mp member
    rw [List.mem_singleton.mp written]
    trivial
  intro call member
  cases message with
  | text line =>
    cases streamed with
    | none =>
      simp only [MessageWriter.send, MessageWriter.writeText, List.mem_cons, List.not_mem_nil,
        or_false] at member
      cases member with
      | inl isText =>
        rw [isText]
        trivial
      | inr isNewline =>
        rw [isNewline]
        trivial
    | some chunks =>
      simp only [MessageWriter.send, MessageWriter.beginText, MessageWriter.endText,
        List.nil_append, List.mem_append, List.mem_singleton] at member
      cases member with
      | inl inBody => exact chunk chunks call inBody
      | inr isNewline =>
        rw [isNewline]
        trivial
  | binary payload =>
    cases streamed with
    | none =>
      simp only [MessageWriter.send, MessageWriter.writeBinary, List.mem_append,
        List.mem_singleton] at member
      cases member with
      | inl inHeader => exact header _ call inHeader
      | inr isPayload =>
        rw [isPayload]
        trivial
    | some chunks =>
      simp only [MessageWriter.send, MessageWriter.beginBinary, MessageWriter.endBinary,
        List.append_nil, List.mem_append] at member
      cases member with
      | inl inHeader => exact header _ call inHeader
      | inr inBody => exact chunk chunks call inBody

/-- Writing ends no frame; it adds to the one that is under way. -/
theorem run_requestCall_writes (written : List UInt8) (calls : List WriterCall)
    (writes : ∀ call ∈ calls, call.Writes) :
    Transducer.run requestCall written calls = (written ++ calls.flatMap WriterCall.bytes, []) := by
  induction calls generalizing written with
  | nil => simp
  | cons call calls inductionHypothesis =>
    have later := fun written' => inductionHypothesis written'
      fun other member => writes other (List.mem_cons_of_mem _ member)
    cases call with
    | write c => rw [Transducer.run_cons]; simp [requestCall, later, WriterCall.bytes]
    | writeBuf buf => rw [Transducer.run_cons]; simp [requestCall, later, WriterCall.bytes]
    | endFrame => exact (writes _ List.mem_cons_self).elim
    | discard => exact (writes _ List.mem_cons_self).elim

/-- What is written after the last frame boundary. -/
def unframed (calls : List WriterCall) : List UInt8 := (Transducer.run requestCall [] calls).1

/-- The frames that were asked for, and what is left after them, make up all of
what was written. -/
theorem requestCall_flatten (written : List UInt8) (calls : List WriterCall)
    (kept : .discard ∉ calls) :
    (Transducer.run requestCall written calls).2.flatten ++
        (Transducer.run requestCall written calls).1 =
      written ++ calls.flatMap WriterCall.bytes := by
  induction calls generalizing written with
  | nil => simp
  | cons call calls inductionHypothesis =>
    rw [List.mem_cons, not_or] at kept
    rw [Transducer.run_cons]
    cases call with
    | write c => simp [requestCall, inductionHypothesis _ kept.2, WriterCall.bytes]
    | writeBuf buf => simp [requestCall, inductionHypothesis _ kept.2, WriterCall.bytes]
    | endFrame => simp [requestCall, inductionHypothesis _ kept.2, WriterCall.bytes]
    | discard => exact absurd rfl kept.1

/-! ## Frames anywhere -/

/-- The framer, and in its callback the reader with its handler. -/
def receive : Transducer.Step (HdlcFramer framerSize ×
    (MessageReader × BufferingMessageHandler textBufSize binaryBufSize)) UInt8 (Message UInt8) :=
  Transducer.cascade (HdlcFramer.processByte .cpp) deliver

/-- Frames that the framer has room for are chunks to the reader. -/
theorem run_receive (payloads : List (List UInt8))
    (fits : ∀ payload ∈ payloads, payload.length + 2 ≤ framerSize) :
    (Transducer.run receive (({}, {}, {}) : HdlcFramer framerSize ×
        (MessageReader × BufferingMessageHandler textBufSize binaryBufSize))
      (payloads.flatMap (HdlcFrameEncoder.encode .cpp))).2 =
      (Transducer.run deliver
        (({}, {}) : MessageReader × BufferingMessageHandler textBufSize binaryBufSize)
        payloads).2 := by
  rw [receive, Transducer.run_cascade, HdlcFramer.run_frames_fresh payloads fits]

/-- The calls of a message writer, with ends of frames anywhere in between. -/
theorem bytes_of_placed {calls : List WriterCall} {sents : List (Sent UInt8)}
    (placed : calls.filter (· ≠ .endFrame) = sents.flatMap MessageWriter.send) :
    .discard ∉ calls ∧
      calls.flatMap WriterCall.bytes =
        (sents.flatMap MessageWriter.send).flatMap WriterCall.bytes := by
  constructor
  · intro member
    have sent : .discard ∈ sents.flatMap MessageWriter.send := by
      rw [← placed]
      exact List.mem_filter.mpr ⟨member, by decide⟩
    obtain ⟨message, _, written⟩ := List.mem_flatMap.mp sent
    exact send_writes message _ written
  · rw [← placed]
    clear placed
    induction calls with
    | nil => rfl
    | cons call calls inductionHypothesis =>
      by_cases ends : call = .endFrame
      · simp [ends, inductionHypothesis, WriterCall.bytes]
      · simp [ends, inductionHypothesis]

theorem stack_delivers (sents : List (Sent UInt8)) (calls : List WriterCall)
    (room : bufSize + 2 ≤ framerSize) (whole : ∀ sent ∈ sents, sent.Whole id)
    (sendable : ∀ sent ∈ sents, Sendable textBufSize binaryBufSize sent.message)
    (placed : calls.filter (· ≠ .endFrame) = sents.flatMap MessageWriter.send)
    (ended : unframed calls = [])
    (fits : ∀ payload ∈ requestedPayloads calls, payload.length ≤ bufSize) :
    (Transducer.run (Transducer.cascade HdlcFramingWriter.call receive)
        (({}, {}, {}, {}) : FramingWriter bufSize × HdlcFramer framerSize ×
          (MessageReader × BufferingMessageHandler textBufSize binaryBufSize)) calls).2 =
      sents.map Sent.message := by
  have framed : framedPayloads bufSize calls = requestedPayloads calls := by
    rw [framedPayloads_eq, List.filter_eq_self]
    intro payload requested
    exact decide_eq_true (fits payload requested)
  obtain ⟨kept, bytes⟩ := bytes_of_placed placed
  have all := requestCall_flatten [] calls kept
  rw [show (Transducer.run requestCall [] calls).1 = [] from ended, List.append_nil,
    List.nil_append] at all
  rw [Transducer.run_cascade]
  simp only
  rw [HdlcFramingWriter.call, output_eq_frames, framed, run_receive _ fun payload requested => by
    have short := fits payload requested
    omega]
  exact (delivered_of_wires sents _ sendable
    (all.trans (bytes.trans (sends_bytes sents whole sendable)))).1

/-! ## One frame a message -/

/-- A message is written, its frame ended, and the frame may be lost on the wire. -/
def transmit :
    Transducer.Step (FramingWriter bufSize) (Sent UInt8 × Bool) UInt8 := fun writer entry =>
  let framed :=
    Transducer.run HdlcFramingWriter.call writer (MessageWriter.send entry.1 ++ [.endFrame])
  (framed.1, if entry.2 then framed.2 else [])

/-- The messages whose frames get to the framer: no overflow drops them, and they
are not lost. -/
def survivors (bufSize : Nat) (entries : List (Sent UInt8 × Bool)) : List (Sent UInt8) :=
  (entries.filter fun entry =>
    entry.2 && decide ((entry.1.message.wire id).length ≤ bufSize)).map Prod.fst

/-- The frame that a message is put in, if it fits. -/
theorem run_message (sent : Sent UInt8) :
    Transducer.run HdlcFramingWriter.call ({} : FramingWriter bufSize)
        (MessageWriter.send sent ++ [.endFrame]) =
      ({}, ([(MessageWriter.send sent).flatMap WriterCall.bytes].filter fun payload =>
        decide (payload.length ≤ bufSize)).flatMap (HdlcFrameEncoder.encode .cpp)) := by
  have asked : requestedPayloads (MessageWriter.send sent ++ [.endFrame]) =
      [(MessageWriter.send sent).flatMap WriterCall.bytes] := by
    rw [requestedPayloads, Transducer.run_append,
      run_requestCall_writes [] _ (send_writes sent), Transducer.run_singleton]
    simp [requestCall]
  rw [HdlcFramingWriter.call]
  refine Prod.ext ?_ ?_
  · exact FramingWriter.run_endFrame _ _ _
  · rw [output_eq_frames, framedPayloads_eq, asked]

theorem transmit_message (entry : Sent UInt8 × Bool) (whole : entry.1.Whole id)
    (sendable : Sendable textBufSize binaryBufSize entry.1.message) :
    transmit ({} : FramingWriter bufSize) entry =
      ({}, ((survivors bufSize [entry]).map fun sent => sent.message.wire id).flatMap
        (HdlcFrameEncoder.encode .cpp)) := by
  have wire := sends_bytes [entry.1] (by simpa using whole) (by simpa using sendable)
  simp only [List.flatMap_singleton] at wire
  rw [transmit, run_message, wire]
  obtain ⟨sent, arrives⟩ := entry
  by_cases fits : (sent.message.wire id).length ≤ bufSize
  · cases arrives <;> simp [survivors, fits]
  · cases arrives <;> simp [survivors, fits]

/-- What is on the wire in the end are the frames of the survivors. -/
theorem run_transmit (entries : List (Sent UInt8 × Bool))
    (whole : ∀ entry ∈ entries, entry.1.Whole id)
    (sendable : ∀ entry ∈ entries, Sendable textBufSize binaryBufSize entry.1.message) :
    (Transducer.run transmit ({} : FramingWriter bufSize) entries).2 =
      ((survivors bufSize entries).map fun sent => sent.message.wire id).flatMap
        (HdlcFrameEncoder.encode .cpp) := by
  have frames := Transducer.run_frames transmit ({} : FramingWriter bufSize)
    (fun entry : Sent UInt8 × Bool => [entry]) _ entries fun entry member => by
      rw [Transducer.run_singleton]
      exact transmit_message entry (whole entry member) (sendable entry member)
  rw [List.flatMap_singleton'] at frames
  rw [frames]
  clear frames whole sendable
  simp only [survivors, List.flatMap_map]
  induction entries with
  | nil => rfl
  | cons entry entries inductionHypothesis =>
    rw [List.flatMap_cons, inductionHypothesis]
    simp only [List.filter_cons, List.filter_nil]
    split <;> simp

theorem stack_survives (entries : List (Sent UInt8 × Bool)) (room : bufSize + 2 ≤ framerSize)
    (whole : ∀ entry ∈ entries, entry.1.Whole id)
    (sendable : ∀ entry ∈ entries, Sendable textBufSize binaryBufSize entry.1.message) :
    (Transducer.run (Transducer.cascade transmit receive)
        (({}, {}, {}, {}) : FramingWriter bufSize × HdlcFramer framerSize ×
          (MessageReader × BufferingMessageHandler textBufSize binaryBufSize)) entries).2 =
      (survivors bufSize entries).map Sent.message := by
  have sent : ∀ sent ∈ survivors bufSize entries, (sent.message.wire id).length ≤ bufSize ∧
      Sendable textBufSize binaryBufSize sent.message := by
    intro sent member
    obtain ⟨entry, kept, same⟩ := List.mem_map.mp member
    obtain ⟨present, survives⟩ := List.mem_filter.mp kept
    rw [← same]
    simp only [Bool.and_eq_true, decide_eq_true_eq] at survives
    exact ⟨survives.2, sendable entry present⟩
  have fits : ∀ payload ∈ (survivors bufSize entries).map fun sent => sent.message.wire id,
      payload.length + 2 ≤ framerSize := by
    intro payload member
    obtain ⟨message, present, same⟩ := List.mem_map.mp member
    have short := (sent message present).1
    rw [← same]
    omega
  rw [Transducer.run_cascade]
  simp only
  rw [run_transmit entries whole sendable, run_receive _ fits]
  exact (delivered_of_wires _ _ (fun message present => (sent message present).2)
    (List.flatMap_def ..).symm).1

/-! ## Main results -/

/-- Wherever the frames end, the reader delivers the messages; and with one frame a
message, those whose frames get through. -/
theorem full_stack (room : bufSize + 2 ≤ framerSize) :
    (∀ (sents : List (Sent UInt8)) (calls : List WriterCall),
      (∀ sent ∈ sents, sent.Whole id) →
      (∀ sent ∈ sents, Sendable textBufSize binaryBufSize sent.message) →
      calls.filter (· ≠ .endFrame) = sents.flatMap MessageWriter.send → unframed calls = [] →
      (∀ payload ∈ requestedPayloads calls, payload.length ≤ bufSize) →
      (Transducer.run (Transducer.cascade HdlcFramingWriter.call receive)
          (({}, {}, {}, {}) : FramingWriter bufSize × HdlcFramer framerSize ×
            (MessageReader × BufferingMessageHandler textBufSize binaryBufSize)) calls).2 =
        sents.map Sent.message) ∧
    ∀ entries : List (Sent UInt8 × Bool),
      (∀ entry ∈ entries, entry.1.Whole id) →
      (∀ entry ∈ entries, Sendable textBufSize binaryBufSize entry.1.message) →
      (Transducer.run (Transducer.cascade transmit receive)
          (({}, {}, {}, {}) : FramingWriter bufSize × HdlcFramer framerSize ×
            (MessageReader × BufferingMessageHandler textBufSize binaryBufSize)) entries).2 =
        (survivors bufSize entries).map Sent.message :=
  ⟨fun sents calls => stack_delivers sents calls room, fun entries => stack_survives entries room⟩

/-- A frame that ends within a line and one that holds the rest with all of the next
message; then a frame that is lost and a message that is too long for one. -/
theorem full_stack_cut :
    (Transducer.run (Transducer.cascade HdlcFramingWriter.call receive)
        (({}, {}, {}, {}) : FramingWriter 6 × HdlcFramer 8 ×
          (MessageReader × BufferingMessageHandler 9 2))
        [.writeBuf [0x68, 0x69], .endFrame, .write 0x0A, .write 0x01, .write 0x01, .writeBuf [0x02],
          .writeBuf [0x01, 0x0A], .endFrame]).2 = [.text [0x68, 0x69], .binary [0x01, 0x0A]] ∧
      (Transducer.run (Transducer.cascade transmit receive)
        (({}, {}, {}, {}) : FramingWriter 6 × HdlcFramer 8 ×
          (MessageReader × BufferingMessageHandler 9 2))
        [(⟨.text [0x68, 0x69], none⟩, true), (⟨.binary [0x01, 0x0A], none⟩, false),
          (⟨.text (List.replicate 9 0x41), none⟩, true), (⟨.text [], none⟩, true)]).2 =
        [.text [0x68, 0x69], .text []] := by
  have stack := @full_stack 6 8 9 2 (by decide)
  constructor
  · exact stack.1 [⟨.text [0x68, 0x69], none⟩, ⟨.binary [0x01, 0x0A], none⟩] _
      (by simp [Sent.Whole]) (by simp [Sendable, newline, soh, carriageReturn]) (by decide +kernel)
      (by decide +kernel) (by decide +kernel)
  · exact (stack.2 _ (by simp [Sent.Whole])
      (by simp [Sendable, newline, soh, carriageReturn])).trans (by decide +kernel)

/-- Any of the three writers, with the framer and the reader it is meant for: after
each message that is written, all so far are delivered. -/
def AutomaticallyFramed (framing : Framing) (bufSize framerSize textBufSize binaryBufSize : Nat)
    (messages : List (Message UInt8)) : Prop :=
  ∀ written later, messages = written ++ later →
    (Transducer.run (Transducer.cascade framing.writerCall
          (Transducer.cascade framing.processByte deliver))
        (({}, framing.fresh, {}, {}) : FramingWriter bufSize × framing.Framer framerSize ×
          (MessageReader × BufferingMessageHandler textBufSize binaryBufSize))
        (written.flatMap fun message => MessageWriter.send { message })).2 = written

/-- Whatever is only written stays in the buffer. -/
theorem run_writerCall_writes (framing : Framing) (calls : List WriterCall)
    (writes : ∀ call ∈ calls, call.Writes) :
    (Transducer.run framing.writerCall ({} : FramingWriter bufSize) calls).2 = [] := by
  have none : framedPayloads bufSize calls = [] := by
    rw [framedPayloads_eq, requestedPayloads, run_requestCall_writes [] calls writes]
    rfl
  have silent : ∀ frame : List UInt8 → List UInt8,
      (Transducer.run (FramingWriter.call frame) ({} : FramingWriter bufSize) calls).2 = [] := by
    intro frame
    rw [output_eq_frames, none]
    rfl
  cases framing <;> exact silent _

/-- No message that is written and not ended gets out of the writer. -/
theorem automaticallyFramed_iff (framing : Framing)
    (bufSize framerSize textBufSize binaryBufSize : Nat) (messages : List (Message UInt8)) :
    AutomaticallyFramed framing bufSize framerSize textBufSize binaryBufSize messages ↔
      messages = [] := by
  have nothing : ∀ written : List (Message UInt8),
      (Transducer.run (Transducer.cascade framing.writerCall
          (Transducer.cascade framing.processByte deliver))
        (({}, framing.fresh, {}, {}) : FramingWriter bufSize × framing.Framer framerSize ×
          (MessageReader × BufferingMessageHandler textBufSize binaryBufSize))
        (written.flatMap fun message => MessageWriter.send { message })).2 = [] := by
    intro written
    have writes : ∀ call ∈ written.flatMap fun message => MessageWriter.send { message },
        call.Writes := by
      intro call member
      obtain ⟨message, _, sent⟩ := List.mem_flatMap.mp member
      exact send_writes _ call sent
    rw [Transducer.run_cascade]
    simp only
    rw [run_writerCall_writes framing _ writes]
    rfl
  constructor
  · intro framed
    have all := framed messages [] (List.append_nil messages).symm
    rw [nothing] at all
    exact all.symm
  · intro empty written later split
    rw [empty] at split
    rw [nothing, (List.append_eq_nil_iff.mp split.symm).1]

/-- One line, and plenty of room. -/
theorem automaticallyFramed_hi :
    ¬ AutomaticallyFramed .hdlc 256 258 64 64 [.text [0x68, 0x69]] := by
  intro framed
  have delivered := framed [.text [0x68, 0x69]] [] rfl
  revert delivered
  decide +kernel

end EmbeddedBridge.Cpp
