import EmbeddedBridge.Verified.Chunking
import EmbeddedBridge.Verified.Draining
import EmbeddedBridge.Verified.FramingLayers
import EmbeddedBridge.Verified.FullStack

/-! # Links between device and host

What the device's message writer sends over any of the framings is what the host's reader
is drained of, whichever frames get lost (`device_to_host`); and what the host's writer
sends is delivered on the device, wherever the frames are cut (`host_to_device`).  Without
a framing the device's reader takes any chunks, too, and the host's takes them as long as
no character can be cut in two (`unframed_links`).
-/

namespace EmbeddedBridge

open Library Wire

/-! ## Messages as the other side has them -/

/-- A message of the device on the host. -/
def Message.heard : Message UInt8 → Message Char
  | .text line => .text (stripReturn Python.carriageReturn (Utf8.decode line))
  | .binary payload => .binary payload

/-- A message of the host on the device. -/
def Message.encoded : Message Char → Message UInt8
  | .text line => .text (Utf8.encode line)
  | .binary payload => .binary payload

theorem wire_encoded (message : Message Char) :
    message.encoded.wire id = message.wire Utf8.encode := by
  cases message <;> rfl

theorem wireable_python {message : Message UInt8} (wireable : message.Wireable id Cpp.lengthWrap) :
    message.Wireable id Python.lengthWrap := by
  cases message with
  | text line => exact wireable
  | binary payload => exact ⟨wireable.1, rfl⟩

theorem small_of_wireable {payload : List UInt8}
    (wireable : (Message.binary payload : Message UInt8).Wireable id Cpp.lengthWrap) :
    payload.length < 2 ^ 32 := by
  have wrapped : payload.length % 2 ^ 32 = payload.length := wireable.2
  omega

/-- The wires of some messages, one after the other. -/
def wires (batch : List (Sent UInt8)) : List UInt8 := batch.flatMap fun sent => sent.message.wire id

theorem wires_eq_nil {batch : List (Sent UInt8)} (none : wires batch = []) : batch = [] := by
  cases batch with
  | nil => rfl
  | cons sent batch =>
    have first := (List.append_eq_nil_iff.mp none).1
    cases isMessage : sent.message with
    | text line => simp [isMessage, Message.wire, textWire] at first
    | binary payload => simp [isMessage, Message.wire, binaryWire] at first

namespace Python

theorem heard_item (message : Message UInt8) : wholeMessages (message.item id) = [message.heard] := by
  cases message with
  | text line =>
    simp only [Message.item, wholeMessages, Item.map, itemMessages, chunkPieces_decode,
      Message.heard, id]
  | binary payload =>
    simp only [Message.item, wholeMessages, Item.map, itemMessages, chunkPieces_flatten,
      Message.heard]

/-- A chunk of whole messages takes the host's reader from between two messages back to
there. -/
theorem deliver_batch {state : MessageReader × MessageHandler} (idle : state.1.Related .idle)
    (empty : state.2 = {}) (batch : List (Sent UInt8))
    (wireable : ∀ sent ∈ batch, sent.message.Wireable id Cpp.lengthWrap) :
    ∃ next : MessageReader × MessageHandler, (next.1.Related .idle ∧ next.2 = {}) ∧
      deliver state (wires batch) = (next, batch.map fun sent => sent.message.heard) := by
  obtain ⟨reader, handler⟩ := state
  cases empty
  have parsed := parse_wires id lengthWrap batch fun sent member =>
    wireable_python (wireable sent member)
  obtain ⟨calls, related⟩ := EmbeddedBridge.MessageReader.feed_whole_idle reader idle (wires batch)
  have parsed' : parse (LengthWord.Lawful.wrap Nat) (wires batch) =
      (.idle, batch.map fun sent => sent.message.item id) := parsed
  rw [parsed'] at calls related
  have rendered := EmbeddedBridge.MessageReader.feed_render Utf8.decode reader (wires batch)
  have handled := Transducer.run_frames MessageHandler.handle {}
    (fun sent : Sent UInt8 =>
      Python.rendered (((sent.message.item id).map chunkPieces).callbacks lengthWrap))
    (fun sent => [sent.message.heard]) batch fun sent _ => by
      rw [MessageHandler.run_item, ← heard_item]
      rfl
  rw [← List.map_eq_flatMap] at handled
  refine ⟨((EmbeddedBridge.MessageReader.feed id reader (wires batch)).1, {}), ⟨related, rfl⟩, ?_⟩
  have called : (EmbeddedBridge.MessageReader.feed id reader (wires batch)).2.map
      (Callback.render Utf8.decode) = batch.flatMap fun sent =>
        Python.rendered (((sent.message.item id).map chunkPieces).callbacks lengthWrap) := by
    rw [calls, Open.map, Open.callbacks, List.append_nil, List.map_flatMap, List.map_map,
      List.flatMap_map]
    rfl
  change ((_, _), _) = _
  simp only [MessageReader.feed, rendered, called, handled]

/-- Batches of messages, in the chunks that a framing makes of them. -/
def messageLayer (hand : List UInt8 → List (List UInt8))
    (hands : ∀ payload, hand payload = [payload] ∨ payload = [] ∧ hand payload = []) :
    Layer (MessageReader × MessageHandler) (List UInt8) (List (Sent UInt8)) (Message Char) where
  encode batch := hand (wires batch)
  step := deliver
  start := ({}, {})
  Ready state := state.1.Related .idle ∧ state.2 = {}
  Fits batch := ∀ sent ∈ batch, sent.message.Wireable id Cpp.lengthWrap
  delivers batch := batch.map fun sent => sent.message.heard
  ready_start := ⟨EmbeddedBridge.MessageReader.related_fresh, rfl⟩
  run_encode state batch ready fits := by
    cases hands (wires batch) with
    | inl one =>
      rw [one, Transducer.run_singleton]
      exact deliver_batch ready.1 ready.2 batch fits
    | inr silent =>
      rw [silent.2, wires_eq_nil silent.1]
      exact ⟨state, ready, rfl⟩

/-! ## The host behind a framer -/

/-- A framer whose callback feeds a reader. -/
structure FramedReader (framing : Framing) (bufSize : Nat) where
  framer : framing.Framer bufSize := framing.fresh
  reader : DrainReader := {}

namespace FramedReader

variable {framing : Framing} {bufSize : Nat}

/-- `framer.process_bytes(data)` -/
def processBytes (host : FramedReader framing bufSize) (data : List UInt8) :
    FramedReader framing bufSize :=
  let framed := Transducer.run (Framing.processByteOf .python framing) host.framer data
  { framer := framed.1, reader := framed.2.foldl DrainReader.feed host.reader }

def drain (host : FramedReader framing bufSize) :
    FramedReader framing bufSize × List (Message Char) :=
  let drained := host.reader.drain
  ({ host with reader := drained.1 }, drained.2)

def reset (host : FramedReader framing bufSize) : FramedReader framing bufSize :=
  { framer := framing.reset host.framer, reader := host.reader.reset }

variable (framing bufSize) in
def mailbox : Mailbox (FramedReader framing bufSize)
    (framing.Framer bufSize × (MessageReader × MessageHandler)) (List UInt8) (Message Char) where
  machine := Transducer.run (Transducer.cascade (Framing.processByteOf .python framing) deliver)
  start := (framing.fresh, {}, {})
  feed := processBytes
  drain := drain
  reset := reset
  Valid host := framing.FlowsFreely host.framer
  machineOf host := (host.framer, host.reader.reader, host.reader.handler)
  pending host := host.reader.messages
  valid_feed _ data free := Framing.flowsFreely_run .python framing free data
  feed_spec host data free := by
    rw [Transducer.run_cascade, processBytes, DrainReader.foldl_feed]
    exact ⟨rfl, rfl⟩
  drain_spec _ free := ⟨free, rfl, rfl, rfl⟩
  reset_spec host free := by
    have renewed := framing.reset_eq free
    refine ⟨?_, ?_, rfl⟩
    · change framing.FlowsFreely (framing.reset host.framer)
      rw [renewed]
      cases framing <;> first | rfl | trivial
    · change (framing.reset host.framer, _) = _
      rw [renewed]
      rfl

end FramedReader

end Python

/-! ## From the device to the host -/

namespace Cpp

variable {writerSize : Nat}

/-- Some messages are written, their frame ended, and the frame may be lost on the way. -/
def transmitBatch (framing : Framing) :
    Transducer.Step (FramingWriter writerSize) (List (Sent UInt8) × Bool) UInt8 :=
  fun writer entry =>
    let framed := Transducer.run framing.writerCall writer
      (entry.1.flatMap MessageWriter.send ++ [.endFrame])
    (framed.1, if entry.2 then framed.2 else [])

/-- The batches whose frames get to the host: the writer has room for them, and they are
not lost. -/
def survivingBatches (writerSize : Nat) (entries : List (List (Sent UInt8) × Bool)) :
    List (List (Sent UInt8)) :=
  (entries.filter fun entry =>
    entry.2 && decide ((wires entry.1).length ≤ writerSize)).map Prod.fst

theorem batch_bytes {batch : List (Sent UInt8)} (whole : ∀ sent ∈ batch, sent.Whole id)
    (wireable : ∀ sent ∈ batch, sent.message.Wireable id lengthWrap) :
    (batch.flatMap MessageWriter.send).flatMap WriterCall.bytes = wires batch := by
  rw [List.flatMap_assoc]
  refine List.flatMap_congr fun sent member => MessageWriter.send_bytes sent (whole sent member) ?_
  intro payload isBinary
  have carried := wireable sent member
  rw [isBinary] at carried
  exact small_of_wireable carried

theorem requested_batch (batch : List (Sent UInt8)) :
    requestedPayloads (batch.flatMap MessageWriter.send ++ [.endFrame]) =
      [(batch.flatMap MessageWriter.send).flatMap WriterCall.bytes] := by
  have writes : ∀ call ∈ batch.flatMap MessageWriter.send, call.Writes := by
    intro call member
    obtain ⟨sent, _, written⟩ := List.mem_flatMap.mp member
    exact send_writes sent call written
  rw [requestedPayloads, Transducer.run_append, run_requestCall_writes [] _ writes,
    Transducer.run_singleton]
  simp [requestCall]

theorem transmitBatch_eq (framing : Framing) (entry : List (Sent UInt8) × Bool)
    (whole : ∀ sent ∈ entry.1, sent.Whole id)
    (wireable : ∀ sent ∈ entry.1, sent.message.Wireable id lengthWrap) :
    transmitBatch framing ({} : FramingWriter writerSize) entry =
      ({}, (survivingBatches writerSize [entry]).flatMap fun batch =>
        framing.encode (wires batch)) := by
  obtain ⟨batch, arrives⟩ := entry
  have cleared : (Transducer.run framing.writerCall ({} : FramingWriter writerSize)
      (batch.flatMap MessageWriter.send ++ [.endFrame])).1 = {} := by
    cases framing <;> exact FramingWriter.run_endFrame _ _ _
  rw [transmitBatch, framing.writerCall_output, cleared, framedPayloads_eq, requested_batch,
    batch_bytes whole wireable]
  by_cases fits : (wires batch).length ≤ writerSize
  · cases arrives <;> simp [survivingBatches, fits]
  · cases arrives <;> simp [survivingBatches, fits]

/-- On the wire are the frames of the surviving batches. -/
theorem run_transmitBatch (framing : Framing) (entries : List (List (Sent UInt8) × Bool))
    (whole : ∀ entry ∈ entries, ∀ sent ∈ entry.1, sent.Whole id)
    (wireable : ∀ entry ∈ entries, ∀ sent ∈ entry.1, sent.message.Wireable id lengthWrap) :
    (Transducer.run (transmitBatch framing) ({} : FramingWriter writerSize) entries).2 =
      (survivingBatches writerSize entries).flatMap fun batch => framing.encode (wires batch) := by
  have frames := Transducer.run_frames (transmitBatch framing) ({} : FramingWriter writerSize)
    (fun entry : List (Sent UInt8) × Bool => [entry]) _ entries fun entry member => by
      rw [Transducer.run_singleton]
      exact transmitBatch_eq framing entry (whole entry member) (wireable entry member)
  rw [List.flatMap_singleton'] at frames
  rw [frames]
  clear frames whole wireable
  simp only
  induction entries with
  | nil => rfl
  | cons entry entries inductionHypothesis =>
    rw [List.flatMap_cons, inductionHypothesis, ← List.flatMap_append, survivingBatches,
      survivingBatches, survivingBatches, ← List.map_append, ← List.filter_append,
      List.singleton_append]

theorem mem_survivingBatches {entries : List (List (Sent UInt8) × Bool)} {batch : List (Sent UInt8)}
    (member : batch ∈ survivingBatches writerSize entries) :
    (∃ arrives, (batch, arrives) ∈ entries) ∧ (wires batch).length ≤ writerSize := by
  obtain ⟨entry, kept, same⟩ := List.mem_map.mp member
  obtain ⟨present, survives⟩ := List.mem_filter.mp kept
  rw [Bool.and_eq_true, decide_eq_true_eq] at survives
  rw [← same]
  exact ⟨⟨entry.2, present⟩, survives.2⟩

end Cpp

open Cpp Python in
/-- Over any framing with room for what the writer holds: however the host's calls cut the
stream, and whenever it drains, it is drained of the messages whose frames have survived,
each once and in order; whatever it had before its last reset makes no difference. -/
theorem device_to_host (framing : Framing) (writerSize framerSize : Nat)
    (room : framing.roomFor writerSize ≤ framerSize) (entries : List (List (Sent UInt8) × Bool))
    (whole : ∀ entry ∈ entries, ∀ sent ∈ entry.1, sent.Whole id)
    (wireable : ∀ entry ∈ entries, ∀ sent ∈ entry.1, sent.message.Wireable id Cpp.lengthWrap)
    {calls before recent : List (Mailbox.Call (List UInt8))}
    (since : Mailbox.Recent calls before recent)
    (received : (Mailbox.inputs recent).flatten =
      (Transducer.run (transmitBatch framing) ({} : FramingWriter writerSize) entries).2) :
    let host := FramedReader.mailbox framing framerSize
    let ran := Transducer.run host.call {} calls
    ∃ drained, ran.2 = (Transducer.run host.call {} before).2 ++ drained ∧
      drained ++ ran.1.reader.messages =
        (survivingBatches writerSize entries).flatMap fun batch =>
          batch.map fun sent => sent.message.heard := by
  intro host ran
  have free : framing.FlowsFreely (framing.fresh : framing.Framer framerSize) := by
    cases framing <;> first | rfl | trivial
  obtain ⟨drained, all, handed, _⟩ :=
    host.handed_over_recent {} free rfl rfl since
  refine ⟨drained, all, handed.trans ?_⟩
  -- the stack of the two layers, fed with what has come through
  let lower := framing.layer framerSize .python
  have hands : ∀ payload, lower.delivers payload = [payload] ∨
      payload = [] ∧ lower.delivers payload = [] := by
    intro payload
    by_cases empty : payload = []
    · rw [empty]
      cases framing with
      | hdlc => exact .inl rfl
      | slip => exact .inr ⟨rfl, rfl⟩
      | cobs => exact .inl rfl
    · exact .inl (framing.layer_delivers .python empty)
  let stack := lower.stack (messageLayer lower.delivers hands) (fun batch => [wires batch])
    fun batch _ => List.flatMap_singleton ..
  have fits : ∀ batch ∈ survivingBatches writerSize entries, stack.Fits batch := by
    intro batch member
    obtain ⟨⟨arrives, present⟩, short⟩ := mem_survivingBatches member
    refine ⟨wireable _ present, fun payload one => ?_⟩
    rw [List.mem_singleton.mp one]
    exact framing.layer_fits .python room short
  have delivered := stack.delivered stack.ready_start (survivingBatches writerSize entries) fits
  have machine : host.machine = Transducer.run stack.step := by
    cases framing <;> rfl
  have start : host.start = stack.start := by
    cases framing <;> rfl
  have encoded : stack.encode = fun batch => framing.encode (wires batch) := by
    funext batch
    rw [← Framing.layer_encode .python framing]
    exact List.flatMap_singleton ..
  rw [encoded] at delivered
  rw [machine, Transducer.run_chunks, received, run_transmitBatch framing entries whole wireable,
    start]
  exact delivered

/-- A line is lost with its frame, and another one does not fit; the host drains between
the two halves of what is left. -/
theorem device_to_host_lossy :
    let entries : List (List (Sent UInt8) × Bool) :=
      [([⟨.text [0x68, 0x0D], none⟩, ⟨.binary [0xC0], none⟩], true),
        ([⟨.text [0x61], none⟩], false), ([⟨.text (List.replicate 9 0x41), none⟩], true)]
    let host := Python.FramedReader.mailbox .slip 8
    let calls : List (Mailbox.Call (List UInt8)) :=
      [.feed [0x41], .reset, .feed [0xC0, 0x68, 0x0D, 0x0A, 0x01], .drain,
        .feed [0x01, 0x01, 0xDB, 0xDC, 0xC0]]
    ∃ drained, (Transducer.run host.call {} calls).2 =
        (Transducer.run host.call {} [.feed [0x41], .reset]).2 ++ drained ∧
      drained ++ (Transducer.run host.call {} calls).1.reader.messages =
        (Cpp.survivingBatches 8 entries).flatMap fun batch =>
          batch.map fun sent => sent.message.heard :=
  device_to_host .slip 8 8 (by decide) _
    (by simp [Sent.Whole])
    (by simp [Message.Wireable, Plain, newline, soh, Cpp.lengthWrap])
    ⟨rfl, .inr ⟨[.feed [0x41]], rfl⟩, by simp⟩ (by decide +kernel)

namespace Python

/-- Without a framing the host's reader gets the texts in pieces, which does no harm as
long as no byte of them continues a character. -/
theorem unframed_to_host (sents : List (Sent UInt8)) (whole : ∀ sent ∈ sents, sent.Whole id)
    (wireable : ∀ sent ∈ sents, sent.message.Wireable id Cpp.lengthWrap)
    (plain : ∀ sent ∈ sents, ∀ line, sent.message = .text line → ¬ Utf8.Sequenced line)
    {calls before recent : List (Mailbox.Call (List UInt8))}
    (since : Mailbox.Recent calls before recent)
    (received : (Mailbox.inputs recent).flatten =
      (sents.flatMap Cpp.MessageWriter.send).flatMap Cpp.WriterCall.bytes) :
    let ran := Transducer.run DrainReader.mailbox.call {} calls
    ∃ drained, ran.2 = (Transducer.run DrainReader.mailbox.call {} before).2 ++ drained ∧
      drained ++ ran.1.messages = sents.map fun sent => sent.message.heard := by
  intro ran
  obtain ⟨drained, all, handed, _⟩ :=
    DrainReader.mailbox.handed_over_recent {} trivial rfl rfl since
  refine ⟨drained, all, handed.trans ?_⟩
  have parsed := parse_wires id lengthWrap sents fun sent member =>
    wireable_python (wireable sent member)
  have stream : (Mailbox.inputs recent).flatten = wires sents :=
    received.trans (Cpp.batch_bytes whole wireable)
  have unsequenced : ∀ raw cut, .text raw cut ∈ (parse lengthWrap (wires sents)).2 →
      ¬ Utf8.Sequenced raw := by
    intro raw cut member
    rw [wires, parsed] at member
    obtain ⟨sent, present, same⟩ := List.mem_map.mp member
    cases isMessage : sent.message with
    | text line =>
      rw [isMessage] at same
      cases same
      exact plain sent present line isMessage
    | binary payload =>
      rw [isMessage] at same
      cases same
  have delivered := delivered_of_unsequenced unsequenced (Mailbox.inputs recent) stream
  rw [wires, parsed] at delivered
  refine delivered.trans ?_
  rw [List.flatMap_map, List.map_eq_flatMap]
  refine List.flatMap_congr fun sent member => ?_
  cases isMessage : sent.message with
  | text line =>
    have decoded := Utf8.decode_of_unsequenced line (plain sent member line isMessage)
    simp only [Message.item, id, byteMessages, Item.map, itemMessages, singles_decode,
      Message.heard, decoded]
  | binary payload => simp [Message.item, byteMessages, Item.map, itemMessages, Message.heard]

/-- A byte of Latin-1 in a text, and a character of two bytes in a payload, which is cut. -/
theorem unframed_to_host_cut :
    let sents : List (Sent UInt8) := [⟨.text [0xE9, 0x41], none⟩, ⟨.binary [0xC3, 0xA9], none⟩]
    let calls : List (Mailbox.Call (List UInt8)) :=
      [.feed [0xE9], .feed [0x41, 0x0A, 0x01], .drain, .feed [0x01, 0x02, 0xC3], .feed [0xA9]]
    ∃ drained, (Transducer.run DrainReader.mailbox.call {} calls).2 =
        (Transducer.run DrainReader.mailbox.call {} []).2 ++ drained ∧
      drained ++ (Transducer.run DrainReader.mailbox.call {} calls).1.messages =
        sents.map fun sent => sent.message.heard :=
  unframed_to_host [⟨.text [0xE9, 0x41], none⟩, ⟨.binary [0xC3, 0xA9], none⟩]
    (by simp [Sent.Whole])
    (by simp [Message.Wireable, Plain, newline, soh, Cpp.lengthWrap])
    (by
      intro sent member line isText
      simp only [List.mem_cons, List.not_mem_nil, or_false] at member
      cases member with
      | inl first =>
        rw [first] at isText
        cases isText
        decide
      | inr second =>
        rw [second] at isText
        cases isText)
    ⟨rfl, .inl rfl, by simp⟩ (by decide +kernel)

end Python

/-! ## From the host to the device -/

namespace Cpp

/-- The host's writer raises nothing, and its output callback is handed what it returns; and
wherever what it has written is cut, into frames that the device has room for or into chunks
without a framing, the device delivers the messages. -/
theorem host_to_device (framing : Framing) (framerSize textBufSize binaryBufSize : Nat)
    (sents : List (Sent Char)) (output : Option (List (List UInt8)))
    (whole : ∀ sent ∈ sents, sent.Whole Utf8.encode)
    (sendable : ∀ sent ∈ sents,
      Cpp.Sendable textBufSize binaryBufSize sent.message.encoded) :
    ∃ wires,
      Python.MessageWriter.runMethod (Python.MessageWriter.sendAll sents) { output := output } =
        (.ok wires, { output := output.map (· ++ wires) }) ∧
      (∀ payloads : List (List UInt8), payloads.flatten = wires.flatten →
        (∀ payload ∈ payloads, (framing.layer framerSize .cpp).Fits payload) →
        (Transducer.run (Transducer.cascade framing.processByte deliver)
            ((framing.fresh, {}, {}) : framing.Framer framerSize ×
              (MessageReader × BufferingMessageHandler textBufSize binaryBufSize))
            (payloads.flatMap framing.encode)).2 =
          sents.map fun sent => sent.message.encoded) ∧
      ∀ chunks : List (List UInt8), chunks.flatten = wires.flatten →
        (Transducer.run deliver
            (({}, {}) : MessageReader × BufferingMessageHandler textBufSize binaryBufSize)
            chunks).2 =
          sents.map fun sent => sent.message.encoded := by
  have sent := Python.MessageWriter.runMethod_sendAll sents { output := output } rfl rfl whole
    (by
      intro sent member line isText
      have carried := sendable sent member
      rw [isText] at carried
      exact carried.2.1)
  have unframed : ∀ chunks : List (List UInt8),
      chunks.flatten = (sents.map fun sent => sent.message.wire Utf8.encode).flatten →
      (Transducer.run deliver
          (({}, {}) : MessageReader × BufferingMessageHandler textBufSize binaryBufSize)
          chunks).2 = sents.map fun sent => sent.message.encoded := by
    intro chunks split
    have delivered := (delivered_of_wires
      (sents.map fun sent => (⟨sent.message.encoded, none⟩ : Sent UInt8)) chunks
      (by
        intro coded member
        obtain ⟨sent, present, same⟩ := List.mem_map.mp member
        rw [← same]
        exact sendable sent present)
      (by
        rw [split, List.flatMap_map, ← List.flatMap_def]
        exact List.flatMap_congr fun sent _ => (wire_encoded sent.message).symm)).1
    rw [List.map_map] at delivered
    exact delivered
  refine ⟨_, sent, ?_, unframed⟩
  intro payloads split fits
  have framed := (framing.layer framerSize .cpp).delivered_to deliver
    (framing.layer framerSize .cpp).ready_start
    (({}, {}) : MessageReader × BufferingMessageHandler textBufSize binaryBufSize) payloads fits
  rw [Framing.layer_encode, Framing.layer_step, Framing.layer_start,
    Framing.processByteOf_cpp] at framed
  rw [framed]
  refine unframed _ ?_
  rw [framing.layer_flatten, split]

/-- Frames that are cut within a character and within a header. -/
theorem host_to_device_cut :
    ∃ wires, Python.MessageWriter.runMethod (Python.MessageWriter.sendAll
        [⟨.text ['h', 'é'], none⟩, ⟨.binary [0x7E], none⟩]) { output := some [] } =
          (.ok wires, { output := some wires }) ∧
      (Transducer.run (Transducer.cascade Framing.hdlc.processByte deliver)
          ((({}, {}, {}) : HdlcFramer 6 × (MessageReader × BufferingMessageHandler 3 1)))
          ([[0x68, 0xC3], [0xA9, 0x0A, 0x01], [], [0x01, 0x01, 0x7E]].flatMap
            Framing.hdlc.encode)).2 =
        [.text [0x68, 0xC3, 0xA9], .binary [0x7E]] := by
  obtain ⟨wires, sent, framed, _⟩ := host_to_device .hdlc 6 3 1 [⟨.text ['h', 'é'], none⟩, ⟨.binary [0x7E], none⟩] (some [])
    (by simp [Sent.Whole])
    (by
      simp only [List.mem_cons, List.not_mem_nil, or_false, forall_eq_or_imp, forall_eq, Sendable,
        Message.encoded]
      decide)
  have written : (Python.MessageWriter.runMethod (Python.MessageWriter.sendAll
      [⟨.text ['h', 'é'], none⟩, ⟨.binary [0x7E], none⟩]) { output := some [] }).1 =
        .ok [[0x68, 0xC3, 0xA9, 0x0A], [0x01, 0x01, 0x01, 0x7E]] := by
    decide +kernel
  cases written.symm.trans (congrArg Prod.fst sent)
  refine ⟨_, sent, framed [[0x68, 0xC3], [0xA9, 0x0A, 0x01], [], [0x01, 0x01, 0x7E]] rfl ?_⟩
  intro payload member
  change payload.length + 2 ≤ 6
  revert payload
  decide

end Cpp

end EmbeddedBridge
