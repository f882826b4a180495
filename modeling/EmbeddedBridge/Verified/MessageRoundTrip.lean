import EmbeddedBridge.Message.Delivery
import EmbeddedBridge.Message.Writer

/-! # Message round trip

What a message writer writes is what the reader on the same side delivers.  A
message that may be sent is one item on the wire (`run_wire`), and takes the wire
from between two items back to there; so a list of messages is parsed into the
list of their items, however it is cut into chunks.
-/

namespace EmbeddedBridge

open Library Wire

/-- The item of a message on the wire. -/
def Message.item {τ : Type} (encode : List τ → List UInt8) : Message τ → Item Raw
  | .text line => .text (encode line) false
  | .binary payload => .binary (Leb128.encode payload.length) payload

/-- What the wire can carry of a message. -/
def Message.Wireable {τ : Type} (encode : List τ → List UInt8) (wrap : Nat → Nat) :
    Message τ → Prop
  | .text line => Plain (encode line)
  | .binary payload => payload.length < 2 ^ 35 ∧ wrap payload.length = payload.length

variable {τ : Type} (encode : List τ → List UInt8) (wrap : Nat → Nat)

theorem run_wire (message : Message τ) (wireable : message.Wireable encode wrap) :
    Transducer.run (step wrap) .idle (message.wire encode) = (.idle, [message.item encode]) := by
  cases message with
  | text line => exact run_textWire wrap (encode line) wireable
  | binary payload => exact run_binaryWire wrap payload wireable.1 wireable.2

theorem parse_wires (sents : List (Sent τ))
    (wireable : ∀ sent ∈ sents, sent.message.Wireable encode wrap) :
    parse wrap (sents.flatMap fun sent => sent.message.wire encode) =
      (.idle, sents.map fun sent => sent.message.item encode) := by
  have frames := Transducer.run_frames (step wrap) .idle
    (fun sent : Sent τ => sent.message.wire encode) (fun sent => [sent.message.item encode]) sents
    (fun sent member => run_wire encode wrap sent.message (wireable sent member))
  rw [← List.map_eq_flatMap] at frames
  exact frames

theorem idle_of_raw {rest : Open Pieces} (raw : rest.raw = .idle) : rest = .idle := by
  cases rest with
  | idle => rfl
  | text pieces => cases raw
  | version => cases raw
  | length groups => cases raw
  | payload groups pieces => cases raw

/-! ## C++ -/

namespace Cpp

/-- The messages that a handler with buffers of these sizes can be sent. -/
def Sendable (textBufSize binaryBufSize : Nat) : Message UInt8 → Prop
  | .text line =>
    newline ∉ line ∧ soh ∉ line ∧ line.getLast? ≠ some carriageReturn ∧ line.length ≤ textBufSize
  | .binary payload => payload.length ≤ binaryBufSize ∧ payload.length < 2 ^ 32

variable {textBufSize binaryBufSize : Nat}

theorem wireable_of_sendable {message : Message UInt8}
    (sendable : Sendable textBufSize binaryBufSize message) : message.Wireable id lengthWrap := by
  cases message with
  | text line => exact ⟨sendable.1, sendable.2.1⟩
  | binary payload =>
    have short : payload.length < 2 ^ 32 := sendable.2
    exact ⟨by omega, Nat.mod_eq_of_lt short⟩

theorem itemMessages_of_sendable {message : Message UInt8}
    (sendable : Sendable textBufSize binaryBufSize message) :
    itemMessages textBufSize binaryBufSize (message.item id) = [message] := by
  cases message with
  | text line =>
    obtain ⟨_, _, plain, fits⟩ := sendable
    simp only [Message.item, itemMessages, id, List.take_of_length_le fits, stripReturn_of_not plain]
  | binary payload =>
    simp only [Message.item, itemMessages, List.take_of_length_le sendable.1]

/-- The wires of any messages, cut anywhere, are delivered as these messages. -/
theorem delivered_of_wires (sents : List (Sent UInt8)) (chunks : List (List UInt8))
    (sendable : ∀ sent ∈ sents, Sendable textBufSize binaryBufSize sent.message)
    (wires : chunks.flatten = sents.flatMap fun sent => sent.message.wire id) :
    let delivered := Transducer.run deliver
      (({}, {}) : MessageReader × BufferingMessageHandler textBufSize binaryBufSize) chunks
    delivered.2 = sents.map Sent.message ∧ delivered.1.1.state = .idle ∧
      delivered.1.2.textBuf.items = [] ∧ delivered.1.2.binaryBuf.items = [] := by
  intro delivered
  have parsed := parse_wires id lengthWrap sents
    fun sent member => wireable_of_sendable (sendable sent member)
  obtain ⟨messages, rest, raw, related, handler⟩ :=
    cpp_delivered textBufSize binaryBufSize chunks
  rw [wires, parsed] at messages raw
  -- every wire ends where it began, so nothing is left open
  have none : rest = .idle := idle_of_raw raw
  subst none
  refine ⟨?_, related.state, ?_, ?_⟩
  · rw [messages, List.flatMap_map, List.map_eq_flatMap]
    exact List.flatMap_congr fun sent member => itemMessages_of_sendable (sendable sent member)
  · rw [handler]
    rfl
  · rw [handler]
    rfl

/-- What the writer writes of messages that can be sent are their wires. -/
theorem sends_bytes (sents : List (Sent UInt8)) (whole : ∀ sent ∈ sents, sent.Whole id)
    (sendable : ∀ sent ∈ sents, Sendable textBufSize binaryBufSize sent.message) :
    (sents.flatMap MessageWriter.send).flatMap WriterCall.bytes =
      sents.flatMap fun sent => sent.message.wire id := by
  rw [List.flatMap_assoc]
  refine List.flatMap_congr fun sent member => MessageWriter.send_bytes sent (whole sent member) ?_
  intro payload isBinary
  have fits := sendable sent member
  rw [isBinary] at fits
  exact fits.2

/-- Any messages, whole or streamed, over any chunks. -/
theorem cpp_round_trip (sents : List (Sent UInt8)) (chunks : List (List UInt8))
    (whole : ∀ sent ∈ sents, sent.Whole id)
    (sendable : ∀ sent ∈ sents, Sendable textBufSize binaryBufSize sent.message)
    (split : chunks.flatten = (sents.flatMap MessageWriter.send).flatMap WriterCall.bytes) :
    let delivered := Transducer.run deliver
      (({}, {}) : MessageReader × BufferingMessageHandler textBufSize binaryBufSize) chunks
    delivered.2 = sents.map Sent.message ∧ delivered.1.1.state = .idle ∧
      delivered.1.2.textBuf.items = [] ∧ delivered.1.2.binaryBuf.items = [] :=
  delivered_of_wires sents chunks sendable (split.trans (sends_bytes sents whole sendable))

/-- A text streamed in two chunks and a binary that looks like a header, cut inside
the header. -/
theorem cpp_round_trip_cut :
    let sents : List (Sent UInt8) :=
      [⟨.text [0x68, 0x69], some [[0x68], [], [0x69]]⟩, ⟨.binary [0x01, 0x0A], none⟩]
    let delivered := Transducer.run deliver (({}, {}) : MessageReader × BufferingMessageHandler 4 2)
      [[0x68, 0x69, 0x0A, 0x01], [], [0x01], [0x02, 0x01, 0x0A]]
    delivered.2 = sents.map Sent.message ∧ delivered.1.1.state = .idle ∧
      delivered.1.2.textBuf.items = [] ∧ delivered.1.2.binaryBuf.items = [] :=
  cpp_round_trip [⟨.text [0x68, 0x69], some [[0x68], [], [0x69]]⟩, ⟨.binary [0x01, 0x0A], none⟩] _
    (by simp [Sent.Whole, Message.body]) (by simp [Sendable, newline, soh, carriageReturn])
    (by
      simp [MessageWriter.send, MessageWriter.beginText, MessageWriter.write, MessageWriter.endText,
        MessageWriter.writeBinary, MessageWriter.writeBinaryHeader, WriterCall.bytes, encodeVarint,
        soh, newline, binaryProtocolV1]
      decide)

end Cpp

/-! ## Python -/

namespace Python

/-- The messages that a host can send: a text is one line without an SOH. -/
def Sendable : Message Char → Prop
  | .text line => '\n' ∉ line ∧ '\x01' ∉ line ∧ line.getLast? ≠ some carriageReturn
  | .binary payload => payload.length < 2 ^ 35

theorem wireable_of_sendable {message : Message Char} (sendable : Sendable message) :
    message.Wireable Utf8.encode lengthWrap := by
  cases message with
  | text line =>
    refine ⟨?_, ?_⟩
    · intro member
      exact sendable.1 (Utf8.ascii_of_mem_encode member (by decide))
    · intro member
      exact sendable.2.1 (Utf8.ascii_of_mem_encode member (by decide))
  | binary payload => exact ⟨sendable, rfl⟩

theorem wholeMessages_of_sendable {message : Message Char} (sendable : Sendable message) :
    wholeMessages (message.item Utf8.encode) = [message] := by
  cases message with
  | text line =>
    simp only [Message.item, Item.map, wholeMessages, itemMessages, chunkPieces_decode,
      Utf8.decode_encode, stripReturn_of_not sendable.2.2]
  | binary payload =>
    simp only [Message.item, Item.map, wholeMessages, itemMessages, chunkPieces_flatten]

/-- Any messages, whole or streamed, read at once: no call raises, and they are
drained once. -/
theorem python_round_trip (sents : List (Sent Char)) (output : Option (List (List UInt8)))
    (whole : ∀ sent ∈ sents, sent.Whole Utf8.encode)
    (sendable : ∀ sent ∈ sents, Sendable sent.message) :
    ∃ wires, (MessageWriter.runMethod (MessageWriter.sendAll sents) { output := output }).1 =
        .ok wires ∧
      let drained := (({} : DrainReader).feed wires.flatten).drain
      drained.2 = sents.map Sent.message ∧ drained.1.drain.2 = [] ∧
        drained.1.drain.1.reader.state = .idle := by
  have wireable := fun sent member => wireable_of_sendable (sendable sent member)
  have sent := MessageWriter.runMethod_sendAll sents { output := output } rfl rfl whole
    (by
      intro sent member line isText
      have carried := wireable sent member
      rw [isText] at carried
      exact carried.2)
  refine ⟨_, congrArg Prod.fst sent, ?_⟩
  intro drained
  have parsed := parse_wires Utf8.encode lengthWrap sents wireable
  obtain ⟨messages, related⟩ :=
    python_delivered (sents.flatMap fun sent => sent.message.wire Utf8.encode)
  rw [parsed] at messages related
  rw [Transducer.run_singleton, List.flatMap_def] at messages related
  refine ⟨?_, rfl, related.state⟩
  calc drained.2 = (sents.map fun sent => sent.message.item Utf8.encode).flatMap wholeMessages :=
        messages
    _ = sents.flatMap fun sent => wholeMessages (sent.message.item Utf8.encode) := by
      rw [List.flatMap_map]
    _ = sents.map Sent.message := by
      rw [List.map_eq_flatMap]
      exact List.flatMap_congr fun sent member => wholeMessages_of_sendable (sendable sent member)

/-- A character of two bytes is streamed in two chunks. -/
theorem python_round_trip_streamed :
    ∃ wires, (MessageWriter.runMethod (MessageWriter.sendAll
        [⟨.text ['h', 'é'], some [[0x68, 0xC3], [], [0xA9]]⟩, ⟨.binary [0x01, 0x0A], none⟩])
        { output := some [] }).1 = .ok wires ∧
      let drained := (({} : DrainReader).feed wires.flatten).drain
      drained.2 = [⟨.text ['h', 'é'], some [[0x68, 0xC3], [], [0xA9]]⟩,
        ⟨.binary [0x01, 0x0A], none⟩].map Sent.message ∧ drained.1.drain.2 = [] ∧
        drained.1.drain.1.reader.state = .idle :=
  python_round_trip _ (some [])
    (by
      simp only [List.mem_cons, List.not_mem_nil, or_false, forall_eq_or_imp, forall_eq, Sent.Whole,
        Message.body]
      decide)
    (by simp [Sendable, carriageReturn])

end Python

end EmbeddedBridge
