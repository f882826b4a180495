import EmbeddedBridge.Message.Handler
import EmbeddedBridge.Message.Parse

/-! # What is delivered

The messages that the items of a stream come to once a handler has put them
together.  On the device the pieces of a body make no difference
(`cpp_delivered`); on the host each piece of a text is decoded on its own
(`python_delivered`).
-/

namespace EmbeddedBridge

open Library Wire

/-! ## C++ -/

namespace Cpp

variable {textBufSize binaryBufSize : Nat}

/-- The message of an item, clipped to the size of the handler's buffers. -/
def itemMessages (textBufSize binaryBufSize : Nat) : Item Raw → List (Message UInt8)
  | .text raw _ => [.text (stripReturn carriageReturn (raw.take textBufSize))]
  | .unknownVersion _ => []
  | .overlong _ => []
  | .binary _ body => [.binary (body.take binaryBufSize)]

namespace BufferingMessageHandler

theorem run_textData (handler : BufferingMessageHandler textBufSize binaryBufSize) (pieces : Pieces) :
    Transducer.run handle handler (pieces.map .textData) =
      ({ handler with textBuf := handler.textBuf.appendClipped pieces.flatten }, []) := by
  induction pieces generalizing handler with
  | nil => simp
  | cons piece pieces inductionHypothesis =>
    rw [List.map_cons, List.flatten_cons, BoundedBuffer.appendClipped_append]
    exact Transducer.run_step_silent _ rfl (inductionHypothesis _)

theorem run_binaryData (handler : BufferingMessageHandler textBufSize binaryBufSize)
    (pieces : Pieces) :
    Transducer.run handle handler (pieces.map .binaryData) =
      ({ handler with binaryBuf := handler.binaryBuf.appendClipped pieces.flatten }, []) := by
  induction pieces generalizing handler with
  | nil => simp
  | cons piece pieces inductionHypothesis =>
    rw [List.map_cons, List.flatten_cons, BoundedBuffer.appendClipped_append]
    exact Transducer.run_step_silent _ rfl (inductionHypothesis _)

theorem run_item (wrap : Nat → Nat) (item : Item Pieces) :
    Transducer.run handle ({} : BufferingMessageHandler textBufSize binaryBufSize)
      (item.callbacks wrap) = ({}, itemMessages textBufSize binaryBufSize item.raw) := by
  cases item with
  | text pieces cut =>
    apply Transducer.run_trans_silent _ (run_textData {} pieces)
    simp [handle, itemMessages, Item.raw, Item.map, BoundedBuffer.appendClipped]
  | unknownVersion version => rfl
  | overlong groups => rfl
  | binary groups pieces =>
    have started : handle ({} : BufferingMessageHandler textBufSize binaryBufSize)
        (.binaryStart (wrap (Leb128.value groups))) = ({}, []) := rfl
    apply Transducer.run_step_silent _ started
    apply Transducer.run_trans_silent _ (run_binaryData {} pieces)
    simp [handle, itemMessages, Item.raw, Item.map, BoundedBuffer.appendClipped]

/-- An open item has not been delivered yet. -/
theorem run_open (wrap : Nat → Nat) (handler : BufferingMessageHandler textBufSize binaryBufSize)
    (item : Open Pieces) : (Transducer.run handle handler (item.callbacks wrap)).2 = [] := by
  cases item with
  | idle => rfl
  | text pieces => rw [Open.callbacks, run_textData]
  | version => rfl
  | length groups => rfl
  | payload groups pieces =>
    rw [Open.callbacks, Transducer.run_cons, run_binaryData]
    rfl

end BufferingMessageHandler

variable (textBufSize binaryBufSize) in
/-- For any chunks: the messages of the items, and nothing else. -/
theorem cpp_delivered (chunks : List (List UInt8)) :
    let delivered := Transducer.run deliver
      (({}, {}) : MessageReader × BufferingMessageHandler textBufSize binaryBufSize) chunks
    let parsed := parse lengthWrap chunks.flatten
    delivered.2 = parsed.2.flatMap (itemMessages textBufSize binaryBufSize) ∧
      ∃ rest : Open Pieces, rest.raw = parsed.1 ∧ delivered.1.1.Related rest ∧
        delivered.1.2 = (Transducer.run BufferingMessageHandler.handle {}
          (rest.callbacks lengthWrap)).1 := by
  intro delivered parsed
  obtain ⟨rest, items, parses, related⟩ := MessageReader.run_parses ({} : MessageReader) .idle
    MessageReader.related_fresh trivial chunks
  have calls : (Transducer.run (EmbeddedBridge.MessageReader.feed id) ({} : MessageReader) chunks).2 =
      items.flatMap (Item.callbacks lengthWrap) ++ rest.callbacks lengthWrap := parses.calls
  have whole := Transducer.run_frames BufferingMessageHandler.handle
    ({} : BufferingMessageHandler textBufSize binaryBufSize) (Item.callbacks lengthWrap)
    (fun item => itemMessages textBufSize binaryBufSize item.raw) items
    (fun item _ => BufferingMessageHandler.run_item lengthWrap item)
  have ran : delivered = _ := Transducer.run_cascade _ _ _ _
  have asParsed : parsed = (rest.raw, items.map Item.raw) := parses.parsed
  simp only [MessageReader.feed, calls, Transducer.run_append, whole,
    BufferingMessageHandler.run_open, List.append_nil] at ran
  rw [ran, asParsed, List.flatMap_map]
  exact ⟨rfl, rest, rfl, related, rfl⟩

end Cpp

/-! ## Python -/

namespace Python

/-- The message of an item; of a text, each piece is decoded by itself. -/
def itemMessages : Item Pieces → List (Message Char)
  | .text pieces _ => [.text (stripReturn carriageReturn (pieces.flatMap Utf8.decode))]
  | .unknownVersion _ => []
  | .overlong _ => []
  | .binary _ pieces => [.binary pieces.flatten]

/-- The callbacks as the host's reader makes them. -/
def rendered (calls : List (Callback UInt8)) : List (Callback Char) :=
  calls.map (Callback.render Utf8.decode)

theorem rendered_cons (call : Callback UInt8) (calls : List (Callback UInt8)) :
    rendered (call :: calls) = call.render Utf8.decode :: rendered calls := rfl

theorem rendered_append (left right : List (Callback UInt8)) :
    rendered (left ++ right) = rendered left ++ rendered right := List.map_append

namespace MessageHandler

theorem run_textData (handler : MessageHandler) (pieces : Pieces) :
    Transducer.run handle handler (rendered (pieces.map .textData)) =
      ({ handler with textBuf := handler.textBuf ++ pieces.map Utf8.decode }, []) := by
  induction pieces generalizing handler with
  | nil => simp [rendered]
  | cons piece pieces inductionHypothesis =>
    have later := inductionHypothesis { handler with textBuf := handler.textBuf ++ [Utf8.decode piece] }
    rw [List.append_assoc] at later
    exact Transducer.run_step_silent _ rfl later

theorem run_binaryData (handler : MessageHandler) (pieces : Pieces) :
    Transducer.run handle handler (rendered (pieces.map .binaryData)) =
      ({ handler with binaryBuf := handler.binaryBuf ++ pieces.flatten }, []) := by
  induction pieces generalizing handler with
  | nil => simp [rendered]
  | cons piece pieces inductionHypothesis =>
    rw [List.map_cons, rendered_cons, List.flatten_cons, ← List.append_assoc]
    exact Transducer.run_step_silent _ rfl (inductionHypothesis _)

theorem run_item (wrap : Nat → Nat) (item : Item Pieces) :
    Transducer.run handle ({} : MessageHandler) (rendered (item.callbacks wrap)) =
      ({}, itemMessages item) := by
  cases item with
  | text pieces cut =>
    rw [Item.callbacks, rendered_append]
    apply Transducer.run_trans_silent _ (run_textData {} pieces)
    simp [handle, itemMessages, Callback.render, rendered, List.flatMap]
  | unknownVersion version => rfl
  | overlong groups => rfl
  | binary groups pieces =>
    have started : handle ({} : MessageHandler)
        (.binaryStart (wrap (Leb128.value groups))) = ({}, []) := rfl
    apply Transducer.run_step_silent _ started
    rw [← rendered, rendered_append]
    apply Transducer.run_trans_silent _ (run_binaryData {} pieces)
    simp [handle, itemMessages, Callback.render, rendered]

/-- An open item has not been delivered yet. -/
theorem run_open (wrap : Nat → Nat) (handler : MessageHandler) (item : Open Pieces) :
    (Transducer.run handle handler (rendered (item.callbacks wrap))).2 = [] := by
  cases item with
  | idle => rfl
  | text pieces => rw [Open.callbacks, run_textData]
  | version => rfl
  | length groups => rfl
  | payload groups pieces =>
    rw [Open.callbacks, rendered_cons, Transducer.run_cons, run_binaryData]
    rfl

end MessageHandler

/-- The host's callbacks are the device's, rendered. -/
theorem run_feed (chunks : List (List UInt8)) :
    Transducer.run MessageReader.feed {} chunks =
      ((Transducer.run (EmbeddedBridge.MessageReader.feed id) {} chunks).1,
        rendered (Transducer.run (EmbeddedBridge.MessageReader.feed id) ({} : MessageReader) chunks).2) :=
  EmbeddedBridge.MessageReader.run_render Utf8.decode {} chunks

/-- Whatever the chunks: the messages of the items that the callbacks stand for. -/
theorem delivered_of_calls {chunks : List (List UInt8)} {wrap : Nat → Nat}
    {items : List (Item Pieces)} {rest : Open Pieces}
    (calls : (Transducer.run (EmbeddedBridge.MessageReader.feed id) ({} : MessageReader) chunks).2 =
      items.flatMap (Item.callbacks wrap) ++ rest.callbacks wrap) :
    (Transducer.run deliver (({}, {}) : MessageReader × MessageHandler) chunks).2 =
      items.flatMap itemMessages := by
  have whole : Transducer.run MessageHandler.handle {}
      (rendered (items.flatMap (Item.callbacks wrap))) = ({}, items.flatMap itemMessages) := by
    rw [rendered, List.map_flatMap]
    exact Transducer.run_frames MessageHandler.handle {}
      (fun item : Item Pieces => rendered (item.callbacks wrap)) itemMessages items
      (fun item _ => MessageHandler.run_item wrap item)
  simp only [deliver, Transducer.run_cascade, run_feed, calls, rendered_append,
    Transducer.run_append, whole, MessageHandler.run_open, List.append_nil]

/-- The reader goes its way without regard to the handler. -/
theorem deliver_reader (chunks : List (List UInt8)) :
    (Transducer.run deliver (({}, {}) : MessageReader × MessageHandler) chunks).1.1 =
      (Transducer.run (EmbeddedBridge.MessageReader.feed id) ({} : MessageReader) chunks).1 := by
  simp only [deliver, Transducer.run_cascade, run_feed]

/-- In one chunk every body comes in one piece, so that a text is decoded as it is. -/
def wholeMessages (item : Item Raw) : List (Message Char) :=
  itemMessages (item.map chunkPieces)

theorem chunkPieces_decode (raw : Raw) : (chunkPieces raw).flatMap Utf8.decode = Utf8.decode raw := by
  unfold chunkPieces
  split
  · rename_i empty
    rw [empty]
    rfl
  · simp

/-- One chunk: the messages of the items of the stream. -/
theorem python_delivered (data : List UInt8) :
    let delivered := Transducer.run deliver (({}, {}) : MessageReader × MessageHandler) [data]
    let parsed := parse lengthWrap data
    delivered.2 = parsed.2.flatMap wholeMessages ∧
      delivered.1.1.Related (parsed.1.map chunkPieces) := by
  intro delivered parsed
  obtain ⟨calls, related⟩ := EmbeddedBridge.MessageReader.feed_whole Nat data
  rw [← Transducer.run_singleton (EmbeddedBridge.MessageReader.feed id)] at calls related
  refine ⟨?_, ?_⟩
  · have messages := delivered_of_calls calls
    rw [List.flatMap_map] at messages
    exact messages
  · rw [← deliver_reader] at related
    exact related

end Python

end EmbeddedBridge
