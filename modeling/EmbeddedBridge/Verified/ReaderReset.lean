import EmbeddedBridge.Message.Delivery

/-! # Resetting a message reader

`reset()` puts a reader back into its first state, and the host's own reader, the one
that is drained, also clears what its handler has buffered.  A handler of the user's
is left as it is.  What it holds of a payload does not matter, for the next payload
clears it; what it holds of a text is put before the next one.
-/

namespace EmbeddedBridge

open Library Wire

/-- The text that a stream breaks off in. -/
def Wire.Open.unfinishedText : Open Raw → Raw
  | .text raw => raw
  | _ => []

theorem stripReturn_eq_nil {τ : Type} [DecidableEq τ] {carriageReturn : τ} {line : List τ} :
    stripReturn carriageReturn line = [] ↔ line = [] ∨ line = [carriageReturn] := by
  unfold stripReturn
  split
  · rename_i ends
    obtain ⟨init, split⟩ := List.getLast?_eq_some_iff.mp ends
    simp [split]
  · rename_i plain
    constructor
    · exact .inl
    · intro short
      cases short with
      | inl empty => exact empty
      | inr one => exact absurd (by rw [one]; rfl) plain

/-! ## C++ -/

namespace Cpp

variable {textBufSize binaryBufSize : Nat}

abbrev BufferedReader (textBufSize binaryBufSize : Nat) :=
  MessageReader × BufferingMessageHandler textBufSize binaryBufSize

/-- The reader is reset, and its handler stays as it is. -/
def BufferedReader.reset (state : BufferedReader textBufSize binaryBufSize) :
    BufferedReader textBufSize binaryBufSize :=
  (state.1.reset, state.2)

namespace BufferingMessageHandler

/-- What is left of a payload does not get into the next one. -/
theorem run_item_from (wrap : Nat → Nat)
    (handler : BufferingMessageHandler textBufSize binaryBufSize)
    (noText : handler.textBuf = .empty) (item : Item Pieces) :
    ∃ after : BufferingMessageHandler textBufSize binaryBufSize, after.textBuf = .empty ∧
      Transducer.run handle handler (item.callbacks wrap) =
        (after, itemMessages textBufSize binaryBufSize item.raw) := by
  obtain ⟨textBuf, binaryBuf⟩ := handler
  cases noText
  cases item with
  | text pieces cut =>
    refine ⟨⟨.empty, binaryBuf⟩, rfl, ?_⟩
    apply Transducer.run_trans_silent _ (run_textData _ pieces)
    simp [handle, itemMessages, Item.raw, Item.map, BoundedBuffer.appendClipped]
  | unknownVersion version => exact ⟨⟨.empty, binaryBuf⟩, rfl, rfl⟩
  | overlong groups => exact ⟨⟨.empty, binaryBuf⟩, rfl, rfl⟩
  | binary groups pieces => exact ⟨{}, rfl, run_item wrap (.binary groups pieces)⟩

theorem run_items_from (wrap : Nat → Nat)
    (handler : BufferingMessageHandler textBufSize binaryBufSize)
    (noText : handler.textBuf = .empty) (items : List (Item Pieces)) :
    (Transducer.run handle handler (items.flatMap (Item.callbacks wrap))).2 =
      items.flatMap fun item => itemMessages textBufSize binaryBufSize item.raw := by
  induction items generalizing handler with
  | nil => rfl
  | cons item items inductionHypothesis =>
    obtain ⟨after, noText', one⟩ := run_item_from wrap handler noText item
    rw [List.flatMap_cons, List.flatMap_cons, Transducer.run_append, one]
    exact congrArg _ (inductionHypothesis after noText')

end BufferingMessageHandler

/-- A handler without text in its buffer is as good as a new one. -/
theorem delivered_of_noText (handler : BufferingMessageHandler textBufSize binaryBufSize)
    (noText : handler.textBuf = .empty) (chunks : List (List UInt8)) :
    (Transducer.run deliver (({}, handler) : BufferedReader textBufSize binaryBufSize)
        chunks).2 =
      (Transducer.run deliver (({}, {}) : BufferedReader textBufSize binaryBufSize) chunks).2 := by
  obtain ⟨rest, items, parses, _⟩ := MessageReader.run_parses ({} : MessageReader) .idle
    MessageReader.related_fresh trivial chunks
  have calls : (Transducer.run (EmbeddedBridge.MessageReader.feed id) ({} : MessageReader)
      chunks).2 =
        items.flatMap (Item.callbacks lengthWrap) ++ rest.callbacks lengthWrap := parses.calls
  simp only [deliver, Transducer.run_cascade, MessageReader.feed, calls, Transducer.run_append,
    BufferingMessageHandler.run_open, List.append_nil,
    BufferingMessageHandler.run_items_from lengthWrap handler noText,
    BufferingMessageHandler.run_items_from lengthWrap {} rfl]

variable (textBufSize binaryBufSize) in
/-- What the text buffer holds is the beginning of the unfinished text. -/
theorem textBuf_unfinished (chunks : List (List UInt8)) :
    (Transducer.run deliver (({}, {}) : BufferedReader textBufSize binaryBufSize)
        chunks).1.2.textBuf.items =
      (parse lengthWrap chunks.flatten).1.unfinishedText.take textBufSize := by
  obtain ⟨_, rest, raw, _, handler⟩ := cpp_delivered textBufSize binaryBufSize chunks
  rw [handler, ← raw]
  cases rest with
  | idle => exact List.take_nil.symm
  | text pieces =>
    rw [Open.callbacks, BufferingMessageHandler.run_textData]
    simp [BoundedBuffer.appendClipped, Open.raw, Open.map, Open.unfinishedText]
  | version => exact List.take_nil.symm
  | length groups => exact List.take_nil.symm
  | payload groups pieces =>
    rw [Open.callbacks, Transducer.run_cons, BufferingMessageHandler.run_binaryData]
    exact List.take_nil.symm

/-- After a history and `reset()`, whatever comes is delivered as by a new reader with
a new handler. -/
def ResetRenews (textBufSize binaryBufSize : Nat) (history : List (List UInt8)) : Prop :=
  ∀ chunks,
    (Transducer.run deliver (BufferedReader.reset (Transducer.run deliver
        (({}, {}) : BufferedReader textBufSize binaryBufSize) history).1) chunks).2 =
      (Transducer.run deliver (({}, {}) : BufferedReader textBufSize binaryBufSize) chunks).2

/-- The next line comes with the old text before it, and so does the one after a lone
carriage return, which an empty line does not show. -/
theorem noText_of_renewed (handler : BufferingMessageHandler textBufSize binaryBufSize)
    (renewed : ∀ chunks,
      (Transducer.run deliver (({}, handler) : BufferedReader textBufSize binaryBufSize)
          chunks).2 =
        (Transducer.run deliver (({}, {}) : BufferedReader textBufSize binaryBufSize) chunks).2) :
    handler.textBuf.items = [] := by
  -- an empty line, and one that is not
  have empty : [Message.text (stripReturn carriageReturn handler.textBuf.items)] =
      [.text (stripReturn carriageReturn [])] := renewed [[newline]]
  have one : [Message.text (stripReturn carriageReturn
        (handler.textBuf.appendClipped [0x61]).items)] =
      [.text (stripReturn carriageReturn
        ((.empty : BoundedBuffer UInt8 textBufSize).appendClipped [0x61]).items)] :=
    renewed [[0x61, newline]]
  simp only [List.cons.injEq, Message.text.injEq, and_true] at empty one
  cases stripReturn_eq_nil.mp empty with
  | inl none => exact none
  | inr lone =>
    have bounded := handler.textBuf.bounded
    rw [lone] at bounded
    simp only [BoundedBuffer.appendClipped, lone] at one
    exfalso
    -- with room for one byte the second line is clipped
    cases textBufSize with
    | zero => exact absurd bounded (by decide)
    | succ size =>
      cases size with
      | zero => exact absurd one (by decide)
      | succ size =>
        simp only [List.length_singleton, BoundedBuffer.empty_items, List.length_nil] at one
        exact absurd one (by simp [stripReturn, carriageReturn])

end Cpp

/-! ## Python -/

namespace Python

abbrev HandledReader := MessageReader × MessageHandler

/-- With a handler of the user's, the reader is reset and the handler stays as it is. -/
def HandledReader.reset (state : HandledReader) : HandledReader := (state.1.reset, state.2)

namespace MessageHandler

/-- What is left of a payload does not get into the next one. -/
theorem run_item_from (wrap : Nat → Nat) (handler : MessageHandler)
    (noText : handler.textBuf = []) (item : Item Pieces) :
    ∃ after : MessageHandler, after.textBuf = [] ∧
      Transducer.run handle handler (rendered (item.callbacks wrap)) =
        (after, itemMessages item) := by
  obtain ⟨textBuf, binaryBuf⟩ := handler
  cases noText
  cases item with
  | text pieces cut =>
    refine ⟨⟨[], binaryBuf⟩, rfl, ?_⟩
    rw [Item.callbacks, rendered_append]
    apply Transducer.run_trans_silent _ (run_textData _ pieces)
    simp [handle, itemMessages, Callback.render, rendered, List.flatMap]
  | unknownVersion version => exact ⟨⟨[], binaryBuf⟩, rfl, rfl⟩
  | overlong groups => exact ⟨⟨[], binaryBuf⟩, rfl, rfl⟩
  | binary groups pieces => exact ⟨{}, rfl, run_item wrap (.binary groups pieces)⟩

theorem run_items_from (wrap : Nat → Nat) (handler : MessageHandler)
    (noText : handler.textBuf = []) (items : List (Item Pieces)) :
    (Transducer.run handle handler (rendered (items.flatMap (Item.callbacks wrap)))).2 =
      items.flatMap itemMessages := by
  induction items generalizing handler with
  | nil => rfl
  | cons item items inductionHypothesis =>
    obtain ⟨after, noText', one⟩ := run_item_from wrap handler noText item
    rw [List.flatMap_cons, List.flatMap_cons, rendered_append, Transducer.run_append, one]
    exact congrArg _ (inductionHypothesis after noText')

end MessageHandler

/-- A handler without text in its buffer is as good as a new one. -/
theorem delivered_of_noText (handler : MessageHandler) (noText : handler.textBuf = [])
    (chunks : List (List UInt8)) :
    (Transducer.run deliver (({}, handler) : HandledReader) chunks).2 =
      (Transducer.run deliver (({}, {}) : HandledReader) chunks).2 := by
  obtain ⟨rest, items, parses, _⟩ := EmbeddedBridge.MessageReader.run_parses
    ({} : MessageReader) .idle EmbeddedBridge.MessageReader.related_fresh trivial chunks
  have calls : (Transducer.run (EmbeddedBridge.MessageReader.feed id) ({} : MessageReader)
      chunks).2 =
        items.flatMap (Item.callbacks lengthWrap) ++ rest.callbacks lengthWrap := parses.calls
  simp only [deliver, Transducer.run_cascade, run_feed, calls, rendered_append,
    Transducer.run_append, MessageHandler.run_open, List.append_nil,
    MessageHandler.run_items_from lengthWrap handler noText,
    MessageHandler.run_items_from lengthWrap {} rfl]

/-- What the text buffer holds are the pieces of the unfinished text. -/
theorem textBuf_unfinished (chunks : List (List UInt8)) :
    ∃ pieces : Pieces, [] ∉ pieces ∧
      pieces.flatten = (parse lengthWrap chunks.flatten).1.unfinishedText ∧
      (Transducer.run deliver (({}, {}) : HandledReader) chunks).1.2.textBuf =
        pieces.map Utf8.decode := by
  obtain ⟨rest, items, parses, _⟩ := EmbeddedBridge.MessageReader.run_parses
    ({} : MessageReader) .idle EmbeddedBridge.MessageReader.related_fresh trivial chunks
  have calls : (Transducer.run (EmbeddedBridge.MessageReader.feed id) ({} : MessageReader)
      chunks).2 =
        items.flatMap (Item.callbacks lengthWrap) ++ rest.callbacks lengthWrap := parses.calls
  have asParsed : parse lengthWrap chunks.flatten = (rest.raw, items.map Item.raw) :=
    parses.parsed
  have whole : Transducer.run MessageHandler.handle {}
      (rendered (items.flatMap (Item.callbacks lengthWrap))) =
        ({}, items.flatMap itemMessages) := by
    rw [rendered, List.map_flatMap]
    exact Transducer.run_frames MessageHandler.handle {}
      (fun item : Item Pieces => rendered (item.callbacks lengthWrap)) itemMessages items
      (fun item _ => MessageHandler.run_item lengthWrap item)
  have noEmpty := (parses.noEmpty (by simp [Open.pieces])).1
  simp only [deliver, Transducer.run_cascade, run_feed, calls, rendered_append,
    Transducer.run_append, whole, asParsed]
  cases rest with
  | idle => exact ⟨[], List.not_mem_nil, rfl, rfl⟩
  | text pieces =>
    refine ⟨pieces, noEmpty, rfl, ?_⟩
    rw [Open.callbacks, MessageHandler.run_textData]
    rfl
  | version => exact ⟨[], List.not_mem_nil, rfl, rfl⟩
  | length groups => exact ⟨[], List.not_mem_nil, rfl, rfl⟩
  | payload groups pieces =>
    refine ⟨[], List.not_mem_nil, rfl, ?_⟩
    rw [Open.callbacks, rendered_cons, Transducer.run_cons, MessageHandler.run_binaryData]
    rfl

/-- As on the device, for a handler of the user's. -/
def ResetRenews (history : List (List UInt8)) : Prop :=
  ∀ chunks,
    (Transducer.run deliver (HandledReader.reset
        (Transducer.run deliver (({}, {}) : HandledReader) history).1) chunks).2 =
      (Transducer.run deliver (({}, {}) : HandledReader) chunks).2

/-- The reader without such a handler. -/
def DrainReader.ResetRenews (history : List (List UInt8)) : Prop :=
  ∀ chunks : List (List UInt8),
    (chunks.foldl DrainReader.feed (history.foldl DrainReader.feed {}).reset).drain.2 =
      (chunks.foldl DrainReader.feed {}).drain.2

theorem noText_of_renewed (handler : MessageHandler)
    (renewed : ∀ chunks, (Transducer.run deliver (({}, handler) : HandledReader) chunks).2 =
      (Transducer.run deliver (({}, {}) : HandledReader) chunks).2) :
    handler.textBuf.flatten = [] := by
  have empty : [Message.text (stripReturn carriageReturn handler.textBuf.flatten)] =
      [.text (stripReturn carriageReturn [])] := renewed [[newline]]
  have one : [Message.text (stripReturn carriageReturn (handler.textBuf ++ [['a']]).flatten)] =
      [.text (stripReturn carriageReturn ['a'])] := renewed [[0x61, newline]]
  simp only [List.cons.injEq, Message.text.injEq, and_true] at empty one
  cases stripReturn_eq_nil.mp empty with
  | inl none => exact none
  | inr lone =>
    rw [List.flatten_append, lone] at one
    exact absurd one (by decide)

end Python

/-! ## Main result -/

/-- Whatever the history, the drained reader is renewed, and the others are unless it
breaks off in a text, of which a device's handler has room for at least a byte. -/
theorem reset_iff (history : List (List UInt8)) :
    (∀ textBufSize binaryBufSize, Cpp.ResetRenews textBufSize binaryBufSize history ↔
      textBufSize = 0 ∨ (parse Cpp.lengthWrap history.flatten).1.unfinishedText = []) ∧
    (Python.ResetRenews history ↔
      (parse Python.lengthWrap history.flatten).1.unfinishedText = []) ∧
    Python.DrainReader.ResetRenews history := by
  refine ⟨?_, ?_, ?_⟩
  · intro textBufSize binaryBufSize
    have unfinished := Cpp.textBuf_unfinished textBufSize binaryBufSize history
    rw [← List.take_eq_nil_iff, ← unfinished]
    constructor
    · exact Cpp.noText_of_renewed _
    · intro none chunks
      exact Cpp.delivered_of_noText _ (BoundedBuffer.ext none) chunks
  · obtain ⟨pieces, noEmpty, flat, textBuf⟩ := Python.textBuf_unfinished history
    rw [← flat, List.flatten_eq_nil_iff]
    constructor
    · intro renewed piece member
      have none := Python.noText_of_renewed _ renewed
      rw [textBuf, List.flatten_eq_nil_iff] at none
      exact Utf8.decode_eq_nil.mp (none _ (List.mem_map_of_mem member))
    · intro none chunks
      have noPieces : pieces = [] :=
        List.eq_nil_iff_forall_not_mem.mpr fun piece member => noEmpty (none piece member ▸ member)
      exact Python.delivered_of_noText _ (by rw [textBuf, noPieces]; rfl) chunks
  · intro chunks
    simp only [Python.DrainReader.foldl_feed, Python.DrainReader.drain]
    rfl

/-- A line that was not finished turns up before the next one. -/
theorem reset_unfinished :
    ¬ Cpp.ResetRenews 512 4096 [[0x61]] ∧ ¬ Python.ResetRenews [[0x61]] := by
  constructor
  · intro renewed
    exact absurd (renewed [[0x62, 0x0A]]) (by decide +kernel)
  · intro renewed
    exact absurd (renewed [[0x62, 0x0A]]) (by decide +kernel)

end EmbeddedBridge
