import EmbeddedBridge.Message.Bytewise
import EmbeddedBridge.Message.Delivery

/-! # Chunks on the host

When the host's reader delivers the same messages however its input is cut.  Its
fields never depend on the chunks; of the messages, only the texts can, because
each piece of a text is decoded on its own.  The two extreme ways to cut a stream
decide the matter: as a whole, and into single bytes.
-/

namespace EmbeddedBridge.Python

open Library Wire

/-- Any two ways to cut the stream deliver the same, drain the same and leave the
reader the same. -/
def ChunkingInvariant (stream : List UInt8) : Prop :=
  ∀ left right : List (List UInt8), left.flatten = stream → right.flatten = stream →
    let deliveredLeft := Transducer.run deliver (({}, {}) : MessageReader × MessageHandler) left
    let deliveredRight := Transducer.run deliver (({}, {}) : MessageReader × MessageHandler) right
    deliveredLeft.2 = deliveredRight.2 ∧ deliveredLeft.1.1 = deliveredRight.1.1 ∧
      (left.foldl DrainReader.feed {}).drain.2 = (right.foldl DrainReader.feed {}).drain.2

/-- Every byte is a piece. -/
def singles (body : Raw) : Pieces := body.map fun c => [c]

@[simp] theorem singles_flatten (body : Raw) : (singles body).flatten = body := by
  rw [singles, ← List.flatMap_def, List.flatMap_singleton']

theorem singles_decode (body : Raw) : (singles body).flatMap Utf8.decode = body.map Utf8.byteChar := by
  rw [singles, List.flatMap_map, List.map_eq_flatMap]
  exact List.flatMap_congr fun c _ => Utf8.decode_singleton c

/-- The message of an item that came byte by byte. -/
def byteMessages (item : Item Raw) : List (Message Char) := itemMessages (item.map singles)

/-! ## Two ways to cut a stream -/

theorem bytewise_pieces (call : List UInt8 → Callback UInt8) (pieces : Pieces)
    (bytewise : ∀ chunk, (call chunk).bytewise = chunk.map fun c => call [c]) :
    (pieces.map call).flatMap Callback.bytewise = (singles pieces.flatten).map call := by
  rw [List.flatMap_map, singles, List.map_map, List.map_flatten, List.flatMap_def]
  simp only [bytewise]
  rfl

theorem item_bytewise (wrap : Nat → Nat) (item : Item Pieces) :
    (item.callbacks wrap).flatMap Callback.bytewise = (item.raw.map singles).callbacks wrap := by
  cases item with
  | text pieces cut =>
    rw [Item.callbacks, List.flatMap_append, bytewise_pieces .textData pieces fun _ => rfl]
    rfl
  | unknownVersion version => rfl
  | overlong groups => rfl
  | binary groups pieces =>
    rw [Item.callbacks, List.flatMap_cons, List.flatMap_append,
      bytewise_pieces .binaryData pieces fun _ => rfl]
    rfl

theorem open_bytewise (wrap : Nat → Nat) (item : Open Pieces) :
    (item.callbacks wrap).flatMap Callback.bytewise = (item.raw.map singles).callbacks wrap := by
  cases item with
  | idle => rfl
  | text pieces => rw [Open.callbacks, bytewise_pieces .textData pieces fun _ => rfl]; rfl
  | version => rfl
  | length groups => rfl
  | payload groups pieces =>
    rw [Open.callbacks, List.flatMap_cons, bytewise_pieces .binaryData pieces fun _ => rfl]
    rfl

theorem waits_fresh : ({} : MessageReader).Waits := by simp [MessageReader.Waits]

/-- Fed byte by byte. -/
theorem bytes_delivered (stream : List UInt8) :
    (Transducer.run deliver (({}, {}) : MessageReader × MessageHandler)
      (stream.map fun c => [c])).2 = (parse lengthWrap stream).2.flatMap byteMessages := by
  obtain ⟨rest, items, parses, _⟩ := MessageReader.feed_parses ({} : MessageReader) .idle
    MessageReader.related_fresh trivial stream
  have asParsed : parse lengthWrap stream = (rest.raw, items.map Item.raw) := parses.parsed
  have calls : (EmbeddedBridge.MessageReader.feed id ({} : MessageReader) stream).2 =
      items.flatMap (Item.callbacks lengthWrap) ++ rest.callbacks lengthWrap := parses.calls
  have bytewise : (Transducer.run (EmbeddedBridge.MessageReader.feed id) ({} : MessageReader)
      (stream.map fun c => [c])).2 =
        (items.map fun item => item.raw.map singles).flatMap (Item.callbacks lengthWrap) ++
          (rest.raw.map singles).callbacks lengthWrap := by
    rw [MessageReader.run_singletons _ waits_fresh, (MessageReader.run_byteFeed _ waits_fresh _).2,
      calls, List.flatMap_append, List.flatMap_assoc, List.flatMap_map, open_bytewise]
    simp only [item_bytewise]
  rw [delivered_of_calls bytewise, asParsed, List.flatMap_map, List.flatMap_map]
  rfl

/-- Where no text has a sequence in it, any chunks deliver what the single bytes do. -/
theorem delivered_of_unsequenced {stream : List UInt8}
    (plain : ∀ raw cut, .text raw cut ∈ (parse lengthWrap stream).2 → ¬ Utf8.Sequenced raw)
    (chunks : List (List UInt8)) (split : chunks.flatten = stream) :
    (Transducer.run deliver (({}, {}) : MessageReader × MessageHandler) chunks).2 =
      (parse lengthWrap stream).2.flatMap byteMessages := by
  obtain ⟨rest, items, parses, _⟩ := MessageReader.run_parses ({} : MessageReader) .idle
    MessageReader.related_fresh trivial chunks
  have asParsed : parse lengthWrap stream = (rest.raw, items.map Item.raw) := by
    rw [← split]
    exact parses.parsed
  rw [asParsed] at plain ⊢
  rw [delivered_of_calls parses.calls, List.flatMap_map]
  refine List.flatMap_congr fun item member => ?_
  cases item with
  | text pieces cut =>
    have whole : ¬ Utf8.Sequenced pieces.flatten := plain _ cut (List.mem_map_of_mem member)
    have decoded := Utf8.decode_pieces_of_unsequenced pieces whole
    simp only [itemMessages, byteMessages, Item.raw, Item.map, decoded, singles_decode]
  | unknownVersion version => rfl
  | overlong groups => rfl
  | binary groups pieces => simp [itemMessages, byteMessages, Item.raw, Item.map]

/-! ## Lines that differ -/

theorem byteChar_return {byte : UInt8} (same : Utf8.byteChar byte = carriageReturn) :
    byte = 0x0D := by
  have all : ∀ number < 256, Utf8.byteChar (UInt8.ofNat number) = carriageReturn → number = 0x0D := by
    decide +kernel
  have number := all byte.toNat byte.toNat_lt (by rwa [UInt8.ofNat_toNat])
  rw [← UInt8.toNat_inj, number]
  rfl

/-- The line of a text with a sequence in it is shorter as a whole than byte by byte. -/
theorem line_shorter {raw : Raw} (sequenced : Utf8.Sequenced raw) :
    (stripReturn carriageReturn (Utf8.decode raw)).length <
      (stripReturn carriageReturn (raw.map Utf8.byteChar)).length := by
  by_cases ended : raw.getLast? = some 0x0D
  -- both lines lose the CR, and a sequence does not reach into it
  · obtain ⟨init, split⟩ := List.getLast?_eq_some_iff.mp ended
    have shorter := Utf8.decode_length_lt
      (Utf8.sequenced_of_snoc_ascii (by decide) (split ▸ sequenced))
    have decoded : Utf8.decode raw = Utf8.decode init ++ [carriageReturn] := by
      rw [split, Utf8.decode_split _ _ (by decide)]
      rfl
    have bytes : raw.map Utf8.byteChar = init.map Utf8.byteChar ++ [carriageReturn] := by
      rw [split, List.map_append]
      rfl
    simpa [decoded, bytes, stripReturn] using shorter
  -- byte by byte nothing is stripped; as a whole the line is shorter anyway
  · have kept : (raw.map Utf8.byteChar).getLast? ≠ some carriageReturn := by
      intro returned
      rw [List.getLast?_map, Option.map_eq_some_iff] at returned
      obtain ⟨last, isLast, same⟩ := returned
      rw [byteChar_return same] at isLast
      exact ended isLast
    have shorter := Utf8.decode_length_lt sequenced
    have stripped : (stripReturn carriageReturn (Utf8.decode raw)).length ≤
        (Utf8.decode raw).length := by
      unfold stripReturn
      split
      · rw [List.length_dropLast]
        omega
      · exact Nat.le_refl _
    rw [stripReturn_of_not kept, List.length_map]
    omega

/-- Lists put together from parts of equal length are equal only part by part. -/
theorem flatMap_pointwise {α β : Type} {first second : α → List β} {items : List α}
    (lengths : ∀ item, (first item).length = (second item).length)
    (same : items.flatMap first = items.flatMap second) :
    ∀ item ∈ items, first item = second item := by
  induction items with
  | nil => simp
  | cons item items inductionHypothesis =>
    rw [List.flatMap_cons, List.flatMap_cons] at same
    obtain ⟨here, later⟩ := List.append_inj same (lengths item)
    intro other member
    cases member with
    | head => exact here
    | tail _ inRest => exact inductionHypothesis later other inRest

/-! ## Main result -/

/-- The messages do not depend on the chunks exactly when no text of the stream has a
byte that continues a sequence begun by the one before it. -/
theorem chunking_iff (stream : List UInt8) :
    ChunkingInvariant stream ↔
      ∀ raw cut, .text raw cut ∈ (parse lengthWrap stream).2 → ¬ Utf8.Sequenced raw := by
  constructor
  · intro invariant raw cut member sequenced
    -- the stream as a whole against its single bytes
    have same := (invariant [stream] (singles stream) (by simp) (singles_flatten stream)).1
    rw [(python_delivered stream).1, singles, bytes_delivered] at same
    have lengths : ∀ item, (wholeMessages item).length = (byteMessages item).length := by
      intro item
      cases item <;> rfl
    have line := flatMap_pointwise lengths same (.text raw cut) member
    have shorter := line_shorter sequenced
    simp only [wholeMessages, byteMessages, itemMessages, Item.map, chunkPieces_decode,
      singles_decode, List.cons.injEq, Message.text.injEq, and_true] at line
    rw [line] at shorter
    exact Nat.lt_irrefl _ shorter
  · intro plain left right leftSplit rightSplit
    have same : (Transducer.run deliver (({}, {}) : MessageReader × MessageHandler) left).2 =
        (Transducer.run deliver ({}, {}) right).2 := by
      rw [delivered_of_unsequenced plain left leftSplit,
        delivered_of_unsequenced plain right rightSplit]
    refine ⟨same, ?_, ?_⟩
    · have leftRan := MessageReader.run_byteFeed_chunks _ waits_fresh left
      have rightRan := MessageReader.run_byteFeed_chunks _ waits_fresh right
      rw [leftSplit] at leftRan
      rw [rightSplit] at rightRan
      rw [deliver_reader, deliver_reader]
      exact (Prod.mk.inj (leftRan.symm.trans rightRan)).1
    · simp only [DrainReader.foldl_feed, DrainReader.drain, same]

/-- One character of two bytes, cut in the middle, comes as two replacement characters. -/
theorem chunking_splits_character : ¬ ChunkingInvariant [0xC3, 0xA9, 0x0A] := by
  intro invariant
  have same := (invariant [[0xC3, 0xA9, 0x0A]] [[0xC3], [0xA9, 0x0A]] rfl rfl).1
  have whole : (Transducer.run deliver (({}, {}) : MessageReader × MessageHandler)
      [[0xC3, 0xA9, 0x0A]]).2 = [.text ['é']] := by
    decide +kernel
  have cut : (Transducer.run deliver (({}, {}) : MessageReader × MessageHandler)
      [[0xC3], [0xA9, 0x0A]]).2 = [.text [Utf8.replacement, Utf8.replacement]] := by
    decide +kernel
  rw [whole, cut] at same
  exact absurd same (by decide)

end EmbeddedBridge.Python
