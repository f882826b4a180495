import EmbeddedBridge.Message.Parse

/-! # The callback grammar

What a handler may rely on: the callbacks of a reader are always the beginning
of a sequence of whole messages, no chunk is empty, and the chunks, with the
delimiters and headers in between, are the bytes that were fed, each of them
once.  All of it is read off the parse that `run_parses` provides.
-/

namespace EmbeddedBridge

open Library Wire

/-- `( text_data* text_end | binary_start(n) binary_data* binary_end )*`, with no
empty chunk, and `n` bytes between start and end. -/
inductive CallbackWord : List (Callback UInt8) → Prop where
  | nil : CallbackWord []
  | text (pieces : Pieces) {later : List (Callback UInt8)} (noEmpty : [] ∉ pieces)
      (word : CallbackWord later) :
      CallbackWord (pieces.map .textData ++ .textEnd :: later)
  | binary (pieces : Pieces) {later : List (Callback UInt8)} (noEmpty : [] ∉ pieces)
      (word : CallbackWord later) :
      CallbackWord (.binaryStart pieces.flatten.length ::
        (pieces.map .binaryData ++ .binaryEnd :: later))

variable {wrap : Nat → Nat}

/-- The callbacks of whole items do not disturb what comes after them. -/
theorem callbackWord_items (items : List (Item Pieces)) {later : List (Callback UInt8)}
    (wellFormed : ∀ item ∈ items, item.raw.WellFormed wrap) (noEmpty : ∀ item ∈ items, [] ∉ item.pieces)
    (word : CallbackWord later) : CallbackWord (items.flatMap (Item.callbacks wrap) ++ later) := by
  induction items with
  | nil => exact word
  | cons item items inductionHypothesis =>
    have rest := inductionHypothesis
      (fun other member => wellFormed other (List.mem_cons_of_mem _ member))
      (fun other member => noEmpty other (List.mem_cons_of_mem _ member))
    have here := wellFormed item List.mem_cons_self
    have plain := noEmpty item List.mem_cons_self
    rw [List.flatMap_cons, List.append_assoc]
    cases item with
    | text pieces cut =>
      simp only [Item.callbacks, List.append_assoc, List.singleton_append]
      exact .text pieces plain rest
    | unknownVersion version => exact rest
    | overlong groups => exact rest
    | binary groups pieces =>
      simp only [Item.callbacks, List.cons_append, List.append_assoc, List.nil_append]
      rw [← here.2]
      exact .binary pieces plain rest

/-- An open item can be brought to its end. -/
theorem callbackWord_open (item : Open Pieces) (wellFormed : item.raw.WellFormed wrap)
    (noEmpty : [] ∉ item.pieces) :
    ∃ suffix, CallbackWord (item.callbacks wrap ++ suffix) := by
  cases item with
  | idle => exact ⟨[], .nil⟩
  | text pieces => exact ⟨[.textEnd], .text pieces noEmpty .nil⟩
  | version => exact ⟨[], .nil⟩
  | length groups => exact ⟨[], .nil⟩
  | payload groups pieces =>
    have short : pieces.flatten.length < wrap (Leb128.value groups) := wellFormed.2
    -- zeros stand in for the bytes that have not come yet
    let missing := List.replicate (wrap (Leb128.value groups) - pieces.flatten.length) (0 : UInt8)
    have some : missing ≠ [] := List.ne_nil_of_length_pos (by
      rw [List.length_replicate]
      omega)
    have whole : (pieces ++ [missing]).flatten.length = wrap (Leb128.value groups) := by
      rw [List.flatten_append, List.length_append, List.flatten_singleton, List.length_replicate]
      omega
    have plain : [] ∉ pieces ++ [missing] := by
      rw [List.mem_append, List.mem_singleton, not_or]
      exact ⟨noEmpty, Ne.symm some⟩
    have word := CallbackWord.binary (pieces ++ [missing]) plain .nil
    rw [whole, List.map_append, List.append_assoc] at word
    exact ⟨_, word⟩

namespace MessageReader

variable {ν : Type} [LengthWord ν] [lawful : LengthWord.Lawful ν]

/-- What holds of a reader between any two turns of the loop. -/
def Invariant (reader : MessageReader ν) : Prop :=
  ∃ item, reader.Related item ∧ item.raw.WellFormed lawful.wrap

theorem invariant_turn (reader : MessageReader ν) (c : UInt8) (rest : List UInt8)
    (invariant : reader.Invariant) : (turn id reader c rest).state.Invariant := by
  obtain ⟨before, related, wellFormed⟩ := invariant
  obtain ⟨used, after, items, _, parses, related', _⟩ :=
    turn_parses reader before related wellFormed c rest
  exact ⟨after, related', (parses.wellFormed wellFormed).1⟩

/-- A payload is never waited for when there is none left. -/
theorem remaining_of_invariant {reader : MessageReader ν} (invariant : reader.Invariant)
    (inPayload : reader.state = .payload) : 0 < LengthWord.toNat reader.payloadRemaining := by
  obtain ⟨item, related, wellFormed⟩ := invariant
  have state := related.state
  have remaining := related.remaining
  rw [inPayload] at state
  cases item with
  | idle => cases state
  | text pieces => cases state
  | version => cases state
  | length groups => cases state
  | payload groups pieces =>
    have short : pieces.flatten.length < lawful.wrap (Leb128.value groups) := wellFormed.2
    simp only [owedBy] at remaining
    omega

end MessageReader

/-! ## Main result -/

/-- For any chunks fed to a new reader: the callbacks begin a word of the grammar;
items and an open one account for every byte and every callback in order; and in
the loop of any further `feed`, a payload that is waited for has bytes to come,
and the loop ends with the chunk read, whatever fuel beyond its weight it gets. -/
theorem feed_grammar (chunks : List (List UInt8)) :
    let fed : Cpp.MessageReader × List (Callback UInt8) :=
      Transducer.run Cpp.MessageReader.feed {} chunks
    (∃ suffix, CallbackWord (fed.2 ++ suffix)) ∧
    (∃ (items : List (Item Pieces)) (rest : Open Pieces),
      chunks.flatten = items.flatMap (fun item => item.raw.bytes) ++ rest.raw.bytes ∧
      fed.2 = items.flatMap (Item.callbacks Cpp.lengthWrap) ++ rest.callbacks Cpp.lengthWrap ∧
      (∀ item ∈ items, item.raw.WellFormed Cpp.lengthWrap ∧ [] ∉ item.pieces) ∧
      rest.raw.WellFormed Cpp.lengthWrap ∧ [] ∉ rest.pieces) ∧
    ∀ chunk fuel,
      let looped := Consumer.loop (MessageReader.turn id) fuel fed.1 chunk
      (looped.state.state = .payload → 0 < looped.state.payloadRemaining) ∧
      (MessageReader.weight fed.1 chunk ≤ fuel →
        looped.unread = [] ∧ looped = MessageReader.feedLoop id fed.1 chunk) := by
  intro fed
  obtain ⟨rest, items, parses, related⟩ := MessageReader.run_parses ({} : Cpp.MessageReader) .idle
    MessageReader.related_fresh trivial chunks
  obtain ⟨restFormed, itemsFormed⟩ := parses.wellFormed trivial
  obtain ⟨restFull, itemsFull⟩ := parses.noEmpty (by simp [Open.pieces])
  have calls : fed.2 = items.flatMap (Item.callbacks Cpp.lengthWrap) ++
      rest.callbacks Cpp.lengthWrap := parses.calls
  refine ⟨?_, ⟨items, rest, ?_, calls, ?_, restFormed, restFull⟩, ?_⟩
  · obtain ⟨suffix, word⟩ := callbackWord_open rest restFormed restFull
    refine ⟨suffix, ?_⟩
    rw [calls, List.append_assoc]
    exact callbackWord_items items itemsFormed itemsFull word
  · have bytes := parse_bytes Cpp.lengthWrap chunks.flatten
    have parsed : parse Cpp.lengthWrap chunks.flatten = (rest.raw, items.map Item.raw) :=
      parses.parsed
    rw [parsed, List.flatMap_map] at bytes
    exact bytes
  · exact fun item member => ⟨itemsFormed item member, itemsFull item member⟩
  · intro chunk fuel
    refine ⟨?_, ?_⟩
    · intro inPayload
      have invariant := Consumer.loop_invariant MessageReader.Invariant
        MessageReader.invariant_turn fuel fed.1 chunk ⟨rest, related, restFormed⟩
      exact MessageReader.remaining_of_invariant invariant inPayload
    · intro enough
      have progress : Consumer.Progress (MessageReader.turn id :
          Consumer.Body Cpp.MessageReader UInt8 (Callback UInt8)) MessageReader.weight :=
        MessageReader.turn_progress id
      exact ⟨Consumer.loop_exits progress fuel fed.1 chunk enough,
        Consumer.loop_fuel progress fuel fed.1 chunk enough⟩

end EmbeddedBridge
