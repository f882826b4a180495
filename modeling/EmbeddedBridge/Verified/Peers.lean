import Mathlib.Data.List.Basic
import EmbeddedBridge.Message.Parse

/-! # Matched peers

When the device's reader and the host's read a stream alike.  The two differ in
the integers they keep a length in, so the headers decide: as long as every length
that is announced has 32 bits, both parse the stream the same way (`parse_agrees`),
and the first one that has not is announced differently.
-/

namespace EmbeddedBridge

open Library Wire

/-- The host is told what the device is, with its text decoded, and waits where the
device does, for as much. -/
def Peers (stream : List UInt8) : Prop :=
  let device := Cpp.MessageReader.feed {} stream
  let host := Python.MessageReader.feed {} stream
  host.2 = device.2.map (Callback.render Utf8.decode) ∧ host.1.state = device.1.state ∧
    host.1.payloadRemaining = device.1.payloadRemaining.toNat

namespace Wire

def Item.headers {β : Type} : Item β → List (List UInt8)
  | .binary groups _ => [groups]
  | _ => []

def Open.headers {β : Type} : Open β → List (List UInt8)
  | .payload groups _ => [groups]
  | _ => []

/-- The length headers that are complete. -/
def headers (parsed : Open Raw × List (Item Raw)) : List (List UInt8) :=
  parsed.2.flatMap Item.headers ++ parsed.1.headers

/-- Each announces a length that a `uint32_t` can hold. -/
def Small (parsed : Open Raw × List (Item Raw)) : Prop :=
  ∀ groups ∈ headers parsed, Leb128.value groups < 2 ^ 32

instance (parsed : Open Raw × List (Item Raw)) : Decidable (Small parsed) :=
  inferInstanceAs (Decidable (∀ groups ∈ headers parsed, _))

variable (wrap : Nat → Nat)

theorem parse_snoc (stream : List UInt8) (c : UInt8) :
    parse wrap (stream ++ [c]) =
      ((step wrap (parse wrap stream).1 c).1,
        (parse wrap stream).2 ++ (step wrap (parse wrap stream).1 c).2) := by
  rw [parse, Transducer.run_append, Transducer.run_singleton]
  rfl

/-- A header that is complete stays with its payload. -/
theorem headers_step (before : Open Raw) (c : UInt8) {groups : List UInt8}
    (member : groups ∈ before.headers) : groups ∈ headers (step wrap before c) := by
  cases before with
  | payload groups' body =>
    rw [List.mem_singleton.mp member]
    simp only [step]
    split <;> simp [headers, Item.headers, Open.headers]
  | idle => cases member
  | text raw => cases member
  | version => cases member
  | length groups' => cases member

theorem small_of_snoc {stream : List UInt8} {c : UInt8} (small : Small (parse wrap (stream ++ [c]))) :
    Small (parse wrap stream) ∧ Small (step wrap (parse wrap stream).1 c) := by
  have all : ∀ groups ∈ (parse wrap stream).2.flatMap Item.headers ++
      headers (step wrap (parse wrap stream).1 c), Leb128.value groups < 2 ^ 32 := by
    intro groups member
    refine small groups ?_
    rw [parse_snoc, headers, List.flatMap_append, List.append_assoc]
    exact member
  refine ⟨?_, fun groups member => all groups (List.mem_append_right _ member)⟩
  intro groups member
  rw [headers, List.mem_append] at member
  cases member with
  | inl inItems => exact all groups (List.mem_append_left _ inItems)
  | inr inOpen => exact all groups (List.mem_append_right _ (headers_step wrap _ c inOpen))

theorem lengthWrap_of_small {length : Nat} (small : length < 2 ^ 32) :
    Cpp.lengthWrap length = length := Nat.mod_eq_of_lt small

/-- One byte, read alike. -/
theorem step_agrees (before : Open Raw) (c : UInt8)
    (small : Small (step Python.lengthWrap before c)) :
    step Cpp.lengthWrap before c = step Python.lengthWrap before c := by
  cases before with
  | idle => rfl
  | text raw => rfl
  | version => rfl
  | length groups =>
    simp only [step] at small ⊢
    by_cases ended : ¬ Leb128.Continues c
    · -- the header is complete, whether a payload follows or not
      have announced : Leb128.value (groups ++ [c]) < 2 ^ 32 := by
        simp only [if_pos ended] at small
        refine small _ ?_
        split <;> simp [headers, Item.headers, Open.headers]
      rw [if_pos ended, if_pos ended, lengthWrap_of_small announced]
      rfl
    · rw [if_neg ended, if_neg ended]
  | payload groups body =>
    have announced : Leb128.value groups < 2 ^ 32 :=
      small _ (headers_step Python.lengthWrap _ c (List.mem_singleton_self groups))
    simp only [step]
    rw [lengthWrap_of_small announced]
    rfl

theorem parse_agrees (stream : List UInt8) (small : Small (parse Python.lengthWrap stream)) :
    parse Cpp.lengthWrap stream = parse Python.lengthWrap stream := by
  induction stream using List.reverseRecOn with
  | nil => rfl
  | append_singleton stream c inductionHypothesis =>
    obtain ⟨before, here⟩ := small_of_snoc Python.lengthWrap small
    rw [parse_snoc, parse_snoc, inductionHypothesis before, step_agrees _ c here]

/-! ## Callbacks -/

theorem item_callbacks_agree (item : Item Pieces)
    (small : ∀ groups ∈ item.headers, Leb128.value groups < 2 ^ 32) :
    item.callbacks Cpp.lengthWrap = item.callbacks Python.lengthWrap := by
  cases item with
  | text pieces cut => rfl
  | unknownVersion version => rfl
  | overlong groups => rfl
  | binary groups pieces =>
    have announced := small groups (List.mem_singleton_self groups)
    simp only [Item.callbacks, lengthWrap_of_small announced, Python.lengthWrap]

theorem open_callbacks_agree (item : Open Pieces)
    (small : ∀ groups ∈ item.headers, Leb128.value groups < 2 ^ 32) :
    item.callbacks Cpp.lengthWrap = item.callbacks Python.lengthWrap := by
  cases item with
  | idle => rfl
  | text pieces => rfl
  | version => rfl
  | length groups => rfl
  | payload groups pieces =>
    have announced := small groups (List.mem_singleton_self groups)
    simp only [Open.callbacks, lengthWrap_of_small announced, Python.lengthWrap]

theorem owedBy_agree (item : Open Pieces)
    (small : ∀ groups ∈ item.headers, Leb128.value groups < 2 ^ 32) :
    MessageReader.owedBy Cpp.lengthWrap item = MessageReader.owedBy Python.lengthWrap item := by
  cases item with
  | idle => rfl
  | text pieces => rfl
  | version => rfl
  | length groups => rfl
  | payload groups pieces =>
    have announced := small groups (List.mem_singleton_self groups)
    simp only [MessageReader.owedBy, lengthWrap_of_small announced, Python.lengthWrap]

theorem item_announces (item : Item Pieces) (length : Nat) :
    .binaryStart length ∈ item.callbacks wrap ↔
      ∃ groups ∈ item.headers, length = wrap (Leb128.value groups) := by
  cases item <;> simp [Item.callbacks, Item.headers]

theorem open_announces (item : Open Pieces) (length : Nat) :
    .binaryStart length ∈ item.callbacks wrap ↔
      ∃ groups ∈ item.headers, length = wrap (Leb128.value groups) := by
  cases item <;> simp [Open.callbacks, Open.headers]

/-- The pieces do not change the headers. -/
theorem item_headers_map {β γ : Type} (f : β → γ) (item : Item β) :
    (item.map f).headers = item.headers := by
  cases item <;> rfl

theorem open_headers_map {β γ : Type} (f : β → γ) (item : Open β) :
    (item.map f).headers = item.headers := by
  cases item <;> rfl

end Wire

variable {ν : Type} [LengthWord ν] [lawful : LengthWord.Lawful ν]

variable (ν) in
/-- What a reader announces are the lengths in the headers, as it can hold them. -/
theorem feed_announces (stream : List UInt8) (length : Nat) :
    .binaryStart length ∈ (MessageReader.feed id ({} : MessageReader ν) stream).2 ↔
      ∃ groups ∈ headers (parse lawful.wrap stream), length = lawful.wrap (Leb128.value groups) := by
  rw [(MessageReader.feed_whole ν stream).1, List.mem_append, headers]
  simp only [List.flatMap_map, List.mem_flatMap, item_announces, open_announces, item_headers_map,
    open_headers_map, List.mem_append]
  constructor
  · rintro (⟨item, present, groups, inside, same⟩ | ⟨groups, inside, same⟩)
    · exact ⟨groups, .inl ⟨item, present, inside⟩, same⟩
    · exact ⟨groups, .inr inside, same⟩
  · rintro ⟨groups, ⟨item, present, inside⟩ | inside, same⟩
    · exact .inl ⟨item, present, groups, inside, same⟩
    · exact .inr ⟨groups, inside, same⟩

/-- Decoding leaves what is announced as it is. -/
theorem announced_render {τ : Type} (decode : List UInt8 → List τ) (calls : List (Callback UInt8))
    (length : Nat) :
    .binaryStart length ∈ calls.map (Callback.render decode) ↔ .binaryStart length ∈ calls := by
  rw [List.mem_map]
  constructor
  · rintro ⟨call, present, same⟩
    cases call with
    | binaryStart length' =>
      cases same
      exact present
    | textData chunk => cases same
    | textEnd => cases same
    | binaryData chunk => cases same
    | binaryEnd => cases same
  · intro present
    exact ⟨_, present, rfl⟩

/-- With small headers the two readers do the same, but for the decoding. -/
theorem feed_agrees (stream : List UInt8) (small : Small (parse Python.lengthWrap stream)) :
    let host := MessageReader.feed id ({} : Python.MessageReader) stream
    let device := MessageReader.feed id ({} : Cpp.MessageReader) stream
    host.2 = device.2 ∧ host.1.state = device.1.state ∧
      host.1.payloadRemaining = device.1.payloadRemaining.toNat := by
  intro host device
  obtain ⟨hostCalls, hostRelated⟩ := MessageReader.feed_whole Nat stream
  obtain ⟨deviceCalls, deviceRelated⟩ := MessageReader.feed_whole UInt32 stream
  have agree : parse (LengthWord.Lawful.wrap UInt32) stream =
      parse (LengthWord.Lawful.wrap Nat) stream := parse_agrees stream small
  rw [agree] at deviceCalls deviceRelated
  have smallOpen : ∀ groups ∈ ((parse (LengthWord.Lawful.wrap Nat) stream).1.map
      chunkPieces).headers, Leb128.value groups < 2 ^ 32 := by
    rw [open_headers_map]
    exact fun groups member => small groups (List.mem_append_right _ member)
  have smallItems : ∀ item ∈ (parse (LengthWord.Lawful.wrap Nat) stream).2.map
      (Item.map chunkPieces), ∀ groups ∈ item.headers, Leb128.value groups < 2 ^ 32 := by
    intro item member groups inside
    obtain ⟨raw, present, same⟩ := List.mem_map.mp member
    rw [← same, item_headers_map] at inside
    exact small groups (List.mem_append_left _ (List.mem_flatMap.mpr ⟨raw, present, inside⟩))
  refine ⟨?_, hostRelated.state.trans deviceRelated.state.symm, ?_⟩
  · calc host.2 = _ := hostCalls
      _ = _ := congrArg₂ (· ++ ·)
        (List.flatMap_congr fun item member => (item_callbacks_agree item (smallItems item member)).symm)
        (open_callbacks_agree _ smallOpen).symm
      _ = device.2 := deviceCalls.symm
  · calc host.1.payloadRemaining = _ := hostRelated.remaining
      _ = _ := (owedBy_agree _ smallOpen).symm
      _ = device.1.payloadRemaining.toNat := deviceRelated.remaining.symm

/-! ## Main result -/

/-- The readers agree exactly when no header announces 2³² bytes or more. -/
theorem peers_iff (stream : List UInt8) :
    Peers stream ↔ Small (parse Python.lengthWrap stream) := by
  have rendered : Python.MessageReader.feed {} stream =
      ((MessageReader.feed id {} stream).1,
        (MessageReader.feed id ({} : Python.MessageReader) stream).2.map
          (Callback.render Utf8.decode)) := MessageReader.feed_render Utf8.decode {} stream
  simp only [Peers, rendered]
  constructor
  · rintro ⟨calls, _⟩ groups member
    have host : .binaryStart (Leb128.value groups) ∈
        (MessageReader.feed id ({} : Python.MessageReader) stream).2 :=
      (feed_announces Nat stream _).mpr ⟨groups, member, rfl⟩
    rw [← announced_render Utf8.decode, calls, announced_render] at host
    obtain ⟨groups', _, same⟩ := (feed_announces UInt32 stream _).mp host
    rw [same]
    exact Nat.mod_lt _ (by decide)
  · intro small
    obtain ⟨calls, waits⟩ := feed_agrees stream small
    exact ⟨congrArg (List.map (Callback.render Utf8.decode)) calls, waits⟩

/-- A header for 2³² bytes: the device takes it for an empty binary message, the host
waits for the bytes. -/
theorem peers_part : ¬ Peers [0x01, 0x01, 0x80, 0x80, 0x80, 0x80, 0x10] := by
  have device : (Cpp.MessageReader.feed {} [0x01, 0x01, 0x80, 0x80, 0x80, 0x80, 0x10]).2 =
      [.binaryStart 0, .binaryEnd] := by
    decide +kernel
  have host : (Python.MessageReader.feed {} [0x01, 0x01, 0x80, 0x80, 0x80, 0x80, 0x10]).2 =
      [.binaryStart (2 ^ 32)] := by
    decide +kernel
  intro peers
  have calls := peers.1
  rw [host, device] at calls
  cases calls

end EmbeddedBridge
