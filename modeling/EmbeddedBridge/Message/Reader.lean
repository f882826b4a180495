import EmbeddedBridge.Library.Consumer
import EmbeddedBridge.Library.Utf8
import EmbeddedBridge.Message.Varint

/-! # Message reader

`MessageReader` of `message.h` and `message.py`: a parser that turns the bytes
it is fed into callbacks as they arrive.  The two readers are one program over
different integers, and the host decodes each chunk of text before it hands it
on; so the reader is generic in the `LengthWord` it accumulates a length in and
in `decode`.

`feed` is the source's `while` loop.  Every turn of it makes progress
(`turn_progress`), so that it ends with all of the chunk read.
-/

namespace EmbeddedBridge

open Library

/-- What a handler is told; text is in units of `τ`, bytes or characters. -/
inductive Callback (τ : Type) where
  | textData (chunk : List τ)
  | textEnd
  | binaryStart (length : Nat)
  | binaryData (chunk : List UInt8)
  | binaryEnd
deriving DecidableEq, Repr

/-- The callback of a reader that decodes its text. -/
def Callback.render {τ : Type} (decode : List UInt8 → List τ) : Callback UInt8 → Callback τ
  | .textData chunk => .textData (decode chunk)
  | .textEnd => .textEnd
  | .binaryStart length => .binaryStart length
  | .binaryData chunk => .binaryData chunk
  | .binaryEnd => .binaryEnd

/-- The integers in which a reader keeps a length. -/
class LengthWord (ν : Type) where
  zero : ν
  toNat : ν → Nat
  /-- `value | (c & 0x7F) << shift` -/
  orGroup : ν → UInt8 → Nat → ν
  sub : ν → Nat → ν

instance : LengthWord UInt32 where
  zero := 0
  toNat := UInt32.toNat
  orGroup value c shift := value ||| ((c &&& 0x7F).toUInt32 <<< UInt32.ofNat shift)
  sub remaining take := remaining - UInt32.ofNat take

instance : LengthWord Nat where
  zero := 0
  toNat := id
  orGroup value c shift := value ||| ((c &&& 0x7F).toNat <<< shift)
  sub remaining take := remaining - take

inductive MessageReader.State where
  | idle
  | text
  | version
  | length
  | payload
deriving DecidableEq, Repr

structure MessageReader (ν : Type) [LengthWord ν] where
  state : MessageReader.State := .idle
  varintValue : ν := LengthWord.zero
  varintShift : Nat := 0
  varintBytesRead : Nat := 0
  payloadRemaining : ν := LengthWord.zero

namespace MessageReader

variable {ν τ : Type} [LengthWord ν]

open LengthWord

/-- No chunk of text is handed on empty. -/
def onTextData (decode : List UInt8 → List τ) (chunk : List UInt8) : List (Callback τ) :=
  if chunk = [] then [] else [.textData (decode chunk)]

/-- `chunk` is what has been scanned since the start of this call. -/
def feedText (decode : List UInt8 → List τ) (reader : MessageReader ν) (chunk : List UInt8) :
    List UInt8 → Consumer.Outcome (MessageReader ν) UInt8 (Callback τ)
  | [] => ⟨reader, onTextData decode chunk, []⟩
  | c :: rest =>
    if c = newline then
      ⟨{ reader with state := .idle }, onTextData decode chunk ++ [.textEnd], rest⟩
    else if c = soh then
      ⟨{ reader with state := .version }, onTextData decode chunk ++ [.textEnd], rest⟩
    else feedText decode reader (chunk ++ [c]) rest

def feedPayload (reader : MessageReader ν) (data : List UInt8) :
    Consumer.Outcome (MessageReader ν) UInt8 (Callback τ) :=
  let available := data.length
  let take :=
    if available < toNat reader.payloadRemaining then available else toNat reader.payloadRemaining
  let delivered := if take > 0 then [Callback.binaryData (data.take take)] else []
  let reader :=
    if take > 0 then { reader with payloadRemaining := sub reader.payloadRemaining take } else reader
  if toNat reader.payloadRemaining = 0 then
    ⟨{ reader with state := .idle }, delivered ++ [.binaryEnd], data.drop take⟩
  else ⟨reader, delivered, data.drop take⟩

def processVarintByte (reader : MessageReader ν) (c : UInt8) :
    MessageReader ν × List (Callback τ) :=
  let reader :=
    { reader with
      varintValue := orGroup reader.varintValue c reader.varintShift
      varintShift := reader.varintShift + 7
      varintBytesRead := reader.varintBytesRead + 1 }
  if c &&& 0x80 = 0 then
    let length := LengthWord.toNat reader.varintValue
    -- an empty payload ends at once
    if length = 0 then ({ reader with state := .idle }, [.binaryStart length, .binaryEnd])
    else
      ({ reader with payloadRemaining := reader.varintValue, state := .payload },
        [.binaryStart length])
  -- a length that is too long is dropped without a callback
  else if reader.varintBytesRead ≥ varintMaxBytes then ({ reader with state := .idle }, [])
  else (reader, [])

/-- The body of the loop in `feed`. -/
def turn (decode : List UInt8 → List τ) : Consumer.Body (MessageReader ν) UInt8 (Callback τ) :=
  fun reader c rest =>
    match reader.state with
    | .idle =>
      -- a newline is an empty text; any other byte is the first one of a text
      if c = soh then ⟨{ reader with state := .version }, [], rest⟩
      else if c = newline then ⟨reader, [.textEnd], rest⟩
      else feedText decode { reader with state := .text } [] (c :: rest)
    | .text => feedText decode reader [] (c :: rest)
    | .version =>
      if c = binaryProtocolV1 then
        ⟨{ reader with
            state := .length, varintValue := zero, varintShift := 0, varintBytesRead := 0 }, [], rest⟩
      -- an unknown version is discarded
      else ⟨{ reader with state := .idle }, [], rest⟩
    | .length =>
      let processed := reader.processVarintByte c
      ⟨processed.1, processed.2, rest⟩
    | .payload => feedPayload reader (c :: rest)

/-- A turn that reads nothing leaves the payload. -/
def weight (reader : MessageReader ν) (unread : List UInt8) : Nat :=
  2 * unread.length + if reader.state = .payload then 1 else 0

/-- The loop to its exit. -/
def feedLoop (decode : List UInt8 → List τ) (reader : MessageReader ν) (data : List UInt8) :
    Consumer.Outcome (MessageReader ν) UInt8 (Callback τ) :=
  Consumer.consume (turn decode) weight reader data

def feed (decode : List UInt8 → List τ) :
    Transducer.Step (MessageReader ν) (List UInt8) (Callback τ) := fun reader data =>
  ((feedLoop decode reader data).state, (feedLoop decode reader data).emitted)

def reset (_ : MessageReader ν) : MessageReader ν :=
  { state := .idle, varintValue := zero, varintShift := 0, varintBytesRead := 0
    payloadRemaining := zero }

end MessageReader

abbrev Cpp.MessageReader := EmbeddedBridge.MessageReader UInt32

abbrev Python.MessageReader := EmbeddedBridge.MessageReader Nat

/-- The device hands on the bytes themselves. -/
def Cpp.MessageReader.feed : Transducer.Step Cpp.MessageReader (List UInt8) (Callback UInt8) :=
  EmbeddedBridge.MessageReader.feed id

/-- The host decodes each chunk on its own, with `errors="replace"`. -/
def Python.MessageReader.feed : Transducer.Step Python.MessageReader (List UInt8) (Callback Char) :=
  EmbeddedBridge.MessageReader.feed Utf8.decode

/-! ## The loop ends -/

namespace MessageReader

variable {ν τ : Type} [LengthWord ν]

open LengthWord

theorem feedText_unread (decode : List UInt8 → List τ) (reader : MessageReader ν)
    (chunk data : List UInt8) :
    (feedText decode reader chunk data).unread.length ≤ data.length - 1 := by
  induction data generalizing chunk with
  | nil => exact Nat.le_refl _
  | cons c rest inductionHypothesis =>
    have shorter := inductionHypothesis (chunk ++ [c])
    rw [feedText]
    split
    · simp
    split
    · simp
    · rw [List.length_cons]
      omega

/-- The first byte of a text is read in any case. -/
theorem feedText_reads {decode : List UInt8 → List τ} {reader : MessageReader ν} {c : UInt8}
    {used rest : List UInt8}
    (split : used ++ (feedText decode reader [] (c :: rest)).unread = c :: rest) :
    ∃ later, used = c :: later := by
  have unread := feedText_unread decode reader [] (c :: rest)
  cases used with
  | nil =>
    rw [List.nil_append] at split
    rw [split, List.length_cons] at unread
    omega
  | cons first later =>
    rw [List.cons_append, List.cons.injEq] at split
    exact ⟨later, by rw [split.1]⟩

theorem feedPayload_unread (reader : MessageReader ν) (data : List UInt8) :
    (feedPayload reader data : Consumer.Outcome (MessageReader ν) UInt8 (Callback τ)).unread =
      data.drop (min data.length (toNat reader.payloadRemaining)) := by
  have least : (if data.length < toNat reader.payloadRemaining then data.length
      else toNat reader.payloadRemaining) = min data.length (toNat reader.payloadRemaining) := by
    split <;> omega
  unfold feedPayload
  simp only [least]
  split <;> split <;> rfl

theorem weight_le (reader : MessageReader ν) (unread : List UInt8) :
    weight reader unread ≤ 2 * unread.length + 1 := by
  unfold weight
  split <;> omega

theorem turn_progress (decode : List UInt8 → List τ) :
    Consumer.Progress (turn decode : Consumer.Body (MessageReader ν) UInt8 (Callback τ)) weight := by
  intro reader c rest
  -- reading a byte outweighs entering the payload
  have reads : ∀ outcome : Consumer.Outcome (MessageReader ν) UInt8 (Callback τ),
      outcome.unread.length ≤ rest.length →
        weight outcome.state outcome.unread < weight reader (c :: rest) := by
    intro outcome shorter
    have bound := weight_le outcome.state outcome.unread
    simp only [weight, List.length_cons] at bound ⊢
    omega
  unfold turn
  cases inState : reader.state <;> simp only
  case idle =>
    split
    · exact reads _ (Nat.le_refl _)
    split
    · exact reads _ (Nat.le_refl _)
    · exact reads _ (feedText_unread decode _ [] (c :: rest))
  case text => exact reads _ (feedText_unread decode _ [] (c :: rest))
  case version =>
    split
    · exact reads _ (Nat.le_refl _)
    · exact reads _ (Nat.le_refl _)
  case length => exact reads ⟨_, [], rest⟩ (Nat.le_refl _)
  case payload =>
    -- with nothing owed a turn reads nothing, but it leaves the payload
    by_cases nothing : toNat reader.payloadRemaining = 0
    · simp only [feedPayload, nothing, Nat.not_lt_zero, if_false, Nat.lt_irrefl, if_true, gt_iff_lt,
        List.drop_zero, weight, inState]
      simp
    · apply reads
      rw [feedPayload_unread, List.length_drop, List.length_cons]
      omega

/-! ## Decoding changes the text alone -/

theorem onTextData_render (decode : List UInt8 → List τ) (chunk : List UInt8) :
    onTextData decode chunk = (onTextData id chunk).map (Callback.render decode) := by
  unfold onTextData
  split <;> rfl

theorem feedText_render (decode : List UInt8 → List τ) (reader : MessageReader ν)
    (chunk data : List UInt8) :
    feedText decode reader chunk data =
      ⟨(feedText id reader chunk data).state,
        (feedText id reader chunk data).emitted.map (Callback.render decode),
        (feedText id reader chunk data).unread⟩ := by
  induction data generalizing chunk with
  | nil => simp only [feedText, onTextData_render decode]
  | cons c rest inductionHypothesis =>
    simp only [feedText]
    split
    · simp [onTextData_render decode, Callback.render]
    split
    · simp [onTextData_render decode, Callback.render]
    · exact inductionHypothesis _

theorem feedPayload_render (decode : List UInt8 → List τ) (reader : MessageReader ν)
    (data : List UInt8) :
    (feedPayload reader data : Consumer.Outcome (MessageReader ν) UInt8 (Callback τ)) =
      let raw : Consumer.Outcome (MessageReader ν) UInt8 (Callback UInt8) := feedPayload reader data
      ⟨raw.state, raw.emitted.map (Callback.render decode), raw.unread⟩ := by
  unfold feedPayload
  simp only
  generalize (if data.length < toNat reader.payloadRemaining then data.length
    else toNat reader.payloadRemaining) = take
  by_cases some : take > 0
  · simp only [if_pos some]
    split <;> rfl
  · simp only [if_neg some]
    split <;> rfl

theorem processVarintByte_render (decode : List UInt8 → List τ) (reader : MessageReader ν)
    (c : UInt8) :
    (processVarintByte reader c : MessageReader ν × List (Callback τ)) =
      let raw : MessageReader ν × List (Callback UInt8) := processVarintByte reader c
      (raw.1, raw.2.map (Callback.render decode)) := by
  unfold processVarintByte
  simp only
  split
  · split <;> simp [Callback.render]
  split <;> simp

theorem turn_render (decode : List UInt8 → List τ) (reader : MessageReader ν) (c : UInt8)
    (rest : List UInt8) :
    turn decode reader c rest =
      ⟨(turn id reader c rest).state, (turn id reader c rest).emitted.map (Callback.render decode),
        (turn id reader c rest).unread⟩ := by
  unfold turn
  cases reader.state <;> simp only
  case idle =>
    split
    · rfl
    split
    · rfl
    · exact feedText_render decode _ [] (c :: rest)
  case text => exact feedText_render decode reader [] (c :: rest)
  case version => split <;> rfl
  case length => rw [processVarintByte_render decode]
  case payload => exact feedPayload_render decode reader (c :: rest)

theorem feed_render (decode : List UInt8 → List τ) (reader : MessageReader ν) (data : List UInt8) :
    feed decode reader data =
      ((feed id reader data).1, (feed id reader data).2.map (Callback.render decode)) := by
  have looped : feedLoop decode reader data = _ :=
    Consumer.consume_map weight (Callback.render decode) (turn_render decode) reader data
  simp only [feed, looped]
  rfl

theorem run_render (decode : List UInt8 → List τ) (reader : MessageReader ν)
    (chunks : List (List UInt8)) :
    Transducer.run (feed decode) reader chunks =
      ((Transducer.run (feed id) reader chunks).1,
        (Transducer.run (feed id) reader chunks).2.map (Callback.render decode)) :=
  Transducer.run_map (feed id) (Callback.render decode) (feed_render decode) reader chunks

end MessageReader

end EmbeddedBridge
