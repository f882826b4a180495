import EmbeddedBridge.Message.Reader
import EmbeddedBridge.Message.Wire

/-! # What the reader reads

The reader against `Wire.parse`.  Each turn of its loop reads a stretch of the
input, over which the wire goes from one open item to another, and the callbacks
of the turn are those of the items, in the pieces in which the bodies came
(`Parses`).  There is one lemma for each state of the reader; `feed_parses` and
`run_parses` put the turns together for one chunk and for any list of chunks.
-/

namespace EmbeddedBridge

open Library

/-! ## Length words -/

/-- How the integers of a reader act on a length; `wrap` is what becomes of a
number they cannot hold. -/
class LengthWord.Lawful (ν : Type) [LengthWord ν] where
  wrap : Nat → Nat
  wrap_small : ∀ number, number < 2 ^ 32 → wrap number = number
  toNat_zero : LengthWord.toNat (LengthWord.zero : ν) = 0
  toNat_orGroup : ∀ (value : ν) (c : UInt8) (shift : Nat), shift < 32 →
    LengthWord.toNat (LengthWord.orGroup value c shift) =
      wrap (LengthWord.toNat value ||| (c.toNat % 128) <<< shift)
  toNat_sub : ∀ (remaining : ν) (take : Nat), take ≤ LengthWord.toNat remaining →
    LengthWord.toNat (LengthWord.sub remaining take) = LengthWord.toNat remaining - take
  sub_zero : ∀ remaining : ν, LengthWord.sub remaining 0 = remaining
  sub_sub : ∀ (remaining : ν) (left right : Nat),
    LengthWord.sub (LengthWord.sub remaining left) right = LengthWord.sub remaining (left + right)

/-- The length a `uint32_t` keeps. -/
def Cpp.lengthWrap (length : Nat) : Nat := length % 2 ^ 32

/-- An unbounded integer keeps any. -/
def Python.lengthWrap (length : Nat) : Nat := length

instance : LengthWord.Lawful UInt32 where
  wrap := Cpp.lengthWrap
  wrap_small _ small := Nat.mod_eq_of_lt small
  toNat_zero := rfl
  toNat_orGroup value c shift small := by
    have inWord : value.toNat % 2 ^ 32 = value.toNat := Nat.mod_eq_of_lt value.toNat_lt
    have shift' : (UInt32.ofNat shift).toNat % 32 = shift := by
      rw [UInt32.toNat_ofNat']
      omega
    change (value ||| ((c &&& 0x7F).toUInt32 <<< UInt32.ofNat shift)).toNat = _
    rw [UInt32.toNat_or, UInt32.toNat_shiftLeft, UInt8.toNat_toUInt32, group_toNat, shift',
      Cpp.lengthWrap, Nat.or_mod_two_pow]
    change _ = value.toNat % 2 ^ 32 ||| _
    rw [inWord]
  toNat_sub remaining take fits := by
    have bound := remaining.toNat_lt
    change (remaining - UInt32.ofNat take).toNat = remaining.toNat - take
    have fits' : take ≤ remaining.toNat := fits
    have inWord : (UInt32.ofNat take).toNat = take := by
      rw [UInt32.toNat_ofNat']
      omega
    rw [UInt32.toNat_sub_of_le _ _ (by rw [UInt32.le_iff_toNat_le, inWord]; exact fits), inWord]
  sub_zero remaining := UInt32.sub_zero remaining
  sub_sub remaining left right := by
    change remaining - UInt32.ofNat left - UInt32.ofNat right = remaining - UInt32.ofNat (left + right)
    rw [UInt32.ofNat_add]
    grind

instance : LengthWord.Lawful Nat where
  wrap := Python.lengthWrap
  wrap_small _ _ := rfl
  toNat_zero := rfl
  toNat_orGroup value c shift _ := by
    change value ||| (c &&& 0x7F).toNat <<< shift = _
    rw [group_toNat]
    rfl
  toNat_sub _ _ _ := rfl
  sub_zero _ := rfl
  sub_sub remaining left right := Nat.sub_sub remaining left right

/-! ## Bodies in pieces -/

namespace Wire

abbrev Pieces := List (List UInt8)

section Pieces

variable (wrap : Nat → Nat)

def Item.callbacks : Item Pieces → List (Callback UInt8)
  | .text pieces _ => pieces.map .textData ++ [.textEnd]
  | .unknownVersion _ => []
  | .overlong _ => []
  | .binary groups pieces =>
    .binaryStart (wrap (Leb128.value groups)) :: (pieces.map .binaryData ++ [.binaryEnd])

def Open.callbacks : Open Pieces → List (Callback UInt8)
  | .idle => []
  | .text pieces => pieces.map .textData
  | .version => []
  | .length _ => []
  | .payload groups pieces => .binaryStart (wrap (Leb128.value groups)) :: pieces.map .binaryData

end Pieces

def Item.pieces : Item Pieces → Pieces
  | .text pieces _ => pieces
  | .binary _ pieces => pieces
  | _ => []

def Open.pieces : Open Pieces → Pieces
  | .text pieces => pieces
  | .payload _ pieces => pieces
  | _ => []

def Item.raw (item : Item Pieces) : Item Raw := item.map List.flatten

def Open.raw (item : Open Pieces) : Open Raw := item.map List.flatten

/-- The chunk handed on, as pieces. -/
def chunkPieces (chunk : List UInt8) : Pieces := if chunk = [] then [] else [chunk]

theorem chunkPieces_flatten (chunk : List UInt8) : (chunkPieces chunk).flatten = chunk := by
  unfold chunkPieces
  split
  · rename_i empty
    rw [empty]
    rfl
  · simp

theorem chunkPieces_noEmpty (chunk : List UInt8) : [] ∉ chunkPieces chunk := by
  unfold chunkPieces
  split
  · simp
  · rename_i some
    simpa using Ne.symm some

theorem chunkPieces_length (chunk : List UInt8) : (chunkPieces chunk).length ≤ 1 := by
  unfold chunkPieces
  split <;> simp

/-- One piece, if any, says no more than its bytes. -/
theorem chunkPieces_of_whole {pieces : Pieces} (one : pieces.length ≤ 1) (noEmpty : [] ∉ pieces) :
    chunkPieces pieces.flatten = pieces := by
  match pieces, one with
  | [], _ => rfl
  | [piece], _ =>
    have some : piece ≠ [] := fun empty => noEmpty (by simp [empty])
    simp [chunkPieces, some]

theorem item_of_whole {item : Item Pieces} (one : item.pieces.length ≤ 1)
    (noEmpty : [] ∉ item.pieces) : item.raw.map chunkPieces = item := by
  cases item with
  | text pieces cut => exact congrArg (Item.text · cut) (chunkPieces_of_whole one noEmpty)
  | unknownVersion version => rfl
  | overlong groups => rfl
  | binary groups pieces => exact congrArg (Item.binary groups) (chunkPieces_of_whole one noEmpty)

theorem open_of_whole {item : Open Pieces} (one : item.pieces.length ≤ 1)
    (noEmpty : [] ∉ item.pieces) : item.raw.map chunkPieces = item := by
  cases item with
  | idle => rfl
  | text pieces => exact congrArg Open.text (chunkPieces_of_whole one noEmpty)
  | version => rfl
  | length groups => rfl
  | payload groups pieces => exact congrArg (Open.payload groups) (chunkPieces_of_whole one noEmpty)

variable (wrap : Nat → Nat)

/-- From `before`, reading `data` with the callbacks `emitted` completes `items`
and leaves `after` open. -/
structure Parses (before : Open Pieces) (data : List UInt8) (emitted : List (Callback UInt8))
    (after : Open Pieces) (items : List (Item Pieces)) : Prop where
  parsed : Transducer.run (step wrap) before.raw data = (after.raw, items.map Item.raw)
  calls : before.callbacks wrap ++ emitted =
    items.flatMap (Item.callbacks wrap) ++ after.callbacks wrap
  noEmpty : [] ∉ before.pieces → [] ∉ after.pieces ∧ ∀ item ∈ items, [] ∉ item.pieces

theorem Parses.nil (before : Open Pieces) : Parses wrap before [] [] before [] :=
  ⟨rfl, by simp, fun noEmpty => ⟨noEmpty, by simp⟩⟩

variable {wrap}

theorem Parses.trans {first second third : Open Pieces} {left right : List UInt8}
    {emittedLeft emittedRight : List (Callback UInt8)} {itemsLeft itemsRight : List (Item Pieces)}
    (leftParses : Parses wrap first left emittedLeft second itemsLeft)
    (rightParses : Parses wrap second right emittedRight third itemsRight) :
    Parses wrap first (left ++ right) (emittedLeft ++ emittedRight) third
      (itemsLeft ++ itemsRight) := by
  refine ⟨?_, ?_, ?_⟩
  · rw [List.map_append]
    exact Transducer.run_trans _ leftParses.parsed rightParses.parsed
  · rw [← List.append_assoc, leftParses.calls, List.append_assoc, rightParses.calls,
      List.flatMap_append, List.append_assoc]
  · intro noEmpty
    obtain ⟨second, left⟩ := leftParses.noEmpty noEmpty
    obtain ⟨third, right⟩ := rightParses.noEmpty second
    refine ⟨third, ?_⟩
    intro item member
    rw [List.mem_append] at member
    cases member with
    | inl inLeft => exact left item inLeft
    | inr inRight => exact right item inRight

theorem Parses.wellFormed {before after : Open Pieces} {data : List UInt8}
    {emitted : List (Callback UInt8)} {items : List (Item Pieces)}
    (parses : Parses wrap before data emitted after items)
    (wellFormed : before.raw.WellFormed wrap) :
    after.raw.WellFormed wrap ∧ ∀ item ∈ items, item.raw.WellFormed wrap := by
  obtain ⟨final, whole⟩ := run_wellFormed wrap before.raw data wellFormed
  rw [parses.parsed] at final whole
  exact ⟨final, fun item member => whole item.raw (List.mem_map_of_mem member)⟩

end Wire

/-! ## One turn -/

namespace MessageReader

variable {ν : Type} [LengthWord ν] [lawful : LengthWord.Lawful ν]

open LengthWord Wire

/-- The state for an open item. -/
def stateOf : Open Pieces → State
  | .idle => .idle
  | .text _ => .text
  | .version => .version
  | .length _ => .length
  | .payload _ _ => .payload

/-- How many bytes of its payload an open item lacks. -/
def owedBy (wrap : Nat → Nat) : Open Pieces → Nat
  | .payload groups pieces => wrap (Leb128.value groups) - pieces.flatten.length
  | _ => 0

/-- The reader's fields against the item that is open. -/
structure Related (reader : MessageReader ν) (item : Open Pieces) : Prop where
  state : reader.state = stateOf item
  remaining : toNat reader.payloadRemaining = owedBy lawful.wrap item
  varint : ∀ groups, item = .length groups → toNat reader.varintValue = Leb128.value groups ∧
    reader.varintShift = 7 * groups.length ∧ reader.varintBytesRead = groups.length

/-- A turn reads `used` of `data`, and stands to what it emits as `Parses` says.
If no piece of the open item was there before, then there is at most one of any
item, and no more than that is left open. -/
def TurnParses (before : Open Pieces) (data : List UInt8)
    (outcome : Consumer.Outcome (MessageReader ν) UInt8 (Callback UInt8)) : Prop :=
  ∃ used after items, used ++ outcome.unread = data ∧
    Parses lawful.wrap before used outcome.emitted after items ∧ outcome.state.Related after ∧
    (before.pieces = [] → (∀ item ∈ items, item.pieces.length ≤ 1) ∧ after.pieces.length ≤ 1 ∧
      (outcome.unread = [] ∨ after.pieces = []))

theorem onTextData_eq (chunk : List UInt8) :
    onTextData id chunk = (chunkPieces chunk).map Callback.textData := by
  unfold onTextData chunkPieces
  split <;> rfl

omit lawful in
/-- The scan of `feedText` finds a delimiter after some plain text, or none. -/
theorem feedText_cases (reader : MessageReader ν) (chunk data : List UInt8) :
    (Plain data ∧ feedText id reader chunk data = ⟨reader, onTextData id (chunk ++ data), []⟩) ∨
    ∃ text rest, Plain text ∧
      ((data = text ++ newline :: rest ∧ feedText id reader chunk data =
          ⟨{ reader with state := .idle }, onTextData id (chunk ++ text) ++ [.textEnd], rest⟩) ∨
        (data = text ++ soh :: rest ∧ feedText id reader chunk data =
          ⟨{ reader with state := .version }, onTextData id (chunk ++ text) ++ [.textEnd], rest⟩)) := by
  have emptyPlain : Plain [] := ⟨by simp, by simp⟩
  induction data generalizing chunk with
  | nil => exact .inl ⟨emptyPlain, by simp [feedText]⟩
  | cons c rest inductionHypothesis =>
    by_cases isNewline : c = newline
    · exact .inr ⟨[], rest, emptyPlain, .inl ⟨by simp [isNewline], by simp [feedText, isNewline]⟩⟩
    by_cases isSoh : c = soh
    · exact .inr ⟨[], rest, emptyPlain,
        .inr ⟨by simp [isSoh], by simp [feedText, isSoh, newline, soh]⟩⟩
    have scans : feedText id reader chunk (c :: rest) = feedText id reader (chunk ++ [c]) rest := by
      simp [feedText, isNewline, isSoh]
    have longer : ∀ {text : List UInt8}, Plain text → Plain (c :: text) := by
      intro text plain
      simp only [Plain, List.mem_cons, not_or]
      exact ⟨⟨Ne.symm isNewline, plain.1⟩, Ne.symm isSoh, plain.2⟩
    rw [scans]
    obtain ⟨plain, all⟩ | ⟨text, after, plain, found⟩ := inductionHypothesis (chunk ++ [c])
    · exact .inl ⟨longer plain, by rw [all, List.append_assoc]; rfl⟩
    · refine .inr ⟨c :: text, after, longer plain, ?_⟩
      rw [List.append_assoc] at found
      obtain ⟨split, outcome⟩ | ⟨split, outcome⟩ := found
      · exact .inl ⟨by rw [split]; rfl, outcome⟩
      · exact .inr ⟨by rw [split]; rfl, outcome⟩

/-- Where no length is being read and no payload is owed, the state is all that counts. -/
theorem related_of_state (reader : MessageReader ν) (item : Open Pieces)
    (state : reader.state = stateOf item) (settled : toNat reader.payloadRemaining = 0)
    (owesNothing : owedBy lawful.wrap item = 0) (notLength : ∀ groups, item ≠ .length groups) :
    reader.Related item :=
  ⟨state, settled.trans owesNothing.symm, fun groups same => absurd same (notLength groups)⟩

theorem related_fresh : ({} : MessageReader ν).Related .idle :=
  related_of_state _ _ rfl lawful.toNat_zero rfl (by simp)

theorem text_parses (reader : MessageReader ν) (pieces : Pieces)
    (related : reader.Related (.text pieces)) (data : List UInt8) :
    TurnParses (.text pieces) data (feedText id reader [] data) := by
  have noEmpty : ∀ chunk, [] ∉ pieces → [] ∉ pieces ++ chunkPieces chunk := by
    intro chunk noEmpty
    rw [List.mem_append, not_or]
    exact ⟨noEmpty, chunkPieces_noEmpty chunk⟩
  have flat : ∀ chunk, (pieces ++ chunkPieces chunk).flatten = pieces.flatten ++ chunk := by
    intro chunk
    rw [List.flatten_append, chunkPieces_flatten]
  have one : ∀ chunk, pieces = [] → (pieces ++ chunkPieces chunk).length ≤ 1 := by
    intro chunk none
    rw [none]
    exact chunkPieces_length chunk
  obtain ⟨plain, all⟩ | ⟨text, rest, plain, ⟨split, found⟩ | ⟨split, found⟩⟩ :=
    feedText_cases reader [] data
  -- no delimiter: all of it is one more piece, and the text stays open
  · rw [all]
    refine ⟨data, .text (pieces ++ chunkPieces data), [], by simp, ⟨?_, ?_, ?_⟩,
      related_of_state _ _ related.state related.remaining rfl (by simp), ?_⟩
    · have ran := run_plain lawful.wrap pieces.flatten data plain
      simpa [Open.raw, Open.map, flat] using ran
    · simp [Open.callbacks, onTextData_eq]
    · intro none
      exact ⟨noEmpty data none, by simp⟩
    · intro none
      exact ⟨by simp, one data none, .inl rfl⟩
  · rw [found]
    refine ⟨text ++ [newline], .idle, [.text (pieces ++ chunkPieces text) false], by simp [split],
      ⟨?_, ?_, ?_⟩, related_of_state _ _ rfl related.remaining rfl (by simp), ?_⟩
    · apply Transducer.run_trans_silent _ (run_plain _ pieces.flatten text plain)
      simp [step, Open.raw, Open.map, Item.raw, Item.map, chunkPieces_flatten]
    · simp [Open.callbacks, Item.callbacks, onTextData_eq]
    · intro none
      exact ⟨by simp [Open.pieces], by simpa [Item.pieces] using noEmpty text none⟩
    · intro none
      exact ⟨by simpa [Item.pieces] using one text none, by simp [Open.pieces], .inr rfl⟩
  · rw [found]
    refine ⟨text ++ [soh], .version, [.text (pieces ++ chunkPieces text) true], by simp [split],
      ⟨?_, ?_, ?_⟩, related_of_state _ _ rfl related.remaining rfl (by simp), ?_⟩
    · apply Transducer.run_trans_silent _ (run_plain _ pieces.flatten text plain)
      simp [step, Open.raw, Open.map, Item.raw, Item.map, chunkPieces_flatten, newline, soh]
    · simp [Open.callbacks, Item.callbacks, onTextData_eq]
    · intro none
      exact ⟨by simp [Open.pieces], by simpa [Item.pieces] using noEmpty text none⟩
    · intro none
      exact ⟨by simpa [Item.pieces] using one text none, by simp [Open.pieces], .inr rfl⟩

theorem idle_parses (reader : MessageReader ν) (related : reader.Related .idle) (c : UInt8)
    (rest : List UInt8) : TurnParses .idle (c :: rest) (turn id reader c rest) := by
  have inIdle : reader.state = .idle := related.state
  by_cases isSoh : c = soh
  · have turned : turn id reader c rest =
        ⟨{ reader with state := .version }, ([] : List (Callback UInt8)), rest⟩ := by
      simp [turn, inIdle, isSoh]
    rw [turned]
    refine ⟨[c], .version, [], rfl, ⟨?_, rfl, ?_⟩,
      related_of_state _ _ rfl related.remaining rfl (by simp), ?_⟩ <;>
      simp [isSoh, step, Open.raw, Open.map, Open.pieces]
  by_cases isNewline : c = newline
  · have turned : turn id reader c rest = ⟨reader, [(.textEnd : Callback UInt8)], rest⟩ := by
      simp [turn, inIdle, isNewline, newline, soh]
    rw [turned]
    refine ⟨[c], .idle, [.text [] false], rfl, ⟨?_, rfl, ?_⟩, related, ?_⟩ <;>
      simp [isNewline, newline, soh, step, Open.raw, Open.map, Item.raw, Item.map, Open.pieces,
        Item.pieces]
  -- any other byte begins a text, as if there had been one without a byte in it
  have scans : turn id reader c rest = feedText id { reader with state := .text } [] (c :: rest) := by
    simp [turn, inIdle, isSoh, isNewline]
  rw [scans]
  obtain ⟨used, after, items, split, parses, related, fresh⟩ :=
    text_parses { reader with state := .text } []
      (related_of_state _ _ rfl related.remaining rfl (by simp)) (c :: rest)
  refine ⟨used, after, items, split, ⟨?_, parses.calls, parses.noEmpty⟩, related, fresh⟩
  have parsed := parses.parsed
  have same : step lawful.wrap .idle c = step lawful.wrap (.text []) c := by
    simp [step, isSoh, isNewline]
  obtain ⟨later, rfl⟩ := feedText_reads split
  rw [← parsed]
  simp only [Open.raw, Open.map, List.flatten_nil, Transducer.run_cons, same]

theorem version_parses (reader : MessageReader ν) (related : reader.Related .version) (c : UInt8)
    (rest : List UInt8) : TurnParses .version (c :: rest) (turn id reader c rest) := by
  have inVersion : reader.state = .version := related.state
  by_cases isOne : c = binaryProtocolV1
  · have turned : turn id reader c rest =
        ⟨{ reader with
            state := .length, varintValue := zero, varintShift := 0, varintBytesRead := 0 },
          ([] : List (Callback UInt8)), rest⟩ := by
      simp [turn, inVersion, isOne]
    rw [turned]
    refine ⟨[c], .length [], [], rfl, ⟨?_, rfl, ?_⟩, ⟨rfl, related.remaining, ?_⟩, ?_⟩ <;>
      simp [isOne, step, Open.raw, Open.map, Open.pieces, lawful.toNat_zero, Leb128.value]
  · have turned : turn id reader c rest =
        ⟨{ reader with state := .idle }, ([] : List (Callback UInt8)), rest⟩ := by
      simp [turn, inVersion, isOne]
    rw [turned]
    refine ⟨[c], .idle, [.unknownVersion c], rfl, ⟨?_, rfl, ?_⟩,
      related_of_state _ _ rfl related.remaining rfl (by simp), ?_⟩ <;>
      simp [isOne, step, Open.raw, Open.map, Item.raw, Item.map, Open.pieces, Item.pieces]

/-- The reader when it has taken in one more group of a length. -/
def withGroup (reader : MessageReader ν) (c : UInt8) : MessageReader ν :=
  { reader with
    varintValue := orGroup reader.varintValue c reader.varintShift
    varintShift := reader.varintShift + 7
    varintBytesRead := reader.varintBytesRead + 1 }

section Group

omit lawful

variable {τ : Type} (reader : MessageReader ν) {c : UInt8}

theorem turn_length (decode : List UInt8 → List τ) (inLength : reader.state = .length)
    (rest : List UInt8) :
    turn decode reader c rest =
      ⟨(reader.processVarintByte c : MessageReader ν × List (Callback τ)).1,
        (reader.processVarintByte c).2, rest⟩ := by
  simp [turn, inLength]

theorem processVarintByte_empty (ended : c &&& 0x80 = 0)
    (empty : toNat (reader.withGroup c).varintValue = 0) :
    (reader.processVarintByte c : MessageReader ν × List (Callback τ)) =
      ({ reader.withGroup c with state := .idle }, [.binaryStart 0, .binaryEnd]) := by
  rw [withGroup] at empty
  simp only [processVarintByte, if_pos ended, empty, if_true]
  rfl

theorem processVarintByte_some (ended : c &&& 0x80 = 0)
    (some : toNat (reader.withGroup c).varintValue ≠ 0) :
    (reader.processVarintByte c : MessageReader ν × List (Callback τ)) =
      ({ reader.withGroup c with
          payloadRemaining := (reader.withGroup c).varintValue, state := .payload },
        [.binaryStart (toNat (reader.withGroup c).varintValue)]) := by
  rw [withGroup] at some
  simp only [processVarintByte, if_pos ended, if_neg some]
  rfl

theorem processVarintByte_long (continued : ¬ c &&& 0x80 = 0)
    (long : varintMaxBytes ≤ reader.varintBytesRead + 1) :
    (reader.processVarintByte c : MessageReader ν × List (Callback τ)) =
      ({ reader.withGroup c with state := .idle }, []) := by
  simp only [processVarintByte, if_neg continued, ge_iff_le, if_pos long]
  rfl

theorem processVarintByte_more (continued : ¬ c &&& 0x80 = 0)
    (short : ¬ varintMaxBytes ≤ reader.varintBytesRead + 1) :
    (reader.processVarintByte c : MessageReader ν × List (Callback τ)) =
      (reader.withGroup c, []) := by
  simp only [processVarintByte, if_neg continued, ge_iff_le, if_neg short]
  rfl

end Group

omit lawful in
/-- Four groups at most: the number has not reached the end of the word. -/
theorem value_small (groups : List UInt8) (short : groups.length < varintMaxBytes) :
    Leb128.value groups < 2 ^ 32 := by
  have bound := Leb128.value_lt groups
  have power : 128 ^ groups.length ≤ 128 ^ 4 :=
    Nat.pow_le_pow_right (by decide) (Nat.le_of_lt_succ short)
  omega

/-- `reader` is in LENGTH and has read `groups`. -/
structure Reads (reader : MessageReader ν) (groups : List UInt8) : Prop where
  state : reader.state = .length
  value : toNat reader.varintValue = Leb128.value groups
  shift : reader.varintShift = 7 * groups.length
  bytesRead : reader.varintBytesRead = groups.length

namespace Reads

variable {reader : MessageReader ν} {groups : List UInt8}

theorem of_related (related : reader.Related (.length groups)) : reader.Reads groups := by
  obtain ⟨value, shift, bytesRead⟩ := related.varint groups rfl
  exact ⟨related.state, value, shift, bytesRead⟩

/-- The number with one more group, as far as the word can hold it. -/
theorem value_wrapped (reads : reader.Reads groups) (short : groups.length < varintMaxBytes)
    (c : UInt8) :
    toNat (reader.withGroup c).varintValue = lawful.wrap (Leb128.value (groups ++ [c])) := by
  have few : groups.length < 5 := short
  rw [MessageReader.withGroup, lawful.toNat_orGroup _ _ _ (by rw [reads.shift]; omega), reads.value,
    reads.shift, Leb128.or_group _ _ _ (Leb128.value_lt groups), ← Leb128.value_snoc]

theorem withGroup (reads : reader.Reads groups) (c : UInt8)
    (short : (groups ++ [c]).length < varintMaxBytes) :
    (reader.withGroup c).Reads (groups ++ [c]) := by
  have longer : (groups ++ [c]).length = groups.length + 1 := by simp
  have value := reads.value_wrapped (by omega) c
  refine ⟨reads.state, value.trans (lawful.wrap_small _ (value_small _ short)), ?_, ?_⟩
  · simp only [MessageReader.withGroup, reads.shift, longer]
    omega
  · simp only [MessageReader.withGroup, reads.bytesRead, longer]

end Reads

/-- The group that ends a header. -/
theorem length_parses_last (reader : MessageReader ν) (groups : List UInt8) (header : Header groups)
    (related : reader.Related (.length groups)) (c : UInt8) (rest : List UInt8)
    (ended : c &&& 0x80 = 0) : TurnParses (.length groups) (c :: rest) (turn id reader c rest) := by
  have last := (continues_iff c).mp ended
  have value := (Reads.of_related related).value_wrapped header.1 c
  rw [turn_length reader id related.state]
  by_cases empty : lawful.wrap (Leb128.value (groups ++ [c])) = 0
  · -- the length is zero, or wraps around to it
    rw [processVarintByte_empty reader ended (value.trans empty)]
    refine ⟨[c], .idle, [.binary (groups ++ [c]) []], rfl, ⟨?_, ?_, ?_⟩,
      related_of_state _ _ rfl related.remaining rfl (by simp), ?_⟩ <;>
      simp [empty, step, last, Open.raw, Open.map, Item.raw, Item.map, Open.callbacks,
        Item.callbacks, Open.pieces, Item.pieces]
  · rw [processVarintByte_some reader ended (value ▸ empty)]
    refine ⟨[c], .payload (groups ++ [c]) [], [], rfl, ⟨?_, ?_, ?_⟩, ⟨rfl, ?_, ?_⟩, ?_⟩ <;>
      simp [value, empty, step, last, owedBy, Open.raw, Open.map, Open.callbacks, Open.pieces]

/-- A group that announces another. -/
theorem length_parses_more (reader : MessageReader ν) (groups : List UInt8)
    (related : reader.Related (.length groups)) (c : UInt8) (rest : List UInt8)
    (more : ¬ c &&& 0x80 = 0) : TurnParses (.length groups) (c :: rest) (turn id reader c rest) := by
  have continued := (announces_iff c).mp more
  have reads := Reads.of_related related
  have longer : (groups ++ [c]).length = groups.length + 1 := by simp
  rw [turn_length reader id related.state]
  by_cases long : varintMaxBytes ≤ groups.length + 1
  · rw [processVarintByte_long reader more (by rw [reads.bytesRead]; exact long)]
    refine ⟨[c], .idle, [.overlong (groups ++ [c])], rfl, ⟨?_, ?_, ?_⟩,
      related_of_state _ _ rfl related.remaining rfl (by simp), ?_⟩ <;>
      simp [long, step, continued, Open.raw, Open.map, Item.raw, Item.map, Open.callbacks,
        Item.callbacks, Open.pieces, Item.pieces]
  · have later := reads.withGroup c (by rw [longer]; omega)
    rw [processVarintByte_more reader more (by rw [reads.bytesRead]; exact long)]
    refine ⟨[c], .length (groups ++ [c]), [], rfl, ⟨?_, rfl, ?_⟩,
      ⟨related.state, related.remaining, ?_⟩, ?_⟩
    · simp [step, continued, long, Open.raw, Open.map]
    · simp [Open.pieces]
    · intro groups' same
      cases same
      exact ⟨later.value, later.shift, later.bytesRead⟩
    · simp [Open.pieces]

/-- A chunk that does not complete the payload. -/
theorem feedPayload_partly (reader : MessageReader ν) (data : List UInt8) (some : 0 < data.length)
    (more : data.length < toNat reader.payloadRemaining) :
    (feedPayload reader data : Consumer.Outcome (MessageReader ν) UInt8 (Callback UInt8)) =
      ⟨{ reader with payloadRemaining := sub reader.payloadRemaining data.length },
        [.binaryData data], []⟩ := by
  have left := lawful.toNat_sub reader.payloadRemaining data.length (Nat.le_of_lt more)
  have notDone : toNat (sub reader.payloadRemaining data.length) ≠ 0 := by omega
  simp only [feedPayload, if_pos more, gt_iff_lt, if_pos some, if_neg notDone, List.take_length,
    List.drop_length]

/-- A chunk in which the payload ends. -/
theorem feedPayload_whole (reader : MessageReader ν) (data : List UInt8)
    (some : 0 < toNat reader.payloadRemaining)
    (enough : toNat reader.payloadRemaining ≤ data.length) :
    (feedPayload reader data : Consumer.Outcome (MessageReader ν) UInt8 (Callback UInt8)) =
      ⟨{ reader with
          payloadRemaining := sub reader.payloadRemaining (toNat reader.payloadRemaining)
          state := .idle },
        [.binaryData (data.take (toNat reader.payloadRemaining)), .binaryEnd],
        data.drop (toNat reader.payloadRemaining)⟩ := by
  have left := lawful.toNat_sub reader.payloadRemaining _ (Nat.le_refl _)
  rw [Nat.sub_self] at left
  simp only [feedPayload, if_neg (Nat.not_lt.mpr enough), gt_iff_lt, if_pos some, left, if_true,
    List.singleton_append]

theorem payload_parses (reader : MessageReader ν) (groups : List UInt8) (pieces : Pieces)
    (short : pieces.flatten.length < lawful.wrap (Leb128.value groups))
    (related : reader.Related (.payload groups pieces)) (c : UInt8) (rest : List UInt8) :
    TurnParses (.payload groups pieces) (c :: rest) (turn id reader c rest) := by
  have inPayload : reader.state = .payload := related.state
  have remaining : toNat reader.payloadRemaining =
      lawful.wrap (Leb128.value groups) - pieces.flatten.length := related.remaining
  have turned : turn id reader c rest = feedPayload reader (c :: rest) := by
    simp [turn, inPayload]
  have some : 0 < (c :: rest).length := Nat.succ_pos _
  rw [turned]
  -- either the chunk runs out first, or the payload
  by_cases more : (c :: rest).length < toNat reader.payloadRemaining
  · rw [feedPayload_partly reader _ some more]
    refine ⟨c :: rest, .payload groups (pieces ++ [c :: rest]), [], by simp, ⟨?_, ?_, ?_⟩,
      ⟨inPayload, ?_, by simp⟩, ?_⟩
    · have ran := run_payload lawful.wrap groups pieces.flatten (c :: rest) (by omega)
      simpa [Open.raw, Open.map] using ran
    · simp [Open.callbacks]
    · simp [Open.pieces]
    · have left := lawful.toNat_sub reader.payloadRemaining (c :: rest).length (Nat.le_of_lt more)
      simp only [left, owedBy, List.flatten_append, List.length_append, List.flatten_singleton]
      omega
    · intro none
      simp only [Open.pieces] at none
      simp [Open.pieces, none]
  · rw [feedPayload_whole reader _ (by omega) (Nat.not_lt.mp more)]
    have taken := List.length_take_of_le (Nat.not_lt.mp more)
    have nonempty : (c :: rest).take (toNat reader.payloadRemaining) ≠ [] :=
      List.ne_nil_of_length_pos (by omega)
    have settled := lawful.toNat_sub reader.payloadRemaining _ (Nat.le_refl _)
    rw [Nat.sub_self] at settled
    refine ⟨(c :: rest).take (toNat reader.payloadRemaining), .idle,
      [.binary groups (pieces ++ [(c :: rest).take (toNat reader.payloadRemaining)])],
      List.take_append_drop _ _, ⟨?_, ?_, ?_⟩, related_of_state _ _ rfl settled rfl (by simp), ?_⟩
    · have ran := run_payload_whole lawful.wrap groups pieces.flatten _ nonempty (by omega)
      simpa [Open.raw, Open.map, Item.raw, Item.map] using ran
    · simp [Open.callbacks, Item.callbacks]
    · intro noEmpty
      simp only [Open.pieces] at noEmpty
      simpa [Open.pieces, Item.pieces, noEmpty] using Ne.symm nonempty
    · intro none
      simp only [Open.pieces] at none
      simp [Open.pieces, Item.pieces, none]

theorem turn_parses (reader : MessageReader ν) (before : Open Pieces)
    (related : reader.Related before) (wellFormed : before.raw.WellFormed lawful.wrap) (c : UInt8)
    (rest : List UInt8) : TurnParses before (c :: rest) (turn id reader c rest) := by
  cases before with
  | idle => exact idle_parses reader related c rest
  | text pieces =>
    have turned : turn id reader c rest = feedText id reader [] (c :: rest) := by
      have inText : reader.state = .text := related.state
      simp [turn, inText]
    rw [turned]
    exact text_parses reader pieces related (c :: rest)
  | version => exact version_parses reader related c rest
  | length groups =>
    by_cases ended : c &&& 0x80 = 0
    · exact length_parses_last reader groups wellFormed related c rest ended
    · exact length_parses_more reader groups related c rest ended
  | payload groups pieces => exact payload_parses reader groups pieces wellFormed.2 related c rest

/-! ## Chunks -/

theorem feed_parses (reader : MessageReader ν) (before : Open Pieces)
    (related : reader.Related before) (wellFormed : before.raw.WellFormed lawful.wrap)
    (data : List UInt8) :
    ∃ after items, Parses lawful.wrap before data (feed id reader data).2 after items ∧
      (feed id reader data).1.Related after ∧
      (before.pieces = [] →
        (∀ item ∈ items, item.pieces.length ≤ 1) ∧ after.pieces.length ≤ 1) := by
  induction reader, data using Consumer.consume_induction
    (turn_progress (id : List UInt8 → List UInt8))
    generalizing before with
  | nil reader =>
    have fed : feed id reader [] = (reader, []) := by
      simp [feed, feedLoop]
    rw [fed]
    exact ⟨before, [], Parses.nil _ before, related, fun none => ⟨by simp, by simp [none]⟩⟩
  | turn reader c rest inductionHypothesis =>
    obtain ⟨used, middle, items, split, parses, related', fresh⟩ :=
      turn_parses reader before related wellFormed c rest
    have fed : feed id reader (c :: rest) =
        ((feed id (turn id reader c rest).state (turn id reader c rest).unread).1,
          (turn id reader c rest).emitted ++
            (feed id (turn id reader c rest).state (turn id reader c rest).unread).2) := by
      simp only [feed, feedLoop, Consumer.consume_cons (turn_progress id)]
    rw [fed, ← split]
    -- as long as the chunk lasts, the next turn begins without a piece left open
    by_cases ended : (turn id reader c rest).unread = []
    · have idle : feed id (turn id reader c rest).state [] = ((turn id reader c rest).state, []) := by
        simp [feed, feedLoop]
      rw [ended, idle, List.append_nil, List.append_nil]
      refine ⟨middle, items, parses, related', ?_⟩
      intro none
      exact ⟨(fresh none).1, (fresh none).2.1⟩
    · obtain ⟨after, items', parses', related'', fresh'⟩ :=
        inductionHypothesis middle related' (parses.wellFormed wellFormed).1
      refine ⟨after, items ++ items', parses.trans parses', related'', ?_⟩
      intro none
      obtain ⟨whole, _, ends⟩ := fresh none
      obtain ⟨whole', one⟩ := fresh' (ends.resolve_left ended)
      refine ⟨?_, one⟩
      intro item member
      rw [List.mem_append] at member
      cases member with
      | inl now => exact whole item now
      | inr later => exact whole' item later

theorem run_parses (reader : MessageReader ν) (before : Open Pieces)
    (related : reader.Related before) (wellFormed : before.raw.WellFormed lawful.wrap)
    (chunks : List (List UInt8)) :
    ∃ after items,
      Parses lawful.wrap before chunks.flatten (Transducer.run (feed id) reader chunks).2 after
        items ∧
      (Transducer.run (feed id) reader chunks).1.Related after := by
  induction chunks generalizing reader before with
  | nil => exact ⟨before, [], Parses.nil _ before, related⟩
  | cons chunk chunks inductionHypothesis =>
    obtain ⟨middle, items, parses, related', _⟩ :=
      feed_parses reader before related wellFormed chunk
    obtain ⟨after, items', parses', related''⟩ :=
      inductionHypothesis _ middle related' (parses.wellFormed wellFormed).1
    exact ⟨after, items ++ items', parses.trans parses', related''⟩

/-- A whole stream in one chunk, from between two items: the callbacks of its parse, each
body in one piece. -/
theorem feed_whole_idle (reader : MessageReader ν) (idle : reader.Related .idle)
    (data : List UInt8) :
    let parsed := parse lawful.wrap data
    (feed id reader data).2 =
        (parsed.2.map (Item.map chunkPieces)).flatMap (Item.callbacks lawful.wrap) ++
          (parsed.1.map chunkPieces).callbacks lawful.wrap ∧
      (feed id reader data).1.Related (parsed.1.map chunkPieces) := by
  intro parsed
  obtain ⟨rest, items, parses, related, fresh⟩ := feed_parses reader .idle idle trivial data
  obtain ⟨restFull, itemsFull⟩ := parses.noEmpty (by simp [Open.pieces])
  obtain ⟨itemsWhole, restWhole⟩ := fresh rfl
  have asParsed : parsed = (rest.raw, items.map Item.raw) := parses.parsed
  have sameItems : parsed.2.map (Item.map chunkPieces) = items := by
    rw [asParsed, List.map_map]
    refine (List.map_congr_left fun item member => ?_).trans (List.map_id items)
    exact item_of_whole (itemsWhole item member) (itemsFull item member)
  have sameRest : parsed.1.map chunkPieces = rest := by
    rw [asParsed]
    exact open_of_whole restWhole restFull
  rw [sameItems, sameRest]
  exact ⟨parses.calls, related⟩

variable (ν) in
theorem feed_whole (data : List UInt8) :
    let parsed := parse lawful.wrap data
    (feed id ({} : MessageReader ν) data).2 =
        (parsed.2.map (Item.map chunkPieces)).flatMap (Item.callbacks lawful.wrap) ++
          (parsed.1.map chunkPieces).callbacks lawful.wrap ∧
      (feed id ({} : MessageReader ν) data).1.Related (parsed.1.map chunkPieces) :=
  feed_whole_idle {} related_fresh data

end MessageReader

end EmbeddedBridge
