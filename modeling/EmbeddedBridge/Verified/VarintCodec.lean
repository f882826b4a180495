import EmbeddedBridge.Message.Parse

/-! # The varint codec

A length is decoded in two places, by `decode_varint` from a buffer and byte by byte by
a reader in LENGTH.  The one counts in the index of its loop and the other in
`_varint_bytes_read`; both come to `Leb128.decode` with a limit of five bytes, as far as the
word of the language holds the number (`readLength`).

A reader leaves LENGTH in one way at most (`LeavesLength.unique`), and in the same way
however the bytes are cut into chunks (`LeavesLengthCut`).
-/

namespace EmbeddedBridge

open Library

/-- The first five bytes at most, as a length in words that `wrap`. -/
def readLength (wrap : Nat → Nat) (data : List UInt8) : Option (Nat × Nat) :=
  (Leb128.decode varintMaxBytes data).map fun read => (wrap read.1, read.2)

def Cpp.decoded (data : List UInt8) : Option (Nat × Nat) :=
  (Cpp.decodeVarint data).map fun read => (read.1.toNat, read.2)

def Python.decoded (data : List UInt8) : Option (Nat × Nat) := (Python.decodeVarint data).toOption

theorem cpp_decoded : Cpp.decoded = readLength Cpp.lengthWrap := by
  funext data
  simp only [Cpp.decoded, cpp_decodeVarint, Option.map_map, Function.comp_def,
    UInt32.toNat_ofNat', readLength, Cpp.lengthWrap]

theorem python_decoded : Python.decoded = readLength Python.lengthWrap := by
  funext data
  rw [Python.decoded, python_decodeVarint, readLength]
  cases Leb128.decode varintMaxBytes data <;> rfl

/-! ## Round trip -/

/-- `wire` is read as `number` whatever follows, and nothing shorter is. -/
structure Encodes (decode : List UInt8 → Option (Nat × Nat)) (number : Nat)
    (wire : List UInt8) : Prop where
  decodes : ∀ rest, decode (wire ++ rest) = some (number, wire.length)
  notEmpty : 1 ≤ wire.length
  few : wire.length ≤ 5
  minimal : ∀ bytes count, decode bytes = some (number, count) → wire.length ≤ count

theorem encode_encodes (wrap : Nat → Nat) (fits : ∀ number, number < 2 ^ 32 → wrap number = number)
    (number : Nat) (small : number < 2 ^ 32) :
    Encodes (readLength wrap) number (Leb128.encode number) := by
  have few : (Leb128.encode number).length ≤ 5 := Leb128.encode_length_le 4 number (by omega)
  refine ⟨?_, ?_, few, ?_⟩
  · intro rest
    rw [readLength, Leb128.decode_encode varintMaxBytes number rest few, Option.map_some,
      fits number small]
  · obtain ⟨init, last, shape, _, _⟩ := Leb128.encode_shape number
    rw [shape, List.length_append]
    exact Nat.le_add_left _ _
  · intro bytes count read
    rw [readLength, Option.map_eq_some_iff] at read
    obtain ⟨⟨whole, read⟩, decoded, same⟩ := read
    cases same
    obtain ⟨_, bound⟩ := Leb128.lt_of_decode decoded
    -- only a fifth byte can go beyond the word
    by_cases short : read < 5
    · have power : 128 ^ read ≤ 128 ^ 4 := Nat.pow_le_pow_right (by decide) (by omega)
      rw [fits whole (by omega)]
      exact Leb128.encode_length_le_of_decode decoded
    · omega

/-! ## A reader in LENGTH -/

namespace MessageReader

variable {ν τ : Type} [LengthWord ν]

open LengthWord

/-- What `turn` sets when it enters LENGTH. -/
structure JustEntered (reader : MessageReader ν) : Prop where
  state : reader.state = .length
  value : reader.varintValue = zero
  shift : reader.varintShift = 0
  bytesRead : reader.varintBytesRead = 0

/-- Fed `bytes`, `reader` waits in LENGTH without a callback for the first `count`; with the
last of these it makes `calls` and goes into `state`. -/
structure LeavesLength (feed : Transducer.Step (MessageReader ν) (List UInt8) (Callback τ))
    (reader : MessageReader ν) (bytes : List UInt8) (count : Nat) (state : State)
    (calls : List (Callback τ)) : Prop where
  fed : count ≤ bytes.length
  waits : ∀ early < count,
    (feed reader (bytes.take early)).1.state = .length ∧ (feed reader (bytes.take early)).2 = []
  elsewhere : state ≠ .length
  leaves : (feed reader (bytes.take count)).1.state = state ∧
    (feed reader (bytes.take count)).2 = calls

/-- The same however the bytes are cut into chunks. -/
structure LeavesLengthCut (feed : Transducer.Step (MessageReader ν) (List UInt8) (Callback τ))
    (reader : MessageReader ν) (bytes : List UInt8) (count : Nat) (state : State)
    (calls : List (Callback τ)) : Prop where
  waits : ∀ chunks, chunks.flatten <+: bytes → chunks.flatten.length < count →
    (Transducer.run feed reader chunks).1.state = .length ∧
      (Transducer.run feed reader chunks).2 = []
  leaves : ∀ chunks, chunks.flatten = bytes.take count →
    (Transducer.run feed reader chunks).1.state = state ∧
      (Transducer.run feed reader chunks).2 = calls
  goesOn : ∀ chunks, chunks.flatten = bytes → calls <+: (Transducer.run feed reader chunks).2

/-- What `reader` makes of `bytes` as a length, against what `decode` does. -/
structure AgreesWith (decode : List UInt8 → Option (Nat × Nat))
    (feed : Transducer.Step (MessageReader ν) (List UInt8) (Callback τ))
    (reader : MessageReader ν) (bytes : List UInt8) : Prop where
  starts : ∀ number count,
    (∃ state calls, LeavesLength feed reader bytes count state (.binaryStart number :: calls)) ↔
      decode bytes = some (number, count)
  drops : (∃ count, LeavesLength feed reader bytes count .idle []) ↔
    5 ≤ bytes.length ∧ ∀ byte ∈ bytes.take 5, Leb128.Continues byte
  cut : ∀ count state calls, LeavesLength feed reader bytes count state calls →
    LeavesLengthCut feed reader bytes count state calls

section Leaves

variable {feed : Transducer.Step (MessageReader ν) (List UInt8) (Callback τ)}
  {reader : MessageReader ν} {bytes : List UInt8} {count count' : Nat} {state state' : State}
  {calls calls' : List (Callback τ)}

/-- Whichever leaves first, the other still waits. -/
theorem LeavesLength.not_sooner (one : LeavesLength feed reader bytes count state calls)
    (other : LeavesLength feed reader bytes count' state' calls') : ¬ count < count' := by
  intro early
  have waiting := (other.waits count early).1
  exact one.elsewhere (one.leaves.1.symm.trans waiting)

/-- A reader leaves LENGTH in one way at most. -/
theorem LeavesLength.unique (one : LeavesLength feed reader bytes count state calls)
    (other : LeavesLength feed reader bytes count' state' calls') :
    count = count' ∧ state = state' ∧ calls = calls' := by
  obtain rfl : count = count' :=
    Nat.le_antisymm (Nat.not_lt.mp (other.not_sooner one)) (Nat.not_lt.mp (one.not_sooner other))
  exact ⟨rfl, one.leaves.1.symm.trans other.leaves.1, one.leaves.2.symm.trans other.leaves.2⟩

/-- One chunk is a way to cut the bytes. -/
theorem LeavesLengthCut.whole (cut : LeavesLengthCut feed reader bytes count state calls)
    (fed : count ≤ bytes.length) (elsewhere : state ≠ .length) :
    LeavesLength feed reader bytes count state calls := by
  refine ⟨fed, ?_, elsewhere, ?_⟩
  · intro early before
    have prefixed : [bytes.take early].flatten <+: bytes := by
      rw [List.flatten_singleton]
      exact List.take_prefix early bytes
    have shorter : [bytes.take early].flatten.length < count := by
      rw [List.flatten_singleton, List.length_take]
      omega
    have waiting := cut.waits [bytes.take early] prefixed shorter
    rwa [Transducer.run_singleton] at waiting
  · have left := cut.leaves [bytes.take count] List.flatten_singleton
    rwa [Transducer.run_singleton] at left

theorem LeavesLength.cut_of_unique (one : LeavesLength feed reader bytes count state calls)
    (cut : LeavesLengthCut feed reader bytes count state calls)
    (other : LeavesLength feed reader bytes count' state' calls') :
    LeavesLengthCut feed reader bytes count' state' calls' := by
  obtain ⟨rfl, rfl, rfl⟩ := one.unique other
  exact cut

end Leaves

/-! ### Groups taken in -/

/-- The reader when it has taken in `groups`, all of which continue. -/
def withGroups (reader : MessageReader ν) (groups : List UInt8) : MessageReader ν :=
  groups.foldl withGroup reader

theorem withGroups_append (reader : MessageReader ν) (left right : List UInt8) :
    reader.withGroups (left ++ right) = (reader.withGroups left).withGroups right :=
  List.foldl_append

variable [lawful : LengthWord.Lawful ν]

theorem JustEntered.reads {reader : MessageReader ν} (entered : reader.JustEntered) :
    reader.Reads [] where
  state := entered.state
  value := by
    rw [entered.value]
    exact lawful.toNat_zero
  shift := entered.shift
  bytesRead := entered.bytesRead

omit [LengthWord ν] lawful in
theorem few_of_append {left right : List UInt8} (short : (left ++ right).length < varintMaxBytes) :
    left.length < varintMaxBytes := by
  rw [List.length_append] at short
  omega

theorem Reads.withGroups {reader : MessageReader ν} {groups : List UInt8}
    (reads : reader.Reads groups) (more : List UInt8)
    (short : (groups ++ more).length < varintMaxBytes) :
    (reader.withGroups more).Reads (groups ++ more) := by
  induction more generalizing reader groups with
  | nil =>
    rw [List.append_nil]
    exact reads
  | cons c more inductionHypothesis =>
    rw [List.append_cons] at short ⊢
    exact inductionHypothesis (reads.withGroup c (few_of_append short)) short

/-! ### Feeding -/

omit lawful in
theorem feed_nil (decode : List UInt8 → List τ) (reader : MessageReader ν) :
    feed decode reader [] = (reader, []) := by
  rw [feed, feedLoop, Consumer.consume_nil]

omit lawful in
theorem feed_length (decode : List UInt8 → List τ) {reader : MessageReader ν}
    (inLength : reader.state = .length) (c : UInt8) (data : List UInt8) :
    feed decode reader (c :: data) =
      let processed : MessageReader ν × List (Callback τ) := reader.processVarintByte c
      ((feed decode processed.1 data).1, processed.2 ++ (feed decode processed.1 data).2) := by
  simp only [feed, feedLoop, Consumer.consume_cons (turn_progress decode),
    turn_length reader decode inLength]

theorem feed_groups (decode : List UInt8 → List τ) {reader : MessageReader ν}
    {groups : List UInt8} (reads : reader.Reads groups) (more : List UInt8)
    (continued : ∀ c ∈ more, Leb128.Continues c)
    (short : (groups ++ more).length < varintMaxBytes) (data : List UInt8) :
    feed decode reader (more ++ data) = feed decode (reader.withGroups more) data := by
  induction more generalizing reader groups with
  | nil => rfl
  | cons c more inductionHypothesis =>
    rw [List.forall_mem_cons] at continued
    rw [List.append_cons] at short
    have few := few_of_append short
    have continues : ¬ c &&& 0x80 = 0 := (announces_iff c).mpr continued.1
    have notLong : ¬ varintMaxBytes ≤ reader.varintBytesRead + 1 := by
      rw [reads.bytesRead]
      rw [List.length_append, List.length_singleton] at few
      omega
    rw [List.cons_append, feed_length decode reads.state,
      processVarintByte_more reader continues notLong]
    exact inductionHypothesis (reads.withGroup c few) continued.2 short

theorem feed_only_groups (decode : List UInt8 → List τ) {reader : MessageReader ν}
    {groups : List UInt8} (reads : reader.Reads groups) (more : List UInt8)
    (continued : ∀ c ∈ more, Leb128.Continues c)
    (short : (groups ++ more).length < varintMaxBytes) :
    feed decode reader more = (reader.withGroups more, []) := by
  have fed := feed_groups decode reads more continued short []
  rwa [List.append_nil, feed_nil] at fed

/-! ### Chunks -/

theorem run_groups (decode : List UInt8 → List τ) {reader : MessageReader ν}
    {groups : List UInt8} (reads : reader.Reads groups) (chunks : List (List UInt8))
    (continued : ∀ c ∈ chunks.flatten, Leb128.Continues c)
    (short : (groups ++ chunks.flatten).length < varintMaxBytes) :
    Transducer.run (feed decode) reader chunks = (reader.withGroups chunks.flatten, []) := by
  induction chunks generalizing reader groups with
  | nil => rfl
  | cons chunk chunks inductionHypothesis =>
    rw [List.flatten_cons] at continued short ⊢
    rw [List.forall_mem_append] at continued
    rw [← List.append_assoc] at short
    have few := few_of_append short
    rw [withGroups_append]
    exact Transducer.run_step_silent _ (feed_only_groups decode reads chunk continued.1 few)
      (inductionHypothesis (reads.withGroups chunk few) continued.2 short)

omit lawful in
theorem run_empty (decode : List UInt8 → List τ) (reader : MessageReader ν)
    (chunks : List (List UInt8)) (empty : chunks.flatten = []) :
    Transducer.run (feed decode) reader chunks = (reader, []) := by
  induction chunks with
  | nil => rfl
  | cons chunk chunks inductionHypothesis =>
    rw [List.flatten_cons, List.append_eq_nil_iff] at empty
    rw [empty.1]
    exact Transducer.run_step_silent _ (feed_nil decode reader) (inductionHypothesis empty.2)

/-- The run over `chunks` makes `calls`, and goes on with the bytes in `rest` from
`finished`. -/
def GoesOn (decode : List UInt8 → List τ) (reader : MessageReader ν) (chunks : List (List UInt8))
    (finished : MessageReader ν) (calls : List (Callback τ)) (rest : List UInt8) : Prop :=
  ∃ later, later.flatten = rest ∧ Transducer.run (feed decode) reader chunks =
    ((Transducer.run (feed decode) finished later).1,
      calls ++ (Transducer.run (feed decode) finished later).2)

/-- The chunk with the byte that decides goes on with what comes after it. -/
theorem run_last (decode : List UInt8 → List τ) {reader : MessageReader ν} {groups : List UInt8}
    (reads : reader.Reads groups) (init : List UInt8)
    (continued : ∀ c ∈ init, Leb128.Continues c)
    (short : (groups ++ init).length < varintMaxBytes) (last : UInt8) (rest : List UInt8)
    {finished : MessageReader ν} {calls : List (Callback τ)}
    (processed : (reader.withGroups init).processVarintByte last = (finished, calls))
    (chunks : List (List UInt8)) (split : chunks.flatten = init ++ last :: rest) :
    GoesOn decode reader chunks finished calls rest := by
  induction chunks generalizing reader groups init with
  | nil => simp at split
  | cons chunk chunks inductionHypothesis =>
    -- a chunk that ends within `init` is taken in
    have within : ∀ after, init = chunk ++ after → chunks.flatten = after ++ last :: rest →
        GoesOn decode reader (chunk :: chunks) finished calls rest := by
      intro after whole remains
      subst whole
      rw [List.forall_mem_append] at continued
      rw [← List.append_assoc] at short
      rw [withGroups_append] at processed
      have few := few_of_append short
      obtain ⟨later, remaining, ran⟩ := inductionHypothesis (reads.withGroups chunk few) after
        continued.2 short processed remains
      exact ⟨later, remaining, Transducer.run_step_silent _
        (feed_only_groups decode reads chunk continued.1 few) ran⟩
    rw [List.flatten_cons, List.append_eq_append_iff] at split
    obtain ⟨after, whole, left⟩ | ⟨beyond, whole, left⟩ := split
    · exact within after whole left
    cases beyond with
    | nil => exact within [] (by simpa using whole.symm) left.symm
    | cons first beyond =>
      rw [List.cons_append, List.cons.injEq] at left
      obtain ⟨rfl, remaining⟩ := left
      refine ⟨beyond :: chunks, by rw [List.flatten_cons, remaining], ?_⟩
      have waiting := (reads.withGroups init short).state
      rw [Transducer.run_cons, whole, feed_groups decode reads init continued short,
        feed_length decode waiting, processed, Transducer.run_cons, List.append_assoc]

theorem leaves_with_last (decode : List UInt8 → List τ) {reader : MessageReader ν}
    (reads : reader.Reads []) (init : List UInt8) (continued : ∀ c ∈ init, Leb128.Continues c)
    (short : init.length < varintMaxBytes) (last : UInt8) (rest : List UInt8)
    {finished : MessageReader ν} {calls : List (Callback τ)}
    (processed : (reader.withGroups init).processVarintByte last = (finished, calls)) :
    LeavesLengthCut (feed decode) reader (init ++ last :: rest) (init.length + 1) finished.state
      calls := by
  have ran := run_last decode reads init continued short last
  refine ⟨?_, ?_, ?_⟩
  · intro chunks begins early
    have within : chunks.flatten <+: init :=
      List.prefix_of_prefix_length_le begins (List.prefix_append _ _) (Nat.le_of_lt_succ early)
    have few : chunks.flatten.length < varintMaxBytes := by omega
    rw [run_groups decode reads chunks (fun c member => continued c (within.subset member)) few]
    exact ⟨(reads.withGroups chunks.flatten few).state, rfl⟩
  · intro chunks whole
    have split : chunks.flatten = init ++ [last] := by
      rw [whole, List.append_cons]
      exact List.take_left' (by simp)
    obtain ⟨later, empty, ran⟩ := ran [] processed chunks split
    rw [ran, run_empty decode finished later empty, List.append_nil]
    exact ⟨rfl, rfl⟩
  · intro chunks whole
    obtain ⟨later, _, ran⟩ := ran rest processed chunks whole
    rw [ran]
    exact List.prefix_append _ _

variable (τ) in
/-- A group that ends the length starts a payload, an empty one as well. -/
theorem processVarintByte_last {reader : MessageReader ν} {groups : List UInt8}
    (reads : reader.Reads groups) (short : groups.length < varintMaxBytes) {c : UInt8}
    (ended : ¬ Leb128.Continues c) :
    ∃ finished : MessageReader ν, ∃ more : List (Callback τ),
      reader.processVarintByte c =
        (finished, .binaryStart (lawful.wrap (Leb128.value (groups ++ [c]))) :: more) ∧
      finished.state ≠ .length := by
  have last := (continues_iff c).mpr ended
  have value := reads.value_wrapped short c
  by_cases empty : lawful.wrap (Leb128.value (groups ++ [c])) = 0
  · rw [processVarintByte_empty reader last (value.trans empty), empty]
    exact ⟨_, _, rfl, by simp⟩
  · rw [processVarintByte_some reader last (value ▸ empty), value]
    exact ⟨_, _, rfl, by simp⟩

omit lawful in
variable (τ) in
theorem processVarintByte_fifth {reader : MessageReader ν} {groups : List UInt8}
    (reads : reader.Reads groups) (full : groups.length + 1 = varintMaxBytes) {c : UInt8}
    (continued : Leb128.Continues c) :
    (reader.processVarintByte c : MessageReader ν × List (Callback τ)) =
      ({ reader.withGroup c with state := .idle }, []) := by
  have more : ¬ c &&& 0x80 = 0 := (announces_iff c).mpr continued
  exact processVarintByte_long reader more (by rw [reads.bytesRead]; exact Nat.le_of_eq full.symm)

/-- A length that ends within five bytes is the one that `readLength` reads. -/
theorem agrees_ended (decode : List UInt8 → List τ) {reader : MessageReader ν}
    (reads : reader.Reads []) (init : List UInt8) (last : UInt8) (rest : List UInt8)
    (continued : ∀ c ∈ init, Leb128.Continues c) (ended : ¬ Leb128.Continues last)
    (short : init.length < varintMaxBytes) :
    AgreesWith (readLength lawful.wrap) (feed decode) reader (init ++ last :: rest) := by
  obtain ⟨finished, more, processed, elsewhere⟩ :=
    processVarintByte_last τ (reads.withGroups init short) short ended
  have cut := leaves_with_last decode reads init continued short last rest processed
  have leaves := cut.whole (by simp) elsewhere
  have read : readLength lawful.wrap (init ++ last :: rest) =
      some (lawful.wrap (Leb128.value (init ++ [last])), init.length + 1) := by
    rw [readLength, Leb128.decode_groups _ init last rest continued ended short, Option.map_some]
  refine ⟨?_, ?_, fun _ _ _ => leaves.cut_of_unique cut⟩
  · intro number count
    rw [read]
    constructor
    · rintro ⟨state, calls, leaves'⟩
      obtain ⟨sameCount, _, sameCalls⟩ := leaves.unique leaves'
      cases sameCalls
      rw [sameCount]
      rfl
    · intro same
      cases same
      exact ⟨_, _, leaves⟩
  · constructor
    · rintro ⟨count, leaves'⟩
      cases (leaves.unique leaves').2.2
    · rintro ⟨_, all⟩
      obtain ⟨left, enough⟩ : ∃ left, 5 - init.length = left + 1 :=
        ⟨4 - init.length, by
          have few : init.length < 5 := short
          omega⟩
      refine absurd (all last ?_) ended
      rw [List.take_append, enough, List.take_succ_cons]
      simp

/-- The fifth byte that announces another is the last that is read. -/
theorem agrees_overlong (decode : List UInt8 → List τ) {reader : MessageReader ν}
    (reads : reader.Reads []) (bytes : List UInt8) (enough : 5 ≤ bytes.length)
    (continued : ∀ c ∈ bytes.take 5, Leb128.Continues c) :
    AgreesWith (readLength lawful.wrap) (feed decode) reader bytes := by
  have read : readLength lawful.wrap bytes = none := by
    rw [readLength, Leb128.decode_continued varintMaxBytes bytes continued, Option.map_none]
  have cut : LeavesLengthCut (feed decode) reader bytes 5 .idle [] := by
    have four : (bytes.take 4).length = 4 := by
      rw [List.length_take]
      omega
    have split : bytes = bytes.take 4 ++ bytes[4] :: bytes.drop 5 := by
      rw [← List.drop_eq_getElem_cons, List.take_append_drop]
    have five : bytes.take 5 = bytes.take 4 ++ [bytes[4]] := List.take_succ_eq_append_getElem _
    rw [five, List.forall_mem_append] at continued
    have short : (bytes.take 4).length < varintMaxBytes := by
      rw [four]
      decide
    have processed := processVarintByte_fifth τ (reads.withGroups (bytes.take 4) short)
      (by rw [List.nil_append, four]; rfl) (continued.2 _ (List.mem_singleton_self _))
    have cut := leaves_with_last decode reads (bytes.take 4) continued.1 short bytes[4]
      (bytes.drop 5) processed
    rwa [← split, four] at cut
  have leaves := cut.whole enough (by simp)
  refine ⟨?_, ⟨fun _ => ⟨enough, continued⟩, fun _ => ⟨5, leaves⟩⟩,
    fun _ _ _ => leaves.cut_of_unique cut⟩
  intro number count
  rw [read]
  constructor
  · rintro ⟨state, calls, leaves'⟩
    cases (leaves.unique leaves').2.2
  · intro none
    cases none

/-- With fewer than five bytes, all announcing another, the reader still waits. -/
theorem agrees_unfinished (decode : List UInt8 → List τ) {reader : MessageReader ν}
    (reads : reader.Reads []) (bytes : List UInt8) (few : bytes.length < 5)
    (continued : ∀ c ∈ bytes, Leb128.Continues c) :
    AgreesWith (readLength lawful.wrap) (feed decode) reader bytes := by
  have read : readLength lawful.wrap bytes = none := by
    rw [readLength, Leb128.decode_continued varintMaxBytes bytes
      (fun c member => continued c (List.mem_of_mem_take member)), Option.map_none]
  have stays : ∀ count state calls, ¬ LeavesLength (feed decode) reader bytes count state calls := by
    intro count state calls leaves
    have short : (bytes.take count).length < varintMaxBytes :=
      Nat.lt_of_le_of_lt (List.length_take_le' count bytes) few
    have ran := feed_only_groups decode reads (bytes.take count)
      (fun c member => continued c (List.mem_of_mem_take member)) short
    have left := leaves.leaves.1
    rw [ran, (reads.withGroups _ short).state] at left
    exact leaves.elsewhere left.symm
  refine ⟨?_, ⟨?_, ?_⟩, fun count state calls leaves => absurd leaves (stays count state calls)⟩
  · intro number count
    rw [read]
    constructor
    · rintro ⟨state, calls, leaves⟩
      exact absurd leaves (stays count state _)
    · intro none
      cases none
  · rintro ⟨count, leaves⟩
    exact absurd leaves (stays count _ _)
  · rintro ⟨enough, _⟩
    omega

/-- A reader that has just entered LENGTH reads the length that `readLength` does. -/
theorem agrees_with_readLength (decode : List UInt8 → List τ) {reader : MessageReader ν}
    (entered : reader.JustEntered) (bytes : List UInt8) :
    AgreesWith (readLength lawful.wrap) (feed decode) reader bytes := by
  obtain continued | ⟨init, last, rest, split, continued, ended, short⟩ :=
    Leb128.continued_or_groups varintMaxBytes bytes
  · by_cases enough : 5 ≤ bytes.length
    · exact agrees_overlong decode entered.reads bytes enough continued
    · have few : bytes.length < varintMaxBytes := Nat.not_le.mp enough
      rw [List.take_of_length_le (Nat.le_of_lt few)] at continued
      exact agrees_unfinished decode entered.reads bytes few continued
  · rw [split]
    exact agrees_ended decode entered.reads init last rest continued ended short

omit lawful in
theorem feedText_outside (decode : List UInt8 → List τ) (reader : MessageReader ν)
    (outside : reader.state ≠ .length) (chunk data : List UInt8) :
    (feedText decode reader chunk data).state.state ≠ .length := by
  induction data generalizing chunk with
  | nil => exact outside
  | cons c rest inductionHypothesis =>
    rw [feedText]
    split
    · simp
    split
    · simp
    · exact inductionHypothesis _

omit lawful in
theorem feedPayload_outside (reader : MessageReader ν) (outside : reader.state ≠ .length)
    (data : List UInt8) :
    (feedPayload reader data :
      Consumer.Outcome (MessageReader ν) UInt8 (Callback τ)).state.state ≠ .length := by
  unfold feedPayload
  simp only
  generalize (if data.length < toNat reader.payloadRemaining then data.length
    else toNat reader.payloadRemaining) = take
  by_cases some : take > 0
  · simp only [if_pos some]
    split
    · simp
    · exact outside
  · simp only [if_neg some]
    split
    · simp
    · exact outside

omit lawful in
/-- The only way into LENGTH is the version byte. -/
theorem turn_enters (decode : List UInt8 → List τ) (reader : MessageReader ν) (c : UInt8)
    (rest : List UInt8) (outside : reader.state ≠ .length)
    (inside : (turn decode reader c rest).state.state = .length) :
    (turn decode reader c rest).state.JustEntered ∧ reader.state = .version ∧
      c = binaryProtocolV1 := by
  unfold turn at inside ⊢
  cases inState : reader.state with
  | idle =>
    simp only [inState] at inside
    split at inside
    · cases inside
    split at inside
    · exact absurd inside outside
    · exact absurd inside (feedText_outside decode _ (by simp) [] (c :: rest))
  | text =>
    simp only [inState] at inside
    exact absurd inside (feedText_outside decode reader outside [] (c :: rest))
  | version =>
    simp only [inState] at inside ⊢
    split at inside
    · rename_i isOne
      rw [if_pos isOne]
      exact ⟨⟨rfl, rfl, rfl, rfl⟩, trivial, isOne⟩
    · cases inside
  | length => exact absurd inState outside
  | payload =>
    simp only [inState] at inside
    exact absurd inside (feedPayload_outside reader outside (c :: rest))

end MessageReader

/-! ## Both languages -/

/-- Every encoding is read back and is the shortest, and the reader and the decoder of a
language agree on every byte string, also on those that no encoder writes, from where a reader
enters LENGTH, which it does nowhere else. -/
theorem varint_agrees :
    (∀ value : UInt32, Encodes Cpp.decoded value.toNat (Cpp.encodeVarint value)) ∧
    (∀ value : Nat, value < 2 ^ 32 →
      ∃ wire, Python.encodeVarint value = .ok wire ∧ Encodes Python.decoded value wire) ∧
    (∀ reader : Cpp.MessageReader, reader.JustEntered → ∀ bytes,
      MessageReader.AgreesWith Cpp.decoded Cpp.MessageReader.feed reader bytes) ∧
    (∀ reader : Python.MessageReader, reader.JustEntered → ∀ bytes,
      MessageReader.AgreesWith Python.decoded Python.MessageReader.feed reader bytes) ∧
    (∀ (reader : Cpp.MessageReader) c rest, reader.state ≠ .length →
      (MessageReader.turn id reader c rest).state.state = .length →
        (MessageReader.turn id reader c rest).state.JustEntered) ∧
    (∀ (reader : Python.MessageReader) c rest, reader.state ≠ .length →
      (MessageReader.turn Utf8.decode reader c rest).state.state = .length →
        (MessageReader.turn Utf8.decode reader c rest).state.JustEntered) := by
  refine ⟨?_, ?_, ?_, ?_, ?_, ?_⟩
  · intro value
    rw [cpp_decoded, cpp_encodeVarint]
    exact encode_encodes Cpp.lengthWrap (fun _ small => Nat.mod_eq_of_lt small) _ value.toNat_lt
  · intro value small
    refine ⟨_, python_encodeVarint value, ?_⟩
    rw [python_decoded]
    exact encode_encodes Python.lengthWrap (fun _ _ => rfl) value small
  · intro reader entered bytes
    rw [cpp_decoded]
    exact MessageReader.agrees_with_readLength id entered bytes
  · intro reader entered bytes
    rw [python_decoded]
    exact MessageReader.agrees_with_readLength Utf8.decode entered bytes
  · exact fun reader c rest outside inside =>
      (MessageReader.turn_enters id reader c rest outside inside).1
  · exact fun reader c rest outside inside =>
      (MessageReader.turn_enters Utf8.decode reader c rest outside inside).1

/-- A fifth group beyond the word: the device reads zero here, the host its value. -/
theorem varint_agrees_beyond_word :
    (∃ wire, Python.encodeVarint (2 ^ 32 - 1 : Nat) = .ok wire ∧
      Encodes Python.decoded (2 ^ 32 - 1) wire) ∧
    (∃ state calls, MessageReader.LeavesLength Cpp.MessageReader.feed
      (Cpp.MessageReader.feed {} [soh, binaryProtocolV1]).1 [0x80, 0x80, 0x80, 0x80, 0x10, 0x07]
      5 state (.binaryStart 0 :: calls)) ∧
    (∃ state calls, MessageReader.LeavesLength Python.MessageReader.feed
      (Python.MessageReader.feed {} [soh, binaryProtocolV1]).1
      [0x80, 0x80, 0x80, 0x80, 0x10, 0x07] 5 state (.binaryStart (2 ^ 32) :: calls)) := by
  have cppEntered : (Cpp.MessageReader.feed {} [soh, binaryProtocolV1]).1.JustEntered :=
    ⟨rfl, rfl, rfl, rfl⟩
  have pythonEntered : (Python.MessageReader.feed {} [soh, binaryProtocolV1]).1.JustEntered :=
    ⟨rfl, rfl, rfl, rfl⟩
  exact ⟨varint_agrees.2.1 (2 ^ 32 - 1) (by decide),
    ((varint_agrees.2.2.1 _ cppEntered _).starts 0 5).mpr (by decide),
    ((varint_agrees.2.2.2.1 _ pythonEntered _).starts (2 ^ 32) 5).mpr (by decide)⟩

end EmbeddedBridge
