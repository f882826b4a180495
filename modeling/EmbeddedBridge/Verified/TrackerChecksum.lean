import Mathlib.Data.Set.Function
import EmbeddedBridge.Library.Checksum
import EmbeddedBridge.Verified.TrackerContents

/-! # What the checksum of a tracker line protects

`TrackerLine` is a line as a device sends it.  It is parsed as it was meant; with one bit of
it flipped it is rejected, unless decoding and stripping make up for the error: where the
replacement character has the checksum of the byte that it stands for, or where the first
byte has become white space and the checksum of what is stripped is 0 (`Masked`).
-/

namespace EmbeddedBridge.Python.MemoryTracker

open Library Py Checksum Methods

/-! ## The checksum -/

def crcStep (crc : Nat) (byte : UInt8) : Nat := crc8Shift^[8] (crc ^^^ byte.toNat)

/-- The checksum of a text that has an encoding. -/
def crcOf (text : Str) : Nat := (Utf8.encode (text.map Char.ofNat)).foldl crcStep 0

theorem crc8_of_encodable {text : Str} (encodable : Encodable text) :
    crc8 text = .ok (crcOf text) := by
  rw [crc8, encode, if_pos encodable]
  rfl

/-- The way back from a shift: the bit that went out is the lowest bit of the polynomial. -/
def crc8Unshift (crc : Nat) : Nat :=
  if crc &&& 0x01 ≠ 0 then ((crc ^^^ 0x31) >>> 1) ||| 0x80 else crc >>> 1

theorem crc8Unshift_crc8Shift : ∀ crc < 256, crc8Unshift (crc8Shift crc) = crc := by
  decide +kernel

theorem crc8Shift_lt (crc : Nat) : crc8Shift crc < 256 := by
  have mask (value : Nat) : value &&& 0xFF < 256 := Nat.lt_succ_of_le Nat.and_le_right
  rw [crc8Shift]
  split
  · exact mask _
  · exact mask _

theorem crc8Shift_injOn : Set.InjOn crc8Shift {crc | crc < 256} := by
  intro left isLeft right isRight same
  rw [← crc8Unshift_crc8Shift left isLeft, same, crc8Unshift_crc8Shift right isRight]

theorem crcStep_lossless : Lossless crcStep (· < 256) := by
  have xor_lt (crc : Nat) (byte : UInt8) (isCrc : crc < 256) : crc ^^^ byte.toNat < 256 :=
    show crc ^^^ byte.toNat < 2 ^ 8 from Nat.xor_lt_two_pow isCrc byte.toNat_lt
  have shifts : Set.MapsTo crc8Shift {crc | crc < 256} {crc | crc < 256} := fun crc _ =>
    crc8Shift_lt crc
  have injective := crc8Shift_injOn.iterate shifts 8
  constructor
  · intro crc byte isCrc
    exact shifts.iterate 8 (xor_lt crc byte isCrc)
  · intro left right byte isLeft isRight same
    have same' := injective (xor_lt left byte isLeft) (xor_lt right byte isRight) same
    simpa only [Nat.xor_assoc, Nat.xor_self, Nat.xor_zero] using congrArg (· ^^^ byte.toNat) same'
  · intro crc left right isCrc same
    have same' := injective (xor_lt crc left isCrc) (xor_lt crc right isCrc) same
    rw [← UInt8.toNat_inj]
    simpa only [← Nat.xor_assoc, Nat.xor_self, Nat.zero_xor] using congrArg (crc ^^^ ·) same'

theorem toNat_byteOf {c : Nat} (ascii : c < 0x80) : (UInt8.ofNat c).toNat = c :=
  UInt8.toNat_ofNat_of_lt' (show c < 256 by omega)

variable {before before' after : Str}

theorem encode_append : Utf8.encode ((before ++ after).map Char.ofNat) =
    Utf8.encode (before.map Char.ofNat) ++ Utf8.encode (after.map Char.ofNat) := by
  rw [Utf8.encode, List.map_append, List.flatMap_append]
  rfl

theorem crcOf_replaced :
    crcOf (before ++ after) = crcOf (before' ++ after) ↔ crcOf before = crcOf before' := by
  rw [crcOf, crcOf, encode_append, encode_append]
  exact foldl_replaced crcStep_lossless (by decide) _ _ _

theorem crcOf_changed {c c' : Nat} (ascii : c < 0x80) (ascii' : c' < 0x80) (changed : c' ≠ c) :
    crcOf (before ++ c' :: after) ≠ crcOf (before ++ c :: after) := by
  have other : UInt8.ofNat c' ≠ UInt8.ofNat c := by
    intro same
    have same' := congrArg UInt8.toNat same
    rw [toNat_byteOf ascii, toNat_byteOf ascii'] at same'
    exact changed same'
  rw [crcOf, crcOf, encode_append, encode_append, List.map_cons, List.map_cons,
    Utf8.encode_cons_ascii ascii, Utf8.encode_cons_ascii ascii']
  exact foldl_changed crcStep_lossless (by decide) other _ _

theorem encodable_ascii {text : Str} (ascii : ∀ c ∈ text, c < 0x80) : Encodable text := by
  intro c member
  have small := ascii c member
  exact .inl (by omega)

/-- Two texts with one end have the same checksum where their beginnings have. -/
theorem crc8_replaced (encodable : Encodable (before ++ after))
    (encodable' : Encodable (before' ++ after)) :
    crc8 (before ++ after) = crc8 (before' ++ after) ↔ crc8 before = crc8 before' := by
  have left : Encodable before := fun c member => encodable c (List.mem_append_left after member)
  have right : Encodable before' := fun c member => encodable' c (List.mem_append_left after member)
  rw [crc8_of_encodable encodable, crc8_of_encodable encodable', crc8_of_encodable left,
    crc8_of_encodable right, Except.ok.injEq, Except.ok.injEq, crcOf_replaced]

/-! ## Lines as they are sent -/

variable {linePrefix : Str}

/-- The content in ASCII and on one line, and the digits of its checksum. -/
structure TrackerLine (linePrefix : Str) extends Content linePrefix where
  begins : ∀ c ∈ toContent.text.head?, isSpace c = false
  ascii : ∀ c ∈ toContent.text, c < 0x80
  oneLine : ∀ c ∈ toContent.text, c ≠ 0x0A
  high : Nat
  low : Nat
  isHigh : isHex high = true
  isLow : isHex low = true
  checks : crc8 toContent.text = .ok (hexValue [high, low])

namespace TrackerLine

variable (line : TrackerLine linePrefix) (i : Fin line.text.length) (bit : Fin 8)

/-- The bytes of a text in ASCII. -/
def bytesOf (text : Str) : List UInt8 := text.map UInt8.ofNat

def sent : List UInt8 := bytesOf line.text ++ bytesOf (trailer line.high line.low)

/-- With that bit of the content flipped. -/
def corrupted : List UInt8 :=
  (bytesOf line.text).modify i (· ^^^ UInt8.ofNat (2 ^ bit.val)) ++
    bytesOf (trailer line.high line.low)

/-- What the byte of a character is decoded to then. -/
def received (c : Nat) (bit : Fin 8) : Nat := if bit = 7 then 0xFFFD else c ^^^ 2 ^ bit.val

theorem ascii_bytesOf {text : Str} (ascii : ∀ c ∈ text, c < 0x80) :
    ∀ byte ∈ bytesOf text, byte.toNat < 0x80 := by
  intro byte member
  obtain ⟨c, inText, rfl⟩ := List.mem_map.mp member
  rw [toNat_byteOf (ascii c inText)]
  exact ascii c inText

theorem chars_bytesOf {text : Str} (ascii : ∀ c ∈ text, c < 0x80) :
    ofChars ((bytesOf text).map fun byte => Char.ofNat byte.toNat) = text := by
  rw [ofChars, bytesOf, List.map_map, List.map_map]
  refine (List.map_congr_left fun c member => ?_).trans (List.map_id text)
  have small := ascii c member
  simp only [Function.comp_apply, toNat_byteOf small, Utf8.toNat_ofNat, id_eq]
  rw [if_pos (.inl (by omega))]

theorem toNat_byteChar : ∀ c < 0x80, ∀ bit : Fin 8,
    (Utf8.byteChar (UInt8.ofNat c ^^^ UInt8.ofNat (2 ^ bit.val))).toNat = received c bit := by
  decide +kernel

theorem ascii_trailer : ∀ c ∈ trailer line.high line.low, c < 0x80 := by
  have digit : ∀ c, isHex c = true → c < 0x80 := by
    intro c hex
    simp only [isHex, Bool.or_eq_true, Bool.and_eq_true, decide_eq_true_eq] at hex
    omega
  simp [trailer, digit _ line.isHigh, digit _ line.isLow]

theorem text_sent : (Line.bytes line.sent).text = line.text ++ trailer line.high line.low := by
  have ascii : ∀ c ∈ line.text ++ trailer line.high line.low, c < 0x80 := by
    intro c member
    exact (List.mem_append.mp member).elim (line.ascii c) (line.ascii_trailer c)
  have whole := Utf8.decode_append_ascii (ascii_bytesOf ascii) []
  rw [List.append_nil, Utf8.decode_eq_nil.mpr rfl, List.append_nil] at whole
  rw [Line.text, sent, bytesOf, bytesOf, ← List.map_append, ← bytesOf, whole, chars_bytesOf ascii]

theorem text_corrupted : (Line.bytes (line.corrupted i bit)).text =
    line.text.set i (received line.text[i] bit) ++ trailer line.high line.low := by
  have here : line.text[i] < 0x80 := line.ascii _ (List.getElem_mem i.isLt)
  have before : ∀ c ∈ line.text.take i, c < 0x80 := fun c member =>
    line.ascii c (List.mem_of_mem_take member)
  have after : ∀ c ∈ line.text.drop (i + 1) ++ trailer line.high line.low, c < 0x80 := by
    intro c member
    exact (List.mem_append.mp member).elim (fun inText => line.ascii c (List.mem_of_mem_drop inText))
      (line.ascii_trailer c)
  -- everything around the byte is ASCII, so that it does not begin a sequence
  have split : line.corrupted i bit = bytesOf (line.text.take i) ++
      (UInt8.ofNat line.text[i] ^^^ UInt8.ofNat (2 ^ bit.val)) ::
        bytesOf (line.text.drop (i + 1) ++ trailer line.high line.low) := by
    have inside : i.val < (bytesOf line.text).length := by simp [bytesOf]
    rw [corrupted, List.modify_eq_take_cons_drop inside]
    simp [bytesOf]
  rw [Line.text, split, Utf8.decode_append_ascii (ascii_bytesOf before),
    Utf8.decode_cons_ascii _ (ascii_bytesOf after), ofChars, List.map_append, List.map_cons,
    toNat_byteChar line.text[i] here]
  rw [← ofChars, ← ofChars, chars_bytesOf before, chars_bytesOf after,
    List.set_eq_take_append_cons_drop, if_pos i.isLt]
  simp

/-! ## Where an error is not seen -/

/-- Decoding or stripping makes up for it. -/
inductive Masked : Prop
  | replaced (high : bit = 7) (heap : IsHeapLine linePrefix (line.text.set i 0xFFFD))
      (same : crc8 (line.text.take i ++ [0xFFFD]) = crc8 (line.text.take (i + 1)))
  | stripped (c : Nat) (spaces rest : Str) (first : i.val = 0)
      (split : line.text = c :: (spaces ++ rest)) (becomes : isSpace (received c bit) = true)
      (blank : ∀ c ∈ spaces, isSpace c = true) (heap : IsHeapLine linePrefix rest)
      (lost : crc8 (c :: spaces) = .ok 0)

/-- What is left before the digits when the line has been stripped. -/
def remains : Str := (line.text.set i (received line.text[i] bit)).dropWhile isSpace

variable {line i bit}

theorem received_replaced (high : bit = 7) (c : Nat) : received c bit = 0xFFFD := if_pos high

theorem received_changed (low : bit ≠ 7) {c : Nat} (ascii : c < 0x80) :
    received c bit < 0x80 ∧ received c bit ≠ c := by
  have all : ∀ c < 0x80, ∀ bit : Fin 8, bit ≠ 7 → received c bit < 0x80 ∧ received c bit ≠ c := by
    decide +kernel
  exact all c ascii bit low

theorem remains_kept (visible : i.val = 0 → isSpace (received line.text[i] bit) = false) :
    line.remains i bit = line.text.set i (received line.text[i] bit) := by
  have begins : ∀ c ∈ (line.text.set i (received line.text[i] bit)).head?, isSpace c = false := by
    intro c here
    rw [List.head?_eq_getElem?, List.getElem?_set] at here
    by_cases first : i.val = 0
    · rw [if_pos first, if_pos (first ▸ i.isLt)] at here
      cases here
      exact visible first
    · rw [if_neg first, ← List.head?_eq_getElem?] at here
      exact line.begins c here
  rw [remains]
  cases whole : line.text.set i (received line.text[i] bit) with
  | nil => rfl
  | cons c text =>
    rw [whole] at begins
    rw [List.dropWhile_cons, if_neg (by simp [begins c rfl])]

theorem remains_stripped {c : Nat} {text : Str} (first : i.val = 0) (split : line.text = c :: text)
    (becomes : isSpace (received c bit) = true) :
    line.remains i bit = text.dropWhile isSpace := by
  have here : line.text[i] = c := by simp [first, split]
  rw [remains, here, first, split, List.set_cons_zero, List.dropWhile_cons, if_pos becomes]

theorem encodable_set {c : Nat} (valid : c.isValidChar) : Encodable (line.text.set i c) := by
  intro c' member
  cases List.mem_or_eq_of_mem_set member with
  | inl inText => exact encodable_ascii line.ascii c' inText
  | inr same => rwa [same]

theorem valid_received : (received line.text[i] bit).isValidChar := by
  by_cases high : bit = 7
  · rw [received_replaced high]
    decide
  · have small := (received_changed high (line.ascii _ (List.getElem_mem i.isLt))).1
    exact .inl (Nat.lt_trans small (by decide))

variable (line i bit) in
theorem encodable_remains : Encodable (line.remains i bit) := fun c member =>
  encodable_set valid_received c ((List.dropWhile_suffix isSpace).subset member)

theorem set_split (c : Nat) :
    line.text.set i c = (line.text.take i ++ [c]) ++ line.text.drop (i + 1) := by
  rw [List.set_eq_take_append_cons_drop, if_pos i.isLt, List.append_assoc]
  rfl

/-- A single character in ASCII is seen by the checksum. -/
theorem crc8_set {c : Nat} (ascii : c < 0x80) (changed : c ≠ line.text[i]) :
    crc8 (line.text.set i c) ≠ crc8 line.text := by
  have here : line.text[i] < 0x80 := line.ascii _ (List.getElem_mem i.isLt)
  have encodable : Encodable (line.text.set i c) := encodable_set (.inl (by omega))
  have whole : line.text.take i ++ line.text[i] :: line.text.drop (i + 1) = line.text := by simp
  have seen : crcOf (line.text.take i ++ c :: line.text.drop (i + 1)) ≠
      crcOf (line.text.take i ++ line.text[i] :: line.text.drop (i + 1)) :=
    crcOf_changed here ascii changed
  rw [whole] at seen
  rw [crc8_of_encodable encodable, crc8_of_encodable (encodable_ascii line.ascii), ne_eq,
    Except.ok.injEq, set_split, List.append_assoc]
  exact seen

theorem heapLine_begins (line : TrackerLine linePrefix) {rest : Str} (heap : IsHeapLine linePrefix rest) :
    ∀ c ∈ rest.head?, isSpace c = false := by
  obtain ⟨tag, isTag, body, rfl, _⟩ := heap
  intro c here
  rw [List.head?_append, List.head?_append, visible_heapTags isTag, Option.some_or] at here
  cases first : linePrefix.head? with
  | none =>
    rw [first] at here
    cases here
    rfl
  | some letter =>
    rw [first] at here
    refine line.begins c ?_
    rw [Content.text, List.head?_append, first]
    exact here

theorem crc8_replacement : crc8 (line.text.set i 0xFFFD) = crc8 line.text ↔
    crc8 (line.text.take i ++ [0xFFFD]) = crc8 (line.text.take (i + 1)) := by
  have whole : line.text.take (i + 1) ++ line.text.drop (i + 1) = line.text :=
    List.take_append_drop _ _
  have encodable : Encodable (line.text.set i 0xFFFD) := encodable_set (by decide)
  have encodable' := encodable_ascii line.ascii
  rw [set_split] at encodable
  rw [← whole] at encodable'
  have replaced := crc8_replaced encodable encodable'
  rwa [whole, ← set_split] at replaced

theorem remains_replaced (high : bit = 7) : line.remains i bit = line.text.set i 0xFFFD := by
  rw [remains_kept, received_replaced high]
  intro _
  rw [received_replaced high]
  rfl

/-- Of a line that begins with the character, as far as it is stripped. -/
theorem crc8_stripped {c : Nat} {spaces rest : Str} (split : line.text = c :: (spaces ++ rest)) :
    crc8 rest = crc8 line.text ↔ crc8 (c :: spaces) = .ok 0 := by
  have encodable := encodable_ascii line.ascii
  have whole : line.text = (c :: spaces) ++ rest := split
  rw [whole] at encodable ⊢
  have encodable' : Encodable ([] ++ rest) := fun c member =>
    encodable c (List.mem_append_right _ member)
  have replaced := crc8_replaced encodable' encodable
  rw [List.nil_append] at replaced
  rw [replaced, eq_comm]
  rfl

theorem masked_iff : Masked line i bit ↔
    IsHeapLine linePrefix (line.remains i bit) ∧ crc8 (line.remains i bit) = crc8 line.text := by
  constructor
  · intro masked
    cases masked with
    | replaced high heap same =>
      rw [remains_replaced high]
      exact ⟨heap, crc8_replacement.mpr same⟩
    | stripped c spaces rest first split becomes blank heap lost =>
      rw [remains_stripped first split becomes, dropWhile_blank blank (heapLine_begins line heap)]
      exact ⟨heap, (crc8_stripped split).mpr lost⟩
  · intro both
    obtain ⟨heap, same⟩ := both
    by_cases strips : i.val = 0 ∧ isSpace (received line.text[i] bit) = true
    · -- the first character is stripped, with the spaces after it
      obtain ⟨first, becomes⟩ := strips
      obtain ⟨c, text, split⟩ := List.exists_cons_of_length_pos (Nat.zero_lt_of_lt i.isLt)
      have here : line.text[i] = c := by simp [first, split]
      rw [here] at becomes
      rw [remains_stripped first split becomes] at heap same
      have split' : line.text = c :: (text.takeWhile isSpace ++ text.dropWhile isSpace) := by
        rw [List.takeWhile_append_dropWhile, split]
      exact .stripped c (text.takeWhile isSpace) (text.dropWhile isSpace) first split' becomes
        (fun c => List.mem_takeWhile_imp) heap ((crc8_stripped split').mp same)
    · have kept : line.remains i bit = line.text.set i (received line.text[i] bit) :=
        remains_kept fun first => by simpa [first] using strips
      by_cases high : bit = 7
      · rw [remains_replaced high] at heap same
        exact .replaced high heap (crc8_replacement.mp same)
      · -- any other character is seen
        have ascii := line.ascii line.text[i] (List.getElem_mem i.isLt)
        obtain ⟨ascii', changed⟩ := received_changed high ascii
        rw [kept] at same
        exact absurd same (crc8_set ascii' changed)

/-! ## Corrupted lines -/

/-- What is left ends as the line does, with a character that is no space, and has no newline. -/
theorem remains_plain (masked : Masked line i bit) :
    (∀ c ∈ (line.remains i bit).getLast?, isSpace c = false) ∧
      ∀ c ∈ line.remains i bit, c ≠ 0x0A := by
  cases masked with
  | replaced high heap same =>
    rw [remains_replaced high]
    constructor
    · intro c last
      rw [List.getLast?_eq_getElem?, List.getElem?_set, List.length_set] at last
      split at last
      · rw [if_pos (by omega)] at last
        cases last
        rfl
      · exact line.ends c (by rwa [List.getLast?_eq_getElem?])
    · intro c member
      cases List.mem_or_eq_of_mem_set member with
      | inl inText => exact line.oneLine c inText
      | inr isReceived =>
        rw [isReceived]
        decide
  | stripped c spaces rest first split becomes blank heap lost =>
    have whole : line.text = (c :: spaces) ++ rest := split
    rw [remains_stripped first split becomes, dropWhile_blank blank (heapLine_begins line heap)]
    constructor
    · have ends := line.ends
      rwa [whole, List.getLast?_append_of_ne_nil _ (heapLine_ne_nil heap)] at ends
    · intro c member
      exact line.oneLine c (by rw [whole]; exact List.mem_append_right _ member)

variable (line i bit)

theorem strip_corrupted : strip (Line.bytes (line.corrupted i bit)).text =
    if line.remains i bit = [] then [0x2A, line.high, line.low]
    else line.remains i bit ++ trailer line.high line.low := by
  rw [text_corrupted, strip_trailer line.isLow, ← remains]

variable (isWord : Nat → Bool)

/-- The line is read as it was meant. -/
def Parses : Prop :=
  parseLine linePrefix (Line.bytes line.sent).text = .ok (some
    { tag := line.tag, payloadStr := line.payload.elim [] SpacedPayload.text
      crcValid := some true, raw := line.text ++ trailer line.high line.low })

/-- With the bit flipped, nothing is recorded. -/
def Rejects : Prop := ∀ tracker : MemoryTracker,
  (run (feed isWord linePrefix (.bytes (line.corrupted i bit))) tracker).2.data = tracker.data

/-- Both, for a line and an error in it. -/
structure Protected : Prop where
  parses : line.Parses
  rejects : line.Rejects i bit isWord

theorem parses_sent : line.Parses := by
  have nonempty : line.text ≠ [] := by
    intro empty
    exact line.nonempty (List.append_eq_nil_iff.mp (List.append_eq_nil_iff.mp empty).2).1
  have stripped : strip (Line.bytes line.sent).text = line.text ++ trailer line.high line.low := by
    rw [text_sent, strip_begins line.isLow nonempty line.begins]
  have parsed := parse_content line.toContent line.oneLine line.isHigh line.isLow line.checks stripped
  rwa [BEq.rfl] at parsed

/-- What has the tag of a heap report and the checksum of the line is accepted. -/
theorem accepts_masked (masked : line.Masked i bit) :
    ∃ parsed, parseLine linePrefix (Line.bytes (line.corrupted i bit)).text = .ok (some parsed) ∧
      parsed.tag ∈ heapTags ∧ parsed.crcValid = some true := by
  obtain ⟨heap, same⟩ := masked_iff.mp masked
  obtain ⟨ends, oneLine⟩ := remains_plain masked
  obtain ⟨content, isContent, isTag⟩ := content_of_heapLine heap ends
  have stripped : strip (Line.bytes (line.corrupted i bit)).text =
      content.text ++ trailer line.high line.low := by
    rw [strip_corrupted, if_neg (heapLine_ne_nil heap), isContent]
  rw [← isContent, line.checks] at same
  rw [← isContent] at oneLine
  refine ⟨_, parse_content content oneLine line.isHigh line.isLow same stripped, isTag, ?_⟩
  rw [BEq.rfl]

theorem rejects_unmasked (unmasked : ¬ line.Masked i bit) {parsed : ParsedTag}
    (isParsed : parseLine linePrefix (Line.bytes (line.corrupted i bit)).text = .ok (some parsed))
    (heap : parsed.tag ∈ heapTags) : parsed.crcValid = some false := by
  have stripped := strip_corrupted line i bit
  by_cases empty : line.remains i bit = []
  · -- the digits alone are too short for the tag
    rw [if_pos empty] at stripped
    have short := tag_length_le isParsed
    have all : ∀ tag ∈ heapTags, 4 < tag.length := by decide
    have long := all parsed.tag heap
    rw [stripped, List.length_cons, List.length_cons, List.length_singleton] at short
    omega
  · rw [if_neg empty] at stripped
    have checks := crc8_of_encodable (encodable_remains line i bit)
    obtain ⟨heap', valid⟩ := parse_heapLine line.isHigh line.isLow stripped checks isParsed heap
    rw [valid, Option.some.injEq, beq_eq_false_iff_ne]
    intro same
    rw [same, ← line.checks] at checks
    exact unmasked (masked_iff.mpr ⟨heap', checks⟩)

theorem rejects_iff : line.Rejects i bit isWord ↔ ¬ line.Masked i bit := by
  constructor
  · intro rejects masked
    -- a tracker without data has some afterwards
    obtain ⟨parsed, isParsed, heap, valid⟩ := accepts_masked line i bit masked
    have hasTest : str "t" ≠ [] := by decide
    have changed : (run (feed isWord linePrefix (.bytes (line.corrupted i bit)))
        { currentTest := str "t" }).2.data ≠ [] :=
      feed_changed hasTest isParsed heap (by simp [valid])
    exact changed (rejects _)
  · intro unmasked tracker
    exact feed_unchanged fun parsed isParsed heap =>
      rejects_unmasked line i bit unmasked isParsed heap

/-- The checksum protects a line from an error exactly where the error is not masked. -/
theorem protected_iff : line.Protected i bit isWord ↔ ¬ line.Masked i bit := by
  rw [← rejects_iff line i bit isWord]
  constructor
  · intro isProtected
    exact isProtected.rejects
  · intro rejects
    exact ⟨line.parses_sent, rejects⟩

end TrackerLine

/-- A report of the heap as the firmware sends it. -/
def heapReport : TrackerLine defaultPrefix where
  tag := str "MEM:BEFORE"
  payload := some
    { spaces := str " "
      text := str "free=200036 min=180000"
      spaced := by decide
      blank := by decide
      nonempty := by decide
      begins := by decide
      ends := by decide }
  nonempty := by decide
  visible := by decide
  begins := by decide
  ascii := by decide
  oneLine := by decide
  high := 0x41
  low := 0x39
  isHigh := rfl
  isLow := rfl
  checks := by decide +kernel

/-- With the highest bit of the `i` in `min` flipped, it is recorded without that field. -/
theorem not_protected : ¬ heapReport.Protected ⟨29, by decide⟩ 7 asciiWord := by
  have recorded : (run (feed asciiWord defaultPrefix
      (.bytes (heapReport.corrupted ⟨29, by decide⟩ 7))) { currentTest := str "t" }).2.data =
        [(str "t", { freeBefore := 200036 })] := by
    decide +kernel
  intro isProtected
  have unchanged := isProtected.rejects { currentTest := str "t" }
  rw [recorded] at unchanged
  cases unchanged

end EmbeddedBridge.Python.MemoryTracker
