import EmbeddedBridge.Library.Transducer
import EmbeddedBridge.Message.Varint

/-! # The wire protocol

What a byte stream says, apart from any reader: a sequence of `Item`s and one
item still open.  `parse` reads it byte by byte, and `parse_bytes` says that the
items spell the stream.  How long a payload is depends on which numbers a reader
can hold; that is the parameter `wrap`.

Bodies are in the form `β`, so that a reader can speak of the pieces in which
they came, and `parse` of the bytes alone.
-/

namespace EmbeddedBridge.Wire

open Library

inductive Item (β : Type) where
  /-- ended by a newline, or cut off by the SOH of what follows -/
  | text (body : β) (cut : Bool)
  | unknownVersion (version : UInt8)
  /-- a length of five bytes that each announce another -/
  | overlong (groups : List UInt8)
  | binary (groups : List UInt8) (body : β)
deriving DecidableEq, Repr

/-- The item that the stream breaks off in. -/
inductive Open (β : Type) where
  | idle
  | text (body : β)
  | version
  | length (groups : List UInt8)
  | payload (groups : List UInt8) (body : β)
deriving DecidableEq, Repr

variable {β γ : Type}

def Item.map (f : β → γ) : Item β → Item γ
  | .text body cut => .text (f body) cut
  | .unknownVersion version => .unknownVersion version
  | .overlong groups => .overlong groups
  | .binary groups body => .binary groups (f body)

def Open.map (f : β → γ) : Open β → Open γ
  | .idle => .idle
  | .text body => .text (f body)
  | .version => .version
  | .length groups => .length groups
  | .payload groups body => .payload groups (f body)

abbrev Raw := List UInt8

def Item.bytes : Item Raw → List UInt8
  | .text raw cut => raw ++ if cut then [] else [newline]
  | .unknownVersion version => [soh, version]
  | .overlong groups => [soh, binaryProtocolV1] ++ groups
  | .binary groups body => [soh, binaryProtocolV1] ++ groups ++ body

def Open.bytes : Open Raw → List UInt8
  | .idle => []
  | .text raw => raw
  | .version => [soh]
  | .length groups => [soh, binaryProtocolV1] ++ groups
  | .payload groups body => [soh, binaryProtocolV1] ++ groups ++ body

/-! ## Parsing -/

section Parse

variable (wrap : Nat → Nat)

def step : Transducer.Step (Open Raw) UInt8 (Item Raw)
  | .idle, c =>
    if c = soh then (.version, [])
    else if c = newline then (.idle, [.text [] false])
    else (.text [c], [])
  | .text raw, c =>
    if c = newline then (.idle, [.text raw false])
    else if c = soh then (.version, [.text raw true])
    else (.text (raw ++ [c]), [])
  | .version, c => if c = binaryProtocolV1 then (.length [], []) else (.idle, [.unknownVersion c])
  | .length groups, c =>
    let groups := groups ++ [c]
    if ¬ Leb128.Continues c then
      if wrap (Leb128.value groups) = 0 then (.idle, [.binary groups []]) else (.payload groups [], [])
    else if varintMaxBytes ≤ groups.length then (.idle, [.overlong groups])
    else (.length groups, [])
  | .payload groups body, c =>
    let body := body ++ [c]
    if wrap (Leb128.value groups) ≤ body.length then (.idle, [.binary groups body])
    else (.payload groups body, [])

/-- The items of a stream and what is open at its end. -/
def parse (stream : List UInt8) : Open Raw × List (Item Raw) := Transducer.run (step wrap) .idle stream

theorem step_bytes (before : Open Raw) (c : UInt8) :
    before.bytes ++ [c] =
      (step wrap before c).2.flatMap Item.bytes ++ (step wrap before c).1.bytes := by
  cases before with
  | idle =>
    by_cases isSoh : c = soh
    · simp [step, isSoh, Open.bytes]
    by_cases isNewline : c = newline
    · simp [step, isNewline, newline, soh, Open.bytes, Item.bytes]
    · simp [step, isSoh, isNewline, Open.bytes]
  | text raw =>
    by_cases isNewline : c = newline
    · simp [step, isNewline, Open.bytes, Item.bytes]
    by_cases isSoh : c = soh
    · simp [step, isSoh, newline, soh, Open.bytes, Item.bytes]
    · simp [step, isSoh, isNewline, Open.bytes]
  | version =>
    by_cases isOne : c = binaryProtocolV1
    · simp [step, isOne, Open.bytes]
    · simp [step, isOne, Open.bytes, Item.bytes]
  | length groups =>
    simp only [step]
    split
    · split <;> simp [Open.bytes, Item.bytes]
    split <;> simp [Open.bytes, Item.bytes]
  | payload groups body =>
    simp only [step]
    split <;> simp [Open.bytes, Item.bytes]

/-- No byte of the stream is lost or made up. -/
theorem run_bytes (before : Open Raw) (stream : List UInt8) :
    before.bytes ++ stream =
      (Transducer.run (step wrap) before stream).2.flatMap Item.bytes ++
        (Transducer.run (step wrap) before stream).1.bytes := by
  induction stream generalizing before with
  | nil => simp
  | cons c stream inductionHypothesis =>
    rw [← List.singleton_append, ← List.append_assoc, step_bytes, List.append_assoc,
      inductionHypothesis, List.singleton_append, Transducer.run_cons, List.flatMap_append,
      List.append_assoc]

theorem parse_bytes (stream : List UInt8) :
    stream = (parse wrap stream).2.flatMap Item.bytes ++ (parse wrap stream).1.bytes :=
  run_bytes wrap .idle stream

/-! ## Well-formed items -/

/-- A length header so far. -/
def Header (groups : List UInt8) : Prop :=
  groups.length < varintMaxBytes ∧ ∀ group ∈ groups, Leb128.Continues group

def Plain (raw : Raw) : Prop := newline ∉ raw ∧ soh ∉ raw

def Item.WellFormed : Item Raw → Prop
  | .text raw cut => Plain raw ∧ (cut = true → raw ≠ [])
  | .unknownVersion version => version ≠ binaryProtocolV1
  | .overlong groups => groups.length = varintMaxBytes ∧ ∀ group ∈ groups, Leb128.Continues group
  | .binary groups body =>
    (∃ init last, groups = init ++ [last] ∧ Header init ∧ ¬ Leb128.Continues last) ∧
      body.length = wrap (Leb128.value groups)

def Open.WellFormed : Open Raw → Prop
  | .idle => True
  | .text raw => Plain raw ∧ raw ≠ []
  | .version => True
  | .length groups => Header groups
  | .payload groups body =>
    (∃ init last, groups = init ++ [last] ∧ Header init ∧ ¬ Leb128.Continues last) ∧
      body.length < wrap (Leb128.value groups)

theorem plain_snoc {raw : Raw} {c : UInt8} (plain : Plain raw) (notNewline : c ≠ newline)
    (notSoh : c ≠ soh) : Plain (raw ++ [c]) := by
  simp only [Plain, List.mem_append, List.mem_singleton, not_or]
  exact ⟨⟨plain.1, Ne.symm notNewline⟩, plain.2, Ne.symm notSoh⟩

theorem header_snoc {groups : List UInt8} {c : UInt8} (header : Header groups)
    (continued : Leb128.Continues c) :
    ∀ group ∈ groups ++ [c], Leb128.Continues group := by
  intro group member
  rw [List.mem_append, List.mem_singleton] at member
  cases member with
  | inl earlier => exact header.2 group earlier
  | inr last => rw [last]; exact continued

theorem step_wellFormed (before : Open Raw) (c : UInt8) (wellFormed : before.WellFormed wrap) :
    (step wrap before c).1.WellFormed wrap ∧
      ∀ item ∈ (step wrap before c).2, item.WellFormed wrap := by
  have emptyPlain : Plain [] := ⟨by simp, by simp⟩
  cases before with
  | idle =>
    simp only [step]
    split
    · exact ⟨trivial, by simp⟩
    rename_i notSoh
    split
    · exact ⟨trivial, by simpa [Item.WellFormed] using emptyPlain⟩
    rename_i notNewline
    exact ⟨⟨plain_snoc emptyPlain notNewline notSoh, by simp⟩, by simp⟩
  | text raw =>
    simp only [step]
    split
    · exact ⟨trivial, by simpa [Item.WellFormed] using wellFormed.1⟩
    rename_i notNewline
    split
    · exact ⟨trivial, by simpa [Item.WellFormed, Open.WellFormed] using wellFormed⟩
    rename_i notSoh
    exact ⟨⟨plain_snoc wellFormed.1 notNewline notSoh, by simp⟩, by simp⟩
  | version =>
    simp only [step]
    split
    · exact ⟨⟨by simp [varintMaxBytes], by simp⟩, by simp⟩
    · rename_i notOne
      exact ⟨trivial, by simpa [Item.WellFormed] using notOne⟩
  | length groups =>
    simp only [step]
    split
    · rename_i ended
      have shape : ∃ init last, groups ++ [c] = init ++ [last] ∧ Header init ∧
          ¬ Leb128.Continues last := ⟨groups, c, rfl, wellFormed, ended⟩
      split
      · rename_i empty
        exact ⟨trivial, by
          intro item member
          rw [List.mem_singleton.mp member]
          exact ⟨shape, empty.symm⟩⟩
      · rename_i some
        exact ⟨⟨shape, Nat.pos_of_ne_zero some⟩, by simp⟩
    rename_i continued
    have continues := header_snoc wellFormed (not_not.mp continued)
    split
    · rename_i long
      have five : (groups ++ [c]).length = varintMaxBytes := by
        have short := wellFormed.1
        rw [List.length_append, List.length_singleton] at long ⊢
        omega
      exact ⟨trivial, by
        intro item member
        rw [List.mem_singleton.mp member]
        exact ⟨five, continues⟩⟩
    · rename_i short
      exact ⟨⟨Nat.lt_of_not_le short, continues⟩, by simp⟩
  | payload groups body =>
    simp only [step]
    have shorter := wellFormed.2
    split
    · rename_i whole
      refine ⟨trivial, ?_⟩
      intro item member
      rw [List.mem_singleton.mp member]
      refine ⟨wellFormed.1, ?_⟩
      rw [List.length_append, List.length_singleton] at whole ⊢
      omega
    · rename_i more
      exact ⟨⟨wellFormed.1, Nat.lt_of_not_le more⟩, by simp⟩

theorem run_wellFormed (before : Open Raw) (stream : List UInt8)
    (wellFormed : before.WellFormed wrap) :
    (Transducer.run (step wrap) before stream).1.WellFormed wrap ∧
      ∀ item ∈ (Transducer.run (step wrap) before stream).2, item.WellFormed wrap := by
  induction stream generalizing before with
  | nil => exact ⟨wellFormed, by simp⟩
  | cons c stream inductionHypothesis =>
    obtain ⟨next, now⟩ := step_wellFormed wrap before c wellFormed
    obtain ⟨final, later⟩ := inductionHypothesis _ next
    refine ⟨final, ?_⟩
    intro item member
    rw [Transducer.run_cons, List.mem_append] at member
    cases member with
    | inl inNow => exact now item inNow
    | inr inLater => exact later item inLater

/-! ## Stretches of an item -/

theorem run_plain (raw text : Raw) (plain : Plain text) :
    Transducer.run (step wrap) (.text raw) text = (.text (raw ++ text), []) := by
  induction text generalizing raw with
  | nil => simp
  | cons c text inductionHypothesis =>
    simp only [Plain, List.mem_cons, not_or] at plain
    have one : step wrap (.text raw) c = (.text (raw ++ [c]), []) := by
      simp [step, Ne.symm plain.1.1, Ne.symm plain.2.1]
    have later := inductionHypothesis (raw ++ [c]) ⟨plain.1.2, plain.2.2⟩
    rw [List.append_assoc] at later
    exact Transducer.run_step_silent _ one later

theorem run_payload (groups : List UInt8) (body chunk : Raw)
    (short : body.length + chunk.length < wrap (Leb128.value groups)) :
    Transducer.run (step wrap) (.payload groups body) chunk =
      (.payload groups (body ++ chunk), []) := by
  induction chunk generalizing body with
  | nil => simp
  | cons c chunk inductionHypothesis =>
    rw [List.length_cons] at short
    have one : step wrap (.payload groups body) c = (.payload groups (body ++ [c]), []) := by
      simp only [step, List.length_append, List.length_singleton]
      rw [if_neg (by omega)]
    have later := inductionHypothesis (body ++ [c])
      (by rw [List.length_append, List.length_singleton]; omega)
    rw [List.append_assoc] at later
    exact Transducer.run_step_silent _ one later

/-- The last byte of a payload completes it. -/
theorem run_payload_whole (groups : List UInt8) (body chunk : Raw) (some : chunk ≠ [])
    (whole : body.length + chunk.length = wrap (Leb128.value groups)) :
    Transducer.run (step wrap) (.payload groups body) chunk =
      (.idle, [.binary groups (body ++ chunk)]) := by
  obtain ⟨init, last, split⟩ := (List.eq_nil_or_concat chunk).resolve_left some
  rw [List.concat_eq_append] at split
  rw [split, List.length_append, List.length_singleton] at whole
  rw [split]
  apply Transducer.run_trans_silent _ (run_payload wrap groups body init (by omega))
  simp only [Transducer.run_singleton, step, List.length_append, List.length_singleton]
  rw [if_pos (by omega), List.append_assoc]

theorem run_length (groups : List UInt8) (header : Header groups) :
    Transducer.run (step wrap) (.length []) groups = (.length groups, []) := by
  induction groups using List.reverseRecOn with
  | nil => rfl
  | append_singleton groups c inductionHypothesis =>
    obtain ⟨short, continued⟩ := header
    rw [List.length_append, List.length_singleton] at short
    have last : Leb128.Continues c := continued c (by simp)
    apply Transducer.run_trans_silent _ (inductionHypothesis
      ⟨by omega, fun group member => continued group (List.mem_append_left _ member)⟩)
    have more : ¬ varintMaxBytes ≤ groups.length + 1 := by omega
    simp [step, last, more]

/-! ## Whole messages -/

def textWire (raw : Raw) : List UInt8 := raw ++ [newline]

def binaryWire (body : Raw) : List UInt8 :=
  [soh, binaryProtocolV1] ++ Leb128.encode body.length ++ body

theorem run_textWire (raw : Raw) (plain : Plain raw) :
    Transducer.run (step wrap) .idle (textWire raw) = (.idle, [.text raw false]) := by
  cases raw with
  | nil => simp [textWire, step, newline, soh]
  | cons c raw =>
    have begun : step wrap .idle c = step wrap (.text []) c := by
      simp only [Plain, List.mem_cons, not_or] at plain
      simp [step, Ne.symm plain.1.1, Ne.symm plain.2.1]
    have ran := run_plain wrap [] (c :: raw) plain
    rw [Transducer.run_cons, ← begun, ← Transducer.run_cons] at ran
    apply Transducer.run_trans_silent _ ran
    simp [step]

/-- A header of up to five bytes, and as many bytes of payload as it says. -/
theorem run_binaryWire (body : Raw) (short : body.length < 2 ^ 35)
    (fits : wrap body.length = body.length) :
    Transducer.run (step wrap) .idle (binaryWire body) =
      (.idle, [.binary (Leb128.encode body.length) body]) := by
  obtain ⟨init, last, shape, continued, ended⟩ := Leb128.encode_shape body.length
  have value := Leb128.value_encode body.length
  have five := Leb128.encode_length_le 4 body.length (by omega)
  rw [shape] at value five
  rw [List.length_append, List.length_singleton] at five
  have header : Transducer.run (step wrap) .idle ([soh, binaryProtocolV1] ++ init) =
      (.length init, []) := by
    have opened : Transducer.run (step wrap) .idle [soh, binaryProtocolV1] = (.length [], []) := by
      simp [Transducer.run_cons, step]
    exact Transducer.run_trans_silent _ opened
      (run_length wrap init ⟨by simp only [varintMaxBytes]; omega, continued⟩)
  -- the last group of the header announces the payload
  have split : binaryWire body = [soh, binaryProtocolV1] ++ init ++ last :: body := by
    simp [binaryWire, shape]
  rw [split, shape]
  apply Transducer.run_trans_silent _ header
  by_cases empty : body = []
  · rw [empty, List.length_nil] at value fits
    simp [step, ended, value, fits, empty]
  · have some : body.length ≠ 0 := fun none => empty (List.length_eq_zero_iff.mp none)
    have announced : step wrap (.length init) last = (.payload (init ++ [last]) [], []) := by
      simp [step, ended, value, fits, empty]
    apply Transducer.run_step_silent _ announced
    have ran := run_payload_whole wrap (init ++ [last]) [] body empty (by
      rw [value, fits]
      simp)
    simpa using ran

end Parse

end EmbeddedBridge.Wire
