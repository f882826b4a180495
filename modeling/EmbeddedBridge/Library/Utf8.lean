import EmbeddedBridge.Library.Transducer

/-! # UTF-8 with replacement

The decoder as a transducer from bytes to characters.  Where no well-formed
sequence can continue, the bytes read so far are replaced by one U+FFFD (the
longest prefix that could have begun a character), and the offending byte starts
afresh.  `decode` is a whole run, with what is left pending replaced at the end.

* `decode_encode`: what was encoded is read back;
* `decode_split`: an ASCII byte separates whatever stands left and right of it;
* `decode_of_unsequenced`, `decode_length_lt`: decoding works byte by byte
  exactly on the texts in which no byte begins a sequence that the next one
  continues.
-/

namespace EmbeddedBridge.Library.Utf8

open Transducer (Step run)

/-- U+FFFD, the replacement character. -/
def replacement : Char := Char.ofNat 0xFFFD

/-- Which bytes may follow a first byte: all continuation bytes, or those left
when overlong forms, surrogates and codes past U+10FFFF are excluded. -/
inductive Window where
  | all
  | afterE0
  | afterED
  | afterF0
  | afterF4
deriving DecidableEq, Repr

def Window.low : Window → Nat
  | .afterE0 => 0xA0
  | .afterF0 => 0x90
  | _ => 0x80

def Window.high : Window → Nat
  | .afterED => 0x9F
  | .afterF4 => 0x8F
  | _ => 0xBF

def Window.Admits (window : Window) (byte : UInt8) : Prop :=
  window.low ≤ byte.toNat ∧ byte.toNat ≤ window.high

instance (window : Window) (byte : UInt8) : Decidable (window.Admits byte) :=
  inferInstanceAs (Decidable (_ ∧ _))

/-- Between characters, or inside one: the code bits so far, how many more bytes
are owed after the next one, and what the next one may be. -/
inductive State where
  | start
  | inside (code owed : Nat) (window : Window)
deriving DecidableEq, Repr

/-- A byte read between characters. -/
def first (byte : UInt8) : State × List Char :=
  if byte.toNat < 0x80 then (.start, [Char.ofNat byte.toNat])
  -- a stray continuation byte, or what only an overlong form begins with
  else if byte.toNat < 0xC2 then (.start, [replacement])
  else if byte.toNat < 0xE0 then (.inside (byte.toNat - 0xC0) 0 .all, [])
  else if byte.toNat = 0xE0 then (.inside 0 1 .afterE0, [])
  else if byte.toNat = 0xED then (.inside 0xD 1 .afterED, [])
  else if byte.toNat < 0xF0 then (.inside (byte.toNat - 0xE0) 1 .all, [])
  else if byte.toNat = 0xF0 then (.inside 0 2 .afterF0, [])
  else if byte.toNat < 0xF4 then (.inside (byte.toNat - 0xF0) 2 .all, [])
  else if byte.toNat = 0xF4 then (.inside 4 2 .afterF4, [])
  else (.start, [replacement])

/-- A decoder that is fed in chunks may hold back a surrogate that a chunk ends in (ED and a
byte from A0 to BF) until the next byte comes; here its bytes are replaced at once, by as many
U+FFFD. -/
def step : Step State UInt8 Char
  | .start, byte => first byte
  | .inside code owed window, byte =>
    if window.Admits byte then
      let code := code * 64 + (byte.toNat - 0x80)
      match owed with
      | 0 => (.start, [Char.ofNat code])
      | owed + 1 => (.inside code owed .all, [])
    else ((first byte).1, replacement :: (first byte).2)

/-- At the end of the input an unfinished sequence is replaced. -/
def flush : State → List Char
  | .start => []
  | .inside _ _ _ => [replacement]

@[simp] theorem flush_start : flush .start = [] := rfl
@[simp] theorem flush_inside (code owed : Nat) (window : Window) :
    flush (.inside code owed window) = [replacement] := rfl

def decodeFrom (state : State) (bytes : List UInt8) : List Char :=
  (run step state bytes).2 ++ flush (run step state bytes).1

def decode (bytes : List UInt8) : List Char := decodeFrom .start bytes

def encode (text : List Char) : List UInt8 := text.flatMap String.utf8EncodeChar

theorem decodeFrom_append (state : State) (left right : List UInt8) :
    decodeFrom state (left ++ right) =
      (run step state left).2 ++ decodeFrom (run step state left).1 right := by
  simp only [decodeFrom, Transducer.run_append, List.append_assoc]

theorem decodeFrom_cons (state : State) (byte : UInt8) (bytes : List UInt8) :
    decodeFrom state (byte :: bytes) = (step state byte).2 ++ decodeFrom (step state byte).1 bytes := by
  simp only [decodeFrom, Transducer.run_cons, List.append_assoc]

/-! ## Round trip -/

theorem char_bounds (char : Char) :
    char.toNat < 0xD800 ∨ (0xDFFF < char.toNat ∧ char.toNat < 0x110000) :=
  char.valid

theorem first_ascii {byte : UInt8} (ascii : byte.toNat < 0x80) :
    first byte = (.start, [Char.ofNat byte.toNat]) := by
  simp [first, ascii]

theorem first_two (byte : UInt8) (low : 0xC2 ≤ byte.toNat) (high : byte.toNat < 0xE0) :
    first byte = (.inside (byte.toNat - 0xC0) 0 .all, []) := by
  unfold first
  rw [if_neg (by omega), if_neg (by omega), if_pos high]

/-- After `E0` the next byte must not be too low, after `ED` not too high. -/
theorem first_three (byte : UInt8) (low : 0xE0 ≤ byte.toNat) (high : byte.toNat < 0xF0) :
    ∃ window, first byte = (.inside (byte.toNat - 0xE0) 1 window, []) ∧
      ∀ next : UInt8, 0x80 ≤ next.toNat → next.toNat ≤ 0xBF →
        (byte.toNat = 0xE0 → 0xA0 ≤ next.toNat) → (byte.toNat = 0xED → next.toNat ≤ 0x9F) →
          window.Admits next := by
  unfold first
  rw [if_neg (by omega), if_neg (by omega), if_neg (by omega)]
  by_cases isE0 : byte.toNat = 0xE0
  · rw [if_pos isE0, isE0]
    exact ⟨.afterE0, rfl, fun next _ above notLow _ => ⟨notLow rfl, above⟩⟩
  · rw [if_neg isE0]
    by_cases isED : byte.toNat = 0xED
    · rw [if_pos isED, isED]
      exact ⟨.afterED, rfl, fun next below _ _ notHigh => ⟨below, notHigh rfl⟩⟩
    · rw [if_neg isED, if_pos high]
      exact ⟨.all, rfl, fun next below above _ _ => ⟨below, above⟩⟩

theorem first_four (byte : UInt8) (low : 0xF0 ≤ byte.toNat) (high : byte.toNat ≤ 0xF4) :
    ∃ window, first byte = (.inside (byte.toNat - 0xF0) 2 window, []) ∧
      ∀ next : UInt8, 0x80 ≤ next.toNat → next.toNat ≤ 0xBF →
        (byte.toNat = 0xF0 → 0x90 ≤ next.toNat) → (byte.toNat = 0xF4 → next.toNat ≤ 0x8F) →
          window.Admits next := by
  unfold first
  rw [if_neg (by omega), if_neg (by omega), if_neg (by omega), if_neg (by omega),
    if_neg (by omega), if_neg (by omega)]
  by_cases isF0 : byte.toNat = 0xF0
  · rw [if_pos isF0, isF0]
    exact ⟨.afterF0, rfl, fun next _ above notLow _ => ⟨notLow rfl, above⟩⟩
  · rw [if_neg isF0]
    by_cases isF4 : byte.toNat = 0xF4
    · rw [if_neg (by omega), if_pos isF4, isF4]
      exact ⟨.afterF4, rfl, fun next below _ _ notHigh => ⟨below, notHigh rfl⟩⟩
    · rw [if_pos (by omega)]
      exact ⟨.all, rfl, fun next below above _ _ => ⟨below, above⟩⟩

theorem step_last {code : Nat} {window : Window} {byte : UInt8} (admitted : window.Admits byte) :
    step (.inside code 0 window) byte =
      (.start, [Char.ofNat (code * 64 + (byte.toNat - 0x80))]) := by
  simp [step, admitted]

theorem step_more {code owed : Nat} {window : Window} {byte : UInt8}
    (admitted : window.Admits byte) :
    step (.inside code (owed + 1) window) byte =
      (.inside (code * 64 + (byte.toNat - 0x80)) owed .all, []) := by
  simp [step, admitted]

/-- A continuation byte as the encoder forms it. -/
theorem continuation (bits : Nat) :
    (UInt8.ofNat (bits % 64 + 0x80)).toNat = bits % 64 + 0x80 :=
  UInt8.toNat_ofNat_of_lt' (show bits % 64 + 0x80 < 256 by omega)

theorem admits_continuation (bits : Nat) :
    Window.all.Admits (UInt8.ofNat (bits % 64 + 0x80)) := by
  simp only [Window.Admits, continuation, Window.low, Window.high]
  omega

theorem run_encodeChar (char : Char) :
    run step .start (String.utf8EncodeChar char) = (.start, [char]) := by
  have bounds := char_bounds char
  have same : Char.ofNat char.toNat = char := Char.ofNat_toNat char
  have value : char.val.toNat = char.toNat := rfl
  unfold String.utf8EncodeChar
  simp only [value]
  generalize char.toNat = code at bounds same
  -- one case for each length of the encoding
  split
  · have byte := UInt8.toNat_ofNat_of_lt' (show code < 256 by omega)
    rw [Transducer.run_singleton, step, first_ascii (by omega), byte, same]
  split
  · have byte := UInt8.toNat_ofNat_of_lt' (show code / 64 % 32 + 0xC0 < 256 by omega)
    have begun := first_two (UInt8.ofNat (code / 64 % 32 + 0xC0)) (by omega) (by omega)
    refine Transducer.run_step_silent step begun ?_
    rw [Transducer.run_singleton, step_last (admits_continuation code), continuation, byte]
    rw [show (code / 64 % 32 + 0xC0 - 0xC0) * 64 + (code % 64 + 0x80 - 0x80) = code by omega, same]
  split
  · have byte := UInt8.toNat_ofNat_of_lt' (show code / 4096 % 16 + 0xE0 < 256 by omega)
    -- the window after E0 and ED excludes what no character encodes to
    obtain ⟨window, begun, admits⟩ :=
      first_three (UInt8.ofNat (code / 4096 % 16 + 0xE0)) (by omega) (by omega)
    have middle := continuation (code / 64)
    refine Transducer.run_step_silent step begun ?_
    refine Transducer.run_step_silent step
      (step_more (admits _ (by omega) (by omega) (by omega) (by omega))) ?_
    rw [Transducer.run_singleton, step_last (admits_continuation code)]
    simp only [continuation, byte]
    rw [show ((code / 4096 % 16 + 0xE0 - 0xE0) * 64 + (code / 64 % 64 + 0x80 - 0x80)) * 64 +
      (code % 64 + 0x80 - 0x80) = code by omega, same]
  · have byte := UInt8.toNat_ofNat_of_lt' (show code / 262144 % 8 + 0xF0 < 256 by omega)
    obtain ⟨window, begun, admits⟩ :=
      first_four (UInt8.ofNat (code / 262144 % 8 + 0xF0)) (by omega) (by omega)
    have second := continuation (code / 4096)
    refine Transducer.run_step_silent step begun ?_
    refine Transducer.run_step_silent step
      (step_more (admits _ (by omega) (by omega) (by omega) (by omega))) ?_
    refine Transducer.run_step_silent step
      (step_more (admits_continuation (code / 64))) ?_
    rw [Transducer.run_singleton, step_last (admits_continuation code)]
    simp only [continuation, byte]
    rw [show (((code / 262144 % 8 + 0xF0 - 0xF0) * 64 + (code / 4096 % 64 + 0x80 - 0x80)) * 64 +
      (code / 64 % 64 + 0x80 - 0x80)) * 64 + (code % 64 + 0x80 - 0x80) = code by omega, same]

theorem decode_encode (text : List Char) : decode (encode text) = text := by
  have whole := Transducer.run_frames step .start String.utf8EncodeChar (fun char => [char]) text
    fun char _ => run_encodeChar char
  rw [decode, decodeFrom, encode, whole]
  simp [flush]

/-- A number that is no code stands for null. -/
theorem toNat_ofNat (code : Nat) :
    (Char.ofNat code).toNat = if code.isValidChar then code else 0 := by
  by_cases valid : code.isValidChar
  · rw [Char.ofNat, dif_pos valid, if_pos valid]
    rfl
  · rw [Char.ofNat, dif_neg valid, if_neg valid]
    rfl

theorem encode_cons_ascii {code : Nat} (ascii : code < 0x80) (text : List Char) :
    encode (Char.ofNat code :: text) = UInt8.ofNat code :: encode text := by
  have value : (Char.ofNat code).val.toNat = code :=
    (toNat_ofNat code).trans (if_pos (.inl (by omega)))
  rw [encode, List.flatMap_cons, String.utf8EncodeChar]
  simp only [value]
  rw [if_pos (by omega)]
  rfl

/-- An ASCII byte occurs in an encoding only as the character it is. -/
theorem ascii_of_mem_encodeChar {char : Char} {byte : UInt8}
    (member : byte ∈ String.utf8EncodeChar char) (ascii : byte.toNat < 0x80) :
    char.toNat = byte.toNat := by
  have value : char.val.toNat = char.toNat := rfl
  have small : ∀ number, number < 256 → (UInt8.ofNat number).toNat = number :=
    fun _ => UInt8.toNat_ofNat_of_lt'
  unfold String.utf8EncodeChar at member
  simp only [value] at member
  generalize char.toNat = code at member
  split at member
  · simp only [List.mem_singleton] at member
    rw [member, small _ (by omega)]
  split at member
  · simp only [List.mem_cons, List.not_mem_nil, or_false] at member
    obtain rfl | rfl := member <;> rw [small _ (by omega)] at ascii <;> omega
  split at member
  · simp only [List.mem_cons, List.not_mem_nil, or_false] at member
    obtain rfl | rfl | rfl := member <;> rw [small _ (by omega)] at ascii <;> omega
  · simp only [List.mem_cons, List.not_mem_nil, or_false] at member
    obtain rfl | rfl | rfl | rfl := member <;> rw [small _ (by omega)] at ascii <;> omega

theorem ascii_of_mem_encode {text : List Char} {byte : UInt8} (member : byte ∈ encode text)
    (ascii : byte.toNat < 0x80) : Char.ofNat byte.toNat ∈ text := by
  obtain ⟨char, present, inside⟩ := List.mem_flatMap.mp member
  rw [← ascii_of_mem_encodeChar inside ascii, Char.ofNat_toNat]
  exact present

/-! ## ASCII bytes separate -/

theorem not_admits_ascii {window : Window} {byte : UInt8} (ascii : byte.toNat < 0x80) :
    ¬ window.Admits byte := by
  intro admitted
  have low := admitted.1
  cases window <;> simp only [Window.low] at low <;> omega

theorem step_refused {code owed : Nat} {window : Window} {byte : UInt8}
    (refused : ¬ window.Admits byte) :
    step (.inside code owed window) byte = ((first byte).1, replacement :: (first byte).2) := by
  simp [step, refused]

theorem step_ascii (state : State) {byte : UInt8} (ascii : byte.toNat < 0x80) :
    step state byte = (.start, flush state ++ [Char.ofNat byte.toNat]) := by
  cases state with
  | start => exact first_ascii ascii
  | inside code owed window =>
    rw [step_refused (not_admits_ascii ascii), first_ascii ascii]
    rfl

theorem decode_split (left right : List UInt8) {byte : UInt8} (ascii : byte.toNat < 0x80) :
    decode (left ++ byte :: right) = decode left ++ Char.ofNat byte.toNat :: decode right := by
  rw [decode, decodeFrom_append, decodeFrom_cons, step_ascii _ ascii]
  simp only [decode, decodeFrom, List.append_assoc, List.singleton_append]

theorem decode_append_ascii {left : List UInt8} (ascii : ∀ byte ∈ left, byte.toNat < 0x80)
    (right : List UInt8) :
    decode (left ++ right) = left.map (fun byte => Char.ofNat byte.toNat) ++ decode right := by
  induction left with
  | nil => rfl
  | cons byte left inductionHypothesis =>
    obtain ⟨here, others⟩ := List.forall_mem_cons.mp ascii
    have split := decode_split [] (left ++ right) here
    rw [List.nil_append] at split
    rw [List.cons_append, split, inductionHypothesis others]
    rfl

/-! ## Where decoding works byte by byte -/

/-- The byte continues what has been read. -/
def State.Continued : State → UInt8 → Prop
  | .start, _ => False
  | .inside _ _ window, next => window.Admits next

instance : (state : State) → (next : UInt8) → Decidable (state.Continued next)
  | .start, _ => .isFalse id
  | .inside _ _ window, next => inferInstanceAs (Decidable (window.Admits next))

/-- The first byte begins a sequence that the second one continues. -/
def Joins (lead next : UInt8) : Prop := (first lead).1.Continued next

instance (lead next : UInt8) : Decidable (Joins lead next) :=
  inferInstanceAs (Decidable ((first lead).1.Continued next))

/-- Two neighbours somewhere in the text join. -/
def Sequenced : List UInt8 → Prop
  | lead :: next :: rest => Joins lead next ∨ Sequenced (next :: rest)
  | _ => False

instance decidableSequenced : (text : List UInt8) → Decidable (Sequenced text)
  | [] => .isFalse id
  | [_] => .isFalse id
  | lead :: next :: rest =>
    have := decidableSequenced (next :: rest)
    inferInstanceAs (Decidable (Joins lead next ∨ Sequenced (next :: rest)))

/-- What a byte on its own decodes to. -/
def byteChar (byte : UInt8) : Char :=
  if byte.toNat < 0x80 then Char.ofNat byte.toNat else replacement

/-- A byte between characters is decoded at once, or begins a sequence. -/
theorem first_cases (byte : UInt8) :
    first byte = (.start, [byteChar byte]) ∨
      ∃ code owed window, first byte = (.inside code owed window, []) ∧
        byteChar byte = replacement ∧ 0xC2 ≤ byte.toNat := by
  by_cases ascii : byte.toNat < 0x80
  · exact .inl (by rw [first_ascii ascii, byteChar, if_pos ascii])
  have replaced : byteChar byte = replacement := if_neg ascii
  by_cases low : byte.toNat < 0xC2
  · left
    rw [replaced, first, if_neg ascii, if_pos low]
  by_cases two : byte.toNat < 0xE0
  · exact .inr ⟨_, _, _, first_two _ (by omega) two, replaced, by omega⟩
  by_cases three : byte.toNat < 0xF0
  · obtain ⟨window, begun, _⟩ := first_three _ (by omega) three
    exact .inr ⟨_, _, _, begun, replaced, by omega⟩
  by_cases four : byte.toNat ≤ 0xF4
  · obtain ⟨window, begun, _⟩ := first_four _ (by omega) four
    exact .inr ⟨_, _, _, begun, replaced, by omega⟩
  · left
    rw [replaced, first, if_neg ascii, if_neg low, if_neg two, if_neg (by omega), if_neg (by omega),
      if_neg three, if_neg (by omega), if_neg (by omega), if_neg (by omega)]

/-- Inside a character something is sure to come. -/
theorem decodeFrom_inside_ne_nil (code owed : Nat) (window : Window) (bytes : List UInt8) :
    decodeFrom (.inside code owed window) bytes ≠ [] := by
  induction bytes generalizing code owed window with
  | nil => exact List.cons_ne_nil _ _
  | cons byte bytes inductionHypothesis =>
    rw [decodeFrom_cons, step]
    split
    · cases owed with
      | zero => exact List.cons_ne_nil _ _
      | succ owed => exact inductionHypothesis _ owed .all
    · exact List.cons_ne_nil _ _

theorem decode_eq_nil {bytes : List UInt8} : decode bytes = [] ↔ bytes = [] := by
  constructor
  · intro nothing
    cases bytes with
    | nil => rfl
    | cons byte bytes =>
      rw [decode, decodeFrom_cons] at nothing
      obtain ⟨now, later⟩ := List.append_eq_nil_iff.mp nothing
      change (first byte).2 = [] at now
      change decodeFrom (first byte).1 bytes = [] at later
      cases first_cases byte with
      | inl whole =>
        rw [whole] at now
        cases now
      | inr lead =>
        obtain ⟨code, owed, window, begun, _⟩ := lead
        rw [begun] at later
        exact absurd later (decodeFrom_inside_ne_nil code owed window bytes)
  · intro empty
    rw [empty]
    rfl

theorem decode_of_unsequenced_cons (byte : UInt8) (text : List UInt8)
    (plain : ¬ Sequenced (byte :: text)) :
    (first byte).2 ++ decodeFrom (first byte).1 text = byteChar byte :: text.map byteChar := by
  induction text generalizing byte with
  | nil =>
    cases first_cases byte with
    | inl whole => rw [whole]; rfl
    | inr lead =>
      obtain ⟨_, _, _, begun, replaced, _⟩ := lead
      rw [begun, replaced]; rfl
  | cons next text inductionHypothesis =>
    have apart : ¬ Joins byte next := fun joined => plain (.inl joined)
    have later := inductionHypothesis next fun sequenced => plain (.inr sequenced)
    rw [decodeFrom_cons, List.map_cons, ← later]
    cases first_cases byte with
    | inl whole => rw [whole]; rfl
    | inr lead =>
      obtain ⟨_, _, _, begun, replaced, _⟩ := lead
      rw [Joins, begun] at apart
      rw [begun, replaced, step_refused apart]; rfl

/-- On a text without neighbours that join, decoding is byte by byte. -/
theorem decode_of_unsequenced (text : List UInt8) (plain : ¬ Sequenced text) :
    decode text = text.map byteChar := by
  cases text with
  | nil => rfl
  | cons byte text =>
    rw [decode, decodeFrom_cons]
    exact decode_of_unsequenced_cons byte text plain

theorem decode_singleton (byte : UInt8) : decode [byte] = [byteChar byte] :=
  decode_of_unsequenced [byte] id

theorem decode_cons_ascii (byte : UInt8) {text : List UInt8}
    (ascii : ∀ byte ∈ text, byte.toNat < 0x80) :
    decode (byte :: text) = byteChar byte :: text.map fun byte => Char.ofNat byte.toNat := by
  cases text with
  | nil => exact decode_singleton byte
  | cons next text =>
    obtain ⟨here, others⟩ := List.forall_mem_cons.mp ascii
    have rest := decode_append_ascii others []
    rw [List.append_nil, decode_eq_nil.mpr rfl, List.append_nil] at rest
    rw [← List.singleton_append, decode_split [byte] text here, decode_singleton, rest]
    rfl

theorem not_joins_ascii (lead : UInt8) {next : UInt8} (ascii : next.toNat < 0x80) :
    ¬ Joins lead next := by
  intro joined
  unfold Joins at joined
  cases state : (first lead).1 with
  | start =>
    rw [state] at joined
    exact joined
  | inside code owed window =>
    rw [state] at joined
    exact not_admits_ascii ascii joined

theorem sequenced_of_snoc_ascii {text : List UInt8} {byte : UInt8} (ascii : byte.toNat < 0x80)
    (sequenced : Sequenced (text ++ [byte])) : Sequenced text := by
  match text, sequenced with
  | [lead], .inl joined => exact absurd joined (not_joins_ascii lead ascii)
  | _ :: next :: rest, .inl joined => exact .inl joined
  | _ :: next :: rest, .inr later => exact .inr (sequenced_of_snoc_ascii ascii later)

theorem sequenced_append_left {left : List UInt8} (right : List UInt8) (sequenced : Sequenced left) :
    Sequenced (left ++ right) := by
  match left, sequenced with
  | _ :: next :: rest, .inl joined => exact .inl joined
  | _ :: next :: rest, .inr later => exact .inr (sequenced_append_left right later)

theorem sequenced_append_right (left : List UInt8) {right : List UInt8} (sequenced : Sequenced right) :
    Sequenced (left ++ right) := by
  induction left with
  | nil => exact sequenced
  | cons byte left inductionHypothesis =>
    cases rest : left ++ right with
    | nil => rw [rest] at inductionHypothesis; cases inductionHypothesis
    | cons next rest' =>
      rw [List.cons_append, rest]
      rw [rest] at inductionHypothesis
      exact .inr inductionHypothesis

/-- So it may be cut anywhere. -/
theorem decode_pieces_of_unsequenced (pieces : List (List UInt8))
    (plain : ¬ Sequenced pieces.flatten) :
    pieces.flatMap decode = pieces.flatten.map byteChar := by
  induction pieces with
  | nil => rfl
  | cons piece pieces inductionHypothesis =>
    rw [List.flatten_cons] at plain
    rw [List.flatMap_cons, List.flatten_cons, List.map_append,
      decode_of_unsequenced piece fun sequenced => plain (sequenced_append_left _ sequenced),
      inductionHypothesis fun sequenced => plain (sequenced_append_right _ sequenced)]

theorem step_length (state : State) (byte : UInt8) :
    (step state byte).2.length + (flush (step state byte).1).length ≤ (flush state).length + 1 := by
  have fresh : (first byte).2.length + (flush (first byte).1).length = 1 := by
    cases first_cases byte with
    | inl whole => rw [whole]; rfl
    | inr lead =>
      obtain ⟨_, _, _, begun, _⟩ := lead
      rw [begun]; rfl
  cases state with
  | start => simp only [step, flush_start, List.length_nil]; omega
  | inside code owed window =>
    by_cases admitted : window.Admits byte
    · cases owed with
      | zero => rw [step_last admitted]; simp [flush]
      | succ owed => rw [step_more admitted]; simp [flush]
    · rw [step_refused admitted]
      simp only [List.length_cons, flush_inside, List.length_nil]
      omega

theorem decodeFrom_length_le (state : State) (text : List UInt8) :
    (decodeFrom state text).length ≤ (flush state).length + text.length := by
  induction text generalizing state with
  | nil => simp [decodeFrom]
  | cons byte text inductionHypothesis =>
    have one := step_length state byte
    have later := inductionHypothesis (step state byte).1
    rw [decodeFrom_cons, List.length_append, List.length_cons]
    omega

/-- A byte that begins a sequence never continues one. -/
theorem step_of_lead (state : State) {byte : UInt8} {code owed : Nat} {window : Window}
    (begun : first byte = (.inside code owed window, [])) (lead : 0xC2 ≤ byte.toNat) :
    step state byte = (.inside code owed window, flush state) := by
  cases state with
  | start => exact begun
  | inside code' owed' window' =>
    have refused : ¬ window'.Admits byte := by
      intro admitted
      have high := admitted.2
      cases window' <;> simp only [Window.high] at high <;> omega
    rw [step_refused refused, begun]
    rfl

theorem decodeFrom_length_lt (state : State) (text : List UInt8) (sequenced : Sequenced text) :
    (decodeFrom state text).length < (flush state).length + text.length := by
  match text, sequenced with
  | byte :: next :: rest, .inl joined =>
    obtain whole | ⟨code, owed, window, begun, _, lead⟩ := first_cases byte
    · rw [Joins, whole] at joined; cases joined
    rw [Joins, begun] at joined
    -- the two bytes that join yield at most one character between them
    have pair : (step (.inside code owed window) next).2.length +
        (flush (step (.inside code owed window) next).1).length ≤ 1 := by
      cases owed with
      | zero => rw [step_last joined]; simp [flush]
      | succ owed => rw [step_more joined]; simp [flush]
    have later := decodeFrom_length_le (step (.inside code owed window) next).1 rest
    rw [decodeFrom_cons, decodeFrom_cons, step_of_lead state begun lead]
    simp only [List.length_append, List.length_cons]
    omega
  | byte :: next :: rest, .inr sequencedLater =>
    have one := step_length state byte
    have later := decodeFrom_length_lt (step state byte).1 (next :: rest) sequencedLater
    rw [decodeFrom_cons, List.length_append, List.length_cons]
    omega
termination_by text.length

/-- Elsewhere decoding merges bytes. -/
theorem decode_length_lt {text : List UInt8} (sequenced : Sequenced text) :
    (decode text).length < text.length := by
  simpa [decode] using decodeFrom_length_lt .start text sequenced

end EmbeddedBridge.Library.Utf8
