import Mathlib.Data.Nat.Bitwise
import Mathlib.Tactic.Ring

/-! # LEB128

Numbers as little-endian groups of seven bits, every byte but the last with its
high bit set.  `value` reads the groups back; it inverts `encode`
(`value_encode`), and reading a group in is the same as shifting it into place
with an exclusive set of bits (`or_group`).

`decode` reads a number off the start of some bytes, by a limited number of them.
It finds an encoding whatever follows (`decode_encode`), and finds no number in fewer
bytes than its encoding has (`encode_length_le_of_decode`).
-/

namespace EmbeddedBridge.Library.Leb128

/-- The high bit says that another byte follows. -/
def Continues (byte : UInt8) : Prop := 128 ≤ byte.toNat

instance (byte : UInt8) : Decidable (Continues byte) := inferInstanceAs (Decidable (128 ≤ _))

def encode (number : Nat) : List UInt8 :=
  if number < 128 then [UInt8.ofNat number]
  else UInt8.ofNat (number % 128 + 128) :: encode (number / 128)
termination_by number
decreasing_by omega

/-- The number that a list of groups spells, whatever their high bits. -/
def value : List UInt8 → Nat
  | [] => 0
  | byte :: bytes => byte.toNat % 128 + 128 * value bytes

theorem value_append (left right : List UInt8) :
    value (left ++ right) = value left + 128 ^ left.length * value right := by
  induction left with
  | nil => simp [value]
  | cons byte left inductionHypothesis =>
    simp only [List.cons_append, value, inductionHypothesis, List.length_cons, pow_succ]
    ring

theorem value_snoc (bytes : List UInt8) (last : UInt8) :
    value (bytes ++ [last]) = value bytes + 128 ^ bytes.length * (last.toNat % 128) := by
  simp [value_append, value]

theorem value_lt (bytes : List UInt8) : value bytes < 128 ^ bytes.length := by
  induction bytes with
  | nil => simp [value]
  | cons byte bytes inductionHypothesis =>
    have group : byte.toNat % 128 < 128 := Nat.mod_lt _ (by omega)
    simp only [value, List.length_cons, pow_succ]
    omega

theorem value_encode (number : Nat) : value (encode number) = number := by
  induction number using Nat.strongRecOn with
  | ind number inductionHypothesis =>
    rw [encode]
    split
    · rename_i small
      simp only [value, UInt8.toNat_ofNat_of_lt' (show number < 256 by omega)]
      omega
    · rename_i large
      simp only [value, UInt8.toNat_ofNat_of_lt' (show number % 128 + 128 < 256 by omega),
        inductionHypothesis (number / 128) (by omega)]
      omega

/-- An encoding is some continued bytes and one that ends it. -/
theorem encode_shape (number : Nat) :
    ∃ init last, encode number = init ++ [last] ∧ (∀ byte ∈ init, Continues byte) ∧
      ¬ Continues last := by
  induction number using Nat.strongRecOn with
  | ind number inductionHypothesis =>
    rw [encode]
    split
    · rename_i small
      refine ⟨[], _, rfl, by simp, ?_⟩
      rw [Continues, UInt8.toNat_ofNat_of_lt' (show number < 256 by omega)]
      omega
    · rename_i large
      obtain ⟨init, last, shape, continued, ended⟩ := inductionHypothesis (number / 128) (by omega)
      refine ⟨UInt8.ofNat (number % 128 + 128) :: init, last, by rw [shape, List.cons_append], ?_, ended⟩
      intro byte member
      cases member with
      | head =>
        rw [Continues, UInt8.toNat_ofNat_of_lt' (show number % 128 + 128 < 256 by omega)]
        omega
      | tail _ member => exact continued byte member

theorem encode_length_le (count number : Nat) (bound : number < 128 ^ (count + 1)) :
    (encode number).length ≤ count + 1 := by
  induction count generalizing number with
  | zero =>
    rw [encode, if_pos (by omega)]
    simp
  | succ count inductionHypothesis =>
    rw [encode]
    split
    · simp
    · rw [pow_succ] at bound
      simpa using inductionHypothesis (number / 128) (by omega)

/-- Setting the bits of the next group is adding it at its place. -/
theorem or_group (number count group : Nat) (bound : number < 128 ^ count) :
    number ||| group <<< (7 * count) = number + 128 ^ count * group := by
  have powers : (2 : Nat) ^ (7 * count) = 128 ^ count := by
    rw [pow_mul]
    norm_num
  rw [Nat.or_comm, ← Nat.shiftLeft_add_eq_or_of_lt (powers ▸ bound), Nat.shiftLeft_eq, powers]
  ring

/-! ## Decoding -/

/-- The number that `bytes` begin with and how many of them it takes up, `limit` at most. -/
def decode : Nat → List UInt8 → Option (Nat × Nat)
  | 0, _ => none
  | _ + 1, [] => none
  | limit + 1, byte :: bytes =>
    if Continues byte then
      (decode limit bytes).map fun read => (byte.toNat % 128 + 128 * read.1, read.2 + 1)
    else some (byte.toNat, 1)

theorem decode_groups (limit : Nat) (init : List UInt8) (last : UInt8) (rest : List UInt8)
    (continued : ∀ byte ∈ init, Continues byte) (ended : ¬ Continues last)
    (fits : init.length < limit) :
    decode limit (init ++ last :: rest) = some (value (init ++ [last]), init.length + 1) := by
  induction init generalizing limit with
  | nil =>
    obtain ⟨limit, rfl⟩ : ∃ fewer, limit = fewer + 1 := ⟨limit - 1, by simp at fits; omega⟩
    have small : last.toNat < 128 := Nat.not_le.mp ended
    simp [decode, if_neg ended, value, Nat.mod_eq_of_lt small]
  | cons byte init inductionHypothesis =>
    obtain ⟨limit, rfl⟩ : ∃ fewer, limit = fewer + 1 := ⟨limit - 1, by omega⟩
    rw [List.forall_mem_cons] at continued
    have later := inductionHypothesis limit continued.2 (by simpa using fits)
    simp only [List.cons_append, decode, if_pos continued.1, later, Option.map_some, value,
      List.length_cons]

theorem decode_continued (limit : Nat) (bytes : List UInt8)
    (continued : ∀ byte ∈ bytes.take limit, Continues byte) : decode limit bytes = none := by
  induction limit generalizing bytes with
  | zero => rfl
  | succ limit inductionHypothesis =>
    cases bytes with
    | nil => rfl
    | cons byte bytes =>
      rw [List.take_succ_cons, List.forall_mem_cons] at continued
      rw [decode, if_pos continued.1, inductionHypothesis bytes continued.2]
      rfl

/-- Within the limit either all bytes continue or there is a first that does not. -/
theorem continued_or_groups (limit : Nat) (bytes : List UInt8) :
    (∀ byte ∈ bytes.take limit, Continues byte) ∨
      ∃ init last rest, bytes = init ++ last :: rest ∧ (∀ byte ∈ init, Continues byte) ∧
        ¬ Continues last ∧ init.length < limit := by
  induction limit generalizing bytes with
  | zero => simp
  | succ limit inductionHypothesis =>
    cases bytes with
    | nil => simp
    | cons byte bytes =>
      by_cases continues : Continues byte
      · obtain continued | ⟨init, last, rest, split, continued, ended, fits⟩ :=
          inductionHypothesis bytes
        · left
          rw [List.take_succ_cons, List.forall_mem_cons]
          exact ⟨continues, continued⟩
        · right
          refine ⟨byte :: init, last, rest, by rw [split, List.cons_append], ?_, ended, ?_⟩
          · rw [List.forall_mem_cons]
            exact ⟨continues, continued⟩
          · simpa using fits
      · right
        exact ⟨[], byte, bytes, rfl, by simp, continues, Nat.succ_pos limit⟩

theorem decode_encode (limit number : Nat) (rest : List UInt8)
    (fits : (encode number).length ≤ limit) :
    decode limit (encode number ++ rest) = some (number, (encode number).length) := by
  obtain ⟨init, last, shape, continued, ended⟩ := encode_shape number
  have spelt := value_encode number
  rw [shape] at fits spelt ⊢
  rw [List.length_append, List.length_singleton] at fits ⊢
  rw [List.append_assoc, List.singleton_append,
    decode_groups limit init last rest continued ended fits, spelt]

theorem lt_of_decode {limit number count : Nat} {bytes : List UInt8}
    (read : decode limit bytes = some (number, count)) : 0 < count ∧ number < 128 ^ count := by
  obtain continued | ⟨init, last, rest, split, continued, ended, fits⟩ :=
    continued_or_groups limit bytes
  · rw [decode_continued limit bytes continued] at read
    cases read
  · rw [split, decode_groups limit init last rest continued ended fits] at read
    cases read
    have bound := value_lt (init ++ [last])
    rw [List.length_append, List.length_singleton] at bound
    exact ⟨Nat.succ_pos _, bound⟩

/-- There is no shorter way to write a number. -/
theorem encode_length_le_of_decode {limit number count : Nat} {bytes : List UInt8}
    (read : decode limit bytes = some (number, count)) : (encode number).length ≤ count := by
  obtain ⟨some, bound⟩ := lt_of_decode read
  obtain ⟨fewer, rfl⟩ : ∃ fewer, count = fewer + 1 := ⟨count - 1, by omega⟩
  exact encode_length_le fewer number bound

/-! ### With an accumulator

A loop that has read `count` groups of `number` goes on with `decodeFrom`.
-/

def decodeFrom (limit number count : Nat) (bytes : List UInt8) : Option (Nat × Nat) :=
  (decode (limit - count) bytes).map fun read => (number + 128 ^ count * read.1, count + read.2)

theorem decodeFrom_start (limit : Nat) (bytes : List UInt8) :
    decodeFrom limit 0 0 bytes = decode limit bytes := by
  simp [decodeFrom]

theorem decodeFrom_nil (limit number count : Nat) : decodeFrom limit number count [] = none := by
  rw [decodeFrom, decode_continued _ [] (by simp)]
  rfl

theorem decodeFrom_full {limit count : Nat} (number : Nat) (bytes : List UInt8)
    (full : limit ≤ count) : decodeFrom limit number count bytes = none := by
  rw [decodeFrom, Nat.sub_eq_zero_of_le full]
  rfl

section Next

variable {limit count : Nat} {byte : UInt8} (number : Nat) (bytes : List UInt8)

theorem decodeFrom_ended (short : count < limit) (ended : ¬ Continues byte) :
    decodeFrom limit number count (byte :: bytes) =
      some (number + 128 ^ count * (byte.toNat % 128), count + 1) := by
  have left : limit - count = (limit - (count + 1)) + 1 := by omega
  have small : byte.toNat < 128 := Nat.not_le.mp ended
  rw [decodeFrom, left, decode, if_neg ended, Nat.mod_eq_of_lt small]
  rfl

theorem decodeFrom_continued (short : count < limit) (continued : Continues byte) :
    decodeFrom limit number count (byte :: bytes) =
      decodeFrom limit (number + 128 ^ count * (byte.toNat % 128)) (count + 1) bytes := by
  have left : limit - count = (limit - (count + 1)) + 1 := by omega
  rw [decodeFrom, decodeFrom, left, decode, if_pos continued, Option.map_map]
  congr 1
  funext read
  refine Prod.ext ?_ ?_
  · simp only [Function.comp_apply, pow_succ]
    ring
  · simp only [Function.comp_apply]
    omega

end Next

theorem group_lt {number count group : Nat} (bound : number < 128 ^ count) (small : group < 128) :
    number + 128 ^ count * group < 128 ^ (count + 1) := by
  calc number + 128 ^ count * group < 128 ^ count + 128 ^ count * group := by omega
    _ = 128 ^ count * (group + 1) := by ring
    _ ≤ 128 ^ count * 128 := Nat.mul_le_mul_left _ small
    _ = 128 ^ (count + 1) := (pow_succ 128 count).symm

end EmbeddedBridge.Library.Leb128
