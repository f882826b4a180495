import EmbeddedBridge.Library.Leb128

/-! # Headers

The bytes that mark off messages, and the length in a binary header,
`encode_varint` and `decode_varint` of `message.h` and `message.py`.  The device
shifts a `uint32_t`, the host an unbounded integer that must not be negative; both
write the LEB128 groups of the number, and both read at most five of them.  What does
not fit into its word the device drops.
-/

namespace EmbeddedBridge

open Library

/-- The exceptions the host code raises. -/
inductive Python.Error where
  | valueError (message : String)
  | runtimeError (message : String)
deriving DecidableEq, Repr

def soh : UInt8 := 0x01
def binaryProtocolV1 : UInt8 := 0x01
def newline : UInt8 := 0x0A

def varintMaxBytes : Nat := 5

def Cpp.encodeVarint (value : UInt32) : List UInt8 :=
  if 0x7F < value then ((value &&& 0x7F) ||| 0x80).toUInt8 :: encodeVarint (value >>> 7)
  else [(value &&& 0x7F).toUInt8]
termination_by value.toNat
decreasing_by
  rename_i large
  rw [UInt32.lt_iff_toNat_lt] at large
  rw [UInt32.toNat_shiftRight, Nat.shiftRight_eq_div_pow]
  exact Nat.div_lt_self (Nat.lt_of_le_of_lt (Nat.zero_le _) large) (by decide)

def Python.encodeVarintLoop (value : Nat) : List UInt8 :=
  if value > 0x7F then UInt8.ofNat ((value &&& 0x7F) ||| 0x80) :: encodeVarintLoop (value >>> 7)
  else [UInt8.ofNat (value &&& 0x7F)]
termination_by value
decreasing_by
  rw [Nat.shiftRight_eq_div_pow]
  exact Nat.div_lt_self (by omega) (by decide)

def Python.encodeVarint (value : Int) : Except Python.Error (List UInt8) :=
  if value < 0 then .error (.valueError "varint must be non-negative")
  else .ok (Python.encodeVarintLoop value.toNat)

/-- `i` is how many bytes the loop has read. -/
def Cpp.decodeVarintLoop (value : UInt32) (shift i : Nat) : List UInt8 → Option (UInt32 × Nat)
  | [] => none
  | byte :: data =>
    if i < varintMaxBytes then
      let value := value ||| ((byte &&& 0x7F).toUInt32 <<< UInt32.ofNat shift)
      if byte &&& 0x80 = 0 then some (value, i + 1)
      else decodeVarintLoop value (shift + 7) (i + 1) data
    else none

/-- `out_value` and `out_consumed`, where they are set. -/
def Cpp.decodeVarint (data : List UInt8) : Option (UInt32 × Nat) := Cpp.decodeVarintLoop 0 0 0 data

def Python.decodeVarintLoop (value shift i : Nat) :
    List UInt8 → Except Python.Error (Nat × Nat)
  | [] => .error (.valueError "truncated varint")
  | b :: data =>
    if i ≥ varintMaxBytes then .error (.valueError "varint too long")
    else
      let value := value ||| ((b &&& 0x7F).toNat <<< shift)
      if b &&& 0x80 = 0 then .ok (value, i + 1)
      else decodeVarintLoop value (shift + 7) (i + 1) data

def Python.decodeVarint (data : List UInt8) : Except Python.Error (Nat × Nat) :=
  Python.decodeVarintLoop 0 0 0 data

/-! ## Both write LEB128 -/

theorem group_low (number : Nat) : number &&& 0x7F = number % 128 := by
  rw [show (0x7F : Nat) = 2 ^ 7 - 1 from rfl, Nat.and_two_pow_sub_one_eq_mod]

theorem group_continued (number : Nat) : (number &&& 0x7F) ||| 0x80 = number % 128 + 128 := by
  rw [group_low]
  exact Leb128.or_group (number % 128) 1 1 (Nat.mod_lt _ (by decide))

theorem python_encodeVarintLoop (value : Nat) :
    Python.encodeVarintLoop value = Leb128.encode value := by
  induction value using Nat.strongRecOn with
  | ind value inductionHypothesis =>
    rw [Python.encodeVarintLoop, Leb128.encode]
    -- the source's loop ends at the last group of seven bits
    by_cases small : value < 128
    · rw [if_neg (by omega), if_pos small, group_low, Nat.mod_eq_of_lt small]
    · rw [if_pos (by omega), if_neg small, group_continued, Nat.shiftRight_eq_div_pow,
        inductionHypothesis _ (by omega)]

theorem python_encodeVarint (number : Nat) :
    Python.encodeVarint number = .ok (Leb128.encode number) := by
  rw [Python.encodeVarint, if_neg (by omega), Int.toNat_natCast, python_encodeVarintLoop]

theorem cpp_group_low (value : UInt32) :
    (value &&& 0x7F).toUInt8 = UInt8.ofNat (value.toNat % 128) := by
  apply UInt8.toNat_inj.mp
  rw [UInt32.toNat_toUInt8, UInt32.toNat_and, UInt8.toNat_ofNat']
  exact congrArg (· % 2 ^ 8) (group_low value.toNat)

theorem cpp_group_continued (value : UInt32) :
    ((value &&& 0x7F) ||| 0x80).toUInt8 = UInt8.ofNat (value.toNat % 128 + 128) := by
  apply UInt8.toNat_inj.mp
  rw [UInt32.toNat_toUInt8, UInt32.toNat_or, UInt32.toNat_and, UInt8.toNat_ofNat']
  exact congrArg (· % 2 ^ 8) (group_continued value.toNat)

theorem cpp_encodeVarint (value : UInt32) : Cpp.encodeVarint value = Leb128.encode value.toNat := by
  induction same : value.toNat using Nat.strongRecOn generalizing value with
  | ind number inductionHypothesis =>
    have large : 0x7F < value ↔ 0x7F < number := by
      rw [← same, UInt32.lt_iff_toNat_lt]
      rfl
    have rest : (value >>> 7).toNat = number / 128 := by
      rw [UInt32.toNat_shiftRight, same, Nat.shiftRight_eq_div_pow]
      rfl
    rw [Cpp.encodeVarint, Leb128.encode]
    by_cases small : number < 128
    · rw [if_neg (by rw [large]; omega), if_pos small, cpp_group_low, same, Nat.mod_eq_of_lt small]
    · rw [if_pos (by rw [large]; omega), if_neg small, cpp_group_continued, same,
        inductionHypothesis _ (by omega) _ rest]

/-! ## Both read LEB128 -/

theorem group_toNat (c : UInt8) : (c &&& 0x7F).toNat = c.toNat % 128 := by
  rw [UInt8.toNat_and]
  exact group_low c.toNat

theorem continues_iff (c : UInt8) : c &&& 0x80 = 0 ↔ ¬ Leb128.Continues c := by
  have bits : ∀ number < 256, number &&& 0x80 = 0 ↔ ¬ 128 ≤ number := by decide +kernel
  rw [← UInt8.toNat_inj, UInt8.toNat_and]
  exact bits c.toNat c.toNat_lt

theorem announces_iff (c : UInt8) : ¬ c &&& 0x80 = 0 ↔ Leb128.Continues c :=
  (continues_iff c).not.trans not_not

theorem cpp_group (number i : Nat) (c : UInt8) (bound : number < 128 ^ i)
    (short : i < varintMaxBytes) :
    UInt32.ofNat number ||| ((c &&& 0x7F).toUInt32 <<< UInt32.ofNat (7 * i)) =
      UInt32.ofNat (number + 128 ^ i * (c.toNat % 128)) := by
  have inWord : 7 * i < 32 := by
    simp only [varintMaxBytes] at short
    omega
  have widened : (c &&& 0x7F).toUInt32 = UInt32.ofNat (c.toNat % 128) := by
    rw [← group_toNat]
    exact (UInt32.ofNat_uInt8ToNat _).symm
  rw [widened, ← UInt32.ofNat_shiftLeft _ _ inWord, ← UInt32.ofNat_or, Leb128.or_group _ _ _ bound]

theorem cpp_decodeVarintLoop (number i : Nat) (bound : number < 128 ^ i) (data : List UInt8) :
    Cpp.decodeVarintLoop (UInt32.ofNat number) (7 * i) i data =
      (Leb128.decodeFrom varintMaxBytes number i data).map fun read =>
        (UInt32.ofNat read.1, read.2) := by
  induction data generalizing number i with
  | nil => rw [Leb128.decodeFrom_nil, Cpp.decodeVarintLoop, Option.map_none]
  | cons c data inductionHypothesis =>
    rw [Cpp.decodeVarintLoop]
    by_cases short : i < varintMaxBytes
    · rw [if_pos short, cpp_group number i c bound short]
      by_cases ended : c &&& 0x80 = 0
      · rw [if_pos ended,
          Leb128.decodeFrom_ended number data short ((continues_iff c).mp ended), Option.map_some]
      · have continued := (announces_iff c).mp ended
        rw [if_neg ended, Leb128.decodeFrom_continued number data short continued]
        exact inductionHypothesis _ (i + 1) (Leb128.group_lt bound (Nat.mod_lt _ (by decide)))
    · rw [if_neg short, Leb128.decodeFrom_full number _ (Nat.not_lt.mp short), Option.map_none]

theorem cpp_decodeVarint (data : List UInt8) :
    Cpp.decodeVarint data =
      (Leb128.decode varintMaxBytes data).map fun read => (UInt32.ofNat read.1, read.2) := by
  rw [← Leb128.decodeFrom_start]
  exact cpp_decodeVarintLoop 0 0 (by decide) data

-- the fifth group lies beyond the word
example : Cpp.decodeVarint [0x81, 0x80, 0x80, 0x80, 0x10, 0x07] = some (1, 5) := by decide

/-- What the host makes of `length` bytes: a sixth byte tells a number that is too long
from one that is cut off. -/
def Python.varintResult (length : Nat) : Option (Nat × Nat) → Except Python.Error (Nat × Nat)
  | some read => .ok read
  | none =>
    .error (.valueError
      (if varintMaxBytes < length then "varint too long" else "truncated varint"))

theorem python_decodeVarintLoop (number i : Nat) (bound : number < 128 ^ i)
    (few : i ≤ varintMaxBytes) (data : List UInt8) :
    Python.decodeVarintLoop number (7 * i) i data =
      Python.varintResult (i + data.length) (Leb128.decodeFrom varintMaxBytes number i data) := by
  induction data generalizing number i with
  | nil =>
    rw [Leb128.decodeFrom_nil, Python.decodeVarintLoop, Python.varintResult,
      if_neg (by simpa using few)]
  | cons c data inductionHypothesis =>
    rw [Python.decodeVarintLoop]
    by_cases short : i < varintMaxBytes
    · rw [if_neg (Nat.not_le.mpr short), group_toNat, Leb128.or_group _ _ _ bound]
      by_cases ended : c &&& 0x80 = 0
      · rw [if_pos ended,
          Leb128.decodeFrom_ended number data short ((continues_iff c).mp ended)]
        rfl
      · have continued := (announces_iff c).mp ended
        have same : i + (c :: data).length = i + 1 + data.length := by
          rw [List.length_cons]
          omega
        rw [if_neg ended, same, Leb128.decodeFrom_continued number data short continued]
        exact inductionHypothesis _ (i + 1) (Leb128.group_lt bound (Nat.mod_lt _ (by decide))) short
    · rw [if_pos (Nat.not_lt.mp short), Leb128.decodeFrom_full number _ (Nat.not_lt.mp short),
        Python.varintResult, if_pos (by rw [List.length_cons]; omega)]

theorem python_decodeVarint (data : List UInt8) :
    Python.decodeVarint data =
      Python.varintResult data.length (Leb128.decode varintMaxBytes data) := by
  have looped := python_decodeVarintLoop 0 0 (by decide) (Nat.zero_le _) data
  rw [Leb128.decodeFrom_start, Nat.zero_add] at looped
  exact looped

end EmbeddedBridge
