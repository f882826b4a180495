import Mathlib.Algebra.BigOperators.Group.List.Basic
import Mathlib.Algebra.GroupWithZero.Nat

/-! # Consistent overhead byte stuffing

The encoding as a sequence of blocks: a code byte, one more than the number of
non-zero bytes after it.  A block ends where the data has a zero, which the code
byte stands for, or when it holds 254 bytes; the last block ends with the data.
So there is one code byte for the data as a whole, and one more for each full
block of 254 bytes without a zero (`encode_length`).

Decoding reads a block after the other and puts a zero between two of them where
the first is not full; `decode_encode` says that nothing is lost.
-/

namespace EmbeddedBridge.Library.Cobs

/-- The bytes of a block after its code byte. -/
abbrev fullBlock : Nat := 254

def block (run : List UInt8) : List UInt8 := UInt8.ofNat (run.length + 1) :: run

/-- Encode `data` with the block of `run` already begun. -/
def encodeFrom (run : List UInt8) : List UInt8 → List UInt8
  | [] => block run
  | byte :: rest =>
    if byte = 0 then block run ++ encodeFrom [] rest
    else if run.length + 1 = fullBlock then block (run ++ [byte]) ++ encodeFrom [] rest
    else encodeFrom (run ++ [byte]) rest

def encode (data : List UInt8) : List UInt8 := encodeFrom [] data

/-- A zero code, and a block that is longer than what is left, are malformed. -/
def decode : List UInt8 → Option (List UInt8)
  | [] => some []
  | code :: rest =>
    if code = 0 then none
    else if rest.length < code.toNat - 1 then none
    else
      let later := rest.drop (code.toNat - 1)
      let zero := if code.toNat < 0xFF ∧ later ≠ [] then [0] else []
      (decode later).map (rest.take (code.toNat - 1) ++ zero ++ ·)
termination_by encoded => encoded.length
decreasing_by simp only [List.length_drop, List.length_cons]; omega

/-- How many blocks of 254 bytes the stretches of `data` between zeros fill. -/
def fullBlocks (data : List UInt8) : Nat :=
  ((data.splitOn 0).map fun stretch => stretch.length / fullBlock).sum

theorem block_code {run : List UInt8} (short : run.length ≤ fullBlock) :
    (UInt8.ofNat (run.length + 1)).toNat = run.length + 1 := by
  rw [UInt8.toNat_ofNat']
  simp only [fullBlock] at short
  omega

theorem encodeFrom_length_ge (run data : List UInt8) :
    run.length + 1 ≤ (encodeFrom run data).length := by
  induction data generalizing run with
  | nil => simp [encodeFrom, block]
  | cons byte data inductionHypothesis =>
    have longer := inductionHypothesis (run ++ [byte])
    rw [encodeFrom]
    rw [List.length_append, List.length_singleton] at longer
    split
    · simp only [List.length_append, block, List.length_cons]
      omega
    split
    · simp only [List.length_append, block, List.length_cons]
      omega
    · omega

theorem encodeFrom_ne_nil (run data : List UInt8) : encodeFrom run data ≠ [] :=
  List.ne_nil_of_length_pos (Nat.lt_of_lt_of_le (Nat.succ_pos _) (encodeFrom_length_ge run data))

theorem zero_not_mem_block {run : List UInt8} (short : run.length ≤ fullBlock) (plain : 0 ∉ run) :
    0 ∉ block run := by
  have code := block_code short
  simp only [block, List.mem_cons, not_or]
  refine ⟨?_, plain⟩
  intro zero
  rw [← zero] at code
  simp at code

theorem zero_not_mem_encodeFrom (run data : List UInt8) (short : run.length < fullBlock)
    (plain : 0 ∉ run) : 0 ∉ encodeFrom run data := by
  induction data generalizing run with
  | nil => exact zero_not_mem_block (by omega) plain
  | cons byte data inductionHypothesis =>
    have fresh := inductionHypothesis [] (by simp [fullBlock]) (by simp)
    rw [encodeFrom]
    split
    · rw [List.mem_append]
      exact not_or.mpr ⟨zero_not_mem_block (by omega) plain, fresh⟩
    rename_i nonzero
    have longer : 0 ∉ run ++ [byte] := by
      simp only [List.mem_append, List.mem_singleton, not_or]
      exact ⟨plain, fun same => nonzero same.symm⟩
    split
    · rename_i filled
      rw [List.mem_append]
      exact not_or.mpr ⟨zero_not_mem_block (by simp [filled]) longer, fresh⟩
    · exact inductionHypothesis _ (by simp only [List.length_append, List.length_singleton]; omega)
        longer

theorem zero_not_mem_encode (data : List UInt8) : 0 ∉ encode data :=
  zero_not_mem_encodeFrom [] data (by simp [fullBlock]) (by simp)

/-- The stretches of the data, the first of them continuing `run`. -/
theorem encodeFrom_length (run data : List UInt8) (short : run.length < fullBlock) :
    ∃ stretch stretches, data.splitOn 0 = stretch :: stretches ∧
      (encodeFrom run data).length = run.length + data.length + 1 +
        (run.length + stretch.length) / fullBlock +
        (stretches.map fun stretch => stretch.length / fullBlock).sum := by
  induction data generalizing run with
  | nil =>
    refine ⟨[], [], rfl, ?_⟩
    have none : run.length / 254 = 0 := Nat.div_eq_of_lt short
    simp [encodeFrom, block, none, fullBlock]
  | cons byte data inductionHypothesis =>
    obtain ⟨stretch, stretches, split, fresh⟩ := inductionHypothesis [] (by simp [fullBlock])
    rw [List.splitOn_cons_eq_if_modifyHead, split, encodeFrom]
    -- a zero ends the stretch, and the block begun is too short to count
    by_cases zero : byte = 0
    · refine ⟨[], stretch :: stretches, by simp [zero], ?_⟩
      have none : run.length / 254 = 0 := Nat.div_eq_of_lt short
      simp only [zero, if_true, List.length_append, fresh, block, List.length_cons,
        List.length_nil, List.map_cons, List.sum_cons, fullBlock]
      omega
    refine ⟨byte :: stretch, stretches, by simp [zero], ?_⟩
    rw [if_neg zero]
    -- the block is counted when it fills, and the stretch goes on without it
    split
    · rename_i filled
      simp only [List.length_append, fresh, block, List.length_cons, List.length_nil]
      simp only [fullBlock] at filled ⊢
      omega
    · obtain ⟨stretch', stretches', split', longer⟩ := inductionHypothesis (run ++ [byte])
        (by simp only [List.length_append, List.length_singleton]; omega)
      rw [split] at split'
      cases split'
      simp only [longer, List.length_append, List.length_cons, List.length_nil, fullBlock]
      omega

theorem encode_length (data : List UInt8) :
    (encode data).length = data.length + 1 + fullBlocks data := by
  obtain ⟨stretch, stretches, split, length⟩ := encodeFrom_length [] data (by simp [fullBlock])
  rw [encode, length, fullBlocks, split]
  simp only [List.length_nil, Nat.zero_add, List.map_cons, List.sum_cons]
  omega

theorem encodeFrom_length_le (run data : List UInt8) (short : run.length < fullBlock) :
    (encodeFrom run data).length ≤
      run.length + data.length + 1 + (run.length + data.length) / fullBlock := by
  induction data generalizing run with
  | nil => simp [encodeFrom, block]
  | cons byte data inductionHypothesis =>
    have fresh := inductionHypothesis [] (by simp [fullBlock])
    simp only [List.length_nil, Nat.zero_add] at fresh
    simp only [fullBlock] at short fresh
    rw [encodeFrom]
    split
    · simp only [List.length_append, block, List.length_cons, fullBlock]
      omega
    split
    · rename_i filled
      simp only [fullBlock] at filled
      simp only [List.length_append, block, List.length_cons, List.length_nil, fullBlock]
      omega
    · rename_i unfilled
      simp only [fullBlock] at unfilled
      have longer := inductionHypothesis (run ++ [byte])
        (by simp only [List.length_append, List.length_singleton, fullBlock]; omega)
      simp only [List.length_append, List.length_cons, List.length_nil, fullBlock] at longer ⊢
      omega

theorem encode_length_le (data : List UInt8) :
    (encode data).length ≤ data.length + 1 + data.length / fullBlock := by
  have bound := encodeFrom_length_le [] data (by simp [fullBlock])
  simpa [encode] using bound

/-! ## Round trip -/

theorem decode_block {run : List UInt8} (short : run.length ≤ fullBlock) (later : List UInt8) :
    decode (block run ++ later) =
      (decode later).map
        (run ++ (if run.length < fullBlock ∧ later ≠ [] then [0] else []) ++ ·) := by
  have code := block_code short
  have nonzero : UInt8.ofNat (run.length + 1) ≠ 0 := by
    intro zero
    rw [zero] at code
    simp at code
  rw [block, List.cons_append, decode, if_neg nonzero, code, Nat.add_sub_cancel,
    if_neg (by simp), List.take_left, List.drop_left]
  have fullCode : run.length + 1 < 0xFF ↔ run.length < fullBlock := by
    simp only [fullBlock]
    omega
  simp only [fullCode]

theorem decode_encodeFrom (run data : List UInt8) (short : run.length < fullBlock) :
    decode (encodeFrom run data) = some (run ++ data) := by
  induction data generalizing run with
  | nil =>
    have whole := decode_block (Nat.le_of_lt short) []
    rw [List.append_nil] at whole
    rw [encodeFrom, whole, decode]
    simp
  | cons byte data inductionHypothesis =>
    have fresh := inductionHypothesis [] (by simp [fullBlock])
    have more := encodeFrom_ne_nil [] data
    rw [encodeFrom]
    -- the zero comes back from the code byte of a block that is not full
    split
    · rename_i zero
      rw [decode_block (Nat.le_of_lt short), fresh, if_pos ⟨short, more⟩, zero]
      simp
    split
    · rename_i filled
      have full : (run ++ [byte]).length = fullBlock := by
        rw [List.length_append, List.length_singleton]
        exact filled
      rw [decode_block (Nat.le_of_eq full), fresh, if_neg (by rw [full]; simp)]
      simp
    · rename_i unfilled
      rw [inductionHypothesis (run ++ [byte])
        (by rw [List.length_append, List.length_singleton]; omega)]
      simp

theorem decode_encode (data : List UInt8) : decode (encode data) = some data :=
  decode_encodeFrom [] data (by simp [fullBlock])

/-- Every block's code byte is more than the zero it may stand for, and the last
block stands for none. -/
theorem decode_length_le (encoded : List UInt8) {data : List UInt8}
    (decoded : decode encoded = some data) : data.length ≤ encoded.length - 1 := by
  induction size : encoded.length using Nat.strongRecOn generalizing encoded data with
  | _ size inductionHypothesis =>
    cases encoded with
    | nil =>
      rw [decode] at decoded
      cases decoded
      exact Nat.zero_le _
    | cons code rest =>
      rw [List.length_cons] at size
      rw [decode] at decoded
      simp only at decoded
      split at decoded
      · cases decoded
      split at decoded
      · cases decoded
      rename_i there
      obtain ⟨tail, decodedLater, whole⟩ := Option.map_eq_some_iff.mp decoded
      have sizes : (rest.drop (code.toNat - 1)).length = rest.length - (code.toNat - 1) :=
        List.length_drop
      have bound := inductionHypothesis _ (by omega) _ decodedLater rfl
      rw [← whole, List.length_append, List.length_append, List.length_take]
      split
      · rename_i zero
        have goesOn := List.length_pos_of_ne_nil zero.2
        rw [List.length_singleton]
        omega
      · rw [List.length_nil]
        omega

end EmbeddedBridge.Library.Cobs
