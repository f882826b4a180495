import EmbeddedBridge.Framing.Cobs

/-! # The COBS decoder on arrays

`CobsFramer::_cobs_decode` once more, closer to the machine than `cobsDecode`: the
indices and the two arrays are explicit, every access is checked, the loop runs on
fuel, and each way to end has a name.  `cobsDecodeArrays_spec` says that on a
source of at most one byte more than the destination only the ends remain that
malformed data has.
-/

namespace EmbeddedBridge

open Library

namespace Cpp

/-- How decoding fails.  The first three are the `return false` of the source; the
others are what must not happen. -/
inductive CobsFault where
  | unexpectedZero
  | truncated
  | overflow
  | outOfBounds
  | outOfFuel
deriving DecidableEq, Repr

structure CobsCursor where
  dst : List UInt8
  outLen : Nat := 0
  i : Nat := 0
deriving DecidableEq, Repr

/-- A read from an array. -/
def fetch (src : List UInt8) (i : Nat) : Except CobsFault UInt8 :=
  if inside : i < src.length then .ok src[i] else .error .outOfBounds

def store (dst : List UInt8) (pos : Nat) (c : UInt8) : Except CobsFault (List UInt8) :=
  match put dst pos c with
  | some dst => .ok dst
  | none => .error .outOfBounds

/-- `dst[out_len++] = c`, after the check of the capacity; `c` is read after it too. -/
def cobsEmit (dstCap : Nat) (cursor : CobsCursor) (read : Except CobsFault UInt8) :
    Except CobsFault CobsCursor :=
  if cursor.outLen ≥ dstCap then .error .overflow
  else do
    let c ← read
    let dst ← store cursor.dst cursor.outLen c
    return { cursor with dst, outLen := cursor.outLen + 1 }

/-- The inner loop, over the bytes of a block. -/
def cobsCopy (dstCap : Nat) (src : List UInt8) : Nat → CobsCursor → Except CobsFault CobsCursor
  | 0, cursor => .ok cursor
  | count + 1, cursor => do
    let cursor ← cobsEmit dstCap { cursor with i := cursor.i + 1 } (fetch src cursor.i)
    cobsCopy dstCap src count cursor

/-- One turn of the outer loop: a code byte and the block after it. -/
def cobsBlock (dstCap : Nat) (src : List UInt8) (cursor : CobsCursor) :
    Except CobsFault CobsCursor := do
  let code ← fetch src cursor.i
  let cursor := { cursor with i := cursor.i + 1 }
  if code = 0 then .error .unexpectedZero
  else
    -- one less than a code byte that is not zero: no wrap
    let count := code - 1
    if cursor.i + count.toNat > src.length then .error .truncated
    else do
      let cursor ← cobsCopy dstCap src count.toNat cursor
      if code < 0xFF ∧ cursor.i < src.length then cobsEmit dstCap cursor (.ok 0x00) else .ok cursor

/-- The outer loop. -/
def cobsDecodeArrays (dstCap : Nat) (src : List UInt8) :
    Nat → CobsCursor → Except CobsFault CobsCursor
  | 0, cursor => if cursor.i < src.length then .error .outOfFuel else .ok cursor
  | fuel + 1, cursor =>
    if cursor.i < src.length then do
      let cursor ← cobsBlock dstCap src cursor
      cobsDecodeArrays dstCap src fuel cursor
    else .ok cursor

end Cpp

/-! ## In bounds -/

namespace Cpp

/-- `out` is decoded already, `spare` is the rest of the array. -/
def CobsCursor.within (out spare : List UInt8) (i : Nat) : CobsCursor where
  dst := out ++ spare
  outLen := out.length
  i := i

theorem fetch_inside {src : List UInt8} {i : Nat} (inside : i < src.length) :
    fetch src i = .ok src[i] := dif_pos inside

theorem cobsEmit_within {dstCap : Nat} {out spare : List UInt8} (i : Nat) (old c : UInt8)
    (capacity : (out ++ old :: spare).length = dstCap) :
    cobsEmit dstCap (.within out (old :: spare) i) (.ok c) =
      .ok (.within (out ++ [c]) spare i) := by
  have room : ¬ out.length ≥ dstCap := by
    rw [← capacity, List.length_append, List.length_cons]
    omega
  have stored : store (out ++ old :: spare) out.length c = .ok (out ++ c :: spare) := by
    rw [store, put_at]
  rw [cobsEmit, CobsCursor.within, if_neg room]
  simp [CobsCursor.within, bind, Except.bind, stored, pure, Except.pure]

/-- A block that is there and has room is copied. -/
theorem cobsCopy_within {dstCap : Nat} (src : List UInt8) (count : Nat) (out spare : List UInt8)
    (i : Nat) (capacity : (out ++ spare).length = dstCap) (there : i + count ≤ src.length)
    (room : count ≤ spare.length) :
    cobsCopy dstCap src count (.within out spare i) =
      .ok (.within (out ++ (src.drop i).take count) (spare.drop count) (i + count)) := by
  induction count generalizing out spare i with
  | zero => simp [cobsCopy]
  | succ count inductionHypothesis =>
    cases spare with
    | nil => simp at room
    | cons old spare =>
      have inside : i < src.length := by omega
      have emitted := cobsEmit_within (i + 1) old src[i] capacity
      have later := inductionHypothesis (out ++ [src[i]]) spare (i + 1) (by simpa using capacity)
        (by omega) (by simpa using room)
      have copied : (src.drop i).take (count + 1) = src[i] :: (src.drop (i + 1)).take count := by
        rw [List.drop_eq_getElem_cons inside, List.take_succ_cons]
      calc cobsCopy dstCap src (count + 1) (.within out (old :: spare) i)
          = (cobsEmit dstCap (.within out (old :: spare) (i + 1)) (fetch src i)).bind
              (cobsCopy dstCap src count) := rfl
        _ = cobsCopy dstCap src count (.within (out ++ [src[i]]) spare (i + 1)) := by
          rw [fetch_inside inside, emitted]
          rfl
        _ = _ := by
          rw [later, copied, Nat.add_right_comm, List.append_assoc]
          rfl

/-- The ends that well-formed and malformed data come to: `out` and then `rest`
is decoded, or the source has a zero or is too short. -/
def CobsEnds (out : List UInt8) (finish : Nat) :
    Option (List UInt8) → Except CobsFault CobsCursor → Prop
  | some rest, result => ∃ spare, result = .ok (.within (out ++ rest) spare finish)
  | none, result => result = .error .unexpectedZero ∨ result = .error .truncated

theorem cobsEnds_map {out : List UInt8} {finish : Nat} (block : List UInt8)
    {rest : Option (List UInt8)} {result : Except CobsFault CobsCursor}
    (later : CobsEnds (out ++ block) finish rest result) :
    CobsEnds out finish (rest.map (block ++ ·)) result := by
  cases rest with
  | none => exact later
  | some rest =>
    obtain ⟨spare, ended⟩ := later
    exact ⟨spare, by rw [← List.append_assoc]; exact ended⟩

theorem code_count {code : UInt8} (nonzero : code ≠ 0) : (code - 1).toNat = code.toNat - 1 := by
  refine UInt8.toNat_sub_of_le _ _ (UInt8.le_iff_toNat_le.mpr (Nat.pos_of_ne_zero ?_))
  intro zero
  exact nonzero (UInt8.toNat_inj.mp zero)

theorem cobsBlock_zero {dstCap : Nat} {src : List UInt8} {out spare : List UInt8} (i : Nat)
    (more : i < src.length) (zero : src[i] = 0) :
    cobsBlock dstCap src (.within out spare i) = .error .unexpectedZero := by
  have fetched : fetch src (CobsCursor.within out spare i).i = .ok src[i] := fetch_inside more
  rw [cobsBlock, fetched]
  exact if_pos zero

theorem cobsBlock_truncated {dstCap : Nat} {src : List UInt8} {out spare : List UInt8} (i : Nat)
    (more : i < src.length) (nonzero : src[i] ≠ 0)
    (truncated : i + 1 + (src[i].toNat - 1) > src.length) :
    cobsBlock dstCap src (.within out spare i) = .error .truncated := by
  have fetched : fetch src (CobsCursor.within out spare i).i = .ok src[i] := fetch_inside more
  rw [cobsBlock, fetched]
  simp only [bind, Except.bind, if_neg nonzero, code_count nonzero]
  exact if_pos truncated

/-- A block that is there and has room, and the zero that it may stand for. -/
theorem cobsBlock_within {dstCap : Nat} {src : List UInt8} {out spare : List UInt8} (i : Nat)
    (capacity : (out ++ spare).length = dstCap) (more : i < src.length) (nonzero : src[i] ≠ 0)
    (there : i + 1 + (src[i].toNat - 1) ≤ src.length)
    (room : out.length + (src.length - i) ≤ dstCap + 1) :
    let block := (src.drop (i + 1)).take (src[i].toNat - 1) ++
      (if src[i] < 0xFF ∧ i + 1 + (src[i].toNat - 1) < src.length then [0] else [])
    ∃ spare', (out ++ block ++ spare').length = dstCap ∧
      cobsBlock dstCap src (.within out spare i) =
        .ok (.within (out ++ block) spare' (i + 1 + (src[i].toNat - 1))) := by
  intro block
  have sizes := capacity
  rw [List.length_append] at sizes
  have copied := cobsCopy_within src (src[i].toNat - 1) out spare (i + 1) capacity there (by omega)
  have taken : ((src.drop (i + 1)).take (src[i].toNat - 1)).length = src[i].toNat - 1 := by
    rw [List.length_take, List.length_drop]
    omega
  have unfolded : cobsBlock dstCap src (.within out spare i) =
      (cobsCopy dstCap src (src[i].toNat - 1) (.within out spare (i + 1))).bind fun cursor =>
        if src[i] < 0xFF ∧ cursor.i < src.length then cobsEmit dstCap cursor (.ok 0x00)
        else .ok cursor := by
    have fetched : fetch src (CobsCursor.within out spare i).i = .ok src[i] := fetch_inside more
    rw [cobsBlock, fetched]
    simp only [bind, Except.bind, if_neg nonzero, code_count nonzero]
    exact if_neg (Nat.not_lt.mpr there)
  rw [unfolded, copied]
  by_cases zero : src[i] < 0xFF ∧ i + 1 + (src[i].toNat - 1) < src.length
  · -- the zero has room because the source goes on
    obtain ⟨old, spare', rest⟩ : ∃ old spare', spare.drop (src[i].toNat - 1) = old :: spare' := by
      cases rest : spare.drop (src[i].toNat - 1) with
      | nil =>
        have short := List.drop_eq_nil_iff.mp rest
        omega
      | cons old spare' => exact ⟨old, spare', rfl⟩
    have left := congrArg List.length rest
    rw [List.length_drop, List.length_cons] at left
    refine ⟨spare', ?_, ?_⟩
    · simp only [block, if_pos zero, List.length_append, taken, List.length_singleton]
      omega
    · rw [rest]
      simp only [block, if_pos zero, Except.bind]
      refine (if_pos zero).trans ?_
      rw [cobsEmit_within _ old 0 ?_, List.append_assoc]
      simp only [List.length_append, taken, List.length_cons]
      omega
  · refine ⟨spare.drop (src[i].toNat - 1), ?_, ?_⟩
    · simp only [block, if_neg zero, List.append_nil, List.length_append, taken, List.length_drop]
      omega
    · simp only [block, if_neg zero, List.append_nil, Except.bind]
      exact if_neg zero

theorem cobsDecodeArrays_ended {dstCap : Nat} {src out spare : List UInt8} (fuel i : Nat)
    (done : i = src.length) :
    CobsEnds out src.length (Cobs.decode (src.drop i))
      (cobsDecodeArrays dstCap src fuel (.within out spare i)) := by
  have noMore : ¬ (CobsCursor.within out spare i).i < src.length :=
    Nat.not_lt.mpr (Nat.le_of_eq done.symm)
  rw [done, List.drop_length, Cobs.decode, ← done]
  refine ⟨spare, ?_⟩
  rw [List.append_nil]
  cases fuel with
  | zero => rw [cobsDecodeArrays, if_neg noMore]
  | succ fuel => rw [cobsDecodeArrays, if_neg noMore]

/-- The decoder ends as the encoding says, whatever is in the destination. -/
theorem cobsDecodeArrays_spec {dstCap : Nat} {src : List UInt8} (fuel : Nat)
    (out spare : List UInt8) (i : Nat) (capacity : (out ++ spare).length = dstCap)
    (enough : src.length - i ≤ fuel) (inside : i ≤ src.length)
    -- a block's code byte makes up for the zero that it may stand for
    (room : i < src.length → out.length + (src.length - i) ≤ dstCap + 1) :
    CobsEnds out src.length (Cobs.decode (src.drop i))
      (cobsDecodeArrays dstCap src fuel (.within out spare i)) := by
  induction fuel generalizing out spare i with
  | zero => exact cobsDecodeArrays_ended 0 i (by omega)
  | succ fuel inductionHypothesis =>
    by_cases more : i < src.length
    · have unfolded : cobsDecodeArrays dstCap src (fuel + 1) (.within out spare i) =
          (cobsBlock dstCap src (.within out spare i)).bind (cobsDecodeArrays dstCap src fuel) :=
        if_pos more
      rw [unfolded, List.drop_eq_getElem_cons more, Cobs.decode]
      by_cases zero : src[i] = 0
      · rw [cobsBlock_zero i more zero, if_pos zero]
        exact .inl rfl
      by_cases truncated : i + 1 + (src[i].toNat - 1) > src.length
      · rw [cobsBlock_truncated i more zero truncated, if_neg zero,
          if_pos (by rw [List.length_drop]; omega)]
        exact .inr rfl
      obtain ⟨spare', capacity', block⟩ :=
        cobsBlock_within i capacity more zero (by omega) (room more)
      rw [block, if_neg zero, if_neg (by rw [List.length_drop]; omega), List.drop_drop]
      have separated : (src[i].toNat < 0xFF ∧ src.drop (i + 1 + (src[i].toNat - 1)) ≠ []) ↔
          (src[i] < 0xFF ∧ i + 1 + (src[i].toNat - 1) < src.length) := by
        rw [UInt8.lt_iff_toNat_lt, Ne, List.drop_eq_nil_iff]
        simp
      simp only [separated]
      apply cobsEnds_map
      refine inductionHypothesis _ spare' (i + 1 + (src[i].toNat - 1)) capacity' (by omega)
        (by omega) ?_
      intro goesOn
      have shorter : (if src[i] < 0xFF ∧ i + 1 + (src[i].toNat - 1) < src.length then [0] else
          ([] : List UInt8)).length ≤ 1 := by
        split <;> simp
      have before := room more
      rw [List.length_append, List.length_append, List.length_take, List.length_drop]
      omega
    · exact cobsDecodeArrays_ended (fuel + 1) i (by omega)

/-- A frame of at most one byte more than the destination is decoded as it is. -/
theorem cobsDecode_short {dstCap : Nat} {src : List UInt8} (short : src.length ≤ dstCap + 1) :
    cobsDecode dstCap src = Cobs.decode src := by
  cases decoded : Cobs.decode src with
  | none => rw [cobsDecode, cobsDecodeLoop_eq, List.drop_zero, decoded]; rfl
  | some data =>
    have bound := Cobs.decode_length_le src decoded
    exact cpp_cobsDecode decoded (by omega)

/-- There the decoder on arrays does the same, and the checks of the capacity never
fail. -/
theorem cobsDecodeArrays_cobsDecode {dstCap : Nat} (src dst : List UInt8)
    (capacity : dst.length = dstCap) (short : src.length ≤ dstCap + 1) :
    CobsEnds [] src.length (cobsDecode dstCap src)
      (cobsDecodeArrays dstCap src src.length { dst }) := by
  rw [cobsDecode_short short]
  exact cobsDecodeArrays_spec src.length [] dst 0 capacity (Nat.sub_le _ _) (Nat.zero_le _)
    fun _ => by rw [List.length_nil]; omega

/-! ## The encoder's array -/

theorem put_length {dst stored : List UInt8} {pos : Nat} {c : UInt8}
    (written : put dst pos c = some stored) : stored.length = dst.length := by
  unfold put at written
  split at written
  · cases written
    exact List.length_set
  · cases written

theorem cobsEncodeByte_length {encoding next : CobsEncoding} {c : UInt8}
    (one : cobsEncodeByte encoding c = some next) : next.dst.length = encoding.dst.length := by
  unfold cobsEncodeByte at one
  split at one
  · obtain ⟨dst, written, rest⟩ := Option.bind_eq_some_iff.mp one
    cases rest
    exact put_length written
  · obtain ⟨dst, written, rest⟩ := Option.bind_eq_some_iff.mp one
    simp only at rest
    split at rest
    · obtain ⟨dst', written', rest⟩ := Option.bind_eq_some_iff.mp rest
      cases rest
      exact (put_length written').trans (put_length written)
    · cases rest
      exact put_length written

/-- The encoder never leaves its array, and never grows it. -/
theorem cobsEncode_length {src dst encoded : List UInt8} {encLen : Nat}
    (ran : cobsEncode src dst = some (encoded, encLen)) : encoded.length = dst.length := by
  have kept : ∀ (src : List UInt8) (encoding final : CobsEncoding),
      src.foldlM cobsEncodeByte encoding = some final →
      final.dst.length = encoding.dst.length := by
    intro src
    induction src with
    | nil => rintro encoding _ ⟨⟩; rfl
    | cons c src inductionHypothesis =>
      intro encoding final folded
      rw [List.foldlM_cons] at folded
      obtain ⟨next, one, later⟩ := Option.bind_eq_some_iff.mp folded
      exact (inductionHypothesis next final later).trans (cobsEncodeByte_length one)
  obtain ⟨encoding, folded, rest⟩ := Option.bind_eq_some_iff.mp ran
  obtain ⟨last, written, rest⟩ := Option.bind_eq_some_iff.mp rest
  cases rest
  exact (put_length written).trans (kept src _ encoding folded)

end Cpp

end EmbeddedBridge
