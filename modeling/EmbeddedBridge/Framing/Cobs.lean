import EmbeddedBridge.Language
import EmbeddedBridge.Framing.Writer
import EmbeddedBridge.Library.Cobs

/-! # COBS framing

`framing/cobs.h` and `framing/cobs.py`.  The device encodes into a scratch array
whose size it computes beforehand and decodes into an array of `BufSize` bytes;
the host builds lists that grow.  `python_cobsEncode` and `cpp_cobsEncode` say
that both encoders write the encoding of `Library.Cobs`, and `cobsDecodeLoop_eq`
that both decoders read it.
-/

namespace EmbeddedBridge

open Library

/-! ## Python encoder -/

namespace Python

structure CobsEncoding where
  out : List UInt8
  codePos : Nat
  code : Nat

def cobsEncodeByte (encoding : CobsEncoding) (b : UInt8) : CobsEncoding :=
  if b = 0x00 then
    { out := encoding.out.set encoding.codePos (UInt8.ofNat encoding.code) ++ [0]
      codePos := encoding.out.length
      code := 1 }
  else
    let out := encoding.out ++ [b]
    let code := encoding.code + 1
    if code = 0xFF then
      { out := out.set encoding.codePos (UInt8.ofNat code) ++ [0], codePos := out.length, code := 1 }
    else { out, codePos := encoding.codePos, code }

def cobsEncode (data : List UInt8) : List UInt8 :=
  let encoding := data.foldl cobsEncodeByte { out := [0], codePos := 0, code := 1 }
  encoding.out.set encoding.codePos (UInt8.ofNat encoding.code)

end Python

def Python.CobsFrameEncoder.encode (payload : List UInt8) : List UInt8 :=
  Python.cobsEncode payload ++ [0x00]

/-! ## C++ encoder -/

namespace Cpp

/-- A write to an array, `none` out of bounds. -/
def put (dst : List UInt8) (pos : Nat) (c : UInt8) : Option (List UInt8) :=
  if pos < dst.length then some (dst.set pos c) else none

structure CobsEncoding where
  dst : List UInt8
  dstPos : Nat
  codePos : Nat
  code : UInt8

def cobsEncodeByte (encoding : CobsEncoding) (c : UInt8) : Option CobsEncoding :=
  if c = 0x00 then do
    let dst ← put encoding.dst encoding.codePos encoding.code
    some { dst, dstPos := encoding.dstPos + 1, codePos := encoding.dstPos, code := 1 }
  else do
    let dst ← put encoding.dst encoding.dstPos c
    let code := encoding.code + 1
    if code = 0xFF then
      let dst ← put dst encoding.codePos code
      some { dst, dstPos := encoding.dstPos + 2, codePos := encoding.dstPos + 1, code := 1 }
    else some { dst, dstPos := encoding.dstPos + 1, codePos := encoding.codePos, code }

/-- The array afterwards, and how much of it is the encoding. -/
def cobsEncode (src dst : List UInt8) : Option (List UInt8 × Nat) := do
  let encoding ← src.foldlM cobsEncodeByte { dst, dstPos := 1, codePos := 0, code := 1 }
  let dst ← put encoding.dst encoding.codePos encoding.code
  some (dst, encoding.dstPos)

/-- What `end_frame` emits; the scratch array is not initialised in the source,
and zero here. -/
def CobsFramingWriter.frame (bufSize : Nat) (payload : List UInt8) : List UInt8 :=
  match cobsEncode payload (List.replicate (bufSize + bufSize / 254 + 2) 0) with
  | some (encoded, encLen) => encoded.take encLen ++ [0x00]
  | none => []

/-- `CobsFramingWriter` with its calls. -/
def CobsFramingWriter.call {bufSize : Nat} : Transducer.Step (FramingWriter bufSize) WriterCall UInt8 :=
  FramingWriter.call (CobsFramingWriter.frame bufSize)

end Cpp

/-! ## Decoder -/

/-- The loop of `cobs_decode` and `_cobs_decode`.  They differ in how a byte is
appended to the output: on the device that may fail. -/
def cobsDecodeLoop {τ : Type} (append : τ → UInt8 → Option τ) (src : List UInt8) (i : Nat)
    (out : τ) : Option τ :=
  if more : i < src.length then
    let code := src[i]
    -- a zero code byte is malformed, and so is a block that is longer than what is left
    if code = 0 then none
    else
      let count := code.toNat - 1
      if i + 1 + count > src.length then none
      else do
        let out ← ((src.drop (i + 1)).take count).foldlM append out
        -- the zero that a block stands for, unless it is full or the last one
        let out ← if code < 0xFF ∧ i + 1 + count < src.length then append out 0x00 else some out
        cobsDecodeLoop append src (i + 1 + count) out
  else some out
termination_by src.length - i

def Cpp.cobsDecode (dstCap : Nat) (src : List UInt8) : Option (List UInt8) :=
  (cobsDecodeLoop BoundedBuffer.push? src 0 (BoundedBuffer.empty : BoundedBuffer UInt8 dstCap)).map
    BoundedBuffer.items

def Python.cobsDecode (data : List UInt8) : Option (List UInt8) :=
  cobsDecodeLoop (fun out c => some (out ++ [c])) data 0 []

def Language.cobsDecode (bufSize : Nat) : Language → List UInt8 → Option (List UInt8)
  | .cpp => Cpp.cobsDecode bufSize
  | .python => Python.cobsDecode

/-! ## Framer -/

structure CobsFramer (bufSize : Nat) where
  raw : BoundedBuffer UInt8 (bufSize + 1) := .empty
  error : Bool := false

namespace CobsFramer

variable {bufSize : Nat}

def processByte (language : Language) : Transducer.Step (CobsFramer bufSize) UInt8 (List UInt8) :=
  fun framer c =>
    if c = 0x00 then
      ({ raw := .empty, error := false },
        if framer.raw.items.length > 0 ∧ framer.error = false then
          (language.cobsDecode bufSize framer.raw.items).toList
        else [])
    else match framer.raw.push? c with
      | some raw => ({ framer with raw }, [])
      | none => ({ framer with error := true }, [])

def reset (_ : CobsFramer bufSize) : CobsFramer bufSize := { raw := .empty, error := false }

/-- Everything that can be done to a framer. -/
inductive Call where
  | processByte (c : UInt8)
  | reset
deriving DecidableEq, Repr

def call (language : Language) : Transducer.Step (CobsFramer bufSize) Call (List UInt8)
  | framer, .processByte c => framer.processByte language c
  | framer, .reset => (framer.reset, [])

end CobsFramer

/-! ## The encoders write the encoding -/

/-- The placeholder of a block is where its code byte goes. -/
theorem set_placeholder (done : List UInt8) (placeholder code : UInt8) (tail : List UInt8) :
    (done ++ placeholder :: tail).set done.length code = done ++ code :: tail := by
  rw [List.set_append_right _ _ (Nat.le_refl _), Nat.sub_self]
  rfl

/-- From within a block: `done` is encoded already, `run` belongs to the block. -/
theorem python_cobsEncodeFrom (done run rest : List UInt8) (placeholder : UInt8)
    (short : run.length < Cobs.fullBlock) :
    let encoding := rest.foldl Python.cobsEncodeByte
      { out := done ++ placeholder :: run, codePos := done.length, code := run.length + 1 }
    encoding.out.set encoding.codePos (UInt8.ofNat encoding.code) = done ++ Cobs.encodeFrom run rest := by
  induction rest generalizing done run placeholder with
  | nil => exact set_placeholder done placeholder _ run
  | cons b rest inductionHypothesis =>
    rw [List.foldl_cons, Cobs.encodeFrom, Python.cobsEncodeByte]
    simp only
    -- a zero ends the block and begins an empty one
    split
    · have next := inductionHypothesis (done ++ Cobs.block run) [] 0 (by simp [Cobs.fullBlock])
      simp only [List.length_append, Cobs.block, List.length_cons] at next
      rw [set_placeholder, List.length_append, List.length_cons, ← List.append_assoc]
      exact next
    have stored : done ++ placeholder :: run ++ [b] = done ++ placeholder :: (run ++ [b]) := by simp
    rw [stored]
    -- any other byte goes into the block, and may be its last
    by_cases filled : run.length + 1 = Cobs.fullBlock
    · have code : run.length + 1 + 1 = 0xFF := by
        rw [filled]
      have next := inductionHypothesis (done ++ Cobs.block (run ++ [b])) [] 0
        (by simp [Cobs.fullBlock])
      simp only [List.length_append, Cobs.block, List.length_cons, List.length_nil] at next
      rw [if_pos code, if_pos filled, set_placeholder, List.length_append, List.length_cons,
        List.length_append, List.length_singleton, ← List.append_assoc]
      simp only [Cobs.block, List.length_append, List.length_singleton]
      exact next
    · have code : run.length + 1 + 1 ≠ 0xFF := fun code => filled (by
        simp only [Cobs.fullBlock]
        omega)
      have next := inductionHypothesis done (run ++ [b]) placeholder (by
        rw [List.length_append, List.length_singleton]
        omega)
      rw [List.length_append, List.length_singleton] at next
      rw [if_neg code, if_neg filled]
      exact next

theorem python_cobsEncode (data : List UInt8) : Python.cobsEncode data = Cobs.encode data :=
  python_cobsEncodeFrom [] [] data 0 (by simp [Cobs.fullBlock])

theorem put_at (done : List UInt8) (old c : UInt8) (tail : List UInt8) :
    Cpp.put (done ++ old :: tail) done.length c = some (done ++ c :: tail) := by
  rw [Cpp.put, if_pos (by simp), set_placeholder]

theorem cpp_code_full {run : List UInt8} (short : run.length < Cobs.fullBlock) :
    UInt8.ofNat (run.length + 1) + 1 = 0xFF ↔ run.length + 1 = Cobs.fullBlock := by
  have code := Cobs.block_code (Nat.le_of_lt short)
  rw [← UInt8.toNat_inj, UInt8.toNat_add, code]
  simp only [Cobs.fullBlock] at short ⊢
  have one : (1 : UInt8).toNat = 1 := rfl
  have full : (0xFF : UInt8).toNat = 255 := rfl
  rw [one, full]
  omega

/-- Within a block: `done` is encoded already, `run` belongs to the block, whose
code byte is still `old`, and `spare` is the rest of the array. -/
def Cpp.CobsEncoding.within (done run spare : List UInt8) (old : UInt8) : Cpp.CobsEncoding where
  dst := done ++ old :: (run ++ spare)
  dstPos := done.length + 1 + run.length
  codePos := done.length
  code := UInt8.ofNat (run.length + 1)

section Within

variable (done run spare : List UInt8) (old next : UInt8)

theorem cobsEncodeByte_zero :
    Cpp.cobsEncodeByte (.within done run (next :: spare) old) 0 =
      some (.within (done ++ Cobs.block run) [] spare next) := by
  have positions : done.length + 1 + run.length = (done ++ Cobs.block run).length := by
    simp only [List.length_append, Cobs.block, List.length_cons]
    omega
  simp [Cpp.cobsEncodeByte, Cpp.CobsEncoding.within, put_at, positions, Cobs.block]

theorem put_next (b : UInt8) :
    Cpp.put (done ++ old :: (run ++ next :: spare)) (done.length + 1 + run.length) b =
      some (done ++ old :: (run ++ [b] ++ spare)) := by
  have stored := put_at (done ++ old :: run) next b spare
  have position : (done ++ old :: run).length = done.length + 1 + run.length := by
    rw [List.length_append, List.length_cons]
    omega
  rw [position] at stored
  simpa using stored

theorem cobsEncodeByte_plain {b : UInt8} (nonzero : b ≠ 0) (short : run.length < Cobs.fullBlock)
    (unfilled : run.length + 1 ≠ Cobs.fullBlock) :
    Cpp.cobsEncodeByte (.within done run (next :: spare) old) b =
      some (.within done (run ++ [b]) spare old) := by
  have code : UInt8.ofNat (run.length + 1) + 1 = UInt8.ofNat ((run ++ [b]).length + 1) := by
    rw [List.length_append, List.length_singleton, UInt8.ofNat_add (run.length + 1)]
    rfl
  have notFull := (cpp_code_full short).not.mpr unfilled
  rw [Cpp.cobsEncodeByte, if_neg nonzero]
  simp only [Cpp.CobsEncoding.within, put_next, Option.bind_eq_bind, Option.bind_some, notFull,
    ↓reduceIte]
  rw [code, List.length_append, List.length_singleton, Nat.add_assoc]

theorem cobsEncodeByte_filled {b : UInt8} (last : UInt8) (nonzero : b ≠ 0)
    (short : run.length < Cobs.fullBlock) (filled : run.length + 1 = Cobs.fullBlock) :
    Cpp.cobsEncodeByte (.within done run (next :: last :: spare) old) b =
      some (.within (done ++ Cobs.block (run ++ [b])) [] spare last) := by
  have full := (cpp_code_full short).mpr filled
  have code : UInt8.ofNat ((run ++ [b]).length + 1) = 0xFF := by
    rw [List.length_append, List.length_singleton, filled]
    rfl
  have positions : done.length + 1 + run.length + 1 = (done ++ Cobs.block (run ++ [b])).length := by
    simp only [List.length_append, Cobs.block, List.length_cons, List.length_nil]
    omega
  rw [Cpp.cobsEncodeByte, if_neg nonzero]
  simp only [Cpp.CobsEncoding.within, put_next, Option.bind_eq_bind, Option.bind_some, full,
    ↓reduceIte, put_at]
  have dstPos : done.length + 1 + run.length + 2 =
      (done ++ Cobs.block (run ++ [b])).length + 1 := by
    omega
  rw [positions, dstPos, Cobs.block, code]
  simp

end Within

/-- As long as the encoding fits, every write is in bounds. -/
theorem cpp_cobsEncodeFrom (done run rest spare : List UInt8) (old : UInt8)
    (short : run.length < Cobs.fullBlock)
    (room : (Cobs.encodeFrom run rest).length ≤ run.length + 1 + spare.length) :
    ∃ spare', (do
      let encoding ← rest.foldlM Cpp.cobsEncodeByte (.within done run spare old)
      let dst ← Cpp.put encoding.dst encoding.codePos encoding.code
      some (dst, encoding.dstPos)) =
      some (done ++ Cobs.encodeFrom run rest ++ spare',
        (done ++ Cobs.encodeFrom run rest).length) := by
  induction rest generalizing done run spare old with
  | nil =>
    refine ⟨spare, ?_⟩
    simp only [List.foldlM_nil, pure_bind, Cpp.CobsEncoding.within, put_at, Cobs.encodeFrom,
      Cobs.block]
    simp
    omega
  | cons b rest inductionHypothesis =>
    have fresh := Cobs.encodeFrom_length_ge [] rest
    have longer := Cobs.encodeFrom_length_ge (run ++ [b]) rest
    rw [List.length_nil] at fresh
    rw [List.length_append, List.length_singleton] at longer
    rw [List.foldlM_cons]
    rw [Cobs.encodeFrom] at room ⊢
    by_cases zero : b = 0
    · rw [if_pos zero] at room ⊢
      rw [List.length_append, Cobs.block, List.length_cons] at room
      -- the next block's code byte takes one place
      cases spare with
      | nil => simp only [List.length_nil] at room; omega
      | cons next spare =>
        obtain ⟨spare', encoded⟩ := inductionHypothesis (done ++ Cobs.block run) [] spare next
          (by simp [Cobs.fullBlock]) (by simp only [List.length_cons, List.length_nil] at room ⊢; omega)
        rw [zero, cobsEncodeByte_zero]
        exact ⟨spare', by simpa using encoded⟩
    rw [if_neg zero] at room ⊢
    by_cases filled : run.length + 1 = Cobs.fullBlock
    · rw [if_pos filled] at room ⊢
      rw [List.length_append, Cobs.block, List.length_cons, List.length_append,
        List.length_singleton] at room
      -- the byte and the next block's code byte take two places
      cases spare with
      | nil => simp only [List.length_nil] at room; omega
      | cons next spare =>
        cases spare with
        | nil => simp only [List.length_cons, List.length_nil] at room; omega
        | cons last spare =>
          obtain ⟨spare', encoded⟩ := inductionHypothesis (done ++ Cobs.block (run ++ [b])) [] spare
            last (by simp [Cobs.fullBlock])
            (by simp only [List.length_cons, List.length_nil] at room ⊢; omega)
          rw [cobsEncodeByte_filled done run spare old next last zero short filled]
          exact ⟨spare', by simpa using encoded⟩
    · rw [if_neg filled] at room ⊢
      -- the block goes on, and the byte takes one place
      cases spare with
      | nil => simp only [List.length_nil] at room; omega
      | cons next spare =>
        obtain ⟨spare', encoded⟩ := inductionHypothesis done (run ++ [b]) spare old
          (by rw [List.length_append, List.length_singleton]; omega)
          (by simp only [List.length_append, List.length_cons, List.length_nil] at room ⊢; omega)
        rw [cobsEncodeByte_plain done run spare old next zero short filled]
        exact ⟨spare', encoded⟩

theorem cpp_cobsEncode (src dst : List UInt8) (room : (Cobs.encode src).length ≤ dst.length) :
    ∃ spare, Cpp.cobsEncode src dst =
      some (Cobs.encode src ++ spare, (Cobs.encode src).length) := by
  have some := Cobs.encodeFrom_length_ge [] src
  cases dst with
  | nil => simp only [Cobs.encode, List.length_nil] at room some; omega
  | cons old spare =>
    obtain ⟨spare', encoded⟩ := cpp_cobsEncodeFrom [] [] src spare old (by simp [Cobs.fullBlock])
      (by simpa [Cobs.encode, Nat.add_comm] using room)
    exact ⟨spare', encoded⟩

/-- The scratch array is large enough, so the writer emits what the host's
encoder does. -/
theorem cobsFramingWriter_frame {bufSize : Nat} {payload : List UInt8}
    (fits : payload.length ≤ bufSize) :
    Cpp.CobsFramingWriter.frame bufSize payload = Cobs.encode payload ++ [0] := by
  have bound := Cobs.encode_length_le payload
  have blocks : payload.length / Cobs.fullBlock ≤ bufSize / 254 := Nat.div_le_div_right fits
  obtain ⟨spare, encoded⟩ := cpp_cobsEncode payload
    (List.replicate (bufSize + bufSize / 254 + 2) 0) (by rw [List.length_replicate]; omega)
  rw [Cpp.CobsFramingWriter.frame, encoded]
  simp

theorem cobsFrameEncoder_encode (payload : List UInt8) :
    Python.CobsFrameEncoder.encode payload = Cobs.encode payload ++ [0] := by
  rw [Python.CobsFrameEncoder.encode, python_cobsEncode]

/-! ## The decoders read the encoding -/

theorem cobsDecodeLoop_eq {τ : Type} (append : τ → UInt8 → Option τ) (src : List UInt8) (i : Nat)
    (out : τ) :
    cobsDecodeLoop append src i out = (Cobs.decode (src.drop i)).bind (·.foldlM append out) := by
  induction left : src.length - i using Nat.strongRecOn generalizing i out with
  | _ left inductionHypothesis =>
    rw [cobsDecodeLoop]
    by_cases more : i < src.length
    · rw [dif_pos more, List.drop_eq_getElem_cons more, Cobs.decode]
      simp only
      split
      · rfl
      rename_i nonzero
      simp only [List.length_drop, List.drop_drop]
      by_cases truncated : i + 1 + (src[i].toNat - 1) > src.length
      · rw [if_pos truncated, if_pos (by omega)]
        rfl
      rw [if_neg truncated, if_neg (by omega)]
      have separated : (src[i] < 0xFF ∧ i + 1 + (src[i].toNat - 1) < src.length) ↔
          (src[i].toNat < 0xFF ∧ src.drop (i + 1 + (src[i].toNat - 1)) ≠ []) := by
        rw [UInt8.lt_iff_toNat_lt, Ne, List.drop_eq_nil_iff]
        simp
      simp only [separated]
      -- the rest decodes the same way, whatever has been appended by then
      have later : ∀ out, cobsDecodeLoop append src (i + 1 + (src[i].toNat - 1)) out = _ :=
        fun out => inductionHypothesis _ (by omega) _ out rfl
      simp only [later, Option.bind_eq_bind]
      cases decoded : Cobs.decode (src.drop (i + 1 + (src[i].toNat - 1))) with
      | none => simp
      | some tail =>
        rw [Option.map_some, Option.bind_some, List.foldlM_append, List.foldlM_append]
        by_cases zero : src[i].toNat < 0xFF ∧ src.drop (i + 1 + (src[i].toNat - 1)) ≠ []
        · simp only [if_pos zero, List.foldlM_cons, List.foldlM_nil, bind_pure, Option.bind_eq_bind,
            Option.bind_assoc, Option.bind_some]
        · simp only [if_neg zero, List.foldlM_nil, bind_pure, Option.bind_eq_bind, Option.bind_some]
    · rw [dif_neg more, List.drop_eq_nil_of_le (by omega), Cobs.decode]
      rfl

theorem foldlM_append (out decoded : List UInt8) :
    decoded.foldlM (fun out c => some (out ++ [c])) out = some (out ++ decoded) := by
  induction decoded generalizing out with
  | nil => simp
  | cons c decoded inductionHypothesis =>
    rw [List.foldlM_cons, Option.bind_eq_bind, Option.bind_some, inductionHypothesis]
    simp

theorem python_cobsDecode (data : List UInt8) : Python.cobsDecode data = Cobs.decode data := by
  rw [Python.cobsDecode, cobsDecodeLoop_eq, List.drop_zero]
  cases Cobs.decode data with
  | none => rfl
  | some decoded => exact foldlM_append [] decoded

theorem cpp_cobsDecode {dstCap : Nat} {src payload : List UInt8}
    (decoded : Cobs.decode src = some payload) (fits : payload.length ≤ dstCap) :
    Cpp.cobsDecode dstCap src = some payload := by
  obtain ⟨stored, folded, items⟩ := BoundedBuffer.foldlM_push?
    (BoundedBuffer.empty : BoundedBuffer UInt8 dstCap) payload
    (by rwa [BoundedBuffer.empty_items, List.length_nil, Nat.zero_add])
  rw [Cpp.cobsDecode, cobsDecodeLoop_eq, List.drop_zero, decoded, Option.bind_some, folded,
    Option.map_some, items]
  rfl

/-- Either framer's decoder undoes the encoding of a payload that fits. -/
theorem cobsDecode_encode (language : Language) {bufSize : Nat} {payload : List UInt8}
    (fits : payload.length ≤ bufSize) :
    language.cobsDecode bufSize (Cobs.encode payload) = some payload := by
  cases language with
  | cpp => exact cpp_cobsDecode (Cobs.decode_encode payload) fits
  | python =>
    rw [Language.cobsDecode, python_cobsDecode]
    exact Cobs.decode_encode payload

end EmbeddedBridge
