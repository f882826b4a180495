import EmbeddedBridge.Framing.CobsArrays

/-! # Framing writers on arrays

The framing writers once more, closer to the machine than `FramingWriter`: the
buffer is an array and a fill count, and every access to an array is checked.
`represents_run` says that none of them fails, and that the writer does what
`FramingWriter` does.
-/

namespace EmbeddedBridge.Cpp

open Library

/-- Out of bounds, a call has no result. -/
structure ArrayWriter (bufSize : Nat) where
  cells : List UInt8
  len : Nat := 0
  overflow : Bool := false
deriving DecidableEq, Repr

namespace ArrayWriter

variable {bufSize : Nat}

def write (writer : ArrayWriter bufSize) (c : UInt8) : Option (ArrayWriter bufSize × Nat) :=
  if writer.len < bufSize then
    (put writer.cells writer.len c).map fun cells =>
      ({ writer with cells, len := writer.len + 1 }, 1)
  else some ({ writer with overflow := true }, 0)

def writeBuf (writer : ArrayWriter bufSize) (buf : List UInt8) :
    Option (ArrayWriter bufSize × Nat) :=
  buf.foldlM (fun result c => (result.1.write c).map fun one => (one.1, result.2 + one.2))
    (writer, 0)

/-- `_buf[i]` for each `i` below `_len`. -/
def payload (writer : ArrayWriter bufSize) : Option (List UInt8) :=
  (List.range writer.len).mapM fun i => writer.cells[i]?

def discard (writer : ArrayWriter bufSize) : ArrayWriter bufSize :=
  { writer with len := 0, overflow := false }

def endFrame (frame : List UInt8 → Option (List UInt8)) (writer : ArrayWriter bufSize) :
    Option (ArrayWriter bufSize × List UInt8) :=
  if writer.overflow then some (writer.discard, [])
  else do
    let payload ← writer.payload
    let out ← frame payload
    some (writer.discard, out)

def call (frame : List UInt8 → Option (List UInt8)) (writer : ArrayWriter bufSize) :
    WriterCall → Option (ArrayWriter bufSize × List UInt8)
  | .write c => (writer.write c).map fun result => (result.1, [])
  | .writeBuf buf => (writer.writeBuf buf).map fun result => (result.1, [])
  | .endFrame => writer.endFrame frame
  | .discard => some (writer.discard, [])

/-- The calls one after the other, and all that goes downstream. -/
def run (frame : List UInt8 → Option (List UInt8)) (writer : ArrayWriter bufSize) :
    List WriterCall → Option (ArrayWriter bufSize × List UInt8)
  | [] => some (writer, [])
  | call :: calls => do
    let after ← writer.call frame call
    let later ← run frame after.1 calls
    some (later.1, after.2 ++ later.2)

end ArrayWriter

/-- What `CobsFramingWriter::end_frame` emits, by way of its scratch array, of
which it reads the first `enc_len` bytes. -/
def CobsFramingWriter.frameArrays (scratch payload : List UInt8) : Option (List UInt8) := do
  let (encoded, encLen) ← cobsEncode payload scratch
  if encLen ≤ encoded.length then some (encoded.take encLen ++ [0x00]) else none

/-! ## What the arrays stand for -/

/-- The filled part of the array is the buffer of the writer. -/
structure Represents {bufSize : Nat} (arrays : ArrayWriter bufSize)
    (writer : FramingWriter bufSize) : Prop where
  size : arrays.cells.length = bufSize
  len : arrays.len = writer.buf.items.length
  filled : arrays.cells.take arrays.len = writer.buf.items
  overflow : arrays.overflow = writer.overflow

variable {bufSize : Nat}

theorem represents_write {arrays : ArrayWriter bufSize} {writer : FramingWriter bufSize}
    (represents : Represents arrays writer) (c : UInt8) :
    ∃ after, arrays.write c = some (after, (writer.write c).2) ∧
      Represents after (writer.write c).1 := by
  obtain ⟨size, len, filled, overflow⟩ := represents
  cases writer.write_cases c with
  | inl room =>
    obtain ⟨buf, stored, items⟩ := room
    have bounded := buf.bounded
    rw [items, List.length_append, List.length_singleton, ← len] at bounded
    have room : arrays.len < arrays.cells.length := by omega
    refine ⟨{ arrays with cells := arrays.cells.set arrays.len c, len := arrays.len + 1 }, ?_, ?_⟩
    · rw [ArrayWriter.write, if_pos (by omega), put, if_pos room, stored]
      rfl
    · rw [stored]
      refine ⟨List.length_set.trans size, ?_, ?_, overflow⟩
      · simp only [items, List.length_append, List.length_singleton, len]
      · simp only [items]
        rw [List.take_add_one, List.take_set_of_le (Nat.le_refl _), filled,
          List.getElem?_set_self room]
        rfl
  | inr refusal =>
    obtain ⟨refused, full⟩ := refusal
    refine ⟨{ arrays with overflow := true }, ?_, ?_⟩
    · rw [ArrayWriter.write, if_neg (by omega), refused]
    · rw [refused]
      exact ⟨size, len, filled, rfl⟩

theorem represents_writeBuf {arrays : ArrayWriter bufSize} {writer : FramingWriter bufSize}
    (represents : Represents arrays writer) (buf : List UInt8) :
    ∃ after, arrays.writeBuf buf = some (after, (writer.writeBuf buf).2) ∧
      Represents after (writer.writeBuf buf).1 := by
  induction buf using List.reverseRecOn with
  | nil => exact ⟨arrays, rfl, represents⟩
  | append_singleton buf c inductionHypothesis =>
    obtain ⟨middle, wrote, represents'⟩ := inductionHypothesis
    obtain ⟨after, one, represents''⟩ := represents_write represents' c
    rw [FramingWriter.writeBuf_snoc]
    refine ⟨after, ?_, represents''⟩
    rw [ArrayWriter.writeBuf] at wrote
    rw [ArrayWriter.writeBuf, List.foldlM_append, wrote]
    simp [one]

theorem represents_payload {arrays : ArrayWriter bufSize} {writer : FramingWriter bufSize}
    (represents : Represents arrays writer) : arrays.payload = some writer.buf.items := by
  have bounded := writer.buf.bounded
  rw [← represents.len] at bounded
  have read : ∀ count, count ≤ arrays.cells.length →
      (List.range count).mapM (fun i => arrays.cells[i]?) = some (arrays.cells.take count) := by
    intro count inside
    induction count with
    | zero => rfl
    | succ count inductionHypothesis =>
      rw [List.range_succ, List.mapM_append, inductionHypothesis (by omega), List.take_add_one]
      simp [List.getElem?_eq_getElem (by omega : count < arrays.cells.length)]
  rw [ArrayWriter.payload, read arrays.len (by rw [represents.size]; exact bounded),
    represents.filled]

theorem represents_discard {arrays : ArrayWriter bufSize} (writer : FramingWriter bufSize)
    (size : arrays.cells.length = bufSize) : Represents arrays.discard writer.discard :=
  ⟨size, rfl, List.take_zero, rfl⟩

/-- One call, when the frame of a payload that fits stays in bounds. -/
theorem represents_call {frameArrays : List UInt8 → Option (List UInt8)}
    {frame : List UInt8 → List UInt8}
    (framed : ∀ payload : List UInt8, payload.length ≤ bufSize →
      frameArrays payload = some (frame payload))
    {arrays : ArrayWriter bufSize} {writer : FramingWriter bufSize}
    (represents : Represents arrays writer) (call : WriterCall) :
    ∃ after, arrays.call frameArrays call = some (after, (writer.call frame call).2) ∧
      Represents after (writer.call frame call).1 := by
  cases call with
  | write c =>
    obtain ⟨after, wrote, represents'⟩ := represents_write represents c
    exact ⟨after, by rw [ArrayWriter.call, wrote]; rfl, represents'⟩
  | writeBuf buf =>
    obtain ⟨after, wrote, represents'⟩ := represents_writeBuf represents buf
    exact ⟨after, by rw [ArrayWriter.call, wrote]; rfl, represents'⟩
  | discard => exact ⟨arrays.discard, rfl, represents_discard writer represents.size⟩
  | endFrame =>
    refine ⟨arrays.discard, ?_, ?_⟩
    · rw [ArrayWriter.call, ArrayWriter.endFrame, represents.overflow, FramingWriter.call,
        FramingWriter.endFrame]
      cases writer.overflow with
      | true => rfl
      | false =>
        simp [represents_payload represents, framed _ writer.buf.bounded]
    · have emptied : (writer.call frame .endFrame).1 = writer.discard := by
        rw [FramingWriter.call, FramingWriter.endFrame]
        cases writer.overflow <;> rfl
      rw [emptied]
      exact represents_discard writer represents.size

/-- Any calls: no access fails, and downstream gets what `FramingWriter` emits. -/
theorem represents_run {frameArrays : List UInt8 → Option (List UInt8)}
    {frame : List UInt8 → List UInt8}
    (framed : ∀ payload : List UInt8, payload.length ≤ bufSize →
      frameArrays payload = some (frame payload))
    (arrays : ArrayWriter bufSize) (writer : FramingWriter bufSize)
    (represents : Represents arrays writer) (calls : List WriterCall) :
    ∃ final, arrays.run frameArrays calls =
        some (final, (Transducer.run (FramingWriter.call frame) writer calls).2) ∧
      Represents final (Transducer.run (FramingWriter.call frame) writer calls).1 := by
  induction calls generalizing arrays writer with
  | nil => exact ⟨arrays, rfl, represents⟩
  | cons call calls inductionHypothesis =>
    obtain ⟨after, one, represents'⟩ := represents_call framed represents call
    obtain ⟨final, ran, represents''⟩ := inductionHypothesis after _ represents'
    refine ⟨final, ?_, represents''⟩
    rw [ArrayWriter.run, one, Option.bind_eq_bind, Option.bind_some, ran]
    rfl

end EmbeddedBridge.Cpp
