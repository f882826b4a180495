import EmbeddedBridge.Library.Transducer
import EmbeddedBridge.Library.BoundedBuffer

/-! # Framing writers

The part that `HdlcFramingWriter`, `SlipFramingWriter` and `CobsFramingWriter`
share word for word: a payload buffer of `BufSize` bytes, a sticky overflow flag,
and an `end_frame()` that either drops the payload or emits its frame.  The three
differ in the frame, which is the parameter `frame` here.

`framedPayloads` is what a run of calls asks for: one payload for each
`end_frame()` whose writes were all accepted.  `output_eq_frames` says that the
writer emits the frames of exactly these, and `framedPayloads_eq` that they are
the requested payloads of at most `BufSize` bytes.
-/

namespace EmbeddedBridge.Cpp

open Library

/-- The calls a framing writer takes. -/
inductive WriterCall where
  | write (c : UInt8)
  | writeBuf (buf : List UInt8)
  | endFrame
  | discard
deriving DecidableEq, Repr

/-- What a call writes; a plain writer has no use for the other two. -/
def WriterCall.bytes : WriterCall → List UInt8
  | .write c => [c]
  | .writeBuf buf => buf
  | .endFrame => []
  | .discard => []

structure FramingWriter (bufSize : Nat) where
  buf : BoundedBuffer UInt8 bufSize := .empty
  overflow : Bool := false

namespace FramingWriter

variable {bufSize : Nat}

/-- The second component is the returned count of accepted bytes. -/
def write (writer : FramingWriter bufSize) (c : UInt8) : FramingWriter bufSize × Nat :=
  match writer.buf.push? c with
  | some buf => ({ writer with buf }, 1)
  | none => ({ writer with overflow := true }, 0)

def writeBuf (writer : FramingWriter bufSize) (buf : List UInt8) : FramingWriter bufSize × Nat :=
  buf.foldl (fun result c =>
    let one := result.1.write c
    (one.1, result.2 + one.2)) (writer, 0)

def discard (_ : FramingWriter bufSize) : FramingWriter bufSize := { buf := .empty, overflow := false }

/-- What goes downstream is the second component. -/
def endFrame (frame : List UInt8 → List UInt8) (writer : FramingWriter bufSize) :
    FramingWriter bufSize × List UInt8 :=
  if writer.overflow then (writer.discard, [])
  else (writer.discard, frame writer.buf.items)

def call (frame : List UInt8 → List UInt8) :
    Transducer.Step (FramingWriter bufSize) WriterCall UInt8
  | writer, .write c => ((writer.write c).1, [])
  | writer, .writeBuf buf => ((writer.writeBuf buf).1, [])
  | writer, .endFrame => writer.endFrame frame
  | writer, .discard => (writer.discard, [])

theorem writeBuf_snoc (writer : FramingWriter bufSize) (buf : List UInt8) (c : UInt8) :
    writer.writeBuf (buf ++ [c]) =
      (((writer.writeBuf buf).1.write c).1,
        (writer.writeBuf buf).2 + ((writer.writeBuf buf).1.write c).2) := by
  simp only [writeBuf, List.foldl_append, List.foldl_cons, List.foldl_nil]

theorem write_cases (writer : FramingWriter bufSize) (c : UInt8) :
    (∃ buf, writer.write c = ({ writer with buf }, 1) ∧ buf.items = writer.buf.items ++ [c]) ∨
      (writer.write c = ({ writer with overflow := true }, 0) ∧
        writer.buf.items.length = bufSize) := by
  unfold write
  cases pushed : writer.buf.push? c with
  | none => exact .inr ⟨rfl, BoundedBuffer.push?_none pushed⟩
  | some buf => exact .inl ⟨buf, rfl, (BoundedBuffer.push?_some pushed).2⟩

/-- A block is either accepted whole and stored, or the writer has overflowed. -/
theorem writeBuf_cases (writer : FramingWriter bufSize) (buf : List UInt8) :
    (∃ stored, writer.writeBuf buf = ({ writer with buf := stored }, buf.length) ∧
      stored.items = writer.buf.items ++ buf) ∨
      ((writer.writeBuf buf).2 < buf.length ∧ (writer.writeBuf buf).1.overflow = true ∧
        bufSize < writer.buf.items.length + buf.length) := by
  -- from the end: the last byte meets the writer that the others leave behind
  induction buf using List.reverseRecOn with
  | nil => exact .inl ⟨writer.buf, rfl, by simp⟩
  | append_singleton buf c inductionHypothesis =>
    rw [writeBuf_snoc, List.length_append, List.length_singleton]
    cases inductionHypothesis with
    | inl whole =>
      obtain ⟨stored, accepted, items⟩ := whole
      rw [accepted]
      cases write_cases { writer with buf := stored } c with
      | inl room =>
        obtain ⟨larger, one, itemsLarger⟩ := room
        rw [one]
        exact .inl ⟨larger, rfl, by rw [itemsLarger, ← List.append_assoc, items]⟩
      | inr refusal =>
        obtain ⟨refused, full⟩ := refusal
        rw [refused]
        rw [items, List.length_append] at full
        exact .inr ⟨by simp, rfl, by omega⟩
    | inr cut =>
      -- something was refused before, and the flag is sticky
      obtain ⟨fewer, overflowed, long⟩ := cut
      right
      cases write_cases (writer.writeBuf buf).1 c with
      | inl room =>
        obtain ⟨larger, one, _⟩ := room
        rw [one]
        exact ⟨by simp only; omega, overflowed, by omega⟩
      | inr refusal =>
        rw [refusal.1]
        exact ⟨by simp only; omega, rfl, by omega⟩

/-- After `end_frame()` the writer is empty, whatever it has framed or dropped. -/
theorem run_endFrame (frame : List UInt8 → List UInt8) (writer : FramingWriter bufSize)
    (calls : List WriterCall) :
    (Transducer.run (call frame) writer (calls ++ [.endFrame])).1 = {} := by
  rw [Transducer.run_append, Transducer.run_singleton]
  simp only [call, endFrame]
  split <;> rfl

end FramingWriter

/-! ## What the calls ask for -/

/-- A writer together with the bytes written since the last frame boundary, and
whether every write since then returned the full count. -/
structure FramingSession (bufSize : Nat) where
  writer : FramingWriter bufSize := {}
  written : List UInt8 := []
  accepted : Bool := true

namespace FramingSession

variable {bufSize : Nat}

def call : Transducer.Step (FramingSession bufSize) WriterCall (List UInt8)
  | session, .write c =>
    let result := session.writer.write c
    ({ writer := result.1, written := session.written ++ [c],
       accepted := session.accepted && result.2 == 1 }, [])
  | session, .writeBuf buf =>
    let result := session.writer.writeBuf buf
    ({ writer := result.1, written := session.written ++ buf,
       accepted := session.accepted && result.2 == buf.length }, [])
  | session, .endFrame =>
    ({ writer := session.writer.discard }, if session.accepted then [session.written] else [])
  | session, .discard => ({ writer := session.writer.discard }, [])

end FramingSession

/-- One payload for each `end_frame()` whose writes were all accepted. -/
def framedPayloads (bufSize : Nat) (calls : List WriterCall) : List (List UInt8) :=
  (Transducer.run FramingSession.call ({} : FramingSession bufSize) calls).2

/-- The bytes between two frame boundaries, accepted or not. -/
def requestCall : Transducer.Step (List UInt8) WriterCall (List UInt8)
  | written, .write c => (written ++ [c], [])
  | written, .writeBuf buf => (written ++ buf, [])
  | written, .endFrame => ([], [written])
  | _, .discard => ([], [])

/-- One payload for each `end_frame()`. -/
def requestedPayloads (calls : List WriterCall) : List (List UInt8) :=
  (Transducer.run requestCall [] calls).2

namespace FramingSession

variable {bufSize : Nat}

/-- The overflow flag says that something was refused, which is so exactly when
more was written than fits; until then the buffer holds what was written. -/
structure Faithful (session : FramingSession bufSize) : Prop where
  flag : session.accepted = !session.writer.overflow
  stored : session.accepted = true → session.writer.buf.items = session.written
  fits : session.accepted = true ↔ session.written.length ≤ bufSize

theorem faithful_fresh (writer : FramingWriter bufSize) :
    Faithful ({ writer := writer.discard } : FramingSession bufSize) :=
  ⟨rfl, fun _ => rfl, by simp⟩

/-- A block that was taken whole leaves the session as faithful as it was. -/
theorem faithful_stored (session : FramingSession bufSize) (faithful : session.Faithful)
    (block : List UInt8) (buf : BoundedBuffer UInt8 bufSize)
    (items : buf.items = session.writer.buf.items ++ block) :
    Faithful { writer := { session.writer with buf }, written := session.written ++ block,
               accepted := session.accepted } := by
  have bounded := buf.bounded
  have fits := faithful.fits
  refine ⟨faithful.flag, fun accepted => by rw [items, faithful.stored accepted], ?_⟩
  rw [items, List.length_append] at bounded
  simp only [List.length_append]
  constructor
  · intro accepted
    rw [faithful.stored accepted] at bounded
    exact bounded
  · intro short
    exact fits.mpr (by omega)

/-- After a refusal the session asks for more than fits. -/
theorem faithful_refused (session : FramingSession bufSize) (faithful : session.Faithful)
    (block : List UInt8) (writer : FramingWriter bufSize) (overflow : writer.overflow = true)
    (long : bufSize < session.writer.buf.items.length + block.length) :
    Faithful { writer, written := session.written ++ block, accepted := false } := by
  refine ⟨by rw [overflow]; rfl, fun accepted => (by cases accepted), ?_⟩
  constructor
  · intro accepted
    cases accepted
  · intro short
    simp only [List.length_append] at short
    have accepted := faithful.fits.mpr (by omega)
    rw [faithful.stored accepted] at long
    omega

theorem faithful_call (session : FramingSession bufSize) (call : WriterCall)
    (faithful : session.Faithful) : (FramingSession.call session call).1.Faithful := by
  cases call with
  | write c =>
    cases session.writer.write_cases c with
    | inl room =>
      obtain ⟨buf, one, items⟩ := room
      simp only [FramingSession.call, one, beq_self_eq_true, Bool.and_true]
      exact faithful_stored session faithful [c] buf items
    | inr refusal =>
      obtain ⟨refused, full⟩ := refusal
      simp only [FramingSession.call, refused, Nat.reduceBEq, Bool.and_false]
      exact faithful_refused session faithful [c] _ rfl (by simp [full])
  | writeBuf buf =>
    cases session.writer.writeBuf_cases buf with
    | inl room =>
      obtain ⟨stored, whole, items⟩ := room
      simp only [FramingSession.call, whole, beq_self_eq_true, Bool.and_true]
      exact faithful_stored session faithful buf stored items
    | inr cut =>
      obtain ⟨fewer, overflowed, long⟩ := cut
      have notAll : ((session.writer.writeBuf buf).2 == buf.length) = false := by
        simp only [beq_eq_false_iff_ne]
        omega
      simp only [FramingSession.call, notAll, Bool.and_false]
      exact faithful_refused session faithful buf _ overflowed long
  | endFrame => exact faithful_fresh session.writer
  | discard => exact faithful_fresh session.writer

/-- The writer emits the frames of the payloads that its calls ask for. -/
theorem run_eq_frames (frame : List UInt8 → List UInt8) (session : FramingSession bufSize)
    (calls : List WriterCall) (faithful : session.Faithful) :
    (Transducer.run (FramingWriter.call frame) session.writer calls).2 =
      (Transducer.run FramingSession.call session calls).2.flatMap frame := by
  induction calls generalizing session with
  | nil => rfl
  | cons call calls inductionHypothesis =>
    have later := inductionHypothesis _ (faithful_call session call faithful)
    simp only [Transducer.run_cons, List.flatMap_append]
    rw [← later]
    cases call with
    | write c => rfl
    | writeBuf buf => rfl
    | discard => rfl
    | endFrame =>
      have flag := faithful.flag
      simp only [FramingWriter.call, FramingWriter.endFrame, FramingSession.call]
      cases overflow : session.writer.overflow with
      -- after a refusal nothing is framed, on either side
      | true => simp [overflow, flag]
      | false =>
        have accepted : session.accepted = true := by rw [flag, overflow]; rfl
        simp [accepted, faithful.stored accepted]

/-- What is framed is what was asked for, as far as it fits. -/
theorem run_eq_requested (session : FramingSession bufSize) (calls : List WriterCall)
    (faithful : session.Faithful) :
    (Transducer.run FramingSession.call session calls).2 =
      (Transducer.run requestCall session.written calls).2.filter
        (fun payload => decide (payload.length ≤ bufSize)) := by
  induction calls generalizing session with
  | nil => rfl
  | cons call calls inductionHypothesis =>
    have later := inductionHypothesis _ (faithful_call session call faithful)
    simp only [Transducer.run_cons, List.filter_append, later]
    cases call with
    | write c => rfl
    | writeBuf buf => rfl
    | discard => rfl
    | endFrame =>
      have fits := faithful.fits
      simp only [FramingSession.call, requestCall]
      by_cases short : session.written.length ≤ bufSize
      · simp [fits.mpr short, short]
      · have refused : session.accepted = false := by
          rw [← Bool.not_eq_true, fits]
          exact short
        simp [refused, short]

end FramingSession

theorem output_eq_frames {bufSize : Nat} (frame : List UInt8 → List UInt8)
    (calls : List WriterCall) :
    (Transducer.run (FramingWriter.call frame) ({} : FramingWriter bufSize) calls).2 =
      (framedPayloads bufSize calls).flatMap frame :=
  FramingSession.run_eq_frames frame {} calls (FramingSession.faithful_fresh {})

theorem framedPayloads_eq (bufSize : Nat) (calls : List WriterCall) :
    framedPayloads bufSize calls =
      (requestedPayloads calls).filter (fun payload => decide (payload.length ≤ bufSize)) :=
  FramingSession.run_eq_requested {} calls (FramingSession.faithful_fresh {})

theorem mem_framedPayloads {bufSize : Nat} {calls : List WriterCall} {payload : List UInt8} :
    payload ∈ framedPayloads bufSize calls ↔
      payload ∈ requestedPayloads calls ∧ payload.length ≤ bufSize := by
  rw [framedPayloads_eq, List.mem_filter, decide_eq_true_eq]

end EmbeddedBridge.Cpp
