import EmbeddedBridge.Framing.Print
import EmbeddedBridge.Verified.FramingLayers

/-! # Printing into buffers and frames

A `BufferWriter` has the beginning of what has been printed since it was cleared
(`captured`).  A framing writer that is printed to puts the text between two ends of a frame
into one frame, or drops it as a whole, so that a host that has room for the frames reads the
texts as they were printed (`printed_frames`).
-/

namespace EmbeddedBridge.Cpp

open Library

/-! ## What a buffer has -/

theorem cString_append_nul (text rest : List UInt8) : cString (text ++ 0 :: rest) = cString text := by
  induction text with
  | nil => rfl
  | cons c text inductionHypothesis =>
    rw [cString] at inductionHypothesis ⊢
    rw [List.cons_append, List.takeWhile_cons, inductionHypothesis, cString, cString,
      List.takeWhile_cons]

namespace BufferWriter

variable {n : Nat}

/-- The buffer has as much of the text as there is room for, and then a NUL. -/
structure Captures (text : List UInt8) (writer : BufferWriter n) : Prop where
  pos : writer.pos = min text.length n
  taken : writer.buf.toList.take writer.pos = text.take n
  ends : writer.buf.toList[writer.pos]? = some 0
  overflow : writer.overflow = true ↔ n < text.length

theorem captures_clear (writer : BufferWriter n) : Captures [] writer.clear where
  pos := (Nat.zero_min n).symm
  taken := List.take_zero.trans List.take_nil.symm
  ends := by simp [clear, Vector.toList_set]
  overflow := by simp [clear]

theorem captures_write {text : List UInt8} {writer : BufferWriter n}
    (captures : Captures text writer) (c : UInt8) :
    Captures (text ++ [c]) (write writer c).1 ∧
      writer.pos + (write writer c).2 = (write writer c).1.pos := by
  have pos := captures.pos
  have overflow := captures.overflow
  have lengthAfter : (text ++ [c]).length = text.length + 1 := List.length_append
  rw [write]
  split
  next room =>
    have short : text.length < n := by omega
    have all : writer.pos = text.length := by omega
    have taken := captures.taken
    rw [List.take_of_length_le short.le, all] at taken
    refine ⟨⟨?_, ?_, ?_, ?_⟩, rfl⟩
    · simp only
      omega
    · have fits : (text ++ [c]).length ≤ n := by omega
      have inside : text.length < writer.buf.toList.length := by
        rw [Vector.length_toList]
        omega
      simp only [Vector.toList_set, all]
      rw [List.take_of_length_le fits, List.take_set_of_le (Nat.le_refl _), List.take_add_one,
        List.take_set_of_le (Nat.le_refl _), taken, List.getElem?_set_self inside]
      rfl
    · simp [Vector.toList_set, room]
    · simp only [overflow]
      omega
  next full =>
    refine ⟨⟨?_, ?_, captures.ends, ?_⟩, rfl⟩
    · simp only
      omega
    · simp only
      rw [captures.taken, List.take_append_of_le_length (by omega)]
    · simp only [true_iff]
      omega

theorem captures_writeBuf {text : List UInt8} {writer : BufferWriter n}
    (captures : Captures text writer) (buf : List UInt8) :
    Captures (text ++ buf) (write.writeBuf writer buf).1 ∧
      writer.pos + (write.writeBuf writer buf).2 = (write.writeBuf writer buf).1.pos := by
  induction buf using List.reverseRecOn with
  | nil => exact ⟨by simpa [Writer.writeBuf] using captures, rfl⟩
  | append_singleton buf c inductionHypothesis =>
    obtain ⟨before, counted⟩ := inductionHypothesis
    obtain ⟨after, one⟩ := captures_write before c
    rw [Writer.writeBuf_append, Writer.writeBuf_singleton, ← List.append_assoc]
    exact ⟨after, by simp only; omega⟩

/-- The text as it is read back from the buffer. -/
theorem str_of_captures {text : List UInt8} {writer : BufferWriter n}
    (captures : Captures text writer) : writer.str = some (cString (text.take n)) := by
  obtain ⟨inside, nul⟩ := List.getElem?_eq_some_iff.mp captures.ends
  have split : writer.buf.toList = text.take n ++ 0 :: writer.buf.toList.drop (writer.pos + 1) := by
    rw [← captures.taken, ← nul, List.getElem_cons_drop, List.take_append_drop]
  rw [str, if_pos (List.mem_of_getElem? captures.ends), split, cString_append_nul]

/-- What is known after any calls: the text since the last `clear()`, and how much of it has
been accepted. -/
theorem captures_calls (operand : Operand) (writer : BufferWriter n) (calls : List Call) :
    let after := calls.foldl (call operand) (writer.clear, 0)
    Captures (calls.foldl (asked operand) []) after.1 ∧ after.2 = after.1.pos := by
  intro after
  induction calls using List.reverseRecOn with
  | nil => exact ⟨captures_clear writer, rfl⟩
  | append_singleton calls last inductionHypothesis =>
    obtain ⟨captures, counted⟩ := inductionHypothesis
    simp only [after, List.foldl_append, List.foldl_cons, List.foldl_nil]
    cases last with
    | print last =>
      obtain ⟨later, one⟩ := captures_writeBuf captures (last.asks operand)
      simp only [call, asked, Writer.call_eq, counted]
      exact ⟨later, one⟩
    | clear => exact ⟨captures_clear _, rfl⟩

/-- Whatever is printed, with whatever in the array at first: `str()` ends within it and is the
beginning of the text since the last `clear()`, `overflowed()` says whether that is all of it,
and the counts that the calls have returned add up to `len()`. -/
theorem captured (operand : Operand) (writer : BufferWriter n) (calls : List Call) :
    let after := calls.foldl (call operand) (writer.clear, 0)
    let text := calls.foldl (asked operand) []
    after.1.str = some (cString (text.take n)) ∧ after.1.pos = min text.length n ∧
      (after.1.overflow = true ↔ n < text.length) ∧ after.2 = min text.length n := by
  obtain ⟨captures, counted⟩ := captures_calls operand writer calls
  exact ⟨str_of_captures captures, captures.pos, captures.overflow, counted.trans captures.pos⟩

end BufferWriter

/-! ## What a frame has -/

/-- What can be called on a framing writer. -/
inductive DeviceCall where
  | print (call : PrintCall)
  | endFrame
  | discard
deriving DecidableEq, Repr

/-- The texts between the ends of frames. -/
def printedTexts (operand : Operand) : Transducer.Step (List UInt8) DeviceCall (List UInt8)
  | text, .print call => (text ++ call.asks operand, [])
  | text, .endFrame => ([], [text])
  | _, .discard => ([], [])

variable {writerSize : Nat}

/-- A call on the framing writer, and what goes downstream. -/
def printing (framing : Framing) (operand : Operand) :
    Transducer.Step (FramingWriter writerSize) DeviceCall UInt8
  | writer, .print call => (Writer.call FramingWriter.write operand call writer |>.1, [])
  | writer, .endFrame => framing.writerCall writer .endFrame
  | writer, .discard => framing.writerCall writer .discard

/-- The same as a call of the writer. -/
def DeviceCall.written (operand : Operand) : DeviceCall → WriterCall
  | .print call => .writeBuf (call.asks operand)
  | .endFrame => .endFrame
  | .discard => .discard

theorem printing_eq (framing : Framing) (operand : Operand) (writer : FramingWriter writerSize)
    (call : DeviceCall) :
    printing framing operand writer call = framing.writerCall writer (call.written operand) := by
  cases call with
  | print call =>
    rw [printing, Writer.call_eq]
    cases framing <;> rfl
  | endFrame => rfl
  | discard => rfl

theorem printedTexts_eq (operand : Operand) (text : List UInt8) (call : DeviceCall) :
    printedTexts operand text call = requestCall text (call.written operand) := by
  cases call <;> rfl

theorem printing_output (framing : Framing) (operand : Operand) (calls : List DeviceCall) :
    (Transducer.run (printing framing operand) ({} : FramingWriter writerSize) calls).2 =
      ((Transducer.run (printedTexts operand) [] calls).2.filter
        fun text => decide (text.length ≤ writerSize)).flatMap framing.encode := by
  rw [Transducer.run_comap framing.writerCall _ (printing_eq framing operand),
    Transducer.run_comap requestCall _ (printedTexts_eq operand), framing.writerCall_output,
    framedPayloads_eq]
  rfl

/-- Between two frames a framing writer has nothing, and no overflow. -/
theorem printing_boundary (framing : Framing) (operand : Operand) (writer : FramingWriter writerSize)
    {boundary : DeviceCall} (ends : boundary = .endFrame ∨ boundary = .discard) :
    (printing framing operand writer boundary).1 = {} := by
  rw [printing_eq]
  cases ends with
  | inl ends =>
    rw [ends]
    cases framing <;> exact FramingWriter.run_endFrame _ writer []
  | inr ends =>
    rw [ends]
    cases framing <;> rfl

/-- All of the text has been accepted if and only if there is room for it. -/
theorem counts_printed (operand : Operand) (calls : List PrintCall) :
    (Writer.run FramingWriter.write operand calls ({} : FramingWriter writerSize)).2.sum =
        (calls.flatMap (PrintCall.asks operand)).length ↔
      (calls.flatMap (PrintCall.asks operand)).length ≤ writerSize := by
  let text := calls.flatMap (PrintCall.asks operand)
  have counted := congrArg Prod.snd
    (Writer.run_eq FramingWriter.write operand calls ({} : FramingWriter writerSize))
  have same : Writer.writeBuf FramingWriter.write ({} : FramingWriter writerSize) text =
      ({} : FramingWriter writerSize).writeBuf text := rfl
  rw [same] at counted
  simp only at counted
  rw [counted]
  cases ({} : FramingWriter writerSize).writeBuf_cases text with
  | inl whole =>
    obtain ⟨stored, accepted, items⟩ := whole
    have bounded := stored.bounded
    rw [items] at bounded
    rw [accepted]
    exact iff_of_true rfl bounded
  | inr cut =>
    obtain ⟨fewer, _, long⟩ := cut
    refine iff_of_false fewer.ne ?_
    change ¬ text.length ≤ writerSize
    change writerSize < 0 + text.length at long
    omega

/-! ## Main result -/

open Python in
/-- Anything is printed to a framing writer, and its frames ended or discarded at any time.
A host that has room for the writer's frames gets, wherever the stream is cut, the texts
between the ends of frames for which the writer has room, each as a frame of its own; and the
counts that the calls since the last end of a frame have returned say which these are. -/
theorem printed_frames (framing : Framing) (operand : Operand) (language : Language)
    (writerSize framerSize : Nat) (room : framing.roomFor writerSize ≤ framerSize)
    (calls : List DeviceCall) (chunks : List (List UInt8))
    (received : chunks.flatten =
      (Transducer.run (printing framing operand) ({} : FramingWriter writerSize) calls).2) :
    (Transducer.run (Transducer.run (Framing.processByteOf language framing))
        (framing.fresh : framing.Framer framerSize) chunks).2 =
      (Transducer.run (printedTexts operand) [] calls).2.filter (fun text =>
        decide (text.length ≤ writerSize ∧ (text ≠ [] ∨ framing ≠ .slip))) ∧
    ∀ (boundary : DeviceCall) (prints : List PrintCall),
      boundary = .endFrame ∨ boundary = .discard →
      let writer := (Transducer.run (printing framing operand) ({} : FramingWriter writerSize)
        (calls ++ [boundary])).1
      let text := prints.flatMap (PrintCall.asks operand)
      (Writer.run FramingWriter.write operand prints writer).2.sum = text.length ↔
        text.length ≤ writerSize := by
  constructor
  · have delivers (text : List UInt8) : (framing.layer framerSize language).delivers text =
        [text].filter fun text => decide (text ≠ [] ∨ framing ≠ .slip) := by
      by_cases empty : text = []
      · rw [empty]
        cases framing <;> rfl
      · rw [framing.layer_delivers language empty, List.filter_singleton]
        simp [empty]
    have delivered := (framing.layer framerSize language).delivered
      (framing.layer framerSize language).ready_start
      ((Transducer.run (printedTexts operand) [] calls).2.filter
        fun text => decide (text.length ≤ writerSize))
      fun text member => framing.layer_fits language room
        (of_decide_eq_true (List.mem_filter.mp member).2)
    rw [framing.layer_encode, framing.layer_step, framing.layer_start] at delivered
    rw [Transducer.run_chunks, received, printing_output, delivered,
      List.flatMap_congr fun text _ => delivers text, ← List.filter_flatMap,
      List.flatMap_singleton', List.filter_filter]
    exact List.filter_congr fun text _ => by
      rw [Bool.and_comm, ← Bool.decide_and]
  · intro boundary prints ends writer text
    have emptied : writer = {} := by
      change (Transducer.run _ _ _).1 = _
      rw [Transducer.run_append, Transducer.run_singleton]
      exact printing_boundary framing operand _ ends
    rw [emptied]
    exact counts_printed operand prints

/-- A line, a number that is discarded, an empty frame, and a line that is too long. -/
theorem printed_frames_slip :
    let calls : List DeviceCall :=
      [.print (.println (some [0x68, 0xC0])), .endFrame, .print (.printInt (-12)), .discard,
        .endFrame, .print (.printlnInt 100), .endFrame]
    let chunks := [[0xC0, 0x68, 0xDB], [0xDC, 0x0D, 0x0A, 0xC0, 0xC0, 0xC0]]
    (Transducer.run (Transducer.run (Framing.processByteOf .python .slip))
        (Framing.slip.fresh : Framing.slip.Framer 4) chunks).2 =
      (Transducer.run (printedTexts .left) [] calls).2.filter (fun text =>
        decide (text.length ≤ 4 ∧ (text ≠ [] ∨ Framing.slip ≠ .slip))) ∧
    ∀ (boundary : DeviceCall) (prints : List PrintCall),
      boundary = .endFrame ∨ boundary = .discard →
      let writer := (Transducer.run (printing .slip .left) ({} : FramingWriter 4)
        (calls ++ [boundary])).1
      let text := prints.flatMap (PrintCall.asks .left)
      (Writer.run FramingWriter.write .left prints writer).2.sum = text.length ↔
        text.length ≤ 4 :=
  printed_frames .slip .left .python 4 4 (by decide) _ _ (by decide +kernel)

end EmbeddedBridge.Cpp
