import EmbeddedBridge.Library.Utf8Lines
import EmbeddedBridge.Message.Handler

/-! # Lines of text

`LineFramer` of `framing/line.py`: decodes as the bytes come, and splits what it has
buffered at newlines.
-/

namespace EmbeddedBridge.Python

open Library

structure LineFramer where
  decoder : Utf8.State := .start
  buf : List Char := []
  messages : List (List Char) := []
deriving DecidableEq, Repr

namespace LineFramer

/-- The `while` loop of `feed`, which takes one line after the other out of `_buf`. -/
def takeLines (buf : List Char) (messages : List (List Char)) : List Char × List (List Char) :=
  match _found : Lines.partition '\n' buf with
  | none => (buf, messages)
  | some (line, after) => takeLines after (messages ++ [stripReturn carriageReturn line])
termination_by buf.length
decreasing_by exact Lines.partition_length _found

def feed (framer : LineFramer) (data : List UInt8) : LineFramer :=
  let decoded := Transducer.run Utf8.step framer.decoder data
  let taken := takeLines (framer.buf ++ decoded.2) framer.messages
  { decoder := decoded.1, buf := taken.1, messages := taken.2 }

def drain (framer : LineFramer) : LineFramer × List (List Char) :=
  ({ framer with messages := [] }, framer.messages)

def reset (_ : LineFramer) : LineFramer := { decoder := .start, buf := [], messages := [] }

/-! ## What is framed -/

theorem takeLines_eq (buf : List Char) (messages : List (List Char)) :
    takeLines buf messages = (Lines.rest '\n' buf,
      messages ++ (Lines.lines '\n' buf).map (stripReturn carriageReturn)) := by
  induction buf, messages using takeLines.induct with
  | case1 buf messages none =>
    obtain ⟨lines, rest⟩ := Lines.lines_none none
    rw [takeLines, lines, rest, List.map_nil, List.append_nil]
    split
    · rfl
    · rename_i found
      cases none.symm.trans found
  | case2 buf messages line after found inductionHypothesis =>
    obtain ⟨lines, rest⟩ := Lines.lines_partition found
    rw [takeLines, lines, rest, List.map_cons]
    split
    · rename_i none
      cases found.symm.trans none
    · rename_i found'
      cases found.symm.trans found'
      rw [inductionHypothesis, List.append_assoc]
      rfl

/-- The lines of a stream of bytes, decoded as it comes. -/
def frame : Transducer.Step (Utf8.State × List Char) UInt8 (List Char) :=
  Transducer.cascade Utf8.step (Lines.step '\n')

/-- `feed` frames its bytes, as long as no line is left in the buffer. -/
theorem feed_eq (framer : LineFramer) (plain : '\n' ∉ framer.buf) (data : List UInt8) :
    let framed := Transducer.run frame (framer.decoder, framer.buf) data
    framer.feed data =
      { decoder := framed.1.1, buf := framed.1.2
        messages := framer.messages ++ framed.2.map (stripReturn carriageReturn) } := by
  simp only [feed, takeLines_eq, frame, Transducer.run_cascade, Lines.run_buffered _ _ plain]
  rfl

theorem feed_plain (framer : LineFramer) (plain : '\n' ∉ framer.buf) (data : List UInt8) :
    '\n' ∉ (framer.feed data).buf := by
  rw [feed_eq framer plain, frame, Transducer.run_cascade]
  exact Lines.rest_plain _ _ plain

/-- Chunks are framed as the stream that they make up. -/
theorem foldl_feed (framer : LineFramer) (plain : '\n' ∉ framer.buf) (chunks : List (List UInt8)) :
    chunks.foldl feed framer = framer.feed chunks.flatten := by
  induction chunks generalizing framer with
  | nil =>
    rw [feed_eq framer plain]
    simp
  | cons chunk chunks inductionHypothesis =>
    rw [List.foldl_cons, inductionHypothesis _ (feed_plain framer plain chunk),
      feed_eq _ (feed_plain framer plain chunk), feed_eq framer plain, feed_eq framer plain,
      List.flatten_cons, Transducer.run_append]
    simp

end LineFramer

end EmbeddedBridge.Python
