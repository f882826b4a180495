import EmbeddedBridge.Framing.Line
import EmbeddedBridge.Message.Delivery

/-! # Lines, framed and read

`LineFramer` decodes and then cuts, `MessageReader` cuts and then decodes.  On a stream
without SOH they come to the same lines, and the framer does so however the stream is
cut into chunks.  (The reader does not: it decodes every chunk on its own.)
-/

namespace EmbeddedBridge

open Library

/-! ## A stream of texts -/

/-- The text that has begun, if any of it has been read. -/
def Wire.Open.ofText : Raw → Wire.Open Raw
  | [] => .idle
  | raw => .text raw

open Wire in
/-- Without SOH the items of a stream are its lines. -/
theorem run_texts (wrap : Nat → Nat) (line stream : Raw) (plain : soh ∉ stream) :
    Transducer.run (step wrap) (Open.ofText line) stream =
      (Open.ofText (Transducer.run (Lines.step newline) line stream).1,
        (Transducer.run (Lines.step newline) line stream).2.map (.text · false)) := by
  induction stream generalizing line with
  | nil => rfl
  | cons c stream inductionHypothesis =>
    rw [List.mem_cons, not_or] at plain
    obtain ⟨notSoh, plain⟩ := plain
    have notSoh : c ≠ soh := Ne.symm notSoh
    by_cases ends : c = newline
    · have one : Lines.step newline line c = ([], [line]) := if_pos ends
      have item : step wrap (Open.ofText line) c = (Open.ofText [], [.text line false]) := by
        cases line with
        | nil => simp [Open.ofText, step, ends]; decide
        | cons first line => simp [Open.ofText, step, ends]
      rw [Transducer.run_cons, item, inductionHypothesis _ plain, Transducer.run_cons, one]
      rfl
    · have one : Lines.step newline line c = (line ++ [c], []) := if_neg ends
      have item : step wrap (Open.ofText line) c = (Open.ofText (line ++ [c]), []) := by
        cases line with
        | nil => simp [Open.ofText, step, ends, notSoh]
        | cons first line => simp [Open.ofText, step, ends, notSoh]
      rw [Transducer.run_cons, item, inductionHypothesis _ plain, Transducer.run_cons, one]
      rfl

namespace Python

/-- The lines of the decoded stream are the decoded lines of the stream. -/
theorem framed_lines (stream : List UInt8) :
    (LineFramer.feed {} stream).messages =
      (Lines.lines newline stream).map fun raw => stripReturn carriageReturn (Utf8.decode raw) := by
  have decoded := Utf8.run_decoded newline (by decide) (by decide) [] stream
  have start : Transducer.run Utf8.step .start [] = (.start, []) := rfl
  rw [start] at decoded
  have framed : (Transducer.run LineFramer.frame (.start, []) stream).2 =
      (Lines.lines newline stream).map Utf8.decode := congrArg Prod.snd decoded
  rw [LineFramer.feed_eq {} List.not_mem_nil, List.nil_append, framed, List.map_map]
  rfl

/-- Without SOH the reader's messages are its lines, decoded. -/
theorem read_lines (stream : List UInt8) (plain : soh ∉ stream) :
    (DrainReader.feed {} stream).messages =
      (Lines.lines newline stream).map fun raw =>
        .text (stripReturn carriageReturn (Utf8.decode raw)) := by
  have delivered := (python_delivered stream).1
  have texts := run_texts lengthWrap [] stream plain
  rw [Transducer.run_singleton] at delivered
  have messages : (DrainReader.feed {} stream).messages = (deliver ({}, {}) stream).2 := rfl
  rw [messages, delivered, Wire.parse]
  have parsed : (Transducer.run (Wire.step lengthWrap) .idle stream).2 =
      (Lines.lines newline stream).map (.text · false) := congrArg Prod.snd texts
  -- fed at once, a line is decoded in one piece
  have one : ∀ raw, wholeMessages (.text raw false) =
      [.text (stripReturn carriageReturn (Utf8.decode raw))] := by
    intro raw
    rw [wholeMessages, Wire.Item.map, itemMessages, chunkPieces_decode]
  rw [parsed, List.flatMap_map, List.map_eq_flatMap]
  exact List.flatMap_congr fun raw _ => one raw

/-! ## Main result -/

/-- A framer after each chunk, with what can be drained then. -/
def LineFramer.feedDrain : Transducer.Step LineFramer (List UInt8) (List Char) :=
  fun framer data => (framer.feed data).drain

theorem run_feedDrain (framer : LineFramer) (plain : '\n' ∉ framer.buf)
    (drained : framer.messages = []) (chunks : List (List UInt8)) :
    (Transducer.run LineFramer.feedDrain framer chunks).2 =
      (framer.feed chunks.flatten).messages := by
  induction chunks generalizing framer with
  | nil =>
    rw [LineFramer.feed_eq framer plain, drained]
    rfl
  | cons chunk chunks inductionHypothesis =>
    have plain' := LineFramer.feed_plain framer plain chunk
    have later := inductionHypothesis (framer.feed chunk).drain.1 plain' rfl
    rw [LineFramer.feed_eq (framer.feed chunk).drain.1 plain', LineFramer.drain,
      LineFramer.feed_eq framer plain] at later
    rw [Transducer.run_cons, LineFramer.feedDrain, LineFramer.drain,
      LineFramer.feed_eq framer plain, later, LineFramer.feed_eq framer plain, drained,
      List.flatten_cons, Transducer.run_append]
    simp

/-- The lines that are drained, at the end or after each chunk, are those of the stream
in one chunk, and those that a message reader makes of it when there is no SOH. -/
theorem drained_lines (chunks : List (List UInt8)) :
    (chunks.foldl LineFramer.feed {}).drain.2 = (LineFramer.feed {} chunks.flatten).drain.2 ∧
    (Transducer.run LineFramer.feedDrain {} chunks).2 =
      (LineFramer.feed {} chunks.flatten).drain.2 ∧
    (soh ∉ chunks.flatten → (DrainReader.feed {} chunks.flatten).drain.2 =
      (chunks.foldl LineFramer.feed {}).drain.2.map .text) := by
  have framed := LineFramer.foldl_feed {} List.not_mem_nil chunks
  refine ⟨by rw [framed], run_feedDrain {} List.not_mem_nil rfl chunks, fun plain => ?_⟩
  rw [framed, LineFramer.drain, DrainReader.drain, framed_lines, read_lines _ plain, List.map_map]
  rfl

/-- A character cut in two, a lone first byte before a newline, and CRLF cut in two. -/
theorem drained_lines_cut :
    (DrainReader.feed {} [0xC3, 0xA9, 0xE2, 0x0A, 0x0D, 0x0A]).drain.2 =
      ([[0xC3], [0xA9, 0xE2], [0x0A, 0x0D], [0x0A]].foldl LineFramer.feed {}).drain.2.map .text :=
  (drained_lines [[0xC3], [0xA9, 0xE2], [0x0A, 0x0D], [0x0A]]).2.2 (by decide)

end Python

end EmbeddedBridge
