import EmbeddedBridge.Framing.Writer

/-! # SLIP framing

`framing/slip.h` and `framing/slip.py`.  The two framers and the two encoders
agree step for step, so that one model serves both languages.
-/

namespace EmbeddedBridge

open Library

namespace Slip

def endByte : UInt8 := 0xC0
def esc : UInt8 := 0xDB
def escEnd : UInt8 := 0xDC
def escEsc : UInt8 := 0xDD

end Slip

/-! ## Framer -/

structure SlipFramer (bufSize : Nat) where
  buf : BoundedBuffer UInt8 bufSize := .empty
  error : Bool := false
  escape : Bool := false

namespace SlipFramer

open Slip

variable {bufSize : Nat}

def store (framer : SlipFramer bufSize) (c : UInt8) : SlipFramer bufSize :=
  match framer.buf.push? c with
  | some buf => { framer with buf }
  | none => { framer with error := true }

def processByte : Transducer.Step (SlipFramer bufSize) UInt8 (List UInt8) := fun framer c =>
  if c = endByte then
    ({ buf := .empty, error := false, escape := false },
      if framer.buf.items.length > 0 ∧ framer.error = false then [framer.buf.items] else [])
  -- a second ESC in a row is no error: the escape stays pending
  else if c = esc then ({ framer with escape := true }, [])
  else if framer.escape then
    let framer := { framer with escape := false }
    if c = escEnd then (framer.store endByte, [])
    else if c = escEsc then (framer.store esc, [])
    -- an invalid escape sequence
    else ({ framer with error := true }, [])
  else (framer.store c, [])

def reset (_ : SlipFramer bufSize) : SlipFramer bufSize :=
  { buf := .empty, error := false, escape := false }

/-- Everything that can be done to a framer. -/
inductive Call where
  | processByte (c : UInt8)
  | reset
deriving DecidableEq, Repr

def call : Transducer.Step (SlipFramer bufSize) Call (List UInt8)
  | framer, .processByte c => framer.processByte c
  | framer, .reset => (framer.reset, [])

end SlipFramer

/-! ## Encoder and framing writer -/

namespace Slip

def emitStuffed (c : UInt8) : List UInt8 :=
  if c = endByte then [esc, escEnd]
  else if c = esc then [esc, escEsc]
  else [c]

end Slip

open Slip in
/-- `SlipFrameEncoder.encode`, and what `SlipFramingWriter::end_frame` emits. -/
def SlipFrameEncoder.encode (payload : List UInt8) : List UInt8 :=
  [endByte] ++ payload.flatMap emitStuffed ++ [endByte]

/-- `SlipFramingWriter` with its calls. -/
def Cpp.SlipFramingWriter.call {bufSize : Nat} :
    Transducer.Step (FramingWriter bufSize) WriterCall UInt8 :=
  FramingWriter.call SlipFrameEncoder.encode

/-! ## One byte -/

namespace SlipFramer

open Slip

variable {bufSize : Nat}

theorem processByte_end (framer : SlipFramer bufSize) :
    framer.processByte endByte =
      ({}, if framer.buf.items.length > 0 ∧ framer.error = false then [framer.buf.items] else []) := by
  rw [processByte, if_pos rfl]

/-- Only END delivers, and it empties the framer. -/
theorem processByte_delivers {framer : SlipFramer bufSize} {c : UInt8} {payload : List UInt8}
    (delivered : payload ∈ (framer.processByte c).2) :
    c = endByte ∧ framer.error = false ∧ framer.buf.items = payload ∧ payload ≠ [] := by
  unfold processByte at delivered
  split at delivered
  · rename_i isEnd
    simp only at delivered
    split at delivered
    · rename_i loaded
      rw [List.mem_singleton] at delivered
      rw [delivered]
      exact ⟨isEnd, loaded.2, rfl, List.ne_nil_of_length_pos loaded.1⟩
    · cases delivered
  split at delivered
  · cases delivered
  split at delivered
  · simp only at delivered
    split at delivered
    · cases delivered
    split at delivered <;> cases delivered
  · cases delivered

theorem processByte_esc (framer : SlipFramer bufSize) :
    framer.processByte esc = ({ framer with escape := true }, []) := rfl

theorem processByte_store (framer : SlipFramer bufSize) (c : UInt8)
    (noEscape : framer.escape = false) (notEnd : c ≠ endByte) (notEsc : c ≠ esc) :
    framer.processByte c = (framer.store c, []) := by
  simp [processByte, noEscape, notEnd, notEsc]

theorem processByte_escEnd (framer : SlipFramer bufSize) (escape : framer.escape = true) :
    framer.processByte escEnd = (({ framer with escape := false }).store endByte, []) := by
  simp [processByte, escape, escEnd, endByte, esc]

theorem processByte_escEsc (framer : SlipFramer bufSize) (escape : framer.escape = true) :
    framer.processByte escEsc = (({ framer with escape := false }).store esc, []) := by
  simp [processByte, escape, escEsc, escEnd, endByte, esc]

theorem store_of_room (framer : SlipFramer bufSize) (c : UInt8)
    (room : framer.buf.items.length < bufSize) :
    ∃ buf, framer.store c = { framer with buf } ∧ buf.items = framer.buf.items ++ [c] := by
  obtain ⟨buf, pushed, items⟩ := framer.buf.push?_of_room c room
  exact ⟨buf, by rw [store, pushed], items⟩

end SlipFramer

end EmbeddedBridge
