import EmbeddedBridge.Framing.Kinds
import EmbeddedBridge.Library.Layers
import EmbeddedBridge.Verified.CobsCapacity
import EmbeddedBridge.Verified.HdlcDelivery
import EmbeddedBridge.Verified.SlipDelivery

/-! # The framings as layers

Each of the framings, in either language, is a layer that carries payloads over a stream of
bytes.  What the framers have room for is less than `bufSize` for HDLC, which keeps the
check bytes of a payload with it, and for COBS, which keeps the code bytes.
-/

namespace EmbeddedBridge

open Library

variable {bufSize : Nat}

namespace HdlcFramer

/-- The next flag brings nothing to light. -/
def Ready (language : Language) (framer : HdlcFramer bufSize) : Prop :=
  framer.flowControl = false ∧ (framer.processByte language Hdlc.flag).2 = []

theorem ready_fresh (language : Language) : Ready language ({} : HdlcFramer bufSize) := ⟨rfl, rfl⟩

variable (bufSize) in
def layer (language : Language) : Layer (HdlcFramer bufSize) UInt8 (List UInt8) (List UInt8) where
  encode := HdlcFrameEncoder.encode language
  step := processByte language
  start := {}
  Ready := Ready language
  Fits payload := payload.length + 2 ≤ bufSize
  delivers payload := [payload]
  ready_start := ready_fresh language
  run_encode framer payload ready fits :=
    ⟨clean, ⟨rfl, rfl⟩, by rw [run_encode framer payload ready.1 fits, ready.2]; rfl⟩

end HdlcFramer

namespace SlipFramer

variable (bufSize) in
/-- An empty payload is not handed on. -/
def layer : Layer (SlipFramer bufSize) UInt8 (List UInt8) (List UInt8) where
  encode := SlipFrameEncoder.encode
  step := processByte
  start := {}
  Ready framer := framer = {}
  Fits payload := payload.length ≤ bufSize
  delivers := delivered
  ready_start := rfl
  run_encode framer payload ready fits :=
    ⟨{}, rfl, by rw [run_encode framer payload fits, ready]; rfl⟩

end SlipFramer

namespace CobsFramer

variable (bufSize) in
def layer (language : Language) : Layer (CobsFramer bufSize) UInt8 (List UInt8) (List UInt8) where
  encode := Python.CobsFrameEncoder.encode
  step := processByte language
  start := {}
  Ready framer := framer = {}
  Fits := Fits bufSize
  delivers payload := [payload]
  ready_start := rfl
  run_encode framer payload ready fits :=
    ⟨{}, rfl, by rw [cobsFrameEncoder_encode, ready, run_frame language payload, if_pos fits]⟩

end CobsFramer

namespace Framing

/-- `process_byte` of a framing's framer, in either language. -/
def processByteOf (language : Language) :
    (framing : Framing) → Transducer.Step (framing.Framer bufSize) UInt8 (List UInt8)
  | .hdlc => HdlcFramer.processByte language
  | .slip => SlipFramer.processByte
  | .cobs => CobsFramer.processByte language

theorem processByteOf_cpp (framing : Framing) : processByteOf .cpp framing =
    (framing.processByte : Transducer.Step (framing.Framer bufSize) UInt8 (List UInt8)) := by
  cases framing <;> rfl

/-- `reset()` of a framing's framer. -/
def reset : (framing : Framing) → framing.Framer bufSize → framing.Framer bufSize
  | .hdlc => HdlcFramer.reset
  | .slip => SlipFramer.reset
  | .cobs => CobsFramer.reset

/-- Flow control, which only HDLC has, is off. -/
def FlowsFreely : (framing : Framing) → framing.Framer bufSize → Prop
  | .hdlc => fun framer => framer.flowControl = false
  | .slip => fun _ => True
  | .cobs => fun _ => True

variable (bufSize) in
def layer (language : Language) :
    (framing : Framing) → Layer (framing.Framer bufSize) UInt8 (List UInt8) (List UInt8)
  | .hdlc => HdlcFramer.layer bufSize language
  | .slip => SlipFramer.layer bufSize
  | .cobs => CobsFramer.layer bufSize language

/-- The size of a framer that takes all payloads of `length` bytes. -/
def roomFor (length : Nat) : Framing → Nat
  | .hdlc => length + 2
  | .slip => length
  | .cobs => length + length / Cobs.fullBlock

section

variable (language : Language) (framing : Framing)

theorem layer_start : (framing.layer bufSize language).start = framing.fresh := by
  cases framing <;> rfl

theorem layer_step : (framing.layer bufSize language).step = processByteOf language framing := by
  cases framing <;> rfl

/-- All the encoders and writers frame alike. -/
theorem layer_encode : (framing.layer bufSize language).encode = framing.encode := by
  cases framing with
  | hdlc => exact hdlc_encode_languages language .python
  | slip => rfl
  | cobs => rfl

theorem layer_fits {length : Nat} (room : framing.roomFor length ≤ bufSize) {payload : List UInt8}
    (short : payload.length ≤ length) : (framing.layer bufSize language).Fits payload := by
  cases framing with
  | hdlc =>
    have room' : length + 2 ≤ bufSize := room
    change payload.length + 2 ≤ bufSize
    omega
  | slip => exact short.trans room
  | cobs =>
    have room' : length + length / Cobs.fullBlock ≤ bufSize := room
    have bound := Cobs.encode_length_le payload
    rw [Cobs.encode_length] at bound
    have blocks : payload.length / Cobs.fullBlock ≤ length / Cobs.fullBlock :=
      Nat.div_le_div_right short
    change payload.length + Cobs.fullBlocks payload ≤ bufSize
    omega

/-- What is handed on of a payload is the payload, if there is anything in it. -/
theorem layer_delivers {payload : List UInt8} (nonempty : payload ≠ []) :
    (framing.layer bufSize language).delivers payload = [payload] := by
  cases framing with
  | hdlc => rfl
  | slip => exact if_neg nonempty
  | cobs => rfl

theorem layer_flatten (payloads : List (List UInt8)) :
    (payloads.flatMap (framing.layer bufSize language).delivers).flatten = payloads.flatten := by
  induction payloads with
  | nil => rfl
  | cons payload payloads inductionHypothesis =>
    rw [List.flatMap_cons, List.flatten_append, inductionHypothesis, List.flatten_cons]
    by_cases empty : payload = []
    · rw [empty]
      cases framing <;> rfl
    · rw [framing.layer_delivers language empty, List.flatten_singleton]

end

theorem reset_eq (framing : Framing) {framer : framing.Framer bufSize}
    (free : framing.FlowsFreely framer) : framing.reset framer = framing.fresh := by
  cases framing with
  | hdlc =>
    obtain ⟨state, flowControl, buf⟩ := framer
    cases free
    rfl
  | slip => rfl
  | cobs => rfl

theorem flowsFreely_run (language : Language) (framing : Framing) {framer : framing.Framer bufSize}
    (free : framing.FlowsFreely framer) (stream : List UInt8) :
    framing.FlowsFreely (Transducer.run (processByteOf language framing) framer stream).1 := by
  refine Transducer.run_invariant _ framing.FlowsFreely (fun framer c free => ?_) framer stream free
  cases framing with
  | hdlc => exact (HdlcFramer.processByte_flowControl framer c).trans free
  | slip => trivial
  | cobs => trivial

/-- What comes out of a framing writer are the frames that it was asked for and has room
for. -/
theorem writerCall_output (framing : Framing) (calls : List Cpp.WriterCall) :
    (Transducer.run framing.writerCall ({} : Cpp.FramingWriter bufSize) calls).2 =
      (Cpp.framedPayloads bufSize calls).flatMap framing.encode := by
  cases framing with
  | hdlc =>
    rw [encode, ← hdlc_encode_languages .cpp .python]
    exact Cpp.output_eq_frames _ _
  | slip => exact Cpp.output_eq_frames _ _
  | cobs =>
    rw [encode, List.flatMap_congr fun payload _ => cobsFrameEncoder_encode payload]
    exact CobsFramer.writer_output calls

end Framing

end EmbeddedBridge
