import EmbeddedBridge.Framing.Hdlc
import EmbeddedBridge.Framing.Slip
import EmbeddedBridge.Framing.WriterArrays

/-! # The three framings

HDLC, SLIP and COBS side by side: what the host's encoder makes of a payload, what
the device's writer emits for it, and the device's framer.  `frameArrays_eq` says
that the writers emit what the encoders do.
-/

namespace EmbeddedBridge

open Library

inductive Framing where
  | hdlc
  | slip
  | cobs
deriving DecidableEq, Repr

namespace Framing

/-- `encode` of the host's frame encoder. -/
def encode : Framing → List UInt8 → List UInt8
  | .hdlc => HdlcFrameEncoder.encode .python
  | .slip => SlipFrameEncoder.encode
  | .cobs => Python.CobsFrameEncoder.encode

/-- What the device's `end_frame()` emits; only COBS has a scratch array, with
anything in it to begin with. -/
def frameArrays (scratch : List UInt8 → List UInt8) : Framing → List UInt8 → Option (List UInt8)
  | .hdlc => fun payload => some (HdlcFrameEncoder.encode .cpp payload)
  | .slip => fun payload => some (SlipFrameEncoder.encode payload)
  | .cobs => fun payload => Cpp.CobsFramingWriter.frameArrays (scratch payload) payload

/-- The device's framing writer. -/
def writerCall {bufSize : Nat} :
    Framing → Transducer.Step (Cpp.FramingWriter bufSize) Cpp.WriterCall UInt8
  | .hdlc => Cpp.HdlcFramingWriter.call
  | .slip => Cpp.SlipFramingWriter.call
  | .cobs => Cpp.CobsFramingWriter.call

/-- The device's framer. -/
def Framer (bufSize : Nat) : Framing → Type
  | .hdlc => HdlcFramer bufSize
  | .slip => SlipFramer bufSize
  | .cobs => CobsFramer bufSize

def fresh {bufSize : Nat} : (framing : Framing) → framing.Framer bufSize
  | .hdlc => ({} : HdlcFramer bufSize)
  | .slip => ({} : SlipFramer bufSize)
  | .cobs => ({} : CobsFramer bufSize)

def processByte {bufSize : Nat} :
    (framing : Framing) → Transducer.Step (framing.Framer bufSize) UInt8 (List UInt8)
  | .hdlc => HdlcFramer.processByte .cpp
  | .slip => SlipFramer.processByte
  | .cobs => CobsFramer.processByte .cpp

theorem hdlc_encode_languages (left right : Language) :
    HdlcFrameEncoder.encode left = HdlcFrameEncoder.encode right := by
  funext payload
  rw [encode_eq, encode_eq, crcBytes_eq left, crcBytes_eq right]

/-- A scratch array of the writer's size has room for the encoding. -/
theorem cobs_frameArrays {bufSize : Nat} {scratch payload : List UInt8}
    (size : scratch.length = bufSize + bufSize / 254 + 2) (fits : payload.length ≤ bufSize) :
    Cpp.CobsFramingWriter.frameArrays scratch payload = some (Cobs.encode payload ++ [0]) := by
  have bound := Cobs.encode_length_le payload
  have blocks : payload.length / Cobs.fullBlock ≤ bufSize / 254 := Nat.div_le_div_right fits
  obtain ⟨spare, encoded⟩ := cpp_cobsEncode payload scratch (by omega)
  simp [Cpp.CobsFramingWriter.frameArrays, encoded]

/-- On a payload that fits, no writer leaves its arrays, and all emit what the
encoders of the host do. -/
theorem frameArrays_eq {bufSize : Nat} {scratch : List UInt8 → List UInt8} (framing : Framing)
    (size : ∀ payload, (scratch payload).length = bufSize + bufSize / 254 + 2)
    (payload : List UInt8) (fits : payload.length ≤ bufSize) :
    framing.frameArrays scratch payload = some (framing.encode payload) := by
  cases framing with
  | hdlc => exact congrArg some (congrFun (hdlc_encode_languages .cpp .python) payload)
  | slip => rfl
  | cobs =>
    exact (cobs_frameArrays (size payload) fits).trans
      (congrArg some (cobsFrameEncoder_encode payload).symm)

end Framing

end EmbeddedBridge
