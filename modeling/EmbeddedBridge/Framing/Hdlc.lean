import EmbeddedBridge.Language
import EmbeddedBridge.Framing.Crc16
import EmbeddedBridge.Framing.Writer

/-! # HDLC framing

`framing/hdlc.h` and `framing/hdlc.py`.  The two framers are the same state
machine and differ only in how they compute the CRC of the buffer, as do the
encoder and the framing writer; what a language brings of its own is
`Language.crcCheck` and `Language.crcBytes`.
-/

namespace EmbeddedBridge

open Library

namespace Hdlc

def flag : UInt8 := 0x7E
def esc : UInt8 := 0x7D
def escXor : UInt8 := 0x20
def xon : UInt8 := 0x11
def xoff : UInt8 := 0x13

end Hdlc

/-- The test of `_deliver` on the whole buffer, check bytes included. -/
def Cpp.crcCheck (buf : List UInt8) : Bool :=
  Cpp.crc16HdlcRun buf ^^^ 0xFFFF == Cpp.crc16Good

def Python.crcCheck (buf : List UInt8) : Bool :=
  (Python.crc16HdlcRun buf ^^^ 0xFFFF) &&& 0xFFFF == Python.crc16Good

def Language.crcCheck : Language → List UInt8 → Bool
  | .cpp => Cpp.crcCheck
  | .python => Python.crcCheck

def Language.crcBytes : Language → List UInt8 → List UInt8
  | .cpp => Cpp.crcBytes
  | .python => Python.crcBytes

/-! ## Framer -/

inductive HdlcFramer.State where
  | idle
  | inFrame
  | escape
  | error
deriving DecidableEq, Repr

structure HdlcFramer (bufSize : Nat) where
  state : HdlcFramer.State := .idle
  flowControl : Bool := false
  buf : BoundedBuffer UInt8 bufSize := .empty

namespace HdlcFramer

open Hdlc

variable {bufSize : Nat}

def resetBuf (framer : HdlcFramer bufSize) : HdlcFramer bufSize := { framer with buf := .empty }

def store (framer : HdlcFramer bufSize) (c : UInt8) : HdlcFramer bufSize :=
  match framer.buf.push? c with
  | some buf => { framer with buf }
  | none => { framer with state := .error }

/-- The payload handed to the callback, if any. -/
def deliver (language : Language) (framer : HdlcFramer bufSize) : List (List UInt8) :=
  if framer.buf.items.length < 2 then []
  else if language.crcCheck framer.buf.items then
    [framer.buf.items.take (framer.buf.items.length - 2)]
  else []

def processByte (language : Language) :
    Transducer.Step (HdlcFramer bufSize) UInt8 (List UInt8) := fun framer c =>
  -- with flow control on, XON and XOFF are dropped in every state
  if framer.flowControl && (c == xon || c == xoff) then (framer, [])
  else match framer.state with
    | .idle =>
      if c = flag then ({ framer.resetBuf with state := .inFrame }, []) else (framer, [])
    | .inFrame =>
      -- the flag that ends a frame also begins the next one
      if c = flag then (framer.resetBuf, framer.deliver language)
      else if c = esc then ({ framer with state := .escape }, [])
      else (framer.store c, [])
    | .escape =>
      if c = flag then ({ framer.resetBuf with state := .inFrame }, [])
      -- IN_FRAME is set after the store, also where the store has just set ERROR
      else ({ framer.store (c ^^^ escXor) with state := .inFrame }, [])
    | .error =>
      if c = flag then ({ framer.resetBuf with state := .inFrame }, []) else (framer, [])

def reset (framer : HdlcFramer bufSize) : HdlcFramer bufSize :=
  { framer.resetBuf with state := .idle }

def setFlowControl (framer : HdlcFramer bufSize) (enable : Bool) : HdlcFramer bufSize :=
  { framer with flowControl := enable }

/-- Everything that can be done to a framer. -/
inductive Call where
  | processByte (c : UInt8)
  | reset
  | setFlowControl (enable : Bool)
deriving DecidableEq, Repr

def call (language : Language) : Transducer.Step (HdlcFramer bufSize) Call (List UInt8)
  | framer, .processByte c => framer.processByte language c
  | framer, .reset => (framer.reset, [])
  | framer, .setFlowControl enable => (framer.setFlowControl enable, [])

end HdlcFramer

/-! ## Encoder and framing writer -/

namespace Hdlc

def emitStuffed (c : UInt8) : List UInt8 :=
  if c = flag ∨ c = esc then [esc, c ^^^ escXor] else [c]

end Hdlc

open Hdlc in
/-- `HdlcFrameEncoder.encode`, and what `HdlcFramingWriter::end_frame` emits. -/
def HdlcFrameEncoder.encode (language : Language) (payload : List UInt8) : List UInt8 :=
  [flag] ++ payload.flatMap emitStuffed ++ (language.crcBytes payload).flatMap emitStuffed ++ [flag]

/-- `HdlcFramingWriter` with its calls. -/
def Cpp.HdlcFramingWriter.call {bufSize : Nat} :
    Transducer.Step (FramingWriter bufSize) WriterCall UInt8 :=
  FramingWriter.call (HdlcFrameEncoder.encode .cpp)

/-! ## The languages agree -/

theorem crcCheck_eq (language : Language) : language.crcCheck = Cpp.crcCheck := by
  cases language with
  | cpp => rfl
  | python =>
    funext buf
    have complement : Python.crc16HdlcRun buf ^^^ 0xFFFF =
        (Cpp.crc16HdlcRun buf ^^^ 0xFFFF).toNat := by
      rw [python_crc16HdlcRun, UInt16.toNat_xor]
      rfl
    have bound := (Cpp.crc16HdlcRun buf ^^^ 0xFFFF).toNat_lt
    have masked : (Cpp.crc16HdlcRun buf ^^^ 0xFFFF).toNat &&& 0xFFFF =
        (Cpp.crc16HdlcRun buf ^^^ 0xFFFF).toNat := by
      rw [show (0xFFFF : Nat) = 2 ^ 16 - 1 from rfl, Nat.and_two_pow_sub_one_eq_mod]
      omega
    rw [Language.crcCheck, Python.crcCheck, Cpp.crcCheck, complement, masked, Bool.eq_iff_iff,
      beq_iff_eq, beq_iff_eq, ← UInt16.toNat_inj]
    rfl

theorem crcBytes_eq (language : Language) : language.crcBytes = Cpp.crcBytes := by
  cases language with
  | cpp => rfl
  | python => funext payload; exact python_crcBytes payload

theorem crcBytes_two (language : Language) (payload : List UInt8) :
    (language.crcBytes payload).length = 2 := by
  rw [crcBytes_eq]
  exact crcBytes_length payload

/-- The framer's test passes exactly on a payload with its check bytes. -/
theorem crcCheck_iff (language : Language) (body : List UInt8) (long : 2 ≤ body.length) :
    language.crcCheck body = true ↔ ∃ payload, body = payload ++ language.crcBytes payload := by
  rw [crcCheck_eq, crcBytes_eq, Cpp.crcCheck, beq_iff_eq]
  exact residueGood_iff body long

theorem encode_eq (language : Language) (payload : List UInt8) :
    HdlcFrameEncoder.encode language payload =
      Hdlc.flag :: ((payload ++ language.crcBytes payload).flatMap Hdlc.emitStuffed ++ [Hdlc.flag]) := by
  simp [HdlcFrameEncoder.encode, List.flatMap_append]

/-! ## One byte -/

namespace HdlcFramer

open Hdlc

variable {bufSize : Nat} {language : Language}

/-- Right after a flag: in a frame, with nothing in it. -/
def clean : HdlcFramer bufSize := { state := .inFrame }

theorem store_flowControl (framer : HdlcFramer bufSize) (c : UInt8) :
    (framer.store c).flowControl = framer.flowControl := by
  unfold store
  cases framer.buf.push? c <;> rfl

/-- With flow control off, no byte turns it on. -/
theorem processByte_flowControl (framer : HdlcFramer bufSize) (c : UInt8) :
    (framer.processByte language c).1.flowControl = framer.flowControl := by
  unfold processByte
  split
  · rfl
  cases framer.state <;> simp only
  · split <;> rfl
  · split
    · rfl
    split
    · rfl
    · exact store_flowControl framer c
  · split
    · rfl
    · exact store_flowControl framer _
  · split <;> rfl

/-- A flag ends whatever was going on; only a frame that was not broken off can
be delivered. -/
theorem processByte_flag (framer : HdlcFramer bufSize) (off : framer.flowControl = false) :
    framer.processByte language flag =
      (clean, if framer.state = .inFrame then framer.deliver language else []) := by
  obtain ⟨state, flowControl, buf⟩ := framer
  cases off
  cases state <;> rfl

theorem deliver_length_le (language : Language) (framer : HdlcFramer bufSize) :
    (framer.deliver language).length ≤ 1 := by
  unfold deliver
  split
  · simp
  split <;> simp

/-- A payload on delivery lies in the buffer, its check bytes after it. -/
theorem mem_deliver {framer : HdlcFramer bufSize} {payload : List UInt8} :
    payload ∈ framer.deliver language ↔
      framer.buf.items = payload ++ language.crcBytes payload := by
  unfold deliver
  split
  · rename_i short
    -- too short even for the check bytes of an empty payload
    refine ⟨fun member => (by cases member), fun loaded => ?_⟩
    rw [loaded, List.length_append, crcBytes_two] at short
    omega
  rename_i long
  have check := crcCheck_iff language framer.buf.items (by omega)
  split
  · rename_i good
    obtain ⟨inner, loaded⟩ := check.mp good
    -- what is handed on is the buffer without its last two bytes
    have stripped : framer.buf.items.take (framer.buf.items.length - 2) = inner := by
      rw [loaded, List.length_append, crcBytes_two, Nat.add_sub_cancel]
      exact List.take_left
    rw [stripped, List.mem_singleton]
    constructor
    · intro same
      rw [same]
      exact loaded
    · intro loaded'
      rw [loaded] at loaded'
      exact (List.append_inj' loaded' (by rw [crcBytes_two, crcBytes_two])).1.symm
  · rename_i bad
    exact ⟨fun member => (by cases member), fun loaded => absurd (check.mpr ⟨payload, loaded⟩) bad⟩

/-- A delivered payload left room for its check bytes. -/
theorem deliver_fits {framer : HdlcFramer bufSize} {payload : List UInt8}
    (delivered : payload ∈ framer.deliver language) : payload.length + 2 ≤ bufSize := by
  have bounded := framer.buf.bounded
  rw [mem_deliver.mp delivered, List.length_append, crcBytes_two] at bounded
  exact bounded

/-- Only a flag delivers, and only from within a frame. -/
theorem processByte_delivers {framer : HdlcFramer bufSize} {c : UInt8} {payload : List UInt8}
    (delivered : payload ∈ (framer.processByte language c).2) :
    c = flag ∧ framer.state = .inFrame ∧ payload ∈ framer.deliver language := by
  unfold processByte at delivered
  split at delivered
  · cases delivered
  cases inState : framer.state <;> rw [inState] at delivered <;> simp only at delivered
  · split at delivered <;> cases delivered
  · split at delivered
    · rename_i isFlag
      exact ⟨isFlag, rfl, delivered⟩
    split at delivered <;> cases delivered
  · split at delivered <;> cases delivered
  · split at delivered <;> cases delivered

theorem processByte_store (language : Language) (framer : HdlcFramer bufSize) (c : UInt8)
    (off : framer.flowControl = false) (inFrame : framer.state = .inFrame) (notFlag : c ≠ flag)
    (notEsc : c ≠ esc) : framer.processByte language c = (framer.store c, []) := by
  simp [processByte, off, inFrame, notFlag, notEsc]

theorem processByte_esc (language : Language) (framer : HdlcFramer bufSize)
    (off : framer.flowControl = false) (inFrame : framer.state = .inFrame) :
    framer.processByte language esc = ({ framer with state := .escape }, []) := by
  simp [processByte, off, inFrame, flag, esc]

theorem processByte_escaped (language : Language) (framer : HdlcFramer bufSize) (c : UInt8)
    (off : framer.flowControl = false) (escape : framer.state = .escape) (notFlag : c ≠ flag) :
    framer.processByte language c =
      ({ framer.store (c ^^^ escXor) with state := .inFrame }, []) := by
  simp [processByte, off, escape, notFlag]

theorem store_of_room (framer : HdlcFramer bufSize) (c : UInt8)
    (room : framer.buf.items.length < bufSize) :
    ∃ buf, framer.store c = { framer with buf } ∧ buf.items = framer.buf.items ++ [c] := by
  obtain ⟨buf, pushed, items⟩ := framer.buf.push?_of_room c room
  exact ⟨buf, by rw [store, pushed], items⟩

theorem store_of_full (framer : HdlcFramer bufSize) (c : UInt8)
    (full : ¬ framer.buf.items.length < bufSize) :
    framer.store c = { framer with state := .error } := by
  rw [store, BoundedBuffer.push?_of_full full]

end HdlcFramer

end EmbeddedBridge
