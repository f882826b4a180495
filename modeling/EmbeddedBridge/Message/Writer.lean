import EmbeddedBridge.Library.Methods
import EmbeddedBridge.Framing.Writer
import EmbeddedBridge.Message.Handler
import EmbeddedBridge.Message.Wire

/-! # Message writers

`MessageWriter` of `message.h` and `message.py`.  The device's writer has no
state and passes everything on to its output, so that a message is a list of
calls.  The host's writer collects a streamed message and raises when it is used
out of turn; an exception leaves the writer as it was changed up to there.

`send_bytes` and `runMethod_send` say that both write the wire of the message they
are given, whole or streamed.
-/

namespace EmbeddedBridge

open Library

/-- A message and how it is written: at once, or streamed in the given chunks. -/
structure Sent (τ : Type) where
  message : Message τ
  streamed : Option (List (List UInt8)) := none

/-- The bytes of a message between its delimiters. -/
def Message.body {τ : Type} (encode : List τ → List UInt8) : Message τ → List UInt8
  | .text line => encode line
  | .binary payload => payload

def Message.wire {τ : Type} (encode : List τ → List UInt8) : Message τ → List UInt8
  | .text line => Wire.textWire (encode line)
  | .binary payload => Wire.binaryWire payload

/-- The chunks of a streamed message make up its body. -/
def Sent.Whole {τ : Type} (encode : List τ → List UInt8) (sent : Sent τ) : Prop :=
  ∀ chunks, sent.streamed = some chunks → chunks.flatten = sent.message.body encode

/-! ## C++ -/

namespace Cpp.MessageWriter

def writeText (text : List UInt8) : List WriterCall := [.writeBuf text, .write newline]

def writeBinaryHeader (length : UInt32) : List WriterCall :=
  [.write soh, .write binaryProtocolV1, .writeBuf (encodeVarint length)]

def writeBinary (payload : List UInt8) : List WriterCall :=
  writeBinaryHeader (UInt32.ofNat payload.length) ++ [.writeBuf payload]

def beginText : List WriterCall := []

def beginBinary (length : UInt32) : List WriterCall := writeBinaryHeader length

def write (data : List UInt8) : List WriterCall := [.writeBuf data]

def endText : List WriterCall := [.write newline]

def endBinary : List WriterCall := []

def send (sent : Sent UInt8) : List WriterCall :=
  match sent.message, sent.streamed with
  | .text line, none => writeText line
  | .binary payload, none => writeBinary payload
  | .text _, some chunks => beginText ++ chunks.flatMap write ++ endText
  | .binary payload, some chunks =>
    beginBinary (UInt32.ofNat payload.length) ++ chunks.flatMap write ++ endBinary

theorem header_bytes {length : Nat} (small : length < 2 ^ 32) :
    (writeBinaryHeader (UInt32.ofNat length)).flatMap WriterCall.bytes =
      [soh, binaryProtocolV1] ++ Leb128.encode length := by
  have same : (UInt32.ofNat length).toNat = length := by
    rw [UInt32.toNat_ofNat']
    omega
  simp [writeBinaryHeader, WriterCall.bytes, cpp_encodeVarint, same]

theorem write_bytes (chunks : List (List UInt8)) :
    (chunks.flatMap write).flatMap WriterCall.bytes = chunks.flatten := by
  induction chunks with
  | nil => rfl
  | cons chunk chunks inductionHypothesis =>
    rw [List.flatMap_cons, List.flatMap_append, inductionHypothesis]
    simp [write, WriterCall.bytes]

theorem send_bytes (sent : Sent UInt8) (whole : sent.Whole id)
    (small : ∀ payload, sent.message = .binary payload → payload.length < 2 ^ 32) :
    (send sent).flatMap WriterCall.bytes = sent.message.wire id := by
  obtain ⟨message, streamed⟩ := sent
  cases message with
  | text line =>
    cases streamed with
    | none => simp [send, writeText, WriterCall.bytes, Message.wire, Wire.textWire]
    | some chunks =>
      have body : chunks.flatten = line := whole chunks rfl
      simp [send, beginText, endText, WriterCall.bytes, Message.wire, Wire.textWire, write_bytes,
        body]
  | binary payload =>
    have header := header_bytes (small payload rfl)
    cases streamed with
    | none =>
      simp [send, writeBinary, WriterCall.bytes, Message.wire, Wire.binaryWire, header]
    | some chunks =>
      have body : chunks.flatten = payload := whole chunks rfl
      simp [send, beginBinary, endBinary, Message.wire, Wire.binaryWire, header, write_bytes, body]

end Cpp.MessageWriter

/-! ## Python -/

namespace Python

/-- `output` holds what the callable has been handed, if there is one. -/
structure MessageWriter where
  output : Option (List (List UInt8)) := none
  buf : List UInt8 := []
  inMessage : Bool := false
deriving DecidableEq, Repr

namespace MessageWriter

/-- A method: it may raise, and what it has changed by then stays changed. -/
abbrev Method := ExceptT Error (StateM MessageWriter)

def emit (wire : List UInt8) : Method Unit :=
  modify fun writer => { writer with output := writer.output.map (· ++ [wire]) }

/-- A `str` without surrogates, which `encode` would raise on. -/
def writeText (line : List Char) : Method (List UInt8) := do
  let wire := Utf8.encode line ++ [newline]
  emit wire
  return wire

def writeBinary (payload : List UInt8) : Method (List UInt8) := do
  let varint ← MonadExcept.ofExcept (encodeVarint payload.length)
  let wire := [soh, binaryProtocolV1] ++ varint ++ payload
  emit wire
  return wire

def beginText : Method Unit := do
  if (← get).inMessage then throw (.runtimeError "already in a message")
  modify fun writer => { writer with inMessage := true, buf := [] }

def beginBinary (length : Int) : Method Unit := do
  if (← get).inMessage then throw (.runtimeError "already in a message")
  modify fun writer => { writer with inMessage := true, buf := [] }
  let varint ← MonadExcept.ofExcept (encodeVarint length)
  let header := [soh, binaryProtocolV1] ++ varint
  modify fun writer => { writer with buf := writer.buf ++ header }

def write (data : List UInt8) : Method Unit := do
  if !(← get).inMessage then
    throw (.runtimeError "not in a message — call begin_text/begin_binary first")
  modify fun writer => { writer with buf := writer.buf ++ data }

/-- `end()` -/
def endMessage : Method (List UInt8) := do
  if !(← get).inMessage then throw (.runtimeError "not in a message")
  modify fun writer => { writer with inMessage := false }
  -- a message that does not begin with SOH is taken for a text
  if (← get).buf.length = 0 ∨ (← get).buf.head? ≠ some soh then
    modify fun writer => { writer with buf := writer.buf ++ [newline] }
  let wire := (← get).buf
  modify fun writer => { writer with buf := [] }
  emit wire
  return wire

def send (sent : Sent Char) : Method (List UInt8) :=
  match sent.message, sent.streamed with
  | .text line, none => writeText line
  | .binary payload, none => writeBinary payload
  | .text _, some chunks => do
    beginText
    chunks.forM write
    endMessage
  | .binary payload, some chunks => do
    beginBinary payload.length
    chunks.forM write
    endMessage

def runMethod {α : Type} (method : Method α) (writer : MessageWriter) :
    Except Error α × MessageWriter := method.run.run writer

section Run

variable {α β : Type} (writer : MessageWriter)

@[simp] theorem runMethod_pure (result : α) :
    runMethod (pure result) writer = (.ok result, writer) := rfl

@[simp] theorem runMethod_get (later : MessageWriter → Method α) :
    runMethod (get >>= later) writer = runMethod (later writer) writer := rfl

@[simp] theorem runMethod_modify (change : MessageWriter → MessageWriter)
    (later : Unit → Method α) :
    runMethod (modify change >>= later) writer = runMethod (later ()) (change writer) := rfl

@[simp] theorem runMethod_ite (condition : Prop) [Decidable condition] (method other : Method α) :
    runMethod (if condition then method else other) writer =
      if condition then runMethod method writer else runMethod other writer := by
  split <;> rfl

theorem runMethod_bind {method : Method α} {later : α → Method β} {result : α}
    {writer after : MessageWriter} (ran : runMethod method writer = (.ok result, after)) :
    runMethod (method >>= later) writer = runMethod (later result) after :=
  Methods.run_bind_ok writer ran

end Run

theorem runMethod_beginText (writer : MessageWriter) (free : writer.inMessage = false) :
    runMethod beginText writer = (.ok (), { writer with inMessage := true, buf := [] }) := by
  obtain ⟨output, buf, inMessage⟩ := writer
  cases free
  rfl

theorem runMethod_beginBinary (writer : MessageWriter) (free : writer.inMessage = false)
    (length : Nat) :
    runMethod (beginBinary length) writer =
      (.ok (), { writer with
        inMessage := true, buf := [soh, binaryProtocolV1] ++ Leb128.encode length }) := by
  obtain ⟨output, buf, inMessage⟩ := writer
  cases free
  unfold beginBinary
  rw [python_encodeVarint]
  rfl

theorem runMethod_write (writer : MessageWriter) (begun : writer.inMessage = true)
    (data : List UInt8) :
    runMethod (write data) writer = (.ok (), { writer with buf := writer.buf ++ data }) := by
  obtain ⟨output, buf, inMessage⟩ := writer
  cases begun
  rfl

theorem runMethod_writes (writer : MessageWriter) (begun : writer.inMessage = true)
    (chunks : List (List UInt8)) :
    runMethod (chunks.forM write) writer =
      (.ok (), { writer with buf := writer.buf ++ chunks.flatten }) := by
  induction chunks generalizing writer with
  | nil => rw [List.flatten_nil, List.append_nil]; rfl
  | cons chunk chunks inductionHypothesis =>
    have later := inductionHypothesis { writer with buf := writer.buf ++ chunk } begun
    simp only [List.append_assoc] at later
    have step : (chunk :: chunks).forM write = (write chunk >>= fun _ => chunks.forM write) := rfl
    rw [step, runMethod_bind (runMethod_write writer begun chunk), later,
      List.flatten_cons]

/-- The writer after a message whose wire is `wire`. -/
def sentWire (writer : MessageWriter) (wire : List UInt8) : MessageWriter :=
  { output := writer.output.map (· ++ [wire]), buf := [], inMessage := false }

theorem runMethod_endMessage (writer : MessageWriter) (begun : writer.inMessage = true) :
    runMethod endMessage writer =
      let wire :=
        if writer.buf.length = 0 ∨ writer.buf.head? ≠ some soh then writer.buf ++ [newline]
        else writer.buf
      (.ok wire, writer.sentWire wire) := by
  simp only [endMessage, emit, sentWire, runMethod_get, runMethod_modify, runMethod_ite, begun,
    runMethod_pure]
  rw [if_neg (by simp)]
  split <;> rfl

/-- A message is written as its wire, at once or streamed, and leaves the writer free. -/
theorem runMethod_send (sent : Sent Char) (writer : MessageWriter)
    (free : writer.inMessage = false) (empty : writer.buf = [])
    (whole : sent.Whole Utf8.encode)
    (plain : ∀ line, sent.message = .text line → soh ∉ Utf8.encode line) :
    runMethod (send sent) writer =
      (.ok (sent.message.wire Utf8.encode), writer.sentWire (sent.message.wire Utf8.encode)) := by
  obtain ⟨message, streamed⟩ := sent
  obtain ⟨output, buf, inMessage⟩ := writer
  cases free
  cases empty
  cases message with
  | text line =>
    cases streamed with
    | none => rfl
    | some chunks =>
      have body : chunks.flatten = Utf8.encode line := whole chunks rfl
      -- a line without an SOH does not look like a binary message to `end()`
      have isText : (Utf8.encode line).length = 0 ∨ (Utf8.encode line).head? ≠ some soh := by
        refine .inr fun begins => plain line rfl (List.mem_of_head? begins)
      simp only [send]
      rw [runMethod_bind (runMethod_beginText _ rfl), runMethod_bind (runMethod_writes _ rfl chunks),
        runMethod_endMessage _ rfl]
      simp only [List.nil_append, body, if_pos isText]
      rfl
  | binary payload =>
    cases streamed with
    | none =>
      simp only [send, writeBinary, python_encodeVarint]
      rfl
    | some chunks =>
      have body : chunks.flatten = payload := whole chunks rfl
      -- the header begins with SOH, so `end()` adds no newline
      simp only [send]
      rw [runMethod_bind (runMethod_beginBinary _ rfl payload.length),
        runMethod_bind (runMethod_writes _ rfl chunks), runMethod_endMessage _ rfl]
      simp [body, sentWire, Message.wire, Wire.binaryWire]

/-- One message after the other. -/
def sendAll (sents : List (Sent Char)) : Method (List (List UInt8)) := sents.mapM send

theorem runMethod_sendAll (sents : List (Sent Char)) (writer : MessageWriter)
    (free : writer.inMessage = false) (empty : writer.buf = [])
    (whole : ∀ sent ∈ sents, sent.Whole Utf8.encode)
    (plain : ∀ sent ∈ sents, ∀ line, sent.message = .text line → soh ∉ Utf8.encode line) :
    let wires := sents.map fun sent => sent.message.wire Utf8.encode
    runMethod (sendAll sents) writer =
      (.ok wires, { writer with output := writer.output.map (· ++ wires) }) := by
  induction sents generalizing writer with
  | nil =>
    have same : writer.output.map (· ++ []) = writer.output := by simp
    exact congrArg (fun output => (Except.ok [], { writer with output })) same.symm
  | cons sent sents inductionHypothesis =>
    have here := runMethod_send sent writer free empty (whole sent List.mem_cons_self)
      (plain sent List.mem_cons_self)
    have later := inductionHypothesis
      (writer.sentWire (sent.message.wire Utf8.encode)) rfl rfl
      (fun other member => whole other (List.mem_cons_of_mem _ member))
      (fun other member => plain other (List.mem_cons_of_mem _ member))
    have unfolded : sendAll (sent :: sents) =
        send sent >>= fun wire => sendAll sents >>= fun wires => pure (wire :: wires) :=
      List.mapM_cons
    rw [unfolded, runMethod_bind here, runMethod_bind later, runMethod_pure]
    simp [sentWire, free, empty, Function.comp_def]

end MessageWriter

end Python

end EmbeddedBridge
