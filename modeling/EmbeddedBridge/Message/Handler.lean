import EmbeddedBridge.Library.BoundedBuffer
import EmbeddedBridge.Message.Reader

/-! # Message handlers

The handlers that put chunks together and deliver complete messages:
`BufferingMessageHandler` of `message.h`, with two arrays of fixed size, and
`MessageHandler` of `message.py`, with a list of strings and a growing buffer.
A reader with its handler is the cascade of the two.  `DrainReader` is the
host's reader without a handler of the user's, which keeps the messages until
they are asked for.
-/

namespace EmbeddedBridge

open Library

inductive Message (τ : Type) where
  | text (line : List τ)
  | binary (payload : List UInt8)
deriving DecidableEq, Repr

/-- CRLF normalisation. -/
def stripReturn {τ : Type} [DecidableEq τ] (carriageReturn : τ) (line : List τ) : List τ :=
  if line.getLast? = some carriageReturn then line.dropLast else line

theorem stripReturn_of_not {τ : Type} [DecidableEq τ] {carriageReturn : τ} {line : List τ}
    (plain : line.getLast? ≠ some carriageReturn) : stripReturn carriageReturn line = line :=
  if_neg plain

/-! ## C++ -/

namespace Cpp

def carriageReturn : UInt8 := 0x0D

structure BufferingMessageHandler (textBufSize binaryBufSize : Nat) where
  textBuf : BoundedBuffer UInt8 textBufSize := .empty
  binaryBuf : BoundedBuffer UInt8 binaryBufSize := .empty

namespace BufferingMessageHandler

variable {textBufSize binaryBufSize : Nat}

def handle : Transducer.Step (BufferingMessageHandler textBufSize binaryBufSize) (Callback UInt8)
    (Message UInt8)
  | handler, .textData chunk => ({ handler with textBuf := handler.textBuf.appendClipped chunk }, [])
  | handler, .textEnd =>
    ({ handler with textBuf := .empty }, [.text (stripReturn carriageReturn handler.textBuf.items)])
  | handler, .binaryStart _ => ({ handler with binaryBuf := .empty }, [])
  | handler, .binaryData chunk =>
    ({ handler with binaryBuf := handler.binaryBuf.appendClipped chunk }, [])
  | handler, .binaryEnd => ({ handler with binaryBuf := .empty }, [.binary handler.binaryBuf.items])

end BufferingMessageHandler

/-- `feed` with a `BufferingMessageHandler` behind the reader. -/
def deliver {textBufSize binaryBufSize : Nat} :
    Transducer.Step (MessageReader × BufferingMessageHandler textBufSize binaryBufSize) (List UInt8)
      (Message UInt8) :=
  Transducer.cascade MessageReader.feed BufferingMessageHandler.handle

end Cpp

/-! ## Python -/

namespace Python

def carriageReturn : Char := '\r'

structure MessageHandler where
  textBuf : List (List Char) := []
  binaryBuf : List UInt8 := []

def MessageHandler.handle : Transducer.Step MessageHandler (Callback Char) (Message Char)
  | handler, .textData chunk => ({ handler with textBuf := handler.textBuf ++ [chunk] }, [])
  | handler, .textEnd =>
    ({ handler with textBuf := [] }, [.text (stripReturn carriageReturn handler.textBuf.flatten)])
  | handler, .binaryStart _ => ({ handler with binaryBuf := [] }, [])
  | handler, .binaryData chunk => ({ handler with binaryBuf := handler.binaryBuf ++ chunk }, [])
  | handler, .binaryEnd => ({ handler with binaryBuf := [] }, [.binary handler.binaryBuf])

/-- `feed` with a `MessageHandler` behind the reader. -/
def deliver : Transducer.Step (MessageReader × MessageHandler) (List UInt8) (Message Char) :=
  Transducer.cascade MessageReader.feed MessageHandler.handle

/-- A reader that was given no handler. -/
structure DrainReader where
  reader : MessageReader := {}
  handler : MessageHandler := {}
  messages : List (Message Char) := []

namespace DrainReader

def feed (drainReader : DrainReader) (data : List UInt8) : DrainReader :=
  let delivered := deliver (drainReader.reader, drainReader.handler) data
  { reader := delivered.1.1, handler := delivered.1.2
    messages := drainReader.messages ++ delivered.2 }

def drain (drainReader : DrainReader) : DrainReader × List (Message Char) :=
  ({ drainReader with messages := [] }, drainReader.messages)

def reset (drainReader : DrainReader) : DrainReader :=
  { reader := drainReader.reader.reset, handler := { textBuf := [], binaryBuf := [] }, messages := [] }

/-- What is drained is what a handler would have been given. -/
theorem foldl_feed (drainReader : DrainReader) (chunks : List (List UInt8)) :
    chunks.foldl feed drainReader =
      let delivered := Transducer.run deliver (drainReader.reader, drainReader.handler) chunks
      { reader := delivered.1.1, handler := delivered.1.2
        messages := drainReader.messages ++ delivered.2 } := by
  induction chunks generalizing drainReader with
  | nil => simp
  | cons chunk chunks inductionHypothesis =>
    rw [List.foldl_cons, inductionHypothesis]
    simp only [feed, Transducer.run_cons, List.append_assoc]

end DrainReader

end Python

end EmbeddedBridge
