import EmbeddedBridge.Framing.Line
import EmbeddedBridge.Library.Mailbox
import EmbeddedBridge.Message.Handler

/-! # Draining

The host's message reader and its line framer keep what they have read until they are
drained.  Both are mailboxes: whenever they are drained, and whenever they are reset,
every message is drained once.
-/

namespace EmbeddedBridge.Python

open Library

namespace DrainReader

def mailbox : Mailbox DrainReader (MessageReader × MessageHandler) (List UInt8) (Message Char) where
  machine := deliver
  start := ({}, {})
  feed := feed
  drain := drain
  reset := reset
  Valid _ := True
  machineOf drainReader := (drainReader.reader, drainReader.handler)
  pending drainReader := drainReader.messages
  valid_feed _ _ _ := trivial
  feed_spec _ _ _ := ⟨rfl, rfl⟩
  drain_spec _ _ := ⟨trivial, rfl, rfl, rfl⟩
  reset_spec _ _ := ⟨trivial, rfl, rfl⟩

end DrainReader

namespace LineFramer

/-- A chunk, and the lines that it ends. -/
def frameChunk : Transducer.Step (Utf8.State × List Char) (List UInt8) (List Char) :=
  fun state data =>
    let framed := Transducer.run frame state data
    (framed.1, framed.2.map (stripReturn carriageReturn))

theorem run_frameChunk (state : Utf8.State × List Char) (chunks : List (List UInt8)) :
    Transducer.run frameChunk state chunks = frameChunk state chunks.flatten := by
  have chunked : Transducer.run frameChunk state chunks = _ :=
    Transducer.run_map (Transducer.run frame) (stripReturn carriageReturn)
    (fun _ _ => rfl) state chunks
  rw [chunked, Transducer.run_chunks]
  rfl

def mailbox : Mailbox LineFramer (Utf8.State × List Char) (List UInt8) (List Char) where
  machine := frameChunk
  start := (.start, [])
  feed := feed
  drain := drain
  reset := reset
  Valid framer := '\n' ∉ framer.buf
  machineOf framer := (framer.decoder, framer.buf)
  pending framer := framer.messages
  valid_feed framer data plain := feed_plain framer plain data
  feed_spec framer data plain := by
    rw [feed_eq framer plain]
    exact ⟨rfl, rfl⟩
  drain_spec _ plain := ⟨plain, rfl, rfl, rfl⟩
  reset_spec _ _ := ⟨List.not_mem_nil, rfl, rfl⟩

end LineFramer

/-- Over any calls of `feed`, `drain` and `reset`: what has been drained since the last
reset, and then what there is to drain, is what a new object makes of the input since
then; of the framer's input it does not even matter how it was cut. -/
theorem drained_once :
    (∀ calls before recent : List (Mailbox.Call (List UInt8)),
      Mailbox.Recent calls before recent →
      let ran := Transducer.run DrainReader.mailbox.call {} calls
      ∃ drained, ran.2 = (Transducer.run DrainReader.mailbox.call {} before).2 ++ drained ∧
        drained ++ ran.1.messages =
          ((Mailbox.inputs recent).foldl DrainReader.feed {}).messages) ∧
    ∀ calls before recent : List (Mailbox.Call (List UInt8)),
      Mailbox.Recent calls before recent →
      let ran := Transducer.run LineFramer.mailbox.call {} calls
      ∃ drained, ran.2 = (Transducer.run LineFramer.mailbox.call {} before).2 ++ drained ∧
        drained ++ ran.1.messages =
          (LineFramer.feed {} (Mailbox.inputs recent).flatten).messages := by
  constructor
  · intro calls before recent since
    obtain ⟨drained, all, handed, _⟩ :=
      DrainReader.mailbox.handed_over_recent {} trivial rfl rfl since
    refine ⟨drained, all, handed.trans ?_⟩
    rw [DrainReader.foldl_feed]
    rfl
  · intro calls before recent since
    obtain ⟨drained, all, handed, _⟩ :=
      LineFramer.mailbox.handed_over_recent {} List.not_mem_nil rfl rfl since
    refine ⟨drained, all, handed.trans ?_⟩
    rw [LineFramer.feed_eq {} List.not_mem_nil]
    exact congrArg Prod.snd (LineFramer.run_frameChunk _ _)

/-- A text that is drained in the middle of the next one, and one that a reset ends. -/
theorem drained_once_reset :
    let calls : List (Mailbox.Call (List UInt8)) :=
      [.feed [0x61], .reset, .feed [0x62, 0x0A, 0xC3], .drain, .feed [0xA9, 0x0A]]
    (∃ drained, (Transducer.run DrainReader.mailbox.call {} calls).2 =
        (Transducer.run DrainReader.mailbox.call {} [.feed [0x61], .reset]).2 ++ drained ∧
      drained ++ (Transducer.run DrainReader.mailbox.call {} calls).1.messages =
        ([[0x62, 0x0A, 0xC3], [0xA9, 0x0A]].foldl DrainReader.feed {}).messages) ∧
    ∃ drained, (Transducer.run LineFramer.mailbox.call {} calls).2 =
        (Transducer.run LineFramer.mailbox.call {} [.feed [0x61], .reset]).2 ++ drained ∧
      drained ++ (Transducer.run LineFramer.mailbox.call {} calls).1.messages =
        (LineFramer.feed {} [0x62, 0x0A, 0xC3, 0xA9, 0x0A]).messages :=
  ⟨drained_once.1 _ _ _ ⟨rfl, .inr ⟨[.feed [0x61]], rfl⟩, by simp⟩,
    drained_once.2 _ _ _ ⟨rfl, .inr ⟨[.feed [0x61]], rfl⟩, by simp⟩⟩

end EmbeddedBridge.Python
