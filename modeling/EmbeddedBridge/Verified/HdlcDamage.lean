import EmbeddedBridge.Verified.CrcDetection
import EmbeddedBridge.Verified.HdlcSoundness
import EmbeddedBridge.Verified.Links

/-! # Damage on the wire

What the CRC finds is damage to a body; on the wire the body is stuffed.  An error that
makes no flag and no escape, and hits none, is the same error on the body, with the zeros
left out that fell on escapes (`unescape_damaged`); that leaves bursts bursts, and odd
numbers of bits odd.  So a frame with such an error is dropped, and only that frame
(`damagedLayer`).
-/

namespace EmbeddedBridge

open Library Hdlc Wire

/-! ## Errors with bytes left out -/

/-- The error without some of its zeros. -/
inductive Thinned : List UInt8 → List UInt8 → Prop where
  | nil : Thinned [] []
  | keep {error thinned : List UInt8} (byte : UInt8) (rest : Thinned error thinned) :
      Thinned (byte :: error) (byte :: thinned)
  | drop {error thinned : List UInt8} (rest : Thinned error thinned) : Thinned (0 :: error) thinned

theorem Thinned.append {error thinned error' thinned' : List UInt8} (thins : Thinned error thinned)
    (thins' : Thinned error' thinned') : Thinned (error ++ error') (thinned ++ thinned') := by
  induction thins with
  | nil => exact thins'
  | keep byte rest inductionHypothesis => exact .keep byte inductionHypothesis
  | drop rest inductionHypothesis => exact .drop inductionHypothesis

theorem bodyBits_length (body : List UInt8) : (bodyBits body).length = 8 * body.length := by
  induction body with
  | nil => rfl
  | cons byte body inductionHypothesis =>
    have eight : (Crc.bitsOf byte.toBitVec).length = 8 := List.length_map _
    rw [bodyBits, List.flatMap_cons, List.length_append, ← bodyBits, inductionHypothesis, eight,
      List.length_cons]
    omega

theorem bodyBits_append (left right : List UInt8) :
    bodyBits (left ++ right) = bodyBits left ++ bodyBits right := List.flatMap_append

/-- The bits behind a zero byte move up by eight places. -/
theorem bodyBits_gap {left right : List UInt8} {i : Nat}
    (bit : (bodyBits (left ++ right))[i]? = some true) :
    (i < 8 * left.length ∧ (bodyBits (left ++ 0 :: right))[i]? = some true) ∨
      (8 * left.length ≤ i ∧ (bodyBits (left ++ 0 :: right))[i + 8]? = some true) := by
  have length := bodyBits_length left
  have gap : bodyBits (left ++ 0 :: right) =
      bodyBits left ++ (bodyBits [0] ++ bodyBits right) := by
    rw [bodyBits_append, ← List.singleton_append, bodyBits_append]
  rw [bodyBits_append] at bit
  rw [gap]
  by_cases before : i < 8 * left.length
  · rw [List.getElem?_append_left (by omega)] at bit
    exact .inl ⟨before, by rw [List.getElem?_append_left (by omega), bit]⟩
  · rw [List.getElem?_append_right (by omega)] at bit
    have eight : (bodyBits [0]).length = 8 := rfl
    refine .inr ⟨by omega, ?_⟩
    rw [List.getElem?_append_right (by omega), List.getElem?_append_right (by omega), eight]
    rwa [show i + 8 - (bodyBits left).length - 8 = i - (bodyBits left).length by omega]

theorem burst_gap {left right : List UInt8} (burst : Burst (left ++ 0 :: right)) :
    Burst (left ++ right) := by
  obtain ⟨start, within⟩ := burst
  -- a burst that begins behind the gap, or in it, moves up
  refine ⟨if start ≤ 8 * left.length then start else max (8 * left.length) (start - 8), ?_⟩
  intro i bit
  cases bodyBits_gap bit with
  | inl before =>
    have inside := within i before.2
    split <;> omega
  | inr behind =>
    have inside := within (i + 8) behind.2
    split <;> omega

theorem burst_thinned {error thinned : List UInt8} (thins : Thinned error thinned)
    (before : List UInt8) (burst : Burst (before ++ error)) : Burst (before ++ thinned) := by
  induction thins generalizing before with
  | nil => exact burst
  | keep byte rest inductionHypothesis =>
    rw [← List.singleton_append, ← List.append_assoc] at burst ⊢
    exact inductionHypothesis _ burst
  | drop rest inductionHypothesis => exact inductionHypothesis before (burst_gap burst)

theorem count_thinned {error thinned : List UInt8} (thins : Thinned error thinned) :
    (bodyBits error).count true = (bodyBits thinned).count true := by
  induction thins with
  | nil => rfl
  | keep byte rest inductionHypothesis =>
    rw [← List.singleton_append, bodyBits_append, List.count_append, inductionHypothesis,
      ← List.count_append, ← bodyBits_append, List.singleton_append]
  | @drop error _ rest inductionHypothesis =>
    rw [← inductionHypothesis]
    change (bodyBits ([0] ++ error)).count true = _
    rw [bodyBits_append, List.count_append]
    exact Nat.zero_add _

theorem nonzero_thinned {error thinned : List UInt8} (thins : Thinned error thinned)
    (nonzero : ∃ byte ∈ error, byte ≠ 0) : ∃ byte ∈ thinned, byte ≠ 0 := by
  induction thins with
  | nil => exact nonzero
  | keep byte rest inductionHypothesis =>
    rw [List.exists_mem_cons_iff] at nonzero ⊢
    exact nonzero.imp_right inductionHypothesis
  | drop rest inductionHypothesis =>
    rw [List.exists_mem_cons_iff] at nonzero
    exact inductionHypothesis (nonzero.resolve_left fun zero => zero rfl)

/-! ## Errors on stuffed bytes -/

namespace HdlcFramer

variable {bufSize : Nat} {language : Language}

/-- An error on a byte of the wire that neither hits nor makes a flag or an escape. -/
def Tame (sent error : UInt8) : Prop :=
  error = 0 ∨ sent ≠ flag ∧ sent ≠ esc ∧ sent ^^^ error ≠ flag ∧ sent ^^^ error ≠ esc

instance (sent error : UInt8) : Decidable (Tame sent error) := inferInstanceAs (Decidable (_ ∨ _))

/-- The bytes on the wire after an error. -/
def hit (sent error : List UInt8) : List UInt8 := List.zipWith (· ^^^ ·) sent error

theorem tame_plain {c error : UInt8} (plain : ¬ (c = flag ∨ c = esc)) (tame : Tame c error) :
    c ^^^ error ≠ flag ∧ c ^^^ error ≠ esc := by
  rw [not_or] at plain
  cases tame with
  | inl none =>
    rw [none, UInt8.xor_zero]
    exact plain
  | inr some => exact some.2.2

/-- Behind an escape stands neither of the two. -/
theorem tame_escaped {c error : UInt8} (stuffed : c = flag ∨ c = esc)
    (tame : Tame (c ^^^ escXor) error) : c ^^^ escXor ^^^ error ≠ flag := by
  cases tame with
  | inl none =>
    rw [none, UInt8.xor_zero]
    exact xor_escXor_ne_flag stuffed
  | inr some => exact some.2.2.1

/-- The frame has lost no byte, and un-escaped it is the body with the error. -/
theorem unescape_damaged (body error : List UInt8)
    (tame : List.Forall₂ Tame (body.flatMap emitStuffed) error) :
    ∃ thinned, Thinned error thinned ∧ thinned.length = body.length ∧
      flag ∉ hit (body.flatMap emitStuffed) error ∧
      unescape (hit (body.flatMap emitStuffed) error) = some (hit body thinned) := by
  induction body generalizing error with
  | nil =>
    cases tame
    exact ⟨[], .nil, rfl, List.not_mem_nil, rfl⟩
  | cons c body inductionHypothesis =>
    rw [List.flatMap_cons] at tame ⊢
    by_cases stuffed : c = flag ∨ c = esc
    · rw [emitStuffed, if_pos stuffed, List.cons_append, List.singleton_append] at tame ⊢
      cases tame with
      | @cons _ first _ _ onEscape tame =>
        cases tame with
        | @cons _ second _ error onByte tame =>
          obtain ⟨thinned, thins, length, noFlag, unescaped⟩ := inductionHypothesis error tame
          -- the escape itself has not been hit
          have none : first = 0 := onEscape.resolve_right fun some => some.2.1 rfl
          rw [none]
          have escaped : c ^^^ escXor ^^^ second ^^^ escXor = c ^^^ second := by
            rw [UInt8.xor_assoc, UInt8.xor_comm second, ← UInt8.xor_assoc, escXor_twice]
          refine ⟨second :: thinned, .drop (.keep second thins), by simp [length], ?_, ?_⟩
          · simp only [hit, List.zipWith_cons_cons, List.mem_cons, not_or, UInt8.xor_zero]
            exact ⟨by decide, Ne.symm (tame_escaped stuffed onByte), noFlag⟩
          · have pair := unescape_append (hit (body.flatMap emitStuffed) error)
              (unescape_pair (c ^^^ escXor ^^^ second))
            rw [unescaped, escaped] at pair
            simpa [hit] using pair
    · rw [emitStuffed, if_neg stuffed, List.singleton_append] at tame ⊢
      cases tame with
      | @cons _ first _ error onByte tame =>
        obtain ⟨thinned, thins, length, noFlag, unescaped⟩ := inductionHypothesis error tame
        obtain ⟨notFlag, notEsc⟩ := tame_plain stuffed onByte
        refine ⟨first :: thinned, .keep first thins, by simp [length], ?_, ?_⟩
        · simp only [hit, List.zipWith_cons_cons, List.mem_cons, not_or]
          exact ⟨Ne.symm notFlag, noFlag⟩
        · have plain := unescape_append (hit (body.flatMap emitStuffed) error)
            (unescape_plain notEsc)
          rw [unescaped] at plain
          simpa [hit] using plain

/-- A burst of up to sixteen bits, or an odd number of bits. -/
def Detectable (error : List UInt8) : Prop :=
  (∃ byte ∈ error, byte ≠ 0) ∧ (Burst error ∨ OddBits error)

theorem detectable_thinned {error thinned : List UInt8} (thins : Thinned error thinned)
    (detectable : Detectable error) : Detectable thinned := by
  refine ⟨nonzero_thinned thins detectable.1, ?_⟩
  cases detectable.2 with
  | inl burst => exact .inl (burst_thinned thins [] burst)
  | inr odd =>
    rw [OddBits, count_thinned thins] at odd
    exact .inr odd

/-- A payload with its check bytes is not delivered when an error has been added. -/
theorem not_deliver_hit {framer : HdlcFramer bufSize} {payload error : List UInt8}
    (loaded : framer.buf.items = hit (payload ++ language.crcBytes payload) error)
    (length : error.length = (payload ++ language.crcBytes payload).length)
    (detectable : Detectable error) : framer.deliver language = [] := by
  by_contra delivers
  have bad := residue_of_deliver delivers
  have good := (residueGood_iff (payload ++ Cpp.crcBytes payload) (by simp [Cpp.crcBytes])).mpr
    ⟨payload, rfl⟩
  rw [loaded, crcBytes_eq] at bad
  rw [crcBytes_eq] at length
  -- the two registers differ by what the error leaves in an empty one
  have same := congrArg UInt16.toBitVec ((UInt16.xor_left_inj 0xFFFF).mp (bad.trans good.symm))
  rw [hit, crc16HdlcRun_xor _ _ length] at same
  have lost : errorRegister error = BitVec.ofNat 16 0 := by
    have cancelled := congrArg
      ((Cpp.crc16HdlcRun (payload ++ Cpp.crcBytes payload)).toBitVec ^^^ ·) same
    simpa [← BitVec.xor_assoc] using cancelled
  cases detectable.2 with
  | inl burst => exact errorRegister_burst (mem_bodyBits detectable.1) burst lost
  | inr odd => exact errorRegister_odd odd lost

/-! ## Frames that have been hit -/

theorem tame_append {left right error : List UInt8}
    (tame : List.Forall₂ Tame (left ++ right) error) :
    ∃ first second, error = first ++ second ∧ List.Forall₂ Tame left first ∧
      List.Forall₂ Tame right second := by
  induction left generalizing error with
  | nil => exact ⟨[], error, rfl, .nil, tame⟩
  | cons c left inductionHypothesis =>
    cases tame with
    | cons onByte tame =>
      obtain ⟨first, second, split, onLeft, onRight⟩ := inductionHypothesis tame
      exact ⟨_ :: first, second, by rw [split, List.cons_append], .cons onByte onLeft, onRight⟩

theorem tame_flag {error : List UInt8} (tame : List.Forall₂ Tame [flag] error) : error = [0] := by
  cases tame with
  | cons onFlag tame =>
    cases tame
    rw [onFlag.resolve_right fun some => some.1 rfl]

/-- A frame with the error that it is hit by, if any. -/
abbrev HitFrame := List UInt8 × Option (List UInt8)

/-- What arrives of a frame. -/
def HitFrame.bytes (language : Language) (frame : HitFrame) : List UInt8 :=
  match frame.2 with
  | none => HdlcFrameEncoder.encode language frame.1
  | some error => hit (HdlcFrameEncoder.encode language frame.1) error

/-- The framer will notice the error. -/
def HitFrame.Noticed (language : Language) (frame : HitFrame) : Prop :=
  ∀ error, frame.2 = some error →
    List.Forall₂ Tame (HdlcFrameEncoder.encode language frame.1) error ∧ Detectable error

theorem run_hit (framer : HdlcFramer bufSize) (ready : framer.Ready language)
    {payload error : List UInt8} (fits : payload.length + 2 ≤ bufSize)
    (tame : List.Forall₂ Tame (HdlcFrameEncoder.encode language payload) error)
    (detectable : Detectable error) :
    Transducer.run (processByte language) framer
        (hit (HdlcFrameEncoder.encode language payload) error) = (clean, []) := by
  rw [encode_eq] at tame ⊢
  cases tame with
  | @cons _ first _ _ onFirst tame =>
    obtain ⟨inner, last, rfl, onBody, onLast⟩ := tame_append tame
    -- the flags at both ends have not been hit
    cases tame_flag (.cons onFirst .nil)
    cases tame_flag onLast
    obtain ⟨thinned, thins, length, noFlag, unescaped⟩ := unescape_damaged _ inner onBody
    have thins' : Thinned (0 :: (inner ++ [0])) thinned := by
      rw [← List.append_nil thinned]
      exact .drop (thins.append (.drop .nil))
    have room : (hit (payload ++ language.crcBytes payload) thinned).length ≤ bufSize := by
      rw [hit, List.length_zipWith, length, Nat.min_self, List.length_append, crcBytes_two]
      exact fits
    obtain ⟨loaded, ran, inFrame, off, items⟩ := run_unescaped language false
      (clean : HdlcFramer bufSize) _ rfl rfl unescaped ((Nat.zero_add _).trans_le room) noFlag
    have opened : framer.processByte language flag = (clean, []) := by
      refine Prod.ext ?_ ready.2
      rw [processByte_flag framer ready.1]
    rw [hit, List.zipWith_cons_cons, List.zipWith_append onBody.length_eq]
    apply Transducer.run_step_silent _ opened
    apply Transducer.run_trans_silent _ ran
    rw [List.zipWith_cons_cons, List.zipWith_nil_left, UInt8.xor_zero, Transducer.run_singleton,
      processByte_flag loaded off, if_pos inFrame]
    exact congrArg _ (not_deliver_hit items length (detectable_thinned thins' detectable))

/-- Every frame leaves the framer clean; only one that is not hit delivers. -/
theorem run_hitFrame (framer : HdlcFramer bufSize) (frame : HitFrame)
    (ready : framer.Ready language)
    (fits : frame.1.length + 2 ≤ bufSize ∧ frame.Noticed language) :
    ∃ after : HdlcFramer bufSize, after.Ready language ∧
      Transducer.run (processByte language) framer (frame.bytes language) =
        (after, if frame.2.isNone then [frame.1] else []) := by
  obtain ⟨payload, error⟩ := frame
  obtain ⟨fits, noticed⟩ := fits
  refine ⟨clean, ⟨rfl, rfl⟩, ?_⟩
  cases error with
  | none =>
    rw [HitFrame.bytes, run_encode framer payload ready.1 fits, ready.2]
    rfl
  | some error =>
    obtain ⟨tame, detectable⟩ := noticed error rfl
    exact run_hit framer ready fits tame detectable

variable (bufSize language) in
/-- Frames of which some are hit: a layer that drops these. -/
def damagedLayer : Layer (HdlcFramer bufSize) UInt8 HitFrame (List UInt8) where
  encode := HitFrame.bytes language
  step := processByte language
  start := {}
  Ready := Ready language
  Fits frame := frame.1.length + 2 ≤ bufSize ∧ frame.Noticed language
  delivers frame := if frame.2.isNone then [frame.1] else []
  ready_start := ready_fresh language
  run_encode := run_hitFrame

end HdlcFramer

/-! ## Main result -/

open HdlcFramer

namespace Cpp

variable {writerSize : Nat}

/-- What the wire does to a frame. -/
inductive Fate where
  | arrives
  | lost
  | hit (error : List UInt8)

def Fate.bytes (frame : List UInt8) : Fate → List UInt8
  | .arrives => frame
  | .lost => []
  | .hit error => HdlcFramer.hit frame error

/-- Some messages are written and their frame ended, which then meets its fate. -/
def transmitNoisy :
    Transducer.Step (FramingWriter writerSize) (List (Sent UInt8) × Fate) UInt8 :=
  fun writer entry =>
    let framed := Transducer.run HdlcFramingWriter.call writer
      (entry.1.flatMap MessageWriter.send ++ [.endFrame])
    (framed.1, entry.2.bytes framed.2)

/-- The frame that comes out, if it gets out and is not lost. -/
def hitFrame (writerSize : Nat) (entry : List (Sent UInt8) × Fate) : List HitFrame :=
  if (wires entry.1).length ≤ writerSize then
    match entry.2 with
    | .arrives => [(wires entry.1, none)]
    | .lost => []
    | .hit error => [(wires entry.1, some error)]
  else []

def Fate.isIntact : Fate → Bool
  | .arrives => true
  | .lost => false
  | .hit _ => false

/-- A frame that is hit is as good as lost. -/
def orLost (entry : List (Sent UInt8) × Fate) : List (Sent UInt8) × Bool :=
  (entry.1, entry.2.isIntact)

theorem transmitNoisy_eq (entry : List (Sent UInt8) × Fate)
    (whole : ∀ sent ∈ entry.1, sent.Whole id)
    (wireable : ∀ sent ∈ entry.1, sent.message.Wireable id lengthWrap) :
    transmitNoisy ({} : FramingWriter writerSize) entry =
      ({}, (hitFrame writerSize entry).flatMap (HitFrame.bytes .python)) := by
  obtain ⟨batch, fate⟩ := entry
  -- the same frame as if it arrived
  have sent : transmitBatch .hdlc ({} : FramingWriter writerSize) (batch, true) = _ :=
    transmitBatch_eq .hdlc (batch, true) whole wireable
  have framed : Transducer.run HdlcFramingWriter.call ({} : FramingWriter writerSize)
      (batch.flatMap MessageWriter.send ++ [.endFrame]) = _ := sent
  rw [transmitNoisy, framed]
  by_cases fits : (wires batch).length ≤ writerSize
  · cases fate <;> simp [survivingBatches, hitFrame, fits, Fate.bytes, HitFrame.bytes,
      Framing.encode]
  · cases fate <;> simp [survivingBatches, hitFrame, fits, Fate.bytes, HdlcFramer.hit]

theorem run_transmitNoisy (entries : List (List (Sent UInt8) × Fate))
    (whole : ∀ entry ∈ entries, ∀ sent ∈ entry.1, sent.Whole id)
    (wireable : ∀ entry ∈ entries, ∀ sent ∈ entry.1, sent.message.Wireable id lengthWrap) :
    (Transducer.run transmitNoisy ({} : FramingWriter writerSize) entries).2 =
      (entries.flatMap (hitFrame writerSize)).flatMap (HitFrame.bytes .python) := by
  have frames := Transducer.run_frames transmitNoisy ({} : FramingWriter writerSize)
    (fun entry : List (Sent UInt8) × Fate => [entry]) _ entries fun entry member => by
      rw [Transducer.run_singleton]
      exact transmitNoisy_eq entry (whole entry member) (wireable entry member)
  rw [List.flatMap_singleton'] at frames
  rw [frames, List.flatMap_assoc]

/-- What the framer hands on are the wires of the batches that arrive. -/
theorem hitFrames_delivered (entries : List (List (Sent UInt8) × Fate)) (bufSize : Nat) :
    (entries.flatMap (hitFrame writerSize)).flatMap (damagedLayer bufSize .python).delivers =
      (survivingBatches writerSize (entries.map orLost)).map wires := by
  induction entries with
  | nil => rfl
  | cons entry entries inductionHypothesis =>
    obtain ⟨batch, fate⟩ := entry
    rw [List.flatMap_cons, List.flatMap_append, inductionHypothesis]
    by_cases fits : (wires batch).length ≤ writerSize
    · cases fate <;> simp [hitFrame, fits, damagedLayer, survivingBatches, orLost, Fate.isIntact]
    · cases fate <;> simp [hitFrame, fits, survivingBatches, orLost, Fate.isIntact]

end Cpp

open Cpp Python in
/-- Over HDLC an error of up to sixteen bits in a row, or of an odd number of bits, that
neither hits nor makes a flag or an escape costs the frame it falls on, and no other. -/
theorem damage_contained (writerSize framerSize : Nat) (room : writerSize + 2 ≤ framerSize)
    (entries : List (List (Sent UInt8) × Fate))
    (whole : ∀ entry ∈ entries, ∀ sent ∈ entry.1, sent.Whole id)
    (wireable : ∀ entry ∈ entries, ∀ sent ∈ entry.1, sent.message.Wireable id Cpp.lengthWrap)
    (noticed : ∀ entry ∈ entries, ∀ error, entry.2 = .hit error →
      List.Forall₂ Tame (HdlcFrameEncoder.encode .cpp (wires entry.1)) error ∧ Detectable error)
    {calls before recent : List (Mailbox.Call (List UInt8))}
    (since : Mailbox.Recent calls before recent)
    (received : (Mailbox.inputs recent).flatten =
      (Transducer.run transmitNoisy ({} : FramingWriter writerSize) entries).2) :
    let host := FramedReader.mailbox .hdlc framerSize
    let ran := Transducer.run host.call {} calls
    ∃ drained, ran.2 = (Transducer.run host.call {} before).2 ++ drained ∧
      drained ++ ran.1.reader.messages =
        (survivingBatches writerSize (entries.map orLost)).flatMap fun batch =>
          batch.map fun sent => sent.message.heard := by
  intro host ran
  obtain ⟨drained, all, handed, _⟩ := host.handed_over_recent {} rfl rfl rfl since
  refine ⟨drained, all, handed.trans ?_⟩
  let lower := damagedLayer framerSize .python
  have fits : ∀ frame ∈ entries.flatMap (hitFrame writerSize), lower.Fits frame := by
    intro frame member
    obtain ⟨⟨batch, fate⟩, present, isFrame⟩ := List.mem_flatMap.mp member
    rw [hitFrame] at isFrame
    split at isFrame
    · rename_i short
      have short' : (wires batch).length + 2 ≤ framerSize := by
        have bound : (wires batch).length ≤ writerSize := short
        omega
      cases fate with
      | arrives =>
        rw [List.mem_singleton.mp isFrame]
        exact ⟨short', nofun⟩
      | lost => cases isFrame
      | hit error =>
        rw [List.mem_singleton.mp isFrame]
        refine ⟨short', fun other same => ?_⟩
        cases same
        rw [Framing.hdlc_encode_languages .python .cpp]
        exact noticed _ present error rfl
    · cases isFrame
  have chunks := lower.delivered_to Python.deliver lower.ready_start ({}, {}) _ fits
  rw [hitFrames_delivered] at chunks
  -- each of these is a chunk of whole messages
  let upper := messageLayer (fun payload => [payload]) fun _ => .inl rfl
  have delivered := upper.delivered upper.ready_start
    (survivingBatches writerSize (entries.map orLost)) fun batch member => by
      obtain ⟨⟨arrives, present⟩, _⟩ := mem_survivingBatches member
      obtain ⟨entry, isEntry, same⟩ := List.mem_map.mp present
      cases same
      exact wireable entry isEntry
  have encoded : (survivingBatches writerSize (entries.map orLost)).flatMap upper.encode =
      (survivingBatches writerSize (entries.map orLost)).map wires := (List.map_eq_flatMap ..).symm
  rw [encoded] at delivered
  have chunked := Transducer.run_chunks (Transducer.cascade lower.step Python.deliver)
    (lower.start, {}, {}) (Mailbox.inputs recent)
  rw [received, run_transmitNoisy entries whole wireable] at chunked
  exact (congrArg Prod.snd chunked).trans (chunks.trans delivered)

/-- One bit of a byte behind an escape, and a frame after it that arrives. -/
theorem damage_contained_escaped :
    let entries : List (List (Sent UInt8) × Cpp.Fate) :=
      [([⟨.binary [0x7E], none⟩], .hit [0, 0, 0, 0, 0, 1, 0, 0, 0]), ([⟨.text [0x61], none⟩], .arrives)]
    let host := Python.FramedReader.mailbox .hdlc 8
    let calls : List (Mailbox.Call (List UInt8)) :=
      [.feed [0x7E, 0x01, 0x01, 0x01, 0x7D, 0x5F, 0x98, 0x39, 0x7E, 0x7E, 0x61], .drain,
        .feed [0x0A, 0x90, 0xDC, 0x7E]]
    ∃ drained, (Transducer.run host.call {} calls).2 =
        (Transducer.run host.call {} []).2 ++ drained ∧
      drained ++ (Transducer.run host.call {} calls).1.reader.messages =
        (Cpp.survivingBatches 6 (entries.map Cpp.orLost)).flatMap fun batch =>
          batch.map fun sent => sent.message.heard := by
  refine damage_contained 6 8 (by decide) _ (by simp [Sent.Whole])
    (by simp [Message.Wireable, Plain, newline, soh, Cpp.lengthWrap]) ?_ ⟨rfl, .inl rfl, by simp⟩
    (by decide +kernel)
  intro entry member error isHit
  simp only [List.mem_cons, List.not_mem_nil, or_false] at member
  cases member with
  | inl first =>
    rw [first] at isHit ⊢
    cases isHit
    exact ⟨by decide +kernel, by decide, .inr (by rw [OddBits]; decide)⟩
  | inr second =>
    rw [second] at isHit
    cases isHit

end EmbeddedBridge
