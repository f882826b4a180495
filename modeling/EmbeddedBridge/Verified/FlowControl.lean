import EmbeddedBridge.Verified.HdlcDelivery

/-! # HDLC with flow control

With flow control on the framer drops every XON and XOFF, whoever put it there:
it reads a stream as it would read it without them (`run_heard`).  The encoder
stuffs neither, so flow control is transparent exactly for the payloads that have
none of the two, in themselves or in their check bytes.
-/

namespace EmbeddedBridge.HdlcFramer

open Library Hdlc

/-- A byte that flow control leaves alone. -/
def heard (c : UInt8) : Bool := !(c == xon || c == xoff)

/-- `stream` is `wire` with XON and XOFF bytes inserted. -/
inductive Inserted : List UInt8 → List UInt8 → Prop where
  | nil : Inserted [] []
  | keep (c : UInt8) {wire stream : List UInt8} (rest : Inserted wire stream) :
      Inserted (c :: wire) (c :: stream)
  | insert (c : UInt8) (control : c = xon ∨ c = xoff) {wire stream : List UInt8}
      (rest : Inserted wire stream) : Inserted wire (c :: stream)

theorem heard_control {c : UInt8} (control : c = xon ∨ c = xoff) : heard c = false := by
  cases control with
  | inl isXon => rw [isXon]; rfl
  | inr isXoff => rw [isXoff]; rfl

theorem inserted_filter {wire stream : List UInt8} (inserted : Inserted wire stream) :
    stream.filter heard = wire.filter heard := by
  induction inserted with
  | nil => rfl
  | keep c rest inductionHypothesis => rw [List.filter_cons, List.filter_cons, inductionHypothesis]
  | insert c control rest inductionHypothesis =>
    rw [List.filter_cons_of_neg (by simp [heard_control control]), inductionHypothesis]

theorem inserted_none (wire : List UInt8) : Inserted wire wire := by
  induction wire with
  | nil => exact .nil
  | cons c wire inductionHypothesis => exact .keep c inductionHypothesis

/-- Stuffing neither makes a control byte nor hides one. -/
theorem emitStuffed_filter (c : UInt8) :
    (emitStuffed c).filter heard = if heard c then emitStuffed c else [] := by
  rw [emitStuffed]
  split
  · rename_i stuffed
    cases stuffed with
    | inl isFlag => rw [isFlag]; rfl
    | inr isEsc => rw [isEsc]; rfl
  · rw [List.filter_singleton]
    cases heard c <;> rfl

theorem flatMap_emitStuffed_filter (body : List UInt8) :
    (body.flatMap emitStuffed).filter heard = (body.filter heard).flatMap emitStuffed := by
  induction body with
  | nil => rfl
  | cons c body inductionHypothesis =>
    rw [List.flatMap_cons, List.filter_append, inductionHypothesis, emitStuffed_filter,
      List.filter_cons]
    cases heard c <;> rfl

theorem encode_filter (language : Language) (payload : List UInt8) :
    (HdlcFrameEncoder.encode language payload).filter heard =
      flag :: (((payload ++ language.crcBytes payload).filter heard).flatMap emitStuffed ++
        [flag]) := by
  have flagHeard : heard flag = true := rfl
  rw [encode_eq, List.filter_cons_of_pos flagHeard, List.filter_append, flatMap_emitStuffed_filter,
    List.filter_cons_of_pos flagHeard, List.filter_nil]

/-! ## The framer -/

section Framer

variable {bufSize : Nat} {language : Language}

/-- A byte that is heard does the same with flow control on or off. -/
theorem processByte_heard (framer : HdlcFramer bufSize) (off : framer.flowControl = false)
    {c : UInt8} (isHeard : heard c = true) :
    (framer.setFlowControl true).processByte language c =
      ((framer.processByte language c).1.setFlowControl true,
        (framer.processByte language c).2) := by
  have plain : (c == xon || c == xoff) = false := by simpa [heard] using isHeard
  obtain ⟨state, flowControl, buf⟩ := framer
  cases off
  simp only [processByte, setFlowControl, plain, Bool.and_false, Bool.false_eq_true, if_false]
  cases state <;> simp only [store]
  · split <;> rfl
  · split
    · rfl
    split
    · rfl
    · cases buf.push? c <;> rfl
  · split
    · rfl
    · cases buf.push? (c ^^^ escXor) <;> rfl
  · split <;> rfl

theorem run_heard (framer : HdlcFramer bufSize) (off : framer.flowControl = false)
    (stream : List UInt8) (allHeard : ∀ c ∈ stream, heard c = true) :
    (Transducer.run (processByte language) (framer.setFlowControl true) stream).2 =
      (Transducer.run (processByte language) framer stream).2 := by
  induction stream generalizing framer with
  | nil => rfl
  | cons c stream inductionHypothesis =>
    have later := inductionHypothesis (framer.processByte language c).1
      ((processByte_flowControl framer c).trans off)
      (fun other member => allHeard other (List.mem_cons_of_mem _ member))
    rw [Transducer.run_cons, Transducer.run_cons,
      processByte_heard framer off (allHeard c List.mem_cons_self), later]

/-- With flow control on, a stream is read as if it had no control bytes. -/
theorem run_controlled (stream : List UInt8) :
    (Transducer.run (processByte language)
        (({} : HdlcFramer bufSize).setFlowControl true) stream).2 =
      (Transducer.run (processByte language) ({} : HdlcFramer bufSize)
        (stream.filter heard)).2 := by
  rw [Transducer.run_filter (processByte language) (fun framer => framer.flowControl = true)
    (fun framer c on => (processByte_flowControl framer c).trans on) heard ?_ _ stream rfl]
  · exact run_heard {} rfl _ fun c member => (List.mem_filter.mp member).2
  · intro framer c on dropped
    have control : (c == xon || c == xoff) = true := by rwa [heard, Bool.not_eq_false'] at dropped
    simp [processByte, on, control]

/-- What comes of a frame without its control bytes. -/
theorem run_filtered (sender receiver : Language) (payload : List UInt8)
    (fits : payload.length + 2 ≤ bufSize) :
    (Transducer.run (processByte receiver) ({} : HdlcFramer bufSize)
        ((HdlcFrameEncoder.encode sender payload).filter heard)).2 = [payload] ↔
      ∀ c ∈ payload ++ sender.crcBytes payload, heard c = true := by
  have body : ((payload ++ sender.crcBytes payload).filter heard).length ≤ bufSize := by
    refine (List.length_filter_le _ _).trans ?_
    rwa [List.length_append, crcBytes_two]
  obtain ⟨loaded, ran, holds⟩ := run_body bufSize receiver _ body
  have opened : ({} : HdlcFramer bufSize).processByte receiver flag = (clean, []) := rfl
  have closed : loaded.processByte receiver flag = (clean, loaded.deliver receiver) := by
    rw [processByte_flag loaded holds.off, if_pos holds.inFrame]
  rw [encode_filter]
  rw [Transducer.run_step_silent _ opened (Transducer.run_trans_silent _ ran
    ((Transducer.run_singleton _ _ _).trans closed)), ← List.filter_eq_self]
  constructor
  · intro delivered
    -- nothing can be missing from what is delivered as the whole payload
    have items := mem_deliver.mp (delivered ▸ List.mem_singleton_self payload)
    rw [holds.items] at items
    rw [items, crcBytes_eq, crcBytes_eq]
  · intro whole
    rw [whole] at holds
    refine deliver_of_loaded ?_
    rw [holds.items, crcBytes_eq, crcBytes_eq]

end Framer

/-! ## Main result -/

/-- A frame of the payload: what either encoder makes of it, or what a framing
writer of any size emits when its calls frame the payload and nothing else. -/
inductive FrameOf (payload : List UInt8) : List UInt8 → Prop where
  | encoder (language : Language) : FrameOf payload (HdlcFrameEncoder.encode language payload)
  | writer (writerSize : Nat) (calls : List Cpp.WriterCall)
      (framed : Cpp.framedPayloads writerSize calls = [payload]) :
      FrameOf payload (Transducer.run Cpp.HdlcFramingWriter.call
        ({} : Cpp.FramingWriter writerSize) calls).2

/-- However XON and XOFF are inserted into a frame, either framer with flow control
on delivers the payload, once. -/
def Transparent (bufSize : Nat) (payload : List UInt8) : Prop :=
  ∀ wire stream, FrameOf payload wire → Inserted wire stream → ∀ receiver,
    (Transducer.run (processByte receiver)
      (({} : HdlcFramer bufSize).setFlowControl true) stream).2 = [payload]

theorem frameOf_encode {payload wire : List UInt8} (frame : FrameOf payload wire) :
    ∃ sender, wire = HdlcFrameEncoder.encode sender payload := by
  cases frame with
  | encoder language => exact ⟨language, rfl⟩
  | writer writerSize calls framed =>
    refine ⟨.cpp, ?_⟩
    rw [Cpp.HdlcFramingWriter.call, Cpp.output_eq_frames, framed, List.flatMap_singleton]

/-- Flow control is transparent for a payload exactly when neither it nor its
check bytes contain an XON or an XOFF. -/
theorem transparent_iff (bufSize : Nat) (payload : List UInt8)
    (fits : payload.length + 2 ≤ bufSize) :
    Transparent bufSize payload ↔
      ∀ c ∈ payload ++ Cpp.crcBytes payload, c ≠ xon ∧ c ≠ xoff := by
  have heardIff : ∀ c, heard c = true ↔ c ≠ xon ∧ c ≠ xoff := by simp [heard]
  simp only [← heardIff]
  constructor
  · intro transparent
    have delivered := transparent _ _ (.encoder .cpp) (inserted_none _) .cpp
    rw [run_controlled] at delivered
    exact (run_filtered .cpp .cpp payload fits).mp delivered
  · intro plain wire stream frame inserted receiver
    obtain ⟨sender, rfl⟩ := frameOf_encode frame
    rw [run_controlled, inserted_filter inserted]
    refine (run_filtered sender receiver payload fits).mpr ?_
    rwa [crcBytes_eq]

/-- The payload of the tests, in a buffer of its size. -/
theorem transparent_ok : Transparent 4 [0x6F, 0x6B] :=
  (transparent_iff 4 [0x6F, 0x6B] (by decide)).mpr (by decide +kernel)

/-- A payload of one XON is lost. -/
theorem transparent_xon : ¬ Transparent 3 [0x11] := by
  intro transparent
  have delivered := transparent _ _ (.encoder .cpp) (inserted_none _) .cpp
  exact absurd delivered (by decide +kernel)

end EmbeddedBridge.HdlcFramer
