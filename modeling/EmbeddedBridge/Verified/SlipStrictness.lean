import EmbeddedBridge.Library.Delimited
import EmbeddedBridge.Framing.Slip

/-! # SLIP strictness

Which segments a framer delivers.  An ESC that is followed by another ESC, or by
the END of its segment, leaves no trace: the framer reads a segment as it would
read it with these taken out (`settle`), and hands on what that is the stuffing
of (`run_segment_iff`).  So delivery is strict exactly on the streams without a
segment that only becomes a stuffing by losing some of its ESCs.
-/

namespace EmbeddedBridge.SlipFramer

open Library Slip

/-- The stuffing of a payload, without the END on either side. -/
def stuff (payload : List UInt8) : List UInt8 := payload.flatMap emitStuffed

/-- Without the ESCs that another ESC or nothing follows. -/
def settle : List UInt8 → List UInt8
  | [] => []
  | c :: rest =>
    if c = esc ∧ (rest = [] ∨ rest.head? = some esc) then settle rest else c :: settle rest

/-! ## Un-stuffing as the framer does it -/

/-- What a framer reads from a segment; `pending` says that an ESC has just been
read. -/
def unstuffFrom : Bool → List UInt8 → Option (List UInt8)
  | _, [] => some []
  | pending, c :: rest =>
    if c = esc then unstuffFrom true rest
    else if pending then
      if c = escEnd then (unstuffFrom false rest).map (endByte :: ·)
      else if c = escEsc then (unstuffFrom false rest).map (esc :: ·)
      else none
    else (unstuffFrom false rest).map (c :: ·)

theorem settle_esc_esc (rest : List UInt8) :
    settle (esc :: esc :: rest) = settle (esc :: rest) := by
  rw [settle, if_pos ⟨rfl, .inr rfl⟩]

theorem settle_plain {c : UInt8} (notEsc : c ≠ esc) (rest : List UInt8) :
    settle (c :: rest) = c :: settle rest := by
  rw [settle, if_neg fun surplus => notEsc surplus.1]

theorem settle_pair {c : UInt8} (notEsc : c ≠ esc) (rest : List UInt8) :
    settle (esc :: c :: rest) = esc :: c :: settle rest := by
  rw [settle, if_neg (by simp [notEsc]), settle_plain notEsc]

theorem stuff_cons (c : UInt8) (payload : List UInt8) :
    stuff (c :: payload) = emitStuffed c ++ stuff payload := rfl

theorem nil_eq_stuff {payload : List UInt8} : [] = stuff payload ↔ payload = [] := by
  cases payload with
  | nil => simp [stuff]
  | cons c payload =>
    rw [stuff_cons, emitStuffed]
    split
    · simp
    split <;> simp

/-- A byte that is no ESC stands for itself. -/
theorem plain_eq_stuff {c : UInt8} (notEnd : c ≠ endByte) (notEsc : c ≠ esc)
    {rest payload : List UInt8} :
    c :: rest = stuff payload ↔ ∃ later, payload = c :: later ∧ rest = stuff later := by
  constructor
  · intro same
    cases payload with
    | nil => cases same
    | cons first later =>
      rw [stuff_cons, emitStuffed] at same
      split at same
      · exact absurd (List.cons.inj same).1 notEsc
      split at same
      · exact absurd (List.cons.inj same).1 notEsc
      · rw [List.singleton_append, List.cons.injEq] at same
        exact ⟨later, by rw [same.1], same.2⟩
  · rintro ⟨later, rfl, rfl⟩
    rw [stuff_cons, emitStuffed, if_neg notEnd, if_neg notEsc]
    rfl

/-- A pair stands for the byte that the encoder stuffs so. -/
theorem pair_eq_stuff {c : UInt8} {rest payload : List UInt8} :
    esc :: c :: rest = stuff payload ↔
      ∃ later, rest = stuff later ∧
        (c = escEnd ∧ payload = endByte :: later ∨ c = escEsc ∧ payload = esc :: later) := by
  constructor
  · intro same
    cases payload with
    | nil => cases same
    | cons first later =>
      rw [stuff_cons, emitStuffed] at same
      split at same
      · rename_i isEnd
        simp only [List.cons_append, List.nil_append, List.cons.injEq, true_and] at same
        exact ⟨later, same.2, .inl ⟨same.1, by rw [isEnd]⟩⟩
      split at same
      · rename_i isEsc
        simp only [List.cons_append, List.nil_append, List.cons.injEq, true_and] at same
        exact ⟨later, same.2, .inr ⟨same.1, by rw [isEsc]⟩⟩
      · rename_i notEsc
        exact absurd (List.cons.inj same).1.symm notEsc
  · rintro ⟨later, rfl, ⟨rfl, rfl⟩ | ⟨rfl, rfl⟩⟩ <;> rfl

theorem map_cons_eq_some {c : UInt8} {read : Option (List UInt8)} {payload : List UInt8} :
    read.map (c :: ·) = some payload ↔ ∃ later, payload = c :: later ∧ read = some later := by
  rw [Option.map_eq_some_iff]
  exact ⟨fun ⟨later, isRead, same⟩ => ⟨later, same.symm, isRead⟩,
    fun ⟨later, same, isRead⟩ => ⟨later, isRead, same.symm⟩⟩

/-- What is read of a segment is what its settled form is the stuffing of. -/
theorem unstuffFrom_iff (segment : List UInt8) (noEnd : endByte ∉ segment) :
    ∀ pending payload, unstuffFrom pending segment = some payload ↔
      settle (if pending then esc :: segment else segment) = stuff payload := by
  induction segment with
  | nil =>
    intro pending payload
    have settled : settle (if pending then [esc] else []) = [] := by cases pending <;> rfl
    rw [settled, nil_eq_stuff, unstuffFrom, Option.some.injEq, eq_comm]
  | cons c rest inductionHypothesis =>
    rw [List.mem_cons, not_or] at noEnd
    have later := inductionHypothesis noEnd.2
    intro pending payload
    by_cases isEsc : c = esc
    -- ESC after ESC reads like one ESC
    · rw [unstuffFrom, if_pos isEsc, later, isEsc]
      cases pending with
      | false => rfl
      | true => exact (settle_esc_esc rest) ▸ Iff.rfl
    rw [unstuffFrom, if_neg isEsc]
    cases pending with
    | false =>
      simp only [Bool.false_eq_true, if_false]
      rw [map_cons_eq_some, settle_plain isEsc, plain_eq_stuff (Ne.symm noEnd.1) isEsc]
      simp only [later, Bool.false_eq_true, if_false]
    | true =>
      simp only [if_true]
      rw [settle_pair isEsc, pair_eq_stuff]
      have read : ∀ payload, unstuffFrom false rest = some payload ↔ settle rest = stuff payload :=
        fun payload => by simpa using later false payload
      split
      · rename_i isEscEnd
        rw [map_cons_eq_some]
        simp [read, isEscEnd, escEnd, escEsc, and_comm]
      split
      · rename_i isEscEsc
        rw [map_cons_eq_some]
        simp [read, isEscEsc, escEnd, escEsc, and_comm]
      · rename_i notEscEnd notEscEsc
        simp [notEscEnd, notEscEsc]

/-! ## The framer and the segment -/

section Framer

variable {bufSize : Nat}

/-- Only END clears an error. -/
theorem processByte_error (framer : SlipFramer bufSize) (c : UInt8) (notEnd : c ≠ endByte)
    (error : framer.error = true) : (framer.processByte c).1.error = true := by
  have kept : ∀ framer : SlipFramer bufSize, framer.error = true →
      ∀ c, (framer.store c).error = true := by
    intro framer error c
    unfold store
    cases framer.buf.push? c with
    | some buf => exact error
    | none => rfl
  rw [processByte, if_neg notEnd]
  split
  · exact error
  split
  · split
    · exact kept { framer with escape := false } error endByte
    split
    · exact kept { framer with escape := false } error esc
    · rfl
  · exact kept framer error c

theorem run_error (framer : SlipFramer bufSize) (segment : List UInt8) (noEnd : endByte ∉ segment)
    (error : framer.error = true) : (Transducer.run processByte framer segment).1.error = true := by
  induction segment generalizing framer with
  | nil => exact error
  | cons c segment inductionHypothesis =>
    rw [List.mem_cons, not_or] at noEnd
    exact inductionHypothesis _ noEnd.2 (processByte_error framer c (Ne.symm noEnd.1) error)

/-- Storing a byte, seen from the end of the segment. -/
theorem run_store_iff (framer : SlipFramer bufSize) (c : UInt8) (rest : List UInt8)
    (read : Option (List UInt8)) (loaded : List UInt8) (noEnd : endByte ∉ rest)
    (later : ∀ next : SlipFramer bufSize, next.error = false → next.escape = false →
      ((Transducer.run processByte next rest).1.error = false ∧
          (Transducer.run processByte next rest).1.buf.items = loaded ↔
        ∃ payload, read = some payload ∧ loaded = next.buf.items ++ payload ∧
          loaded.length ≤ bufSize))
    (noError : framer.error = false) (noEscape : framer.escape = false) :
    (Transducer.run processByte (framer.store c) rest).1.error = false ∧
        (Transducer.run processByte (framer.store c) rest).1.buf.items = loaded ↔
      ∃ payload, read.map (c :: ·) = some payload ∧ loaded = framer.buf.items ++ payload ∧
        loaded.length ≤ bufSize := by
  unfold store
  cases pushed : framer.buf.push? c with
  | some buf =>
    have items := (BoundedBuffer.push?_some pushed).2
    simp only [later { framer with buf } noError noEscape, items]
    constructor
    · rintro ⟨payload, isRead, split, fits⟩
      exact ⟨c :: payload, by rw [isRead]; rfl, by rw [split, List.append_assoc]; rfl, fits⟩
    · rintro ⟨payload, isRead, split, fits⟩
      obtain ⟨payload, rfl, isReadLater⟩ := map_cons_eq_some.mp isRead
      exact ⟨payload, isReadLater, by rw [split, List.append_assoc]; rfl, fits⟩
  | none =>
    have full := BoundedBuffer.push?_none pushed
    have stays := run_error { framer with error := true } rest noEnd rfl
    constructor
    · rintro ⟨noError', _⟩
      rw [stays] at noError'
      cases noError'
    · rintro ⟨payload, isRead, split, fits⟩
      obtain ⟨payload, rfl, _⟩ := map_cons_eq_some.mp isRead
      rw [split, List.length_append, full, List.length_cons] at fits
      omega

/-- After a segment the framer holds what it has read of it, or an error. -/
theorem run_segment_iff (segment : List UInt8) (noEnd : endByte ∉ segment) :
    ∀ (framer : SlipFramer bufSize) (loaded : List UInt8), framer.error = false →
      ((Transducer.run processByte framer segment).1.error = false ∧
          (Transducer.run processByte framer segment).1.buf.items = loaded ↔
        ∃ payload, unstuffFrom framer.escape segment = some payload ∧
          loaded = framer.buf.items ++ payload ∧ loaded.length ≤ bufSize) := by
  induction segment with
  | nil =>
    intro framer loaded noError
    have bounded := framer.buf.bounded
    simp only [Transducer.run_nil, noError, true_and, unstuffFrom, Option.some.injEq]
    constructor
    · rintro rfl
      exact ⟨[], rfl, by simp, bounded⟩
    · rintro ⟨payload, rfl, rfl, _⟩
      simp
  | cons c rest inductionHypothesis =>
    rw [List.mem_cons, not_or] at noEnd
    have later := inductionHypothesis noEnd.2
    intro framer loaded noError
    rw [Transducer.run_cons]
    simp only
    by_cases isEsc : c = esc
    · rw [isEsc, processByte_esc, later { framer with escape := true } loaded noError, unstuffFrom,
        if_pos rfl]
    rw [unstuffFrom, if_neg isEsc]
    -- from here on a byte is stored, unless the escape is an invalid one
    have stored := fun (framer : SlipFramer bufSize) (c : UInt8) (noError : framer.error = false)
        (noEscape : framer.escape = false) =>
      run_store_iff framer c rest (unstuffFrom false rest) loaded noEnd.2
        (fun next noError noEscape => by simpa [noEscape] using later next loaded noError)
        noError noEscape
    cases escape : framer.escape with
    | false =>
      rw [processByte_store framer c escape (Ne.symm noEnd.1) isEsc, stored framer c noError escape]
      rfl
    | true =>
      simp only [if_true]
      split
      · rename_i isEscEnd
        rw [isEscEnd, processByte_escEnd framer escape]
        exact stored { framer with escape := false } endByte noError rfl
      split
      · rename_i isEscEsc
        rw [isEscEsc, processByte_escEsc framer escape]
        exact stored { framer with escape := false } esc noError rfl
      · rename_i notEscEnd notEscEsc
        have failed :
            (framer.processByte c).1 = { framer with escape := false, error := true } := by
          simp [processByte, escape, Ne.symm noEnd.1, isEsc, notEscEnd, notEscEsc]
        have stays := run_error { framer with escape := false, error := true } rest noEnd.2 rfl
        rw [failed, stays]
        simp

end Framer

/-! ## Main result -/

/-- The bytes since the last END, or since the start. -/
def Segment (before segment : List UInt8) : Prop :=
  endByte ∉ segment ∧ (before = segment ∨ ∃ earlier, before = earlier ++ endByte :: segment)

/-- Whatever is delivered, at an END, is what the segment before it is the stuffing
of. -/
def StrictDelivery (bufSize : Nat) (stream : List UInt8) : Prop :=
  ∀ before c after payload, stream = before ++ c :: after →
    payload ∈ ((Transducer.run processByte ({} : SlipFramer bufSize) before).1.processByte c).2 →
    c = endByte ∧ ∃ segment, Segment before segment ∧ segment = stuff payload ∧
      payload.length ≤ bufSize

/-- A segment that is no stuffing, but becomes that of a payload that fits once
its surplus ESCs are taken out. -/
def SurplusEsc (bufSize : Nat) (segment : List UInt8) : Prop :=
  settle segment ≠ segment ∧
    ∃ payload, payload ≠ [] ∧ payload.length ≤ bufSize ∧ settle segment = stuff payload

/-- What was before the last END does not matter. -/
theorem run_since (bufSize : Nat) {before segment : List UInt8} (since : Segment before segment) :
    (Transducer.run processByte ({} : SlipFramer bufSize) before).1 =
      (Transducer.run processByte {} segment).1 := by
  cases since.2 with
  | inl whole => rw [whole]
  | inr ended =>
    obtain ⟨earlier, split⟩ := ended
    rw [split]
    exact Delimited.run_after_delimiter processByte {} endByte (fun _ => True)
      (fun _ _ _ => trivial) (fun framer _ => by rw [processByte_end]) {} trivial earlier segment

theorem segment_exists (before : List UInt8) : ∃ segment, Segment before segment := by
  by_cases ended : endByte ∈ before
  · obtain ⟨earlier, segment, split, noEnd⟩ := Delimited.lastSegment_exists ended
    exact ⟨segment, noEnd, .inr ⟨earlier, split⟩⟩
  · exact ⟨before, ended, .inl rfl⟩

theorem segment_unique {before segment segment' : List UInt8} (since : Segment before segment)
    (since' : Segment before segment') : segment = segment' := by
  obtain ⟨noEnd, split⟩ := since
  obtain ⟨noEnd', split'⟩ := since'
  have absent : ∀ {segment earlier rest : List UInt8}, endByte ∉ segment →
      segment ≠ earlier ++ endByte :: rest := by
    intro segment earlier rest noEnd same
    rw [same] at noEnd
    exact noEnd (List.mem_append_right _ List.mem_cons_self)
  cases split with
  | inl whole =>
    cases split' with
    | inl whole' => exact whole.symm.trans whole'
    | inr ended' =>
      obtain ⟨earlier', split'⟩ := ended'
      exact absurd (whole.symm.trans split') (absent noEnd)
  | inr ended =>
    obtain ⟨earlier, split⟩ := ended
    cases split' with
    | inl whole' => exact absurd (whole'.symm.trans split) (absent noEnd')
    | inr ended' =>
      obtain ⟨earlier', split'⟩ := ended'
      exact Delimited.lastSegment_unique (split.symm.trans split') noEnd noEnd'

/-- What END hands on of a segment. -/
theorem mem_delivered_iff (bufSize : Nat) {before segment payload : List UInt8}
    (since : Segment before segment) :
    payload ∈ ((Transducer.run processByte ({} : SlipFramer bufSize) before).1.processByte
        endByte).2 ↔
      payload ≠ [] ∧ payload.length ≤ bufSize ∧ settle segment = stuff payload := by
  have read := run_segment_iff segment since.1 ({} : SlipFramer bufSize) payload rfl
  have settled := unstuffFrom_iff segment since.1 false payload
  simp only [BoundedBuffer.empty_items, List.nil_append] at read
  rw [run_since bufSize since, processByte_end]
  constructor
  · intro delivered
    simp only at delivered
    split at delivered
    · rename_i loaded
      rw [List.mem_singleton] at delivered
      obtain ⟨payload', isRead, rfl, fits⟩ := read.mp ⟨loaded.2, delivered.symm⟩
      refine ⟨?_, fits, settled.mp isRead⟩
      rw [delivered]
      exact List.ne_nil_of_length_pos loaded.1
    · cases delivered
  · rintro ⟨some, fits, settles⟩
    obtain ⟨noError, items⟩ := read.mpr ⟨payload, settled.mpr settles, rfl, fits⟩
    simp only
    rw [if_pos ⟨by rw [items]; exact List.length_pos_of_ne_nil some, noError⟩, items]
    exact List.mem_singleton_self payload

theorem strictDelivery_iff (bufSize : Nat) (stream : List UInt8) :
    StrictDelivery bufSize stream ↔
      ∀ before segment after, stream = before ++ endByte :: after → Segment before segment →
        ¬ SurplusEsc bufSize segment := by
  constructor
  · rintro strict before segment after split since ⟨surplus, payload, some, fits, settles⟩
    have delivered := (mem_delivered_iff bufSize since).mpr ⟨some, fits, settles⟩
    obtain ⟨_, segment', since', stuffed, _⟩ := strict before endByte after payload split delivered
    rw [segment_unique since' since] at stuffed
    exact surplus (settles.trans stuffed.symm)
  · intro plain before c after payload split delivered
    have isEnd := (processByte_delivers delivered).1
    rw [isEnd] at split delivered
    obtain ⟨segment, since⟩ := segment_exists before
    obtain ⟨some, fits, settles⟩ := (mem_delivered_iff bufSize since).mp delivered
    refine ⟨isEnd, segment, since, ?_, fits⟩
    -- what is delivered is stuffed in the settled segment, which is the segment itself
    by_contra different
    have surplus : settle segment ≠ segment := fun same => different (same.symm.trans settles)
    exact plain before segment after split since ⟨surplus, payload, some, fits, settles⟩

/-- An ESC right before the END: the framer delivers the byte before it. -/
theorem strictDelivery_dangling : ¬ StrictDelivery 4 [0x41, 0xDB, 0xC0] := by
  intro strict
  obtain ⟨_, segment, since, stuffed, _⟩ :=
    strict [0x41, 0xDB] 0xC0 [] [0x41] rfl (by decide +kernel)
  have whole : Segment [0x41, 0xDB] [0x41, 0xDB] := ⟨by decide, .inl rfl⟩
  rw [segment_unique since whole] at stuffed
  exact absurd stuffed (by decide +kernel)

end EmbeddedBridge.SlipFramer
