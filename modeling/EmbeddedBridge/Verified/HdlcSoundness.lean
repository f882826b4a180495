import EmbeddedBridge.Library.Delimited
import EmbeddedBridge.Framing.Hdlc

/-! # HDLC soundness

What a delivered payload has to do with the bytes between the flags around it.
`Read` relates the buffer to the segment read since the last flag; the one way
in which the buffer can lag behind is an overflow at an escaped byte, where the
framer goes on as if the byte had been stored.  `soundDelivery_iff` says that
delivery is sound exactly on the streams without such a segment.
-/

namespace EmbeddedBridge.HdlcFramer

open Library Hdlc

/-! ## Un-escaping -/

/-- A whole segment un-escaped; `pending` says that an ESC has just been read. -/
def unescapeFrom : Bool → List UInt8 → Option (List UInt8)
  | false, [] => some []
  | true, [] => none
  | false, c :: segment =>
    if c = esc then unescapeFrom true segment else (unescapeFrom false segment).map (c :: ·)
  | true, c :: segment => (unescapeFrom false segment).map ((c ^^^ escXor) :: ·)

def unescape (segment : List UInt8) : Option (List UInt8) := unescapeFrom false segment

/-- A run of escaped bytes. -/
def escapePairs (escaped : List UInt8) : List UInt8 := escaped.flatMap fun c => [esc, c]

theorem unescapeFrom_append (pending : Bool) (head tail : List UInt8) {content : List UInt8}
    (unescaped : unescapeFrom pending head = some content) :
    unescapeFrom pending (head ++ tail) = (unescape tail).map (content ++ ·) := by
  induction head generalizing pending content with
  | nil =>
    cases pending with
    | false => cases unescaped; simp [unescape]
    | true => cases unescaped
  | cons c head inductionHypothesis =>
    cases pending with
    | false =>
      by_cases isEsc : c = esc
      · simp only [unescapeFrom, isEsc, if_pos, List.cons_append] at unescaped ⊢
        exact inductionHypothesis true unescaped
      · simp only [unescapeFrom, if_neg isEsc, List.cons_append, Option.map_eq_some_iff]
          at unescaped ⊢
        obtain ⟨rest, read, content⟩ := unescaped
        rw [inductionHypothesis false read, ← content]
        cases unescape tail <;> rfl
    | true =>
      simp only [unescapeFrom, List.cons_append, Option.map_eq_some_iff] at unescaped ⊢
      obtain ⟨rest, read, content⟩ := unescaped
      rw [inductionHypothesis false read, ← content]
      cases unescape tail <;> rfl

theorem unescape_append {head content : List UInt8} (tail : List UInt8)
    (unescaped : unescape head = some content) :
    unescape (head ++ tail) = (unescape tail).map (content ++ ·) :=
  unescapeFrom_append false head tail unescaped

theorem unescape_plain {c : UInt8} (notEsc : c ≠ esc) : unescape [c] = some [c] := by
  simp [unescape, unescapeFrom, notEsc]

theorem unescape_pair (c : UInt8) : unescape [esc, c] = some [c ^^^ escXor] := rfl

theorem unescape_escapePairs (escaped : List UInt8) :
    unescape (escapePairs escaped) = some (escaped.map (· ^^^ escXor)) := by
  induction escaped with
  | nil => rfl
  | cons c escaped inductionHypothesis =>
    rw [escapePairs, List.flatMap_cons, unescape_append _ (unescape_pair c), ← escapePairs,
      inductionHypothesis]
    rfl

theorem escapePairs_snoc (escaped : List UInt8) (c : UInt8) :
    escapePairs (escaped ++ [c]) = escapePairs escaped ++ [esc, c] := by
  simp [escapePairs, List.flatMap_append]

theorem mem_escapePairs {escaped : List UInt8} {c : UInt8} (member : c ∈ escaped) :
    c ∈ escapePairs escaped := by
  rw [escapePairs, List.mem_flatMap]
  exact ⟨c, member, by simp⟩

/-! ## The buffer and the segment -/

section Read

variable {bufSize : Nat} {language : Language}

/-- The buffer against the segment read since the last flag: the un-escaped
segment, but for escaped bytes that came when it was full already. -/
def Read (framer : HdlcFramer bufSize) (segment : List UInt8) : Prop :=
  ∃ head escaped, unescape head = some framer.buf.items ∧
    (escaped ≠ [] → framer.buf.items.length = bufSize) ∧
    match framer.state with
    | .idle => False
    | .inFrame => segment = head ++ escapePairs escaped
    | .escape => segment = head ++ escapePairs escaped ++ [esc]
    | .error => True

theorem read_clean : (clean : HdlcFramer bufSize).Read [] := ⟨[], [], rfl, by simp, rfl⟩

theorem run_off (framer : HdlcFramer bufSize) (stream : List UInt8)
    (off : framer.flowControl = false) :
    (Transducer.run (processByte language) framer stream).1.flowControl = false :=
  Transducer.run_invariant (processByte language) (fun framer => framer.flowControl = false)
    (fun framer c off => (processByte_flowControl framer c).trans off) framer stream off

theorem read_processByte (framer : HdlcFramer bufSize) (segment : List UInt8) (c : UInt8)
    (off : framer.flowControl = false) (read : framer.Read segment) (notFlag : c ≠ flag) :
    (framer.processByte language c).1.Read (segment ++ [c]) := by
  obtain ⟨head, escaped, unescaped, full, position⟩ := read
  cases inState : framer.state <;> rw [inState] at position <;> simp only at position
  case inFrame =>
    by_cases isEsc : c = esc
    · rw [isEsc, processByte_esc language framer off inState]
      exact ⟨head, escaped, unescaped, full, by rw [position]⟩
    rw [processByte_store language framer c off inState notFlag isEsc]
    -- as long as there is room no byte has been lost, escaped or not
    by_cases room : framer.buf.items.length < bufSize
    · obtain ⟨buf, stored, items⟩ := store_of_room framer c room
      have noneEscaped : escaped = [] := by
        by_contra someEscaped
        have := full someEscaped
        omega
      rw [stored]
      refine ⟨head ++ [c], [], ?_, by simp, ?_⟩
      · rw [unescape_append [c] unescaped, unescape_plain isEsc, items]
        rfl
      · simp [inState, position, noneEscaped, escapePairs]
    · rw [store_of_full framer c room]
      exact ⟨head, escaped, unescaped, full, trivial⟩
  case escape =>
    rw [processByte_escaped language framer c off inState notFlag]
    by_cases room : framer.buf.items.length < bufSize
    · obtain ⟨buf, stored, items⟩ := store_of_room framer (c ^^^ escXor) room
      have noneEscaped : escaped = [] := by
        by_contra someEscaped
        have := full someEscaped
        omega
      rw [stored]
      refine ⟨head ++ [esc, c], [], ?_, by simp, ?_⟩
      · rw [unescape_append [esc, c] unescaped, unescape_pair, items]
        rfl
      · simp [position, noneEscaped, escapePairs]
    · -- the byte is lost, and the framer is back in the frame
      have bounded := framer.buf.bounded
      rw [store_of_full framer _ room]
      refine ⟨head, escaped ++ [c], unescaped, fun _ => by simp only; omega, ?_⟩
      simp [position, escapePairs_snoc]
  -- ERROR is only left by a flag
  case error =>
    have stays : framer.processByte language c = (framer, []) := by
      simp [processByte, off, inState, notFlag]
    rw [stays]
    exact ⟨head, escaped, unescaped, full, by rw [inState]; trivial⟩

theorem read_segment (bufSize : Nat) (language : Language) (segment : List UInt8)
    (noFlag : flag ∉ segment) :
    (Transducer.run (processByte language) (clean : HdlcFramer bufSize) segment).1.Read segment := by
  induction segment using List.reverseRecOn with
  | nil => exact read_clean
  | append_singleton segment c inductionHypothesis =>
    rw [List.mem_append, not_or, List.mem_singleton] at noFlag
    rw [Transducer.run_append, Transducer.run_singleton]
    exact read_processByte _ _ c (run_off clean segment rfl) (inductionHypothesis noFlag.1)
      (Ne.symm noFlag.2)

/-- Up to the first flag nothing happens. -/
theorem run_idle (bufSize : Nat) (language : Language) (stream : List UInt8)
    (noFlag : flag ∉ stream) :
    Transducer.run (processByte language) ({} : HdlcFramer bufSize) stream = ({}, []) := by
  induction stream with
  | nil => rfl
  | cons c stream inductionHypothesis =>
    rw [List.mem_cons, not_or] at noFlag
    have stays : processByte language ({} : HdlcFramer bufSize) c = ({}, []) := by
      simp [processByte, Ne.symm noFlag.1]
    exact Transducer.run_step_silent _ stays (inductionHypothesis noFlag.2)

/-- After a flag, the segment since the last one is all that counts. -/
theorem run_after_flag (bufSize : Nat) (language : Language) (earlier segment : List UInt8) :
    (Transducer.run (processByte language) ({} : HdlcFramer bufSize)
        (earlier ++ flag :: segment)).1 =
      (Transducer.run (processByte language) clean segment).1 :=
  Delimited.run_after_delimiter (processByte language) clean flag
    (fun framer => framer.flowControl = false)
    (fun framer c off => (processByte_flowControl framer c).trans off)
    (fun framer off => by rw [processByte_flag framer off]) {} rfl earlier segment

/-! ## Running through a segment -/

/-- A segment whose un-escaped bytes fit is un-escaped into the buffer. -/
theorem run_unescaped (language : Language) (pending : Bool) (framer : HdlcFramer bufSize)
    (segment : List UInt8) {content : List UInt8} (off : framer.flowControl = false)
    (inState : framer.state = if pending then .escape else .inFrame)
    (unescaped : unescapeFrom pending segment = some content)
    (fits : framer.buf.items.length + content.length ≤ bufSize) (noFlag : flag ∉ segment) :
    ∃ final, Transducer.run (processByte language) framer segment = (final, []) ∧
      final.state = .inFrame ∧ final.flowControl = false ∧
      final.buf.items = framer.buf.items ++ content := by
  induction segment generalizing pending framer content with
  | nil =>
    cases pending with
    | false => cases unescaped; exact ⟨framer, rfl, inState, off, by simp⟩
    | true => cases unescaped
  | cons c segment inductionHypothesis =>
    rw [List.mem_cons, not_or] at noFlag
    cases pending with
    | false =>
      by_cases isEsc : c = esc
      · rw [isEsc] at unescaped ⊢
        simp only [unescapeFrom, if_pos] at unescaped
        obtain ⟨final, ran, ends⟩ := inductionHypothesis true { framer with state := .escape } off
          rfl unescaped fits noFlag.2
        exact ⟨final, Transducer.run_step_silent _
          (processByte_esc language framer off inState) ran, ends⟩
      · simp only [unescapeFrom, if_neg isEsc, Option.map_eq_some_iff] at unescaped
        obtain ⟨rest, read, contentEq⟩ := unescaped
        rw [← contentEq, List.length_cons] at fits
        obtain ⟨buf, stored, items⟩ := store_of_room framer c (by omega)
        have room : buf.items.length + rest.length ≤ bufSize := by
          rw [items, List.length_append, List.length_singleton]
          omega
        obtain ⟨final, ran, inFrame, off', content⟩ :=
          inductionHypothesis false { framer with buf } off inState read room noFlag.2
        have one := processByte_store language framer c off inState (Ne.symm noFlag.1) isEsc
        rw [stored] at one
        refine ⟨final, Transducer.run_step_silent _ one ran, inFrame, off', ?_⟩
        rw [content, items, ← contentEq, List.append_assoc]
        rfl
    | true =>
      simp only [unescapeFrom, Option.map_eq_some_iff] at unescaped
      obtain ⟨rest, read, contentEq⟩ := unescaped
      rw [← contentEq, List.length_cons] at fits
      obtain ⟨buf, stored, items⟩ := store_of_room framer (c ^^^ escXor) (by omega)
      have room : buf.items.length + rest.length ≤ bufSize := by
        rw [items, List.length_append, List.length_singleton]
        omega
      obtain ⟨final, ran, inFrame, off', content⟩ := inductionHypothesis false
        { framer with state := .inFrame, buf } off rfl read room noFlag.2
      have one := processByte_escaped language framer c off inState (Ne.symm noFlag.1)
      rw [stored] at one
      refine ⟨final, Transducer.run_step_silent _ one ran, inFrame, off', ?_⟩
      rw [content, items, ← contentEq, List.append_assoc]
      rfl

/-- Escaped bytes pass by a full buffer unnoticed. -/
theorem run_escapePairs (language : Language) (framer : HdlcFramer bufSize) (escaped : List UInt8)
    (off : framer.flowControl = false) (inFrame : framer.state = .inFrame)
    (full : framer.buf.items.length = bufSize) (noFlag : flag ∉ escaped) :
    Transducer.run (processByte language) framer (escapePairs escaped) = (framer, []) := by
  induction escaped with
  | nil => rfl
  | cons c escaped inductionHypothesis =>
    rw [List.mem_cons, not_or] at noFlag
    have lost := processByte_escaped language { framer with state := .escape } c off rfl
      (Ne.symm noFlag.1)
    rw [store_of_full _ _ (by simp only; omega)] at lost
    have back : ({ framer with state := .inFrame } : HdlcFramer bufSize) = framer := by
      rw [← inFrame]
    simp only [back] at lost
    exact Transducer.run_step_silent _ (processByte_esc language framer off inFrame)
      (Transducer.run_step_silent _ lost (inductionHypothesis noFlag.2))

end Read

/-! ## Main results -/

/-- Whatever is delivered is the whole segment since the last flag, un-escaped,
with its check bytes after it. -/
def SoundDelivery (language : Language) (bufSize : Nat) (stream : List UInt8) : Prop :=
  ∀ before c after payload, stream = before ++ c :: after →
    payload ∈ ((Transducer.run (processByte language) ({} : HdlcFramer bufSize) before).1.processByte
      language c).2 →
    c = flag ∧ ∃ earlier segment, before = earlier ++ flag :: segment ∧ flag ∉ segment ∧
      unescape segment = some (payload ++ language.crcBytes payload) ∧
      (payload ++ language.crcBytes payload).length ≤ bufSize

/-- A buffer full of good bytes, and then nothing but escaped ones. -/
def MaskedOverflow (language : Language) (bufSize : Nat) (segment : List UInt8) : Prop :=
  ∃ head escaped payload, segment = head ++ escapePairs escaped ∧ escaped ≠ [] ∧
    unescape head = some (payload ++ language.crcBytes payload) ∧
    (payload ++ language.crcBytes payload).length = bufSize

/-- A masked overflow is delivered at the flag that ends it. -/
theorem maskedOverflow_delivers (language : Language) (bufSize : Nat) {segment : List UInt8}
    (noFlag : flag ∉ segment) (masked : MaskedOverflow language bufSize segment) :
    ∃ payload, payload ∈ ((Transducer.run (processByte language) (clean : HdlcFramer bufSize)
        segment).1.processByte language flag).2 ∧
      unescape segment ≠ some (payload ++ language.crcBytes payload) := by
  obtain ⟨head, escaped, payload, split, someEscaped, unescaped, full⟩ := masked
  rw [split, List.mem_append, not_or] at noFlag
  obtain ⟨loaded, ranHead, inFrame, off, items⟩ := run_unescaped language false
    (clean : HdlcFramer bufSize) head rfl rfl unescaped (by rw [full]; exact (Nat.zero_add _).le)
    noFlag.1
  have items' : loaded.buf.items = payload ++ language.crcBytes payload := items
  have ranEscaped := run_escapePairs language loaded escaped off inFrame
    (by rw [items', full]) (fun member => noFlag.2 (mem_escapePairs member))
  have ran := Transducer.run_trans_silent _ ranHead ranEscaped
  refine ⟨payload, ?_, ?_⟩
  · rw [split, ran, processByte_flag loaded off, if_pos inFrame]
    exact mem_deliver.mpr items'
  · rw [split, unescape_append _ unescaped, unescape_escapePairs, Option.map_some]
    intro same
    have longer := congrArg List.length (Option.some.inj same)
    rw [List.length_append, List.length_map] at longer
    exact someEscaped (List.length_eq_zero_iff.mp (by omega))

theorem soundDelivery_iff (language : Language) (bufSize : Nat) (stream : List UInt8) :
    SoundDelivery language bufSize stream ↔
      ∀ earlier segment after, stream = earlier ++ flag :: (segment ++ flag :: after) →
        flag ∉ segment → ¬ MaskedOverflow language bufSize segment := by
  constructor
  -- a masked overflow is delivered, but not as what the segment says
  · intro sound earlier segment after split noFlag masked
    obtain ⟨payload, delivered, different⟩ :=
      maskedOverflow_delivers language bufSize noFlag masked
    rw [← run_after_flag bufSize language earlier segment] at delivered
    obtain ⟨_, earlier', segment', same, noFlag', unescaped, _⟩ :=
      sound (earlier ++ flag :: segment) flag after payload (by simp [split]) delivered
    rw [← Delimited.lastSegment_unique same noFlag noFlag'] at unescaped
    exact different unescaped
  · intro unmasked before c after payload split delivered
    obtain ⟨isFlag, inFrame, loaded⟩ := processByte_delivers delivered
    refine ⟨isFlag, ?_⟩
    -- before the first flag the framer is idle, and delivers nothing
    by_cases noFlag : flag ∉ before
    · rw [run_idle bufSize language before noFlag] at inFrame
      cases inFrame
    obtain ⟨earlier, segment, splitBefore, noFlag⟩ :=
      Delimited.lastSegment_exists (not_not.mp noFlag)
    rw [splitBefore, run_after_flag] at inFrame loaded
    obtain ⟨head, escaped, unescaped, full, position⟩ := read_segment bufSize language segment noFlag
    rw [inFrame] at position
    have items := mem_deliver.mp loaded
    rw [items] at unescaped full
    have fits := deliver_fits loaded
    -- the buffer is the segment un-escaped, unless bytes were lost behind a full one
    by_cases noneEscaped : escaped = []
    · refine ⟨earlier, segment, splitBefore, noFlag, ?_, ?_⟩
      · simp only [noneEscaped, escapePairs, List.flatMap_nil, List.append_nil] at position
        rw [position, unescaped]
      · rwa [List.length_append, crcBytes_two]
    · exact absurd ⟨head, escaped, payload, position, noneEscaped, unescaped, full noneEscaped⟩
        (unmasked earlier segment after (by simp [split, splitBefore, isFlag]) noFlag)

/-- Two good bytes in a buffer of two, and a third one behind an ESC: the framer
delivers the empty payload. -/
theorem soundDelivery_masked : ¬ SoundDelivery .cpp 2 [0x7E, 0x00, 0x00, 0x7D, 0x5E, 0x7E] := by
  intro sound
  obtain ⟨_, earlier, segment, split, noFlag, unescaped, _⟩ :=
    sound [0x7E, 0x00, 0x00, 0x7D, 0x5E] 0x7E [] [] rfl (by decide +kernel)
  have split' : [] ++ flag :: [0x00, 0x00, 0x7D, 0x5E] = earlier ++ flag :: segment := split
  have whole := Delimited.lastSegment_unique split' (by decide) noFlag
  rw [← whole] at unescaped
  exact absurd unescaped (by decide +kernel)

end EmbeddedBridge.HdlcFramer
