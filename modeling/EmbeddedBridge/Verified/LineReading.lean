import EmbeddedBridge.Library.Utf8Lines
import EmbeddedBridge.Testing.Session

/-! # Reading lines loses nothing

`_read_line` takes lines out of the buffer in two places and drops blank ones.  What
has been consumed of the decoded bytes is always whole lines, of which the calls have
returned those that are not blank; the rest is still in the buffer, or in the decoder.
-/

namespace EmbeddedBridge.Python.TestSession

open Library Py Methods

variable {φ ω α : Type}

/-- A call that has no part in what is read. -/
def unrecorded (action : ω → α × ω) (world : ω × List UInt8) : α × ω × List UInt8 :=
  ((action world.1).1, (action world.1).2, world.2)

/-- An environment that keeps the bytes that have been read, too. -/
def recording (env : Environment φ ω) : Environment φ (ω × List UInt8) where
  clock := unrecorded env.clock
  sleep seconds := unrecorded (env.sleep seconds)
  read timeout world :=
    let answered := env.read timeout world.1
    (answered.1, answered.2, world.2 ++ answered.1.getD [])
  write data := unrecorded (env.write data)
  connect := unrecorded env.connect
  disconnect := unrecorded env.disconnect
  portPath := unrecorded env.portPath
  pathExists path := unrecorded (env.pathExists path)

/-- The lines of a text, stripped, without the blank ones. -/
def shown (text : Str) : List Str :=
  ((Lines.lines 0x0A text).map strip).filter fun line => line ≠ []

/-- Of the decoded bytes, whole lines have been consumed, and the results are theirs. -/
structure Kept (bytes : List UInt8) (results : List Str) (session : TestSession φ ω) : Prop where
  decoder : session.decoder = (Transducer.run Utf8.step .start bytes).1
  consumed : ∃ text, ofChars (Transducer.run Utf8.step .start bytes).2 = text ++ session.lineBuf ∧
    Lines.rest 0x0A text = [] ∧ shown text = results

/-! ## Lines of a text in two parts -/

theorem rest_append {left right : Str} (ended : Lines.rest 0x0A left = []) :
    Lines.rest 0x0A (left ++ right) = Lines.rest 0x0A right := by
  rw [Lines.rest] at ended
  rw [Lines.rest, Transducer.run_append, ended]
  rfl

theorem shown_append {left right : Str} (ended : Lines.rest 0x0A left = []) :
    shown (left ++ right) = shown left ++ shown right := by
  rw [Lines.rest] at ended
  rw [shown, Lines.lines, Transducer.run_append, ended, List.map_append, List.filter_append]
  rfl

theorem shown_line {before : Str} (plain : 0x0A ∉ before) :
    Lines.rest 0x0A (before ++ [0x0A]) = [] ∧
      shown (before ++ [0x0A]) = if strip before ≠ [] then [strip before] else [] := by
  have one := Lines.run_line [] before [] plain
  constructor
  · rw [Lines.rest, one]
    rfl
  · rw [shown, Lines.lines, one]
    by_cases blank : strip before = [] <;> simp [blank]

theorem partition_eq (text : Str) : partition 0x0A text = Lines.partition 0x0A text := by
  induction text with
  | nil => rfl
  | cons c text inductionHypothesis => rw [partition, Lines.partition, inductionHypothesis]

/-! ## Triples -/

/-- All that has been read has been decoded. -/
def Recorded (results : List Str) (session : TestSession φ (ω × List UInt8)) : Prop :=
  Kept session.environment.2 results session

/-- What has been read last has not been decoded yet. -/
def Undecoded (results : List Str) (data : List UInt8) (session : TestSession φ (ω × List UInt8)) :
    Prop :=
  ∃ bytes, session.environment.2 = bytes ++ data ∧ Kept bytes results session

section Triples

variable {results : List Str} {raised : Stop → TestSession φ (ω × List UInt8) → Prop}

theorem unrecorded_ensures (action : ω → α × ω) :
    Ensures (Recorded results) (perform (unrecorded action) : Method φ (ω × List UInt8) α)
      (fun _ => Recorded results) raised :=
  fun _ recorded => ⟨recorded.decoder, recorded.consumed⟩

theorem read_ensures (env : Environment φ ω) (timeout : φ) :
    Ensures (Recorded results) (read (recording env) timeout) (Undecoded results) raised :=
  fun session recorded =>
    ⟨session.environment.2, rfl, recorded.decoder, recorded.consumed⟩

/-- What `takeLine` has taken is no longer in the buffer. -/
theorem takeLine_ensures :
    Ensures (Recorded results) (takeLine : Method φ (ω × List UInt8) (Option Str))
      (fun taken => Recorded (results ++ taken.toList.filter fun line => line ≠ [])) raised := by
  intro session recorded
  obtain ⟨decoder, text, decoded, ended, shows⟩ := recorded
  unfold takeLine
  rw [run_bind_ok _ (run_get _), partition_eq]
  cases found : Lines.partition 0x0A session.lineBuf with
  | none => exact ⟨decoder, text, decoded, ended, shows.trans (List.append_nil _).symm⟩
  | some parts =>
    obtain ⟨before, after⟩ := parts
    obtain ⟨split, plain⟩ := Lines.partition_eq_some.mp found
    obtain ⟨ends, line⟩ := shown_line plain
    refine ⟨decoder, text ++ (before ++ [0x0A]), ?_, ?_, ?_⟩
    · rw [decoded, split]
      simp
    · rw [rest_append ended, ends]
    · rw [shown_append ended, shows, line]
      by_cases blank : strip before = [] <;> simp [blank]

theorem decode_ensures (data : List UInt8) :
    Ensures (Undecoded results data) (decode data : Method φ (ω × List UInt8) Unit)
      (fun _ => Recorded results) raised := by
  intro session undecoded
  obtain ⟨bytes, read, decoder, text, decoded, ended, shows⟩ := undecoded
  refine ⟨?_, text, ?_, ended, shows⟩
  · change _ = (Transducer.run Utf8.step .start session.environment.2).1
    rw [read, Transducer.run_append, ← decoder]
  · change ofChars (Transducer.run Utf8.step .start session.environment.2).2 = _
    rw [read, Transducer.run_append, ← decoder, ofChars, List.map_append]
    rw [ofChars] at decoded
    rw [decoded, List.append_assoc]
    rfl

/-! What becomes of a result, once the line that was taken has been looked at. -/

section Taken

variable {session : TestSession φ (ω × List UInt8)} {stripped : Str}

theorem recorded_none (recorded : Recorded results session) :
    Recorded (results ++ (none : Option Str).toList) session := by
  rwa [Option.toList_none, List.append_nil]

theorem recorded_of_untaken
    (recorded : Recorded (results ++ (none : Option Str).toList.filter fun line => line ≠ [])
      session) : Recorded results session := by
  rwa [Option.toList_none, List.filter_nil, List.append_nil] at recorded

theorem recorded_of_line (nonblank : stripped ≠ [])
    (recorded : Recorded (results ++ (some stripped).toList.filter fun line => line ≠ [])
      session) : Recorded (results ++ (some stripped).toList) session := by
  rwa [Option.toList_some, List.filter_cons_of_pos (by simpa using nonblank), List.filter_nil]
    at recorded

theorem recorded_of_blank (blank : ¬ stripped ≠ [])
    (recorded : Recorded (results ++ (some stripped).toList.filter fun line => line ≠ [])
      session) : Recorded results session := by
  rwa [Option.toList_some, List.filter_cons_of_neg (by simpa using blank), List.filter_nil,
    List.append_nil] at recorded

theorem recorded_of_nothing (undecoded : Undecoded results [] session) :
    Recorded results session := by
  obtain ⟨bytes, read, kept⟩ := undecoded
  rw [Recorded, read, List.append_nil]
  exact kept

end Taken

variable [PyFloat φ] (env : Environment φ ω)

/-- A call returns the line that it has taken, unless that is blank. -/
theorem readLine_ensures (timeout : φ) (fuel : Nat) :
    Ensures (Recorded results) (readLine (recording env) timeout fuel)
      (fun line => Recorded (results ++ line.toList)) fun _ => Recorded results := by
  refine Ensures.bind (unrecorded_ensures env.clock) fun now => ?_
  generalize PyFloat.add now timeout = deadline
  induction fuel with
  | zero => exact .ofThrow fun _ recorded => recorded
  | succ fuel inductionHypothesis =>
    unfold readLineLoop
    refine Ensures.bind (unrecorded_ensures env.clock) fun now => ?_
    refine .ite (fun _ => ?_) fun _ => .ofPure fun _ => recorded_none
    refine (read_ensures env _).bind fun data => ?_
    refine .ite (fun noData => ?_) fun _ => ?_
    · -- without data the call returns even if the line is blank
      subst noData
      refine (takeLine_ensures.weaken (fun _ => recorded_of_nothing) (fun _ _ => id)
        fun _ _ => id).bind fun taken => ?_
      cases taken with
      | none =>
        exact inductionHypothesis.weaken (fun _ => recorded_of_untaken) (fun _ _ => id) fun _ _ => id
      | some stripped =>
        refine .ofPure fun session recorded => ?_
        split
        · rename_i nonblank
          exact recorded_of_line nonblank recorded
        · rename_i blank
          exact recorded_none (recorded_of_blank blank recorded)
    · -- with data a blank line is passed over
      refine (decode_ensures data).bind fun _ => takeLine_ensures.bind fun taken => ?_
      cases taken with
      | none =>
        exact inductionHypothesis.weaken (fun _ => recorded_of_untaken) (fun _ _ => id) fun _ _ => id
      | some stripped =>
        refine .ite (fun nonblank => .ofPure fun _ => recorded_of_line nonblank) fun blank => ?_
        exact inductionHypothesis.weaken (fun _ => recorded_of_blank blank) (fun _ _ => id)
          fun _ _ => id

end Triples

/-! ## Main result -/

variable [PyFloat φ]

/-- A call of `_read_line` with a timeout; it is cut off after `fuel` turns. -/
def readCall (env : Environment φ ω) : Transducer.Step (TestSession φ ω) (φ × Nat) Str :=
  fun session call =>
    let ran := run (readLine env call.1 call.2) session
    match ran.1 with
    | .ok (some line) => (ran.2, [line])
    | _ => (ran.2, [])

theorem readCall_recorded (env : Environment φ ω) (call : φ × Nat) (results : List Str)
    (session : TestSession φ (ω × List UInt8)) (recorded : Recorded results session) :
    Recorded (results ++ (readCall (recording env) session call).2)
      (readCall (recording env) session call).1 := by
  have one := readLine_ensures env call.1 call.2 session recorded
  unfold readCall
  cases ran : run (readLine (recording env) call.1 call.2) session with
  | mk outcome after =>
    rw [ran] at one
    cases outcome with
    | error stop => exact (List.append_nil results).symm ▸ one
    | ok line =>
      cases line with
      | none => exact one
      | some line => exact one

theorem run_recorded (env : Environment φ ω) (calls : List (φ × Nat)) (results : List Str)
    (session : TestSession φ (ω × List UInt8)) (recorded : Recorded results session) :
    Recorded (results ++ (Transducer.run (readCall (recording env)) session calls).2)
      (Transducer.run (readCall (recording env)) session calls).1 := by
  induction calls generalizing results session with
  | nil =>
    rw [Transducer.run_nil, List.append_nil]
    exact recorded
  | cons call calls inductionHypothesis =>
    rw [Transducer.run_cons, ← List.append_assoc]
    exact inductionHypothesis _ _ (readCall_recorded env call results session recorded)

/-- What is left in the decoder is no end of a line. -/
theorem decode_lines (bytes : List UInt8) :
    let decoded := Transducer.run Utf8.step .start bytes
    shown (ofChars (Utf8.decode bytes)) = shown (ofChars decoded.2) ∧
      Lines.rest 0x0A (ofChars (Utf8.decode bytes)) =
        Lines.rest 0x0A (ofChars decoded.2) ++ ofChars (Utf8.flush decoded.1) := by
  intro decoded
  have whole : ofChars (Utf8.decode bytes) = ofChars decoded.2 ++ ofChars (Utf8.flush decoded.1) :=
    List.map_append
  have plain : 0x0A ∉ ofChars (Utf8.flush decoded.1) := by
    cases decoded.1 with
    | start => exact List.not_mem_nil
    | inside code owed window =>
      rw [Utf8.flush_inside]
      decide
  have ran := Lines.run_plain (Lines.rest 0x0A (ofChars decoded.2)) _ plain
  rw [whole, shown, shown, Lines.lines, Lines.lines, Lines.rest, Transducer.run_append]
  rw [Lines.rest] at ran
  rw [ran, List.append_nil]
  exact ⟨rfl, rfl⟩

/-- Over any calls: what has been returned, and then what is complete in the buffer, are
the lines of all the bytes that have been read, stripped and without the blank ones;
the rest of the text is in the buffer, but for what the decoder holds. -/
theorem lines_kept (env : Environment φ ω) (world : ω) (trace : List (Event φ))
    (calls : List (φ × Nat)) :
    let ran := Transducer.run (readCall (recording env)) { environment := (world, []), trace } calls
    let bytes := ran.1.environment.2
    ran.2 ++ shown ran.1.lineBuf = shown (ofChars (Utf8.decode bytes)) ∧
      Lines.rest 0x0A ran.1.lineBuf ++ ofChars (Utf8.flush ran.1.decoder) =
        Lines.rest 0x0A (ofChars (Utf8.decode bytes)) := by
  intro ran bytes
  have recorded : Recorded ran.2 ran.1 :=
    run_recorded env calls [] _ ⟨rfl, [], rfl, rfl, rfl⟩
  obtain ⟨decoder, text, decoded, ended, shows⟩ := recorded
  obtain ⟨lines, rest⟩ := decode_lines bytes
  rw [lines, rest, decoded, shown_append ended, rest_append ended, shows, decoder]
  exact ⟨rfl, rfl⟩

end EmbeddedBridge.Python.TestSession
