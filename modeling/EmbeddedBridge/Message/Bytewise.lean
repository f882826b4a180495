import EmbeddedBridge.Message.Parse

/-! # One byte at a time

A chunk fed to the reader comes to the same as its bytes fed one at a time: the
reader ends in the same fields, and the callbacks are the same but that each byte
of a body comes by itself (`run_byteFeed`).  So the fields do not depend on the
chunks at all (`run_feed_state`).
-/

namespace EmbeddedBridge

open Library Wire

/-- A callback as it would have come byte by byte. -/
def Callback.bytewise : Callback UInt8 → List (Callback UInt8)
  | .textData chunk => chunk.map fun c => .textData [c]
  | .binaryData chunk => chunk.map fun c => .binaryData [c]
  | call => [call]

namespace MessageReader

variable {ν : Type} [LengthWord ν]

open LengthWord

/-- `feed` of a single byte. -/
def byteFeed : Transducer.Step (MessageReader ν) UInt8 (Callback UInt8) := fun reader c =>
  ((turn id reader c []).state, (turn id reader c []).emitted)

/-- In the payload there is something to wait for. -/
def Waits (reader : MessageReader ν) : Prop :=
  reader.state = .payload → 0 < toNat reader.payloadRemaining

theorem onTextData_bytewise (chunk : List UInt8) :
    (onTextData id chunk).flatMap Callback.bytewise = chunk.map fun c => Callback.textData [c] := by
  unfold onTextData
  split
  · rename_i empty
    rw [empty]
    rfl
  · simp [Callback.bytewise]

/-! ## Bytes of a text -/

theorem byteFeed_newline (reader : MessageReader ν) (inText : reader.state = .text) :
    byteFeed reader newline = ({ reader with state := .idle }, [.textEnd]) := by
  simp [byteFeed, turn, inText, feedText, onTextData]

theorem byteFeed_soh (reader : MessageReader ν) (inText : reader.state = .text) :
    byteFeed reader soh = ({ reader with state := .version }, [.textEnd]) := by
  simp [byteFeed, turn, inText, feedText, onTextData, newline, soh]

theorem run_byteFeed_plain (reader : MessageReader ν) (inText : reader.state = .text)
    (text : List UInt8) (plain : Plain text) :
    Transducer.run byteFeed reader text = (reader, text.map fun c => Callback.textData [c]) := by
  induction text with
  | nil => rfl
  | cons c text inductionHypothesis =>
    simp only [Plain, List.mem_cons, not_or] at plain
    have one : byteFeed reader c = (reader, [.textData [c]]) := by
      simp [byteFeed, turn, inText, feedText, onTextData, Ne.symm plain.1.1, Ne.symm plain.2.1]
    exact Transducer.run_step _ one (inductionHypothesis ⟨plain.1.2, plain.2.2⟩)

/-- A turn that reads `used` of `data` is the run of `byteFeed` over it. -/
def TurnRuns (reader : MessageReader ν) (data : List UInt8)
    (outcome : Consumer.Outcome (MessageReader ν) UInt8 (Callback UInt8)) : Prop :=
  outcome.state.Waits ∧ ∃ used, used ++ outcome.unread = data ∧
    Transducer.run byteFeed reader used =
      (outcome.state, outcome.emitted.flatMap Callback.bytewise)

theorem text_runs (reader : MessageReader ν) (inText : reader.state = .text) (data : List UInt8) :
    TurnRuns reader data (feedText id reader [] data) := by
  obtain ⟨plain, all⟩ | ⟨text, rest, plain, ⟨split, found⟩ | ⟨split, found⟩⟩ :=
    feedText_cases reader [] data
  · rw [all]
    refine ⟨by simp [Waits, inText], data, by simp, ?_⟩
    rw [List.nil_append, onTextData_bytewise]
    exact run_byteFeed_plain reader inText data plain
  · rw [found]
    refine ⟨by simp [Waits], text ++ [newline], by simp [split], ?_⟩
    rw [List.nil_append, List.flatMap_append, onTextData_bytewise]
    exact Transducer.run_trans _ (run_byteFeed_plain reader inText text plain)
      (by rw [Transducer.run_singleton, byteFeed_newline reader inText]; rfl)
  · rw [found]
    refine ⟨by simp [Waits], text ++ [soh], by simp [split], ?_⟩
    rw [List.nil_append, List.flatMap_append, onTextData_bytewise]
    exact Transducer.run_trans _ (run_byteFeed_plain reader inText text plain)
      (by rw [Transducer.run_singleton, byteFeed_soh reader inText]; rfl)

/-! ## Bytes of a payload -/

variable [lawful : LengthWord.Lawful ν]

theorem run_byteFeed_partly (reader : MessageReader ν) (inPayload : reader.state = .payload)
    (data : List UInt8) (more : data.length < toNat reader.payloadRemaining) :
    Transducer.run byteFeed reader data =
      ({ reader with payloadRemaining := sub reader.payloadRemaining data.length },
        data.map fun c => Callback.binaryData [c]) := by
  induction data generalizing reader with
  | nil => simp [lawful.sub_zero]
  | cons c data inductionHypothesis =>
    rw [List.length_cons] at more
    have one := feedPayload_partly reader [c] (by simp) (by rw [List.length_singleton]; omega)
    have stepped : byteFeed reader c =
        ({ reader with payloadRemaining := sub reader.payloadRemaining 1 }, [.binaryData [c]]) := by
      simp only [byteFeed, turn, inPayload, one, List.length_singleton]
    have left := lawful.toNat_sub reader.payloadRemaining 1 (by omega)
    have later := inductionHypothesis
      { reader with payloadRemaining := sub reader.payloadRemaining 1 } inPayload
      (by simp only [left]; omega)
    simp only [lawful.sub_sub, Nat.add_comm 1] at later
    exact Transducer.run_step _ stepped later

theorem run_byteFeed_whole (reader : MessageReader ν) (inPayload : reader.state = .payload)
    (data : List UInt8) (some : data ≠ []) (whole : data.length = toNat reader.payloadRemaining) :
    Transducer.run byteFeed reader data =
      ({ reader with payloadRemaining := sub reader.payloadRemaining data.length, state := .idle },
        data.map (fun c => Callback.binaryData [c]) ++ [.binaryEnd]) := by
  -- only the last byte finds the payload complete
  obtain ⟨init, last, split⟩ := (List.eq_nil_or_concat data).resolve_left some
  rw [List.concat_eq_append] at split
  subst split
  rw [List.length_append, List.length_singleton] at whole ⊢
  have left := lawful.toNat_sub reader.payloadRemaining init.length (by omega)
  have one := feedPayload_whole
    { reader with payloadRemaining := sub reader.payloadRemaining init.length } [last]
    (by simp only [left]; omega) (by simp only [left, List.length_singleton]; omega)
  have lastOne : toNat (sub reader.payloadRemaining init.length) = 1 := by omega
  simp only [lastOne, lawful.sub_sub, List.take_succ_cons, List.take_zero, inPayload] at one
  rw [List.map_append, List.append_assoc]
  refine Transducer.run_trans _ (run_byteFeed_partly reader inPayload init (by omega)) ?_
  simp only [Transducer.run_singleton, byteFeed, turn, inPayload, one]
  rfl

theorem payload_runs (reader : MessageReader ν) (inPayload : reader.state = .payload)
    (waits : reader.Waits) (c : UInt8) (rest : List UInt8) :
    TurnRuns reader (c :: rest) (feedPayload reader (c :: rest)) := by
  have owed := waits inPayload
  have some : 0 < (c :: rest).length := Nat.succ_pos _
  by_cases more : (c :: rest).length < toNat reader.payloadRemaining
  · rw [feedPayload_partly reader _ some more]
    have left := lawful.toNat_sub reader.payloadRemaining (c :: rest).length (Nat.le_of_lt more)
    refine ⟨fun _ => ?_, c :: rest, by simp, ?_⟩
    · simp only [left]
      omega
    · rw [run_byteFeed_partly reader inPayload _ more]
      simp [Callback.bytewise]
  · rw [feedPayload_whole reader _ owed (Nat.not_lt.mp more)]
    have taken := List.length_take_of_le (Nat.not_lt.mp more)
    refine ⟨by simp [Waits], _, List.take_append_drop _ _, ?_⟩
    rw [run_byteFeed_whole reader inPayload _ (List.ne_nil_of_length_pos (by omega)) taken, taken]
    simp [Callback.bytewise]

/-! ## Turns and chunks -/

omit lawful in
theorem processVarintByte_runs (reader : MessageReader ν) (inLength : reader.state = .length)
    (c : UInt8) :
    let processed : MessageReader ν × List (Callback UInt8) := reader.processVarintByte c
    processed.1.Waits ∧ processed.2.flatMap Callback.bytewise = processed.2 := by
  unfold processVarintByte
  simp only
  split
  · split
    · exact ⟨by simp [Waits], rfl⟩
    · rename_i some
      exact ⟨fun _ => Nat.pos_of_ne_zero some, rfl⟩
  split
  · exact ⟨by simp [Waits], rfl⟩
  · exact ⟨by simp [Waits, inLength], rfl⟩

theorem turn_runs (reader : MessageReader ν) (waits : reader.Waits) (c : UInt8)
    (rest : List UInt8) : TurnRuns reader (c :: rest) (turn id reader c rest) := by
  cases inState : reader.state with
  | idle =>
    by_cases isSoh : c = soh
    · refine ⟨by simp [turn, inState, isSoh, Waits], [c], ?_, ?_⟩ <;>
        simp [turn, inState, isSoh, byteFeed]
    by_cases isNewline : c = newline
    · refine ⟨?_, [c], ?_, ?_⟩ <;>
        simp [turn, inState, isNewline, newline, soh, byteFeed, Waits, Callback.bytewise]
    -- the first byte of a text, as in `idle_parses`
    have scans : ∀ rest, turn id reader c rest =
        feedText id { reader with state := .text } [] (c :: rest) := by
      intro rest
      simp [turn, inState, isSoh, isNewline]
    obtain ⟨waits', used, split, ran⟩ := text_runs { reader with state := .text } rfl (c :: rest)
    rw [scans]
    refine ⟨waits', used, split, ?_⟩
    obtain ⟨later, rfl⟩ := feedText_reads split
    have same : byteFeed reader c = byteFeed { reader with state := .text } c := by
      simp only [byteFeed, scans]
      rfl
    rw [← ran, Transducer.run_cons, Transducer.run_cons, same]
  | text =>
    have scans : turn id reader c rest = feedText id reader [] (c :: rest) := by
      simp [turn, inState]
    rw [scans]
    exact text_runs reader inState (c :: rest)
  | version =>
    by_cases isOne : c = binaryProtocolV1
    · refine ⟨by simp [turn, inState, isOne, Waits], [c], ?_, ?_⟩ <;>
        simp [turn, inState, isOne, byteFeed]
    · refine ⟨by simp [turn, inState, isOne, Waits], [c], ?_, ?_⟩ <;>
        simp [turn, inState, isOne, byteFeed]
  | length =>
    obtain ⟨waits', same⟩ := processVarintByte_runs reader inState c
    have turned : ∀ rest, turn id reader c rest =
        let processed : MessageReader ν × List (Callback UInt8) := reader.processVarintByte c
        ⟨processed.1, processed.2, rest⟩ := by
      intro rest
      simp [turn, inState]
    rw [turned]
    refine ⟨waits', [c], rfl, ?_⟩
    rw [Transducer.run_singleton, byteFeed, turned, same]
  | payload =>
    have delivers : turn id reader c rest = feedPayload reader (c :: rest) := by
      simp [turn, inState]
    rw [delivers]
    exact payload_runs reader inState waits c rest

theorem run_byteFeed (reader : MessageReader ν) (waits : reader.Waits) (data : List UInt8) :
    (feed id reader data).1.Waits ∧ Transducer.run byteFeed reader data =
      ((feed id reader data).1, (feed id reader data).2.flatMap Callback.bytewise) := by
  obtain ⟨⟨same, waits'⟩, emits⟩ := Consumer.consume_refines (turn_progress id) Callback.bytewise
    (fun reader target : MessageReader ν => target = reader ∧ reader.Waits)
    (by
      intro reader target c rest ⟨same, waits⟩
      subst same
      obtain ⟨waits', used, split, ran⟩ := turn_runs target waits c rest
      exact ⟨used, split, ⟨by rw [ran], waits'⟩, by rw [ran]⟩)
    reader reader data ⟨rfl, waits⟩
  exact ⟨waits', Prod.ext same emits.symm⟩

/-- However the stream was cut, the reader's fields are the same, and so are the
callbacks byte by byte. -/
theorem run_byteFeed_chunks (reader : MessageReader ν) (waits : reader.Waits)
    (chunks : List (List UInt8)) :
    Transducer.run byteFeed reader chunks.flatten =
      ((Transducer.run (feed id) reader chunks).1,
        (Transducer.run (feed id) reader chunks).2.flatMap Callback.bytewise) := by
  induction chunks generalizing reader with
  | nil => rfl
  | cons chunk chunks inductionHypothesis =>
    obtain ⟨waits', ran⟩ := run_byteFeed reader waits chunk
    rw [List.flatten_cons, Transducer.run_cons, List.flatMap_append]
    exact Transducer.run_trans _ ran (inductionHypothesis _ waits')

theorem feed_singleton (reader : MessageReader ν) (waits : reader.Waits) (c : UInt8) :
    feed id reader [c] = byteFeed reader c := by
  have ends : (turn id reader c []).unread = [] := by
    obtain ⟨_, used, split, ran⟩ := turn_runs reader waits c []
    cases used with
    | nil =>
      -- a turn without a byte read would make no progress
      have lowered := turn_progress id reader c []
      rw [Transducer.run_nil, Prod.mk.injEq] at ran
      rw [List.nil_append] at split
      rw [← ran.1, split] at lowered
      exact absurd lowered (Nat.lt_irrefl _)
    | cons first used =>
      rw [List.cons_append, List.cons.injEq] at split
      exact (List.append_eq_nil_iff.mp split.2).2
  simp only [feed, feedLoop, Consumer.consume_cons (turn_progress id), ends]
  simp [byteFeed]

theorem run_singletons (reader : MessageReader ν) (waits : reader.Waits) (data : List UInt8) :
    Transducer.run (feed id) reader (data.map fun c => [c]) = Transducer.run byteFeed reader data := by
  induction data generalizing reader with
  | nil => rfl
  | cons c data inductionHypothesis =>
    have waits' := (run_byteFeed reader waits [c]).1
    rw [feed_singleton reader waits c] at waits'
    rw [List.map_cons, Transducer.run_cons, feed_singleton reader waits c,
      inductionHypothesis _ waits', ← Transducer.run_cons]

end MessageReader

end EmbeddedBridge
