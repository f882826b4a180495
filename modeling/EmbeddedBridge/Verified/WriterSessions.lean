import EmbeddedBridge.Library.Histories
import EmbeddedBridge.Message.Writer

/-! # Sessions of the host's writer

A streamed message is begun, written and ended in calls of its own, and what is called
out of turn raises.  `Session` is what the calls amount to when those that are out of
turn are left out: nothing, or a message that was begun, with what was written to it.

The writer keeps to the session with two exceptions.  A negative length is found out
after the writer has entered the message.  And `end()` tells a text from a binary
message by its first byte, so that a text which begins with SOH gets no newline.
-/

namespace EmbeddedBridge.Python.MessageWriter

open Library Histories

inductive Call where
  | beginText
  | beginBinary (length : Int)
  | write (data : List UInt8)
  | endMessage
  | writeText (line : List Char)
  | writeBinary (payload : List UInt8)
deriving DecidableEq, Repr

/-- The call, with what it returns, if anything. -/
def Call.perform : Call → Method (Option (List UInt8))
  | .beginText => do MessageWriter.beginText; return none
  | .beginBinary length => do MessageWriter.beginBinary length; return none
  | .write data => do MessageWriter.write data; return none
  | .endMessage => do return some (← MessageWriter.endMessage)
  | .writeText line => do return some (← MessageWriter.writeText line)
  | .writeBinary payload => do return some (← MessageWriter.writeBinary payload)

/-- The writer after the calls, whatever became of them. -/
def after (fresh : MessageWriter) (calls : List Call) : MessageWriter :=
  calls.foldl (fun writer call => (runMethod call.perform writer).2) fresh

theorem after_snoc (fresh : MessageWriter) (calls : List Call) (call : Call) :
    after fresh (calls ++ [call]) = (runMethod call.perform (after fresh calls)).2 := by
  rw [after, after, List.foldl_append]
  rfl

/-! ## Sessions -/

inductive Session where
  | closed
  | text (written : List UInt8)
  | binary (length : Nat) (written : List UInt8)
deriving DecidableEq, Repr

namespace Session

def step : Session → Call → Session
  | closed, .beginText => text []
  | closed, .beginBinary length => if length < 0 then closed else binary length.toNat []
  | text written, .write data => text (written ++ data)
  | binary length written, .write data => binary length (written ++ data)
  | text _, .endMessage => closed
  | binary _ _, .endMessage => closed
  | session, _ => session

def of (calls : List Call) : Session := calls.foldl step closed

theorem of_snoc (calls : List Call) (call : Call) :
    of (calls ++ [call]) = (of calls).step call := by
  rw [of, of, List.foldl_append]
  rfl

/-- What `end()` owes to the message that is open. -/
def wire : Session → Option (List UInt8)
  | closed => none
  | text written => some (written ++ [newline])
  | binary length written => some ([soh, binaryProtocolV1] ++ Leb128.encode length ++ written)

end Session

/-- A call that raises leaves the writer as it was, and `end()` returns what is owed. -/
def Keeps (writer : MessageWriter) (session : Session) (call : Call) : Prop :=
  let ran := runMethod call.perform writer
  (∀ error, ran.1 = .error error → ran.2 = writer) ∧
    (call = .endMessage → ∀ wire, ran.1 = .ok wire → wire = session.wire)

/-- No binary message is begun with a negative length, and no text that is ended begins
with SOH. -/
def Session.Proper (session : Session) (call : Call) : Prop :=
  (∀ length, call = .beginBinary length → session = closed → 0 ≤ length) ∧
    (call = .endMessage → ∀ written, session = text written → written.head? ≠ some soh)

/-! ## The writer's state is the session -/

def Related (writer : MessageWriter) : Session → Prop
  | .closed => writer.inMessage = false
  | .text written => writer.inMessage = true ∧ writer.buf = written
  | .binary length written => writer.inMessage = true ∧
    writer.buf = [soh, binaryProtocolV1] ++ Leb128.encode length ++ written

section Turns

variable {writer : MessageWriter} {session : Session}

/-- A message is begun only outside of one. -/
theorem begin_inside (inside : writer.inMessage = true) :
    runMethod Call.beginText.perform writer =
      (.error (.runtimeError "already in a message"), writer) ∧
    ∀ length, runMethod (Call.beginBinary length).perform writer =
      (.error (.runtimeError "already in a message"), writer) := by
  obtain ⟨output, buf, inMessage⟩ := writer
  cases inside
  exact ⟨rfl, fun length => rfl⟩

/-- A message is written and ended only inside of it. -/
theorem write_outside (outside : writer.inMessage = false) :
    (∀ data, runMethod (Call.write data).perform writer =
      (.error (.runtimeError "not in a message — call begin_text/begin_binary first"), writer)) ∧
    runMethod Call.endMessage.perform writer =
      (.error (.runtimeError "not in a message"), writer) := by
  obtain ⟨output, buf, inMessage⟩ := writer
  cases outside
  exact ⟨fun data => rfl, rfl⟩

theorem perform_beginText (outside : writer.inMessage = false) :
    runMethod Call.beginText.perform writer =
      (.ok none, { writer with inMessage := true, buf := [] }) := by
  rw [Call.perform, runMethod_bind (runMethod_beginText writer outside), runMethod_pure]

theorem perform_beginBinary (outside : writer.inMessage = false) (length : Nat) :
    runMethod (Call.beginBinary length).perform writer =
      (.ok none, { writer with
        inMessage := true, buf := [soh, binaryProtocolV1] ++ Leb128.encode length }) := by
  rw [Call.perform, runMethod_bind (runMethod_beginBinary writer outside length), runMethod_pure]

/-- The length is refused when the message has been entered. -/
theorem perform_beginBinary_negative (outside : writer.inMessage = false) (length : Nat) :
    runMethod (Call.beginBinary (Int.negSucc length)).perform writer =
      (.error (.valueError "varint must be non-negative"),
        { writer with inMessage := true, buf := [] }) := by
  have refused : encodeVarint (Int.negSucc length) =
      .error (.valueError "varint must be non-negative") :=
    if_pos (Int.negSucc_lt_zero length)
  obtain ⟨output, buf, inMessage⟩ := writer
  cases outside
  rw [Call.perform, beginBinary, refused]
  rfl

theorem perform_write (inside : writer.inMessage = true) (data : List UInt8) :
    runMethod (Call.write data).perform writer =
      (.ok none, { writer with buf := writer.buf ++ data }) := by
  rw [Call.perform, runMethod_bind (runMethod_write writer inside data), runMethod_pure]

/-- The wire of a message, as `end()` tells it from the buffer. -/
def endWire (buf : List UInt8) : List UInt8 :=
  if buf.head? = some soh then buf else buf ++ [newline]

theorem perform_endMessage (inside : writer.inMessage = true) :
    runMethod Call.endMessage.perform writer =
      (.ok (some (endWire writer.buf)), writer.sentWire (endWire writer.buf)) := by
  have same : (if writer.buf.length = 0 ∨ writer.buf.head? ≠ some soh then writer.buf ++ [newline]
      else writer.buf) = endWire writer.buf := by
    cases buffered : writer.buf with
    | nil => rfl
    | cons first rest => simp [endWire]
  rw [Call.perform, runMethod_bind (runMethod_endMessage writer inside), runMethod_pure, same]

theorem perform_writeText (line : List Char) :
    runMethod (Call.writeText line).perform writer =
      (.ok (some (Utf8.encode line ++ [newline])), { writer with
        output := writer.output.map (· ++ [Utf8.encode line ++ [newline]]) }) := rfl

theorem perform_writeBinary (payload : List UInt8) :
    runMethod (Call.writeBinary payload).perform writer =
      (.ok (some (Wire.binaryWire payload)), { writer with
        output := writer.output.map (· ++ [Wire.binaryWire payload]) }) := by
  rw [Call.perform, writeBinary, python_encodeVarint]
  rfl

/-! ## One call -/

/-- A call keeps the session exactly when it is proper, and then takes it on. -/
def Goes (writer : MessageWriter) (session : Session) (call : Call) : Prop :=
  (Keeps writer session call ↔ session.Proper call) ∧
    (session.Proper call → Related (runMethod call.perform writer).2 (session.step call))

theorem goes_of_raises {call : Call} {error : Error} (related : Related writer session)
    (ran : runMethod call.perform writer = (.error error, writer))
    (stays : session.step call = session) (proper : session.Proper call) :
    Goes writer session call := by
  have keeps : Keeps writer session call := by simp [Keeps, ran]
  refine ⟨iff_of_true keeps proper, fun _ => ?_⟩
  rw [ran, stays]
  exact related

theorem goes_of_returns {call : Call} {result : Option (List UInt8)} {next : MessageWriter}
    (ran : runMethod call.perform writer = (.ok result, next))
    (owed : call = .endMessage → result = session.wire)
    (related : Related next (session.step call)) (proper : session.Proper call) :
    Goes writer session call := by
  have keeps : Keeps writer session call := by
    simp only [Keeps, ran]
    refine ⟨nofun, fun isEnd wire same => ?_⟩
    cases same
    exact owed isEnd
  refine ⟨iff_of_true keeps proper, fun _ => ?_⟩
  rw [ran]
  exact related

/-- What is handed to the output has nothing to do with the session. -/
theorem related_output (related : Related writer session) (output : Option (List (List UInt8))) :
    Related { writer with output } session := by
  cases session <;> exact related

theorem goes_whole (related : Related writer session) {call : Call}
    (whole : (∃ line, call = .writeText line) ∨ ∃ payload, call = .writeBinary payload) :
    Goes writer session call := by
  cases whole with
  | inl isText =>
    obtain ⟨line, rfl⟩ := isText
    exact goes_of_returns (perform_writeText line) nofun
      (by cases session <;> exact related_output related _) ⟨nofun, nofun⟩
  | inr isBinary =>
    obtain ⟨payload, rfl⟩ := isBinary
    exact goes_of_returns (perform_writeBinary payload) nofun
      (by cases session <;> exact related_output related _) ⟨nofun, nofun⟩

theorem goes_closed (outside : writer.inMessage = false) (call : Call) :
    Goes writer .closed call := by
  have related : Related writer .closed := outside
  cases call with
  | beginText => exact goes_of_returns (perform_beginText outside) nofun ⟨rfl, rfl⟩ ⟨nofun, nofun⟩
  | beginBinary length =>
    cases length with
    | ofNat length =>
      refine goes_of_returns (perform_beginBinary outside length) nofun ?_ ⟨?_, nofun⟩
      · exact ⟨rfl, (List.append_nil _).symm⟩
      · intro length same _
        cases same
        exact Int.natCast_nonneg _
    | negSucc length =>
      -- refused, but in a message by then
      have ran := perform_beginBinary_negative outside length
      have improper : ¬ Session.closed.Proper (.beginBinary (Int.negSucc length)) :=
        fun proper => absurd (proper.1 _ rfl rfl) (Int.not_le.mpr (Int.negSucc_lt_zero length))
      refine ⟨iff_of_false ?_ improper, fun proper => absurd proper improper⟩
      intro keeps
      have same := keeps.1 _ (congrArg Prod.fst ran)
      rw [ran] at same
      exact absurd ((congrArg inMessage same).trans outside) (by simp)
  | write data => exact goes_of_raises related ((write_outside outside).1 data) rfl ⟨nofun, nofun⟩
  | endMessage => exact goes_of_raises related (write_outside outside).2 rfl ⟨nofun, nofun⟩
  | writeText line => exact goes_whole related (.inl ⟨line, rfl⟩)
  | writeBinary payload => exact goes_whole related (.inr ⟨payload, rfl⟩)

theorem goes_text (written : List UInt8) (related : Related writer (.text written)) (call : Call) :
    Goes writer (.text written) call := by
  have inside : writer.inMessage = true := related.1
  have buffered := related.2
  cases call with
  | beginText => exact goes_of_raises related (begin_inside inside).1 rfl ⟨nofun, nofun⟩
  | beginBinary length =>
    exact goes_of_raises related ((begin_inside inside).2 length) rfl ⟨nofun, nofun⟩
  | write data =>
    exact goes_of_returns (perform_write inside data) nofun ⟨inside, by rw [buffered]⟩
      ⟨nofun, nofun⟩
  | endMessage =>
    have ran := perform_endMessage inside
    rw [buffered, endWire] at ran
    split at ran
    · -- taken for a binary message
      rename_i begins
      have improper : ¬ (Session.text written).Proper .endMessage :=
        fun proper => proper.2 rfl written rfl begins
      refine ⟨iff_of_false ?_ improper, fun proper => absurd proper improper⟩
      intro keeps
      have same := keeps.2 rfl _ (congrArg Prod.fst ran)
      exact absurd (congrArg (Option.map List.length) same) (by simp [Session.wire])
    · rename_i plain
      refine goes_of_returns ran (fun _ => rfl) rfl ⟨nofun, fun _ other same => ?_⟩
      cases same
      exact plain
  | writeText line => exact goes_whole related (.inl ⟨line, rfl⟩)
  | writeBinary payload => exact goes_whole related (.inr ⟨payload, rfl⟩)

theorem goes_binary (length : Nat) (written : List UInt8)
    (related : Related writer (.binary length written)) (call : Call) :
    Goes writer (.binary length written) call := by
  have inside : writer.inMessage = true := related.1
  have buffered := related.2
  cases call with
  | beginText => exact goes_of_raises related (begin_inside inside).1 rfl ⟨nofun, nofun⟩
  | beginBinary other =>
    exact goes_of_raises related ((begin_inside inside).2 other) rfl ⟨nofun, nofun⟩
  | write data =>
    refine goes_of_returns (perform_write inside data) nofun ⟨inside, ?_⟩ ⟨nofun, nofun⟩
    rw [buffered, List.append_assoc]
  | endMessage =>
    have ran := perform_endMessage inside
    have begins : writer.buf.head? = some soh := by rw [buffered]; rfl
    rw [endWire, if_pos begins, buffered] at ran
    exact goes_of_returns ran (fun _ => rfl) rfl ⟨nofun, nofun⟩
  | writeText line => exact goes_whole related (.inl ⟨line, rfl⟩)
  | writeBinary payload => exact goes_whole related (.inr ⟨payload, rfl⟩)

theorem goes (related : Related writer session) (call : Call) : Goes writer session call := by
  cases session with
  | closed => exact goes_closed related call
  | text written => exact goes_text written related call
  | binary length written => exact goes_binary length written related call

end Turns

/-! ## Main result -/

/-- A new writer keeps its sessions over a run of calls if and only if no binary message
is begun with a negative length and no text that is ended begins with SOH. -/
theorem sessions_iff (output : Option (List (List UInt8))) (calls : List Call) :
    Everywhere (fun before => Keeps (after { output } before) (Session.of before)) calls ↔
      Everywhere (fun before => (Session.of before).Proper) calls := by
  apply everywhere_iff fun before => Related (after { output } before) (Session.of before)
  · rfl
  · intro before call related proper
    rw [after_snoc, Session.of_snoc]
    exact (goes related call).2 proper
  · intro before call related
    exact (goes related call).1

/-- A refused length leaves the writer in a message that nobody has begun, and a text
that begins with SOH is not ended by a newline. -/
theorem sessions_broken :
    ¬ Everywhere (fun before => Keeps (after {} before) (Session.of before)) [.beginBinary (-1)] ∧
    ¬ Everywhere (fun before => Keeps (after {} before) (Session.of before))
      [.beginText, .write [soh, 0x68], .endMessage] := by
  constructor
  · intro everywhere
    exact absurd ((everywhere [] _ [] rfl).1 _ rfl) (by decide)
  · intro everywhere
    exact absurd ((everywhere [.beginText, .write [soh, 0x68]] _ [] rfl).2 rfl _ rfl) (by decide)

end EmbeddedBridge.Python.MessageWriter
