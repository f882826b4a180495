import EmbeddedBridge.Library.Histories
import EmbeddedBridge.Transport.WebSocket

/-! # Each connection is a byte stream

`streamOf` is what the log says of the connection that has been opened last: what has
been received on it and what `read` has returned since.  `Streaming` ties the two to
the buffer, in every state between two calls of the driver.
-/

namespace EmbeddedBridge.Python.WebSocketTransport

open Library Py Transport Methods Histories

variable {φ ω : Type}

/-! ## Streams in the log -/

def Event.receivedOn (connection : Nat) : Event → List UInt8
  | .received other message => if other = connection then message.bytes else []
  | _ => []

def Event.returnedBytes : Event → List UInt8
  | .returned data => data
  | _ => []

/-- The messages received on a connection, one after the other. -/
def receivedOn (connection : Nat) (log : List Event) : List UInt8 :=
  log.flatMap (Event.receivedOn connection)

def returnedIn (log : List Event) : List UInt8 := log.flatMap Event.returnedBytes

def NoneOpened (log : List Event) : Prop := ∀ connection, .opened connection ∉ log

/-- Between two openings `read` returns what is received on the connection, from its
start and in order; while the connection is held, what is missing is in the buffer. -/
structure FaithfulStream (transport : WebSocketTransport ω) : Prop where
  before : ∀ during after, transport.log = during ++ after → NoneOpened during →
    returnedIn during = []
  between : ∀ before connection during after,
    transport.log = before ++ .opened connection :: (during ++ after) → NoneOpened during →
      returnedIn during <+: receivedOn connection transport.log
  held : ∀ connection, transport.ws = some connection →
    ∃ before during, transport.log = before ++ .opened connection :: during ∧
      NoneOpened during ∧
      receivedOn connection transport.log = returnedIn during ++ transport.buffer

/-- Since the last opening. -/
structure Stream where
  connection : Option Nat := none
  received : List UInt8 := []
  returned : List UInt8 := []

def Stream.after (stream : Stream) (event : Event) : Stream :=
  match event with
  | .opened connection => { connection := some connection }
  | .received connection message =>
    if stream.connection = some connection then
      { stream with received := stream.received ++ message.bytes }
    else stream
  | .returned data => { stream with returned := stream.returned ++ data }
  | _ => stream

def streamOf (log : List Event) : Stream := log.foldl Stream.after {}

@[simp] theorem streamOf_snoc (log : List Event) (event : Event) :
    streamOf (log ++ [event]) = (streamOf log).after event := by
  rw [streamOf, List.foldl_append]
  rfl

@[simp] theorem receivedOn_append (connection : Nat) (left right : List Event) :
    receivedOn connection (left ++ right) =
      receivedOn connection left ++ receivedOn connection right := List.flatMap_append

@[simp] theorem receivedOn_singleton (connection : Nat) (event : Event) :
    receivedOn connection [event] = event.receivedOn connection := List.flatMap_singleton ..

@[simp] theorem returnedIn_append (left right : List Event) :
    returnedIn (left ++ right) = returnedIn left ++ returnedIn right := List.flatMap_append

@[simp] theorem returnedIn_singleton (event : Event) :
    returnedIn [event] = event.returnedBytes := List.flatMap_singleton ..

theorem streamOf_during (before : List Event) (connection : Nat) (during : List Event)
    (noneOpened : NoneOpened during) :
    streamOf (before ++ .opened connection :: during) =
      { connection := some connection
        received := receivedOn connection during
        returned := returnedIn during } := by
  induction during using List.reverseRecOn with
  | nil => simp [Stream.after, receivedOn, returnedIn]
  | append_singleton during event inductionHypothesis =>
    have earlier := inductionHypothesis fun other opened =>
      noneOpened other (List.mem_append_left _ opened)
    have notOpened : ∀ other, event ≠ .opened other := fun other opened =>
      noneOpened other (List.mem_append_right _ (opened ▸ List.mem_singleton_self _))
    rw [← List.cons_append, ← List.append_assoc, streamOf_snoc, earlier, receivedOn_append,
      returnedIn_append, receivedOn_singleton, returnedIn_singleton]
    cases event with
    | opened other => exact absurd rfl (notOpened other)
    | received other message =>
      by_cases same : other = connection
      · simp [Stream.after, Event.receivedOn, Event.returnedBytes, same]
      · simp [Stream.after, Event.receivedOn, Event.returnedBytes, same, Ne.symm same]
    | returned data => simp [Stream.after, Event.receivedOn, Event.returnedBytes]
    | _ => simp [Stream.after, Event.receivedOn, Event.returnedBytes]

/-- Without an opening, nothing counts as received. -/
theorem streamOf_unopened (during : List Event) (noneOpened : NoneOpened during) :
    streamOf during = { returned := returnedIn during } := by
  induction during using List.reverseRecOn with
  | nil => rfl
  | append_singleton during event inductionHypothesis =>
    have earlier := inductionHypothesis fun other opened =>
      noneOpened other (List.mem_append_left _ opened)
    have notOpened : ∀ other, event ≠ .opened other := fun other opened =>
      noneOpened other (List.mem_append_right _ (opened ▸ List.mem_singleton_self _))
    rw [streamOf_snoc, earlier, returnedIn_append, returnedIn_singleton]
    cases event with
    | opened other => exact absurd rfl (notOpened other)
    | _ => simp [Stream.after, Event.returnedBytes]

theorem after_connection (stream : Stream) {event : Event}
    (notOpened : ∀ connection, event ≠ .opened connection) :
    (stream.after event).connection = stream.connection := by
  cases event with
  | opened connection => exact absurd rfl (notOpened connection)
  | received connection message =>
    rw [Stream.after]
    split <;> rfl
  | _ => rfl

/-- The last opening, if there is one. -/
theorem streamOf_connection (log : List Event) {connection : Nat}
    (isLast : (streamOf log).connection = some connection) :
    ∃ before during, log = before ++ .opened connection :: during ∧ NoneOpened during := by
  induction log using List.reverseRecOn with
  | nil => cases isLast
  | append_singleton log event inductionHypothesis =>
    rw [streamOf_snoc] at isLast
    by_cases opens : ∃ other, event = .opened other
    · obtain ⟨other, rfl⟩ := opens
      cases isLast
      exact ⟨log, [], rfl, fun _ => List.not_mem_nil⟩
    · have notOpened : ∀ other, event ≠ .opened other := fun other is => opens ⟨other, is⟩
      rw [after_connection _ notOpened] at isLast
      obtain ⟨before, during, rfl, noneOpened⟩ := inductionHypothesis isLast
      refine ⟨before, during ++ [event], by simp, fun other isThere => ?_⟩
      cases List.mem_append.mp isThere with
      | inl earlier => exact noneOpened other earlier
      | inr last => exact notOpened other (List.mem_singleton.mp last).symm

/-! ## The invariant -/

/-- A connection is new when it is opened, and at no time has more been returned than
received. -/
def Orderly (before : List Event) (event : Event) : Prop :=
  (∀ connection, event = .opened connection → receivedOn connection before = []) ∧
    (streamOf (before ++ [event])).returned <+: (streamOf (before ++ [event])).received

/-- Between what has been returned and what is in the buffer, `taken` is on its way to
the caller; `arriving` is on its way to the buffer. -/
structure Streaming (taken arriving : List UInt8) (transport : WebSocketTransport ω) : Prop where
  everywhere : Everywhere Orderly transport.log
  unused : ∀ connection, transport.connections ≤ connection →
    receivedOn connection transport.log = []
  known : ∀ connection, transport.ws = some connection → connection < transport.connections
  isLast : ∀ connection, transport.ws = some connection →
    (streamOf transport.log).connection = some connection
  whole : ∀ connection, transport.ws = some connection →
    (streamOf transport.log).received =
      (streamOf transport.log).returned ++ taken ++ transport.buffer ++ arriving
  idle : transport.ws = none → transport.buffer = [] ∧ taken = []

theorem orderly_stream {log : List Event} (everywhere : Everywhere Orderly log) :
    (streamOf log).returned <+: (streamOf log).received := by
  cases List.eq_nil_or_concat log with
  | inl none =>
    rw [none]
    exact List.prefix_rfl
  | inr some =>
    obtain ⟨before, event, rfl⟩ := some
    rw [List.concat_eq_append] at everywhere ⊢
    exact (everywhere_snoc.mp everywhere).2.2

/-- Events that have nothing to do with the stream. -/
def Event.IsQuiet : Event → Prop
  | .opened _ => False
  | .received _ _ => False
  | .returned _ => False
  | _ => True

theorem after_quiet (stream : Stream) {event : Event} (isQuiet : event.IsQuiet) :
    stream.after event = stream := by
  cases event with
  | opened connection => cases isQuiet
  | received connection message => cases isQuiet
  | returned data => cases isQuiet
  | _ => rfl

theorem receivedOn_quiet (connection : Nat) {event : Event} (isQuiet : event.IsQuiet) :
    event.receivedOn connection = [] := by
  cases event with
  | received other message => cases isQuiet
  | _ => rfl

namespace Streaming

variable {taken arriving : List UInt8} {transport : WebSocketTransport ω}

theorem initial (world : ω) : Streaming [] [] ({ world } : WebSocketTransport ω) where
  everywhere := everywhere_nil
  unused _ _ := rfl
  known _ held := nomatch held
  isLast _ held := nomatch held
  whole _ held := nomatch held
  idle _ := ⟨rfl, rfl⟩

theorem inWorld (streaming : Streaming taken arriving transport) (world : ω) :
    Streaming taken arriving { transport with world } :=
  ⟨streaming.everywhere, streaming.unused, streaming.known, streaming.isLast, streaming.whole,
    streaming.idle⟩

theorem quiet (streaming : Streaming taken arriving transport) (event : Event)
    (isQuiet : event.IsQuiet) (world : ω) :
    Streaming taken arriving { transport with world, log := transport.log ++ [event] } := by
  have same : streamOf (transport.log ++ [event]) = streamOf transport.log := by
    rw [streamOf_snoc, after_quiet _ isQuiet]
  refine ⟨everywhere_snoc.mpr ⟨streaming.everywhere, ?_, ?_⟩, ?_, streaming.known, ?_, ?_,
    streaming.idle⟩
  · rintro connection rfl
    cases isQuiet
  · rw [same]
    exact orderly_stream streaming.everywhere
  · intro connection unused
    simp [streaming.unused connection unused, receivedOn_quiet connection isQuiet]
  · rw [same]
    exact streaming.isLast
  · rw [same]
    exact streaming.whole

/-- After the refusals, if there are any, of a reconnect. -/
theorem disconnected {before : WebSocketTransport ω} (streaming : Streaming [] [] before)
    (disconnected : Disconnected before transport) : Streaming [] [] transport := by
  obtain ⟨refusals, log⟩ := disconnected.log
  have refused : Streaming [] []
      { before with log := before.log ++ refusals.map .openFailed } := by
    clear log
    induction refusals using List.reverseRecOn with
    | nil => simpa using streaming
    | append_singleton refusals exception inductionHypothesis =>
      rw [List.map_append, ← List.append_assoc]
      exact inductionHypothesis.quiet (.openFailed exception) trivial before.world
  have none : ∀ connection, transport.ws ≠ some connection := by
    rw [disconnected.ws]
    nofun
  refine ⟨?_, ?_, fun _ held => absurd held (none _), fun _ held => absurd held (none _),
    fun _ held => absurd held (none _), fun _ => ⟨disconnected.buffer, rfl⟩⟩
  · rw [log]
    exact refused.everywhere
  · rw [log, disconnected.connections]
    exact refused.unused

/-- On a new connection everything starts afresh. -/
theorem opens (streaming : Streaming [] [] transport) (idle : transport.ws = none) (world : ω) :
    Streaming [] []
      { transport with
        ws := some transport.connections, world
        connections := transport.connections + 1
        log := transport.log ++ [.opened transport.connections] } := by
  refine ⟨everywhere_snoc.mpr ⟨streaming.everywhere, ?_, ?_⟩, ?_, ?_, ?_, ?_, nofun⟩
  · intro connection opened
    cases opened
    exact streaming.unused _ (Nat.le_refl _)
  · rw [streamOf_snoc]
    exact List.prefix_rfl
  · intro connection unused
    have unused' : transport.connections + 1 ≤ connection := unused
    simp [streaming.unused connection (by omega), Event.receivedOn]
  · intro connection held
    cases held
    exact Nat.lt_succ_self _
  · intro connection held
    cases held
    rw [streamOf_snoc]
    rfl
  · intro connection held
    rw [streamOf_snoc, (streaming.idle idle).1]
    rfl

theorem receives {ws : Nat} (streaming : Streaming [] [] transport) (held : transport.ws = some ws)
    (message : WebSocketMessage) (world : ω) :
    Streaming [] message.bytes
      { transport with world, log := transport.log ++ [.received ws message] } := by
  have stream : streamOf (transport.log ++ [.received ws message]) =
      { streamOf transport.log with
        received := (streamOf transport.log).received ++ message.bytes } := by
    rw [streamOf_snoc, Stream.after, if_pos (streaming.isLast ws held)]
  refine ⟨everywhere_snoc.mpr ⟨streaming.everywhere, nofun, ?_⟩, ?_, streaming.known, ?_, ?_,
    streaming.idle⟩
  · rw [stream]
    exact (orderly_stream streaming.everywhere).trans (List.prefix_append _ _)
  · intro connection unused
    have known := streaming.known ws held
    have other : ws ≠ connection := Nat.ne_of_lt (Nat.lt_of_lt_of_le known unused)
    simp [streaming.unused connection unused, Event.receivedOn, other]
  · rw [stream]
    exact streaming.isLast
  · intro connection isHeld
    rw [stream]
    simp [streaming.whole connection isHeld]

/-- What arrives is appended to the buffer. -/
theorem buffers {ws : Nat} {data : List UInt8} (streaming : Streaming [] data transport)
    (held : transport.ws = some ws) :
    Streaming [] [] { transport with buffer := transport.buffer ++ data } := by
  refine ⟨streaming.everywhere, streaming.unused, streaming.known, streaming.isLast, ?_, ?_⟩
  · intro connection isHeld
    rw [streaming.whole connection isHeld]
    simp
  · intro idle
    cases idle.symm.trans held

theorem drains {taken rest : List UInt8} (streaming : Streaming [] [] transport)
    (split : transport.buffer = taken ++ rest) :
    Streaming taken [] { transport with buffer := rest } := by
  refine ⟨streaming.everywhere, streaming.unused, streaming.known, streaming.isLast, ?_, ?_⟩
  · intro connection isHeld
    rw [streaming.whole connection isHeld, split]
    simp
  · intro idle
    have none := split.symm.trans (streaming.idle idle).1
    obtain ⟨noneTaken, noneLeft⟩ := List.append_eq_nil_iff.mp none
    exact ⟨noneLeft, noneTaken⟩

theorem returns (streaming : Streaming taken [] transport) :
    Streaming [] [] { transport with log := transport.log ++ [.returned taken] } := by
  have stream : streamOf (transport.log ++ [.returned taken]) =
      { streamOf transport.log with returned := (streamOf transport.log).returned ++ taken } := by
    rw [streamOf_snoc]
    rfl
  refine ⟨everywhere_snoc.mpr ⟨streaming.everywhere, nofun, ?_⟩, ?_, streaming.known, ?_, ?_, ?_⟩
  · rw [stream]
    cases held : transport.ws with
    | none =>
      rw [(streaming.idle held).2, List.append_nil]
      exact orderly_stream streaming.everywhere
    | some connection =>
      rw [streaming.whole connection held, List.append_assoc (_ ++ taken)]
      exact List.prefix_append _ _
  · intro connection unused
    simp [streaming.unused connection unused, Event.receivedOn]
  · rw [stream]
    exact streaming.isLast
  · intro connection isHeld
    rw [stream, streaming.whole connection isHeld]
    simp
  · intro idle
    exact ⟨(streaming.idle idle).1, rfl⟩

end Streaming

/-! ## Each call -/

section

variable (driver : Driver φ ω) (config : Config φ)

/-- Whatever becomes of a call, the invariant is kept. -/
abbrev Keeps {α : Type} (method : Method ω α) : Prop :=
  Ensures (Streaming [] []) method (fun _ => Streaming [] []) fun _ => Streaming [] []

/-- On the connection `ws`. -/
abbrev On (ws : Nat) (transport : WebSocketTransport ω) : Prop :=
  Streaming [] [] transport ∧ transport.ws = some ws

theorem ensureConnected_ensures :
    Ensures (Streaming [] []) (ensureConnected : Method ω Nat)
      (fun ws => On ws) fun _ => Streaming [] [] := by
  intro transport streaming
  rw [run_ensureConnected]
  cases held : transport.ws with
  | none => exact streaming
  | some ws => exact ⟨streaming, held⟩

theorem connect_keeps : Keeps (connect driver config) := by
  intro transport streaming
  cases run_connect driver config transport with
  | inl isHeld =>
    obtain ⟨ws, held, ran⟩ := isHeld
    rw [ran]
    exact streaming
  | inr idle =>
    obtain ⟨idle, world, connected | ⟨exception, stop, refused⟩⟩ := idle
    · rw [connected]
      exact streaming.opens idle world
    · rw [refused]
      exact streaming.quiet (.openFailed exception) trivial world

theorem disconnect_keeps : Keeps (disconnect driver : Method ω Unit) := by
  intro transport streaming
  obtain ⟨world, ran⟩ := run_disconnect driver transport
  rw [ran]
  exact streaming.disconnected ⟨rfl, rfl, rfl, [], (List.append_nil _).symm⟩

theorem drainBuffer_ensures (size : Int) :
    Ensures (Streaming [] []) (drainBuffer size : Method ω (List UInt8))
      (fun taken => Streaming taken []) fun _ => Streaming [] [] := by
  intro transport streaming
  obtain ⟨taken, rest, split, ran⟩ := run_drainBuffer transport size
  rw [ran]
  exact streaming.drains split

variable [PyFloat φ]

theorem doReconnect_keeps (fuel : Nat) : Keeps (doReconnect driver config fuel) := by
  refine .fromEach (fun transport => doReconnect_ensures driver config transport fuel) ?_ ?_
  · intro transport streaming result after reopened
    obtain ⟨ws, buffer, connections, refusals, log⟩ := reopened
    have refused : Streaming [] []
        { transport with
          ws := none, buffer := [], log := transport.log ++ refusals.map .openFailed } :=
      streaming.disconnected ⟨rfl, rfl, rfl, refusals, rfl⟩
    have opened := refused.opens rfl after.world
    obtain ⟨afterWs, afterBuffer, afterWorld, afterConnections, afterLog⟩ := after
    cases ws
    cases buffer
    cases connections
    cases log
    exact opened
  · intro transport streaming stop after stopped
    exact streaming.disconnected stopped.1

theorem deadlineAfter_ensures (timeout : Option φ) (ws : Nat) :
    Ensures (On ws) (deadlineAfter driver timeout) (fun _ => On ws) fun _ => Streaming [] [] := by
  intro transport holds
  cases timeout with
  | none => exact holds
  | some timeout => exact ⟨holds.1.inWorld _, holds.2⟩

theorem remainingUntil_ensures (deadline : Option φ) (ws : Nat) :
    Ensures (On ws) (remainingUntil driver deadline) (fun _ => On ws) fun _ => Streaming [] [] := by
  intro transport holds
  cases deadline with
  | none => exact holds
  | some deadline => exact ⟨holds.1.inWorld _, holds.2⟩

omit [PyFloat φ] in
/-- What arrives on a message is not yet in the buffer. -/
theorem recv_ensures (ws : Nat) (timeout : Option φ) :
    Ensures (On ws) (recv driver ws timeout)
      (fun answer transport => transport.ws = some ws ∧
        match answer with
        | .ok message => Streaming [] message.bytes transport
        | .error _ => Streaming [] [] transport)
      fun _ => Streaming [] [] := by
  intro transport holds
  obtain ⟨streaming, held⟩ := holds
  rw [run_recv]
  refine ⟨held, ?_⟩
  cases (driver.recv ws timeout transport.world).1 with
  | ok message => exact streaming.receives held message _
  | error exception => exact streaming.quiet (.recvFailed ws exception) trivial _

/-- The loop holds `ws`, and what it returns has left the buffer. -/
theorem readLoop_ensures (size : Int) (deadline : Option φ) (fuel ws : Nat) :
    Ensures (On ws) (readLoop driver config size deadline fuel ws)
      (fun taken => Streaming taken []) fun _ => Streaming [] [] := by
  induction fuel generalizing ws with
  | zero => exact .ofThrow fun transport holds => holds.1
  | succ fuel inductionHypothesis =>
    refine (remainingUntil_ensures driver deadline ws).bind fun remaining => ?_
    refine Ensures.ofGet.bind fun current => .ite (fun timedOut => ?_) fun waiting => ?_
    · exact .ofPure fun transport holds => holds.2.1
    refine Ensures.bind (fun transport holds => recv_ensures driver ws remaining transport holds.2)
      fun answer => ?_
    cases answer with
    | ok message =>
      -- the whole message goes through the buffer, whatever the size
      refine Ensures.bindVia (fun _ => Streaming [] []) (fun transport holds => ?_)
        fun _ => drainBuffer_ensures size
      exact holds.2.buffers holds.1
    | error exception =>
      refine .ite (fun timedOut => .ofPure fun transport holds => holds.2) fun _ => ?_
      refine .ite (fun closed => ?_) fun _ => .ofThrow fun transport holds => holds.2
      refine .ite (fun reconnects => ?_) fun _ => .ofThrow fun transport holds => holds.2
      -- the loop goes on with another connection, and has returned nothing of this one
      refine Ensures.bind
        (fun transport holds => doReconnect_keeps driver config fuel transport holds.2) fun _ => ?_
      exact ensureConnected_ensures.bind fun ws => inductionHypothesis ws

theorem receiveBytes_ensures (size : Int) (timeout : Option φ) (fuel : Nat) :
    Ensures (Streaming [] []) (receiveBytes driver config size timeout fuel)
      (fun taken => Streaming taken []) fun _ => Streaming [] [] := by
  refine ensureConnected_ensures.bind fun ws => ?_
  refine Ensures.ofGet.bind fun current => .ite (fun buffered => ?_) fun waiting => ?_
  · exact fun transport holds => drainBuffer_ensures size transport holds.2.1
  refine Ensures.bind (fun transport holds => deadlineAfter_ensures driver timeout ws transport holds.2)
    fun deadline => readLoop_ensures driver config size deadline fuel ws

theorem read_keeps (size : Int) (timeout : Option φ) (fuel : Nat) :
    Keeps (read driver config size timeout fuel) :=
  (receiveBytes_ensures driver config size timeout fuel).bind fun _ _ streaming => streaming.returns

omit [PyFloat φ] in
theorem send_keeps (ws : Nat) (data : List UInt8) : Keeps (send driver ws data) := by
  intro transport streaming
  rw [run_send]
  cases (driver.send ws data transport.world).1 with
  | ok sent => exact streaming.quiet (.sent ws data) trivial _
  | error exception => exact streaming.quiet (.sendFailed ws exception) trivial _

theorem write_keeps (data : List UInt8) (fuel : Nat) : Keeps (write driver config data fuel) := by
  have same : ∀ transport : WebSocketTransport ω, Streaming [] [] transport →
      Streaming [] [] transport := fun _ holds => holds
  refine ensureConnected_ensures.bind fun ws => ?_
  refine Ensures.bind (fun transport holds => send_keeps driver ws data transport holds.1)
    fun answer => ?_
  cases answer with
  | ok sent => exact .ofPure same
  | error exception =>
    refine .ite (fun closed => ?_) fun _ => .ite (fun _ => .ofThrow same) fun _ => .ofThrow same
    refine .ite (fun reconnects => ?_) fun _ => .ofThrow same
    -- the retry, of which no exception is caught
    refine (doReconnect_keeps driver config fuel).bind fun _ => ?_
    refine ensureConnected_ensures.bind fun ws => ?_
    refine Ensures.bind (fun transport holds => send_keeps driver ws data transport holds.1)
      fun answer => ?_
    cases answer with
    | ok sent => exact .ofPure same
    | error exception => exact .ofThrow same

theorem call_keeps (call : Call φ) {transport : WebSocketTransport ω}
    (streaming : Streaming [] [] transport) :
    Streaming [] [] (transport.call driver config call).2 := by
  cases call with
  | connect => exact (connect_keeps driver config).after _ streaming
  | disconnect => exact (disconnect_keeps driver).after _ streaming
  | read size timeout fuel =>
    have returns : Keeps (pure () : Method ω Unit) := .ofPure fun _ holds => holds
    exact ((read_keeps driver config size timeout fuel).bind fun _ => returns).after _ streaming
  | write data fuel => exact (write_keeps driver config data fuel).after _ streaming

theorem run_keeps (calls : List (Call φ)) {transport : WebSocketTransport ω}
    (streaming : Streaming [] [] transport) :
    Streaming [] [] (transport.run driver config calls) := by
  induction calls generalizing transport with
  | nil => exact streaming
  | cons call calls inductionHypothesis =>
    exact inductionHypothesis (call_keeps driver config call streaming)

end

/-! ## Every run -/

theorem Streaming.faithful {transport : WebSocketTransport ω} (streaming : Streaming [] [] transport) :
    FaithfulStream transport := by
  have sinceOpened : ∀ before connection during after,
      transport.log = before ++ .opened connection :: (during ++ after) →
        receivedOn connection transport.log =
          receivedOn connection during ++ receivedOn connection after := by
    intro before connection during after split
    have unused := (streaming.everywhere before _ _ split).1 connection rfl
    rw [split, ← List.singleton_append, receivedOn_append, receivedOn_append, receivedOn_append,
      receivedOn_singleton, unused]
    rfl
  refine ⟨?_, ?_, ?_⟩
  -- before the first connection
  · intro during after split noneOpened
    have everywhere := streaming.everywhere
    rw [split] at everywhere
    have orderly := orderly_stream (everywhere_of_append everywhere)
    rw [streamOf_unopened during noneOpened] at orderly
    exact List.prefix_nil.mp orderly
  -- at some time after it was opened, in the past
  · intro before connection during after split noneOpened
    have everywhere := streaming.everywhere
    rw [split, ← List.cons_append, ← List.append_assoc] at everywhere
    have orderly := orderly_stream (everywhere_of_append everywhere)
    rw [streamOf_during before connection during noneOpened] at orderly
    rw [sinceOpened before connection during after split]
    exact orderly.trans (List.prefix_append _ _)
  -- now
  · intro connection held
    obtain ⟨before, during, split, noneOpened⟩ :=
      streamOf_connection transport.log (streaming.isLast connection held)
    refine ⟨before, during, split, noneOpened, ?_⟩
    have whole := streaming.whole connection held
    rw [split, streamOf_during before connection during noneOpened] at whole
    rw [sinceOpened before connection during [] (by rw [split, List.append_nil])]
    simpa [receivedOn] using whole

/-- In every state of every run. -/
theorem streams_faithfully [PyFloat φ] (driver : Driver φ ω) (config : Config φ) (world : ω)
    (calls : List (Call φ)) :
    FaithfulStream (({ world } : WebSocketTransport ω).run driver config calls) :=
  (run_keeps driver config calls (.initial world)).faithful

end EmbeddedBridge.Python.WebSocketTransport
