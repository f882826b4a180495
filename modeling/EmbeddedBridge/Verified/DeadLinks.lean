import EmbeddedBridge.Library.Histories
import EmbeddedBridge.Transport.WebSocket

/-! # Dead links

A connection that has raised `ConnectionClosed` is given up by `_do_reconnect`, and by
nothing else: without reconnecting, and where the retry of `write` raises it, the
transport still holds the connection, `is_connected` says so and `connect` does
nothing.  `neverDead_iff` counts the closures that are left so.
-/

namespace EmbeddedBridge.Python.WebSocketTransport

open Library Py Transport Methods Histories

variable {φ ω : Type}

/-- `ConnectionClosed` has been raised. -/
def isClosure (exception : PyException) : Bool := exception.isAny [.connectionClosed]

/-- The connection has raised `ConnectionClosed` to the transport. -/
def Event.closes (connection : Nat) : Event → Bool
  | .recvFailed other exception => other == connection && isClosure exception
  | .sendFailed other exception => other == connection && isClosure exception
  | _ => false

/-- The connection that is held, if any, has not been closed. -/
def Alive (transport : WebSocketTransport ω) : Prop :=
  ∀ connection, transport.ws = some connection →
    ∀ event ∈ transport.log, event.closes connection = false

/-- The closures that the transport may be left with: without reconnecting all of them,
otherwise those of `send`. -/
def Event.counts (reconnect : Bool) : Event → Bool
  | .recvFailed _ exception => !reconnect && isClosure exception
  | .sendFailed _ exception => isClosure exception
  | _ => false

/-- With reconnecting, the first closure of a `write` is answered by a retry. -/
def Unanswered (reconnect : Bool) (events : List Event) : Prop :=
  (if reconnect then 2 else 1) ≤ events.countP (Event.counts reconnect)

section

variable [PyFloat φ] (driver : Driver φ ω) (config : Config φ) (world : ω)

/-- The state before a call of a run, and what becomes of it. -/
def atCall (before : List (Call φ)) : WebSocketTransport ω :=
  ({ world } : WebSocketTransport ω).run driver config before

/-- When the transport says that it is connected, or has just been connected, it holds a
connection that has not been closed. -/
def NeverDead (before : List (Call φ)) (call : Call φ) : Prop :=
  let ended := (atCall driver config world before).call driver config call
  (ended.2.isConnected ∨ call = .connect ∧ ended.1 = .ok () →
    ended.2.isConnected ∧ Alive ended.2)

/-- The driver's answers to a call leave a closure unanswered. -/
def Forsakes (before : List (Call φ)) (call : Call φ) : Prop :=
  let transport := atCall driver config world before
  Unanswered config.reconnect
    ((transport.call driver config call).2.log.drop transport.log.length)

end

/-! ## Since a call has begun -/

/-- Connections are known when they are opened, and so are those that have been closed. -/
structure Known (transport : WebSocketTransport ω) : Prop where
  held : ∀ connection, transport.ws = some connection → connection < transport.connections
  closed : ∀ connection, ∀ event ∈ transport.log, event.closes connection = true →
    connection < transport.connections

/-- So many closures have been counted. -/
structure Counted (reconnect : Bool) (before : WebSocketTransport ω) (count : Nat)
    (transport : WebSocketTransport ω) : Prop where
  known : Known transport
  log : ∃ events, transport.log = before.log ++ events ∧
    events.countP (Event.counts reconnect) = count

/-- In the middle of a call: a connection is held, and all is well. -/
structure Holding (reconnect : Bool) (before : WebSocketTransport ω) (count : Nat) (ws : Nat)
    (transport : WebSocketTransport ω) : Prop where
  counted : Counted reconnect before count transport
  alive : Alive transport
  held : transport.ws = some ws

/-- At the end of a call. -/
structure Ended (reconnect : Bool) (before transport : WebSocketTransport ω) : Prop where
  known : Known transport
  log : ∃ events, transport.log = before.log ++ events ∧
    (Alive transport ↔ ¬ Unanswered reconnect events)

section

variable {reconnect : Bool} {before transport : WebSocketTransport ω} {count ws : Nat}

/-- What the transport is left with decides, if no closure or only the one that is
retried has been counted. -/
theorem Counted.ended (counted : Counted reconnect before count transport)
    (decides : Alive transport ↔ count < if reconnect then 2 else 1) :
    Ended reconnect before transport := by
  obtain ⟨events, log, counts⟩ := counted.log
  refine ⟨counted.known, events, log, decides.trans ?_⟩
  rw [Unanswered, counts, Nat.not_le]

theorem Holding.ended (holding : Holding reconnect before count ws transport)
    (few : count < if reconnect then 2 else 1) : Ended reconnect before transport :=
  holding.counted.ended (iff_of_true holding.alive few)

/-- The buffer and the world have no part in it. -/
theorem Holding.keeps (holding : Holding reconnect before count ws transport) (buffer : List UInt8)
    (world : ω) : Holding reconnect before count ws { transport with buffer, world } :=
  ⟨⟨⟨holding.counted.known.held, holding.counted.known.closed⟩, holding.counted.log⟩,
    holding.alive, holding.held⟩

theorem Counted.idle (counted : Counted reconnect before count transport)
    (idle : transport.ws = none) (few : count < if reconnect then 2 else 1) :
    Ended reconnect before transport := by
  refine counted.ended (iff_of_true (fun connection held => ?_) few)
  cases idle.symm.trans held

/-- One more event, which closes no connection or one that is known. -/
theorem Counted.logs (counted : Counted reconnect before count transport) (event : Event)
    (isKnown : ∀ connection, event.closes connection = true → connection < transport.connections)
    (world : ω) :
    Counted reconnect before (count + if event.counts reconnect then 1 else 0)
      { transport with world, log := transport.log ++ [event] } := by
  obtain ⟨events, log, counts⟩ := counted.log
  refine ⟨⟨counted.known.held, ?_⟩, events ++ [event], ?_, ?_⟩
  · intro connection other isThere closes
    cases List.mem_append.mp isThere with
    | inl earlier => exact counted.known.closed connection other earlier closes
    | inr last =>
      cases List.mem_singleton.mp last
      exact isKnown connection closes
  · rw [log, List.append_assoc]
  · rw [List.countP_append, counts, List.countP_singleton]

/-- An event that closes nothing. -/
theorem Counted.passes (counted : Counted reconnect before count transport) (event : Event)
    (isOpen : ∀ connection, event.closes connection = false)
    (uncounted : event.counts reconnect = false) (world : ω) :
    Counted reconnect before count { transport with world, log := transport.log ++ [event] } := by
  have logged := counted.logs event
    (fun connection closes => absurd closes (by simp [isOpen])) world
  rwa [uncounted] at logged

theorem Holding.passes (holding : Holding reconnect before count ws transport) (event : Event)
    (isOpen : ∀ connection, event.closes connection = false)
    (uncounted : event.counts reconnect = false) (world : ω) :
    Holding reconnect before count ws
      { transport with world, log := transport.log ++ [event] } := by
  refine ⟨holding.counted.passes event isOpen uncounted world, fun connection held other isThere => ?_,
    holding.held⟩
  cases List.mem_append.mp isThere with
  | inl earlier => exact holding.alive connection held other earlier
  | inr last =>
    cases List.mem_singleton.mp last
    exact isOpen connection

/-- A closure of the connection that is held. -/
theorem not_alive (event : Event) (closes : event.closes ws = true) (held : transport.ws = some ws)
    (isThere : event ∈ transport.log) : ¬ Alive transport := by
  intro alive
  have isOpen := alive ws held event isThere
  rw [closes] at isOpen
  cases isOpen

/-- Reconnecting counts nothing, and gives up what was held. -/
theorem Counted.disconnected {after : WebSocketTransport ω}
    (counted : Counted reconnect before count transport) (disconnected : Disconnected transport after) :
    Counted reconnect before count after := by
  obtain ⟨refusals, refused⟩ := disconnected.log
  obtain ⟨events, log, counts⟩ := counted.log
  refine ⟨⟨fun connection held => ?_, fun connection event isThere closes => ?_⟩,
    events ++ refusals.map .openFailed, ?_, ?_⟩
  · cases disconnected.ws.symm.trans held
  · rw [refused] at isThere
    rw [disconnected.connections]
    cases List.mem_append.mp isThere with
    | inl earlier => exact counted.known.closed connection event earlier closes
    | inr refusal =>
      obtain ⟨exception, _, rfl⟩ := List.mem_map.mp refusal
      cases closes
  · rw [refused, log, List.append_assoc]
  · rw [List.countP_append, counts, List.countP_eq_zero.mpr, Nat.add_zero]
    intro event refusal
    obtain ⟨exception, _, rfl⟩ := List.mem_map.mp refusal
    exact Bool.false_ne_true

/-- A new connection has not been closed. -/
theorem Counted.opens (counted : Counted reconnect before count transport) (world : ω) :
    Holding reconnect before count transport.connections
      { transport with
        ws := some transport.connections, world
        connections := transport.connections + 1
        log := transport.log ++ [.opened transport.connections] } := by
  obtain ⟨events, log, counts⟩ := counted.log
  refine ⟨⟨⟨?_, ?_⟩, events ++ [.opened transport.connections], ?_, ?_⟩, ?_, rfl⟩
  · intro connection held
    cases held
    exact Nat.lt_succ_self _
  · intro connection event isThere closes
    cases List.mem_append.mp isThere with
    | inl earlier => exact Nat.lt_succ_of_lt (counted.known.closed connection event earlier closes)
    | inr last =>
      cases List.mem_singleton.mp last
      cases closes
  · rw [log, List.append_assoc]
  · rw [List.countP_append, counts]
    rfl
  · intro connection held event isThere
    cases held
    cases List.mem_append.mp isThere with
    | inl earlier =>
      rw [Bool.eq_false_iff]
      intro closes
      exact absurd (counted.known.closed _ event earlier closes) (Nat.lt_irrefl _)
    | inr last =>
      cases List.mem_singleton.mp last
      rfl

theorem Counted.reopened {after : WebSocketTransport ω}
    (counted : Counted reconnect before count transport) (reopened : Reopened transport after) :
    Holding reconnect before count transport.connections after := by
  obtain ⟨ws, buffer, connections, refusals, log⟩ := reopened
  have refused : Counted reconnect before count
      { transport with ws := none, buffer := [], log := transport.log ++ refusals.map .openFailed } :=
    counted.disconnected ⟨rfl, rfl, rfl, refusals, rfl⟩
  have opened := refused.opens after.world
  obtain ⟨afterWs, afterBuffer, afterWorld, afterConnections, afterLog⟩ := after
  cases ws
  cases buffer
  cases connections
  cases log
  exact opened

end

/-! ## Each call -/

section

variable (driver : Driver φ ω) (config : Config φ) {before : WebSocketTransport ω}

/-- However the call ends. -/
abbrev Ends {α : Type} (reconnect : Bool) (before : WebSocketTransport ω)
    (pre : WebSocketTransport ω → Prop) (method : Method ω α) : Prop :=
  Ensures pre method (fun _ => Ended reconnect before) fun _ => Ended reconnect before

theorem few_zero (reconnect : Bool) : 0 < if reconnect then 2 else 1 := by
  cases reconnect <;> decide

theorem connect_ends {reconnect : Bool} (known : Known before) (alive : Alive before) :
    Ended reconnect before (Methods.run (connect driver config) before).2 := by
  have counted : Counted reconnect before 0 before := ⟨known, [], (List.append_nil _).symm, rfl⟩
  cases run_connect driver config before with
  | inl isHeld =>
    obtain ⟨ws, held, ran⟩ := isHeld
    rw [ran]
    exact counted.ended (iff_of_true alive (few_zero reconnect))
  | inr idle =>
    obtain ⟨idle, world, connected | ⟨exception, stop, refused⟩⟩ := idle
    · rw [connected]
      exact (counted.opens world).ended (few_zero reconnect)
    · rw [refused]
      have failed := counted.passes (.openFailed exception) (fun _ => rfl) rfl world
      exact failed.idle idle (few_zero reconnect)

theorem disconnect_ends {reconnect : Bool} (known : Known before) :
    Ended reconnect before (Methods.run (disconnect driver) before).2 := by
  have counted : Counted reconnect before 0 before := ⟨known, [], (List.append_nil _).symm, rfl⟩
  obtain ⟨world, ran⟩ := run_disconnect driver before
  have disconnected : Disconnected before { before with ws := none, buffer := [], world } :=
    ⟨rfl, rfl, rfl, [], (List.append_nil _).symm⟩
  rw [ran]
  exact (counted.disconnected disconnected).idle disconnected.ws (few_zero reconnect)

section

variable {reconnect : Bool} {count ws : Nat} {raised : Transport.Stop → WebSocketTransport ω → Prop}

theorem ensureConnected_holds :
    Ensures (fun transport => ∃ ws, Holding reconnect before count ws transport)
      (ensureConnected : Method ω Nat) (fun ws => Holding reconnect before count ws)
      raised := by
  intro transport holds
  obtain ⟨ws, holding⟩ := holds
  rw [run_ensureConnected, holding.held]
  exact holding

end

/-- After a driver's exception: a closure is counted, so often, and the connection is
dead; anything else leaves it as it was. -/
def Failing (reconnect : Bool) (before : WebSocketTransport ω) (count closures ws : Nat)
    (exception : PyException) (transport : WebSocketTransport ω) : Prop :=
  if isClosure exception then
    Counted reconnect before (count + closures) transport ∧ ¬ Alive transport
  else Holding reconnect before count ws transport

variable {reconnect : Bool} {count ws : Nat} {transport : WebSocketTransport ω}
  {raised : Transport.Stop → WebSocketTransport ω → Prop}

theorem Holding.fails (holding : Holding reconnect before count ws transport) (event : Event)
    {exception : PyException}
    (closes : ∀ connection, event.closes connection = (ws == connection && isClosure exception))
    (closures : Nat)
    (counts : (if event.counts reconnect then 1 else 0) = if isClosure exception then closures else 0)
    (world : ω) :
    Failing reconnect before count closures ws exception
      { transport with world, log := transport.log ++ [event] } := by
  rw [Failing]
  cases isClosed : isClosure exception with
  | true =>
    have logged := holding.counted.logs event (fun connection here => ?_) world
    · rw [counts, isClosed] at logged
      refine ⟨logged, not_alive event ?_ holding.held (by simp)⟩
      rw [closes, isClosed, beq_self_eq_true]
      rfl
    · rw [closes, Bool.and_eq_true, beq_iff_eq] at here
      exact here.1 ▸ holding.counted.known.held ws holding.held
  | false =>
    refine holding.passes event (fun connection => ?_) ?_ world
    · rw [closes, isClosed, Bool.and_false]
    · rw [isClosed] at counts
      by_contra isCounted
      rw [Bool.not_eq_false] at isCounted
      rw [isCounted] at counts
      cases counts

theorem recv_counts (timeout : Option φ) :
    Ensures (Holding reconnect before count ws) (recv driver ws timeout)
      (fun answer transport =>
        match answer with
        | .ok _ => Holding reconnect before count ws transport
        | .error exception => Failing reconnect before count (if reconnect then 0 else 1) ws exception
            transport)
      raised := by
  intro transport holding
  rw [run_recv]
  cases (driver.recv ws timeout transport.world).1 with
  | ok message =>
    exact holding.passes (.received ws message) (fun _ => rfl) rfl _
  | error exception =>
    refine holding.fails (.recvFailed ws exception) (fun _ => rfl) _ ?_ _
    rw [Event.counts]
    cases reconnect <;> cases isClosure exception <;> rfl

theorem send_counts (data : List UInt8) :
    Ensures (Holding reconnect before count ws) (send driver ws data)
      (fun answer transport =>
        match answer with
        | .ok () => Holding reconnect before count ws transport
        | .error exception => Failing reconnect before count 1 ws exception transport)
      raised := by
  intro transport holding
  rw [run_send]
  cases (driver.send ws data transport.world).1 with
  | ok sent => exact holding.passes (.sent ws data) (fun _ => rfl) rfl _
  | error exception =>
    refine holding.fails (.sendFailed ws exception) (fun _ => rfl) 1 ?_ _
    rw [Event.counts]

end

section

variable (driver : Driver φ ω) (config : Config φ) {before : WebSocketTransport ω}

variable [PyFloat φ]

theorem doReconnect_counts {reconnect : Bool} {count : Nat} (few : count < if reconnect then 2 else 1)
    (fuel : Nat) :
    Ensures (Counted reconnect before count) (doReconnect driver config fuel)
      (fun _ transport => ∃ ws, Holding reconnect before count ws transport)
      fun _ => Ended reconnect before := by
  refine .fromEach (fun transport => doReconnect_ensures driver config transport fuel) ?_ ?_
  · intro transport counted result after reopened
    exact ⟨_, counted.reopened reopened⟩
  · intro transport counted stop after stopped
    exact (counted.disconnected stopped.1).idle stopped.1.ws few

/-- A timeout is no closure. -/
theorem not_isClosure {exception : PyException} (timedOut : exception.isAny [.timeoutError] = true) :
    isClosure exception = false := by
  obtain ⟨cls, text⟩ := exception
  revert timedOut
  cases cls <;> simp [isClosure, PyException.isAny, ExceptionClass.isA, ExceptionClass.parent]

theorem Failing.ended {reconnect : Bool} {count closures ws : Nat} {exception : PyException}
    {transport : WebSocketTransport ω}
    (failing : Failing reconnect before count closures ws exception transport)
    (few : count < if reconnect then 2 else 1)
    (many : ¬ (count + closures < if reconnect then 2 else 1)) : Ended reconnect before transport := by
  rw [Failing] at failing
  split at failing
  · exact failing.1.ended (iff_of_false failing.2 many)
  · exact failing.ended few

/-- Of an exception that is no closure. -/
theorem Failing.open {reconnect : Bool} {count closures ws : Nat} {exception : PyException}
    {transport : WebSocketTransport ω}
    (failing : Failing reconnect before count closures ws exception transport)
    (isOpen : isClosure exception = false) : Holding reconnect before count ws transport := by
  rw [Failing, isOpen] at failing
  exact failing

theorem Failing.counted {reconnect : Bool} {count closures ws : Nat} {exception : PyException}
    {transport : WebSocketTransport ω}
    (failing : Failing reconnect before count closures ws exception transport)
    (isClosed : isClosure exception = true) :
    Counted reconnect before (count + closures) transport := by
  rw [Failing, isClosed] at failing
  exact failing.1

omit [PyFloat φ] in
theorem drainBuffer_ends {reconnect : Bool} {ws : Nat} (size : Int) :
    Ends reconnect before (Holding reconnect before 0 ws)
      (drainBuffer size : Method ω (List UInt8)) := by
  intro transport holding
  obtain ⟨taken, rest, _, ran⟩ := run_drainBuffer transport size
  rw [ran]
  exact (holding.keeps rest transport.world).ended (few_zero reconnect)

theorem remainingUntil_holds {reconnect : Bool} {ws : Nat} (deadline : Option φ)
    {raised : Transport.Stop → WebSocketTransport ω → Prop} :
    Ensures (Holding reconnect before 0 ws) (remainingUntil driver deadline)
      (fun _ => Holding reconnect before 0 ws) raised := by
  intro transport holding
  cases deadline with
  | none => exact holding
  | some deadline => exact holding.keeps _ _

theorem deadlineAfter_holds {reconnect : Bool} {ws : Nat} (timeout : Option φ)
    {raised : Transport.Stop → WebSocketTransport ω → Prop} :
    Ensures (Holding reconnect before 0 ws) (deadlineAfter driver timeout)
      (fun _ => Holding reconnect before 0 ws) raised := by
  intro transport holding
  cases timeout with
  | none => exact holding
  | some timeout => exact holding.keeps _ _

theorem readLoop_ends (size : Int) (deadline : Option φ) (fuel ws : Nat) :
    Ends config.reconnect before (Holding config.reconnect before 0 ws)
      (readLoop driver config size deadline fuel ws) := by
  have few := few_zero config.reconnect
  induction fuel generalizing ws with
  | zero => exact .ofThrow fun transport holding => holding.ended few
  | succ fuel inductionHypothesis =>
    refine (remainingUntil_holds driver deadline).bind fun remaining => ?_
    refine Ensures.ofGet.bind fun current => .ite (fun timedOut => ?_) fun waiting => ?_
    · exact .ofPure fun transport holds => holds.2.ended few
    refine Ensures.bind (fun transport holds => recv_counts driver remaining transport holds.2)
      fun answer => ?_
    cases answer with
    | ok message =>
      refine Ensures.bindVia (fun _ => Holding config.reconnect before 0 ws)
        (fun transport holding => holding.keeps _ _) fun _ => drainBuffer_ends size
    | error exception =>
      refine .ite (fun timedOut => .ofPure fun transport failing => ?_) fun _ => ?_
      · exact (failing.open (not_isClosure timedOut)).ended few
      refine .ite (fun isClosed => .ite (fun reconnects => ?_) fun stays => ?_) fun notClosed => ?_
      · -- given up, and the new connection is read from
        refine Ensures.bind (fun transport failing => ?_) fun _ =>
          ensureConnected_holds.bind fun ws => inductionHypothesis ws
        have counted := failing.counted isClosed
        rw [if_pos reconnects] at counted
        exact doReconnect_counts driver config few fuel transport counted
      · refine .ofThrow fun transport failing => failing.ended few ?_
        simp [stays]
      · refine .ofThrow fun transport failing => (failing.open ?_).ended few
        exact Bool.eq_false_iff.mpr notClosed

/-- What is returned is logged, and closes nothing. -/
theorem ended_returned {reconnect : Bool} {transport : WebSocketTransport ω} (data : List UInt8)
    (ended : Ended reconnect before transport) :
    Ended reconnect before { transport with log := transport.log ++ [.returned data] } := by
  obtain ⟨events, log, decides⟩ := ended.log
  have quiet : ∀ connection event, event ∈ transport.log ++ [.returned data] →
      event.closes connection = true → event ∈ transport.log := by
    intro connection event isThere closes
    cases List.mem_append.mp isThere with
    | inl earlier => exact earlier
    | inr last =>
      cases List.mem_singleton.mp last
      cases closes
  have sameAlive : Alive { transport with log := transport.log ++ [.returned data] } ↔
      Alive transport := by
    constructor
    · exact fun alive connection held event isThere =>
        alive connection held event (List.mem_append_left _ isThere)
    · intro alive connection held event isThere
      by_contra closes
      rw [Bool.not_eq_false] at closes
      have isOpen := alive connection held event (quiet connection event isThere closes)
      rw [closes] at isOpen
      cases isOpen
  have sameCount : Unanswered reconnect (events ++ [.returned data]) ↔ Unanswered reconnect events := by
    rw [Unanswered, Unanswered, List.countP_append]
    rfl
  refine ⟨⟨ended.known.held, fun connection event isThere closes => ?_⟩,
    events ++ [.returned data], ?_, ?_⟩
  · exact ended.known.closed connection event (quiet connection event isThere closes) closes
  · rw [log, List.append_assoc]
  · rw [sameAlive, sameCount]
    exact decides

theorem receiveBytes_ends (size : Int) (timeout : Option φ) (fuel : Nat) :
    Ends config.reconnect before (fun transport => ∃ ws, Holding config.reconnect before 0 ws transport)
      (receiveBytes driver config size timeout fuel) := by
  refine ensureConnected_holds.bind fun ws => ?_
  refine Ensures.ofGet.bind fun current => .ite (fun buffered => ?_) fun waiting => ?_
  · exact fun transport holds => drainBuffer_ends size transport holds.2
  refine Ensures.bind (fun transport holds => deadlineAfter_holds driver timeout transport holds.2)
    fun deadline => readLoop_ends driver config size deadline fuel ws

theorem read_ends (size : Int) (timeout : Option φ) (fuel : Nat) :
    Ends config.reconnect before (fun transport => ∃ ws, Holding config.reconnect before 0 ws transport)
      (read driver config size timeout fuel) :=
  (receiveBytes_ends driver config size timeout fuel).bind fun data _ ended =>
    ended_returned data ended

theorem write_ends (data : List UInt8) (fuel : Nat) :
    Ends config.reconnect before (fun transport => ∃ ws, Holding config.reconnect before 0 ws transport)
      (write driver config data fuel) := by
  have few := few_zero config.reconnect
  refine ensureConnected_holds.bind fun ws => (send_counts driver data).bind fun answer => ?_
  cases answer with
  | ok sent => exact .ofPure fun transport holding => holding.ended few
  | error exception =>
    refine .ite (fun isClosed => .ite (fun reconnects => ?_) fun stays => ?_) fun notClosed => ?_
    · -- one closure is counted, and the retry may be the second
      have one : 0 + 1 < if config.reconnect then 2 else 1 := by simp [reconnects]
      refine Ensures.bind
        (fun transport failing => doReconnect_counts driver config one fuel transport
          (failing.counted isClosed)) fun _ => ?_
      refine ensureConnected_holds.bind fun ws => (send_counts driver data).bind fun answer => ?_
      cases answer with
      | ok sent => exact .ofPure fun transport holding => holding.ended one
      | error exception =>
        refine .ofThrow fun transport failing => failing.ended one ?_
        simp [reconnects]
    · refine .ofThrow fun transport failing => failing.ended few ?_
      simp [stays]
    · have ends : ∀ transport, Failing config.reconnect before 0 1 ws exception transport →
          Ended config.reconnect before transport := fun transport failing =>
        (failing.open (Bool.eq_false_iff.mpr notClosed)).ended few
      exact .ite (fun _ => .ofThrow ends) fun _ => .ofThrow ends

theorem call_ends (call : Call φ) (known : Known before) (alive : Alive before) :
    Ended config.reconnect before (before.call driver config call).2 := by
  have counted : Counted config.reconnect before 0 before :=
    ⟨known, [], (List.append_nil _).symm, rfl⟩
  have nothing : Ended config.reconnect before before :=
    counted.ended (iff_of_true alive (few_zero _))
  cases call with
  | connect => exact connect_ends driver config known alive
  | disconnect => exact disconnect_ends driver known
  | read size timeout fuel =>
    cases held : before.ws with
    | none =>
      rw [call, run_bind, run_read_disconnected driver config before size timeout fuel held]
      exact nothing
    | some ws =>
      have finishes : Ends config.reconnect before (Ended config.reconnect before)
          (pure () : Method ω Unit) := .ofPure fun _ ended => ended
      exact ((read_ends driver config size timeout fuel).bind fun _ => finishes).after _
        ⟨ws, counted, alive, held⟩
  | write data fuel =>
    cases held : before.ws with
    | none =>
      rw [call, run_write_disconnected driver config before data fuel held]
      exact nothing
    | some ws =>
      exact (write_ends driver config data fuel).after _ ⟨ws, counted, alive, held⟩

end

/-! ## Every run -/

section

variable [PyFloat φ] (driver : Driver φ ω) (config : Config φ) (world : ω)

theorem atCall_snoc (before : List (Call φ)) (call : Call φ) :
    atCall driver config world (before ++ [call]) =
      ((atCall driver config world before).call driver config call).2 := by
  rw [atCall, run, List.foldl_append]
  rfl

/-- While no closure is left unanswered, this holds between the calls. -/
def Sound (calls : List (Call φ)) : Prop :=
  Known (atCall driver config world calls) ∧ Alive (atCall driver config world calls)

theorem alive_iff_forsakes {before : List (Call φ)} (sound : Sound driver config world before)
    (call : Call φ) :
    Alive ((atCall driver config world before).call driver config call).2 ↔
      ¬ Forsakes driver config world before call := by
  obtain ⟨events, log, decides⟩ := (call_ends driver config call sound.1 sound.2).log
  rw [decides, Forsakes]
  simp only [log, List.drop_left]

/-- After `connect` has returned, a connection is held. -/
theorem connect_isConnected (transport : WebSocketTransport ω)
    (returned : (transport.call driver config .connect).1 = .ok ()) :
    (transport.call driver config .connect).2.isConnected = true := by
  rw [call] at returned ⊢
  cases run_connect driver config transport with
  | inl isHeld =>
    obtain ⟨ws, held, ran⟩ := isHeld
    rw [ran, isConnected, held]
    rfl
  | inr idle =>
    obtain ⟨_, world, connected | ⟨exception, stop, refused⟩⟩ := idle
    · rw [connected]
      rfl
    · rw [refused] at returned
      cases returned

theorem neverDead_iff_alive (before : List (Call φ)) (call : Call φ) :
    NeverDead driver config world before call ↔
      Alive ((atCall driver config world before).call driver config call).2 := by
  constructor
  · intro neverDead connection held
    exact (neverDead (.inl (by rw [isConnected, held]; rfl))).2 connection held
  · intro alive claimed
    refine ⟨?_, alive⟩
    cases claimed with
    | inl connected => exact connected
    | inr returned =>
      obtain ⟨rfl, returned⟩ := returned
      exact connect_isConnected driver config _ returned

/-- A run in which no dead connection is held is one in which no closure is left
unanswered. -/
theorem neverDead_iff (calls : List (Call φ)) :
    Everywhere (NeverDead driver config world) calls ↔
      Everywhere (fun before call => ¬ Forsakes driver config world before call) calls := by
  refine everywhere_iff (Sound driver config world) ?_ ?_ ?_ calls
  · exact ⟨⟨nofun, nofun⟩, nofun⟩
  · intro before call sound kept
    rw [Sound, atCall_snoc]
    exact ⟨(call_ends driver config call sound.1 sound.2).known,
      (alive_iff_forsakes driver config world sound call).mpr kept⟩
  · intro before call sound
    rw [neverDead_iff_alive, alive_iff_forsakes driver config world sound]

end

/-- The server accepts every connection and loses it at once. -/
def losingDriver : Driver Micro Unit where
  monotonic _ := (⟨0⟩, ())
  sleep _ _ := ()
  connect _ _ _ := (.ok (), ())
  recv _ _ _ := (.error ⟨.connectionClosed, str "no close frame received or sent"⟩, ())
  send _ _ _ := (.error ⟨.connectionClosed, str "no close frame received or sent"⟩, ())
  close _ _ := ()

def plainConfig : Config Micro where
  uri := str "ws://localhost:8765"
  openTimeout := PyFloat.literal 100 1
  reconnect := false
  reconnectInterval := PyFloat.literal 10 1
  reconnectTimeout := PyFloat.literal 300 1

/-- A read that fails leaves the dead connection in place. -/
theorem not_neverDead :
    ¬ Everywhere (NeverDead losingDriver plainConfig ()) [.connect, .read (-1) none 1] := by
  intro everywhere
  have claimed := everywhere [.connect] (.read (-1) none 1) [] rfl
  have isOpen := (claimed (.inl rfl)).2 0 rfl
    (.recvFailed 0 ⟨.connectionClosed, str "no close frame received or sent"⟩) (.tail _ (.head _))
  cases isOpen

end EmbeddedBridge.Python.WebSocketTransport
