import EmbeddedBridge.Transport.WebSocket
import EmbeddedBridge.Verified.TransportEnds

/-! # Every call of a WebSocket transport ends

`read` looks at its deadline in every turn, also after it has reconnected.  So, unlike that of a
serial transport, it ends whatever fails, and however often.
-/

namespace EmbeddedBridge.Python.WebSocketTransport

open Library Py Transport Methods

variable {φ ω α : Type}

/-- What can be called of the driver. -/
inductive Driver.Offers (driver : Driver φ ω) : (α : Type) → (ω → α × ω) → Prop where
  | monotonic : Offers driver φ driver.monotonic
  | sleep (seconds : φ) : Offers driver Unit fun world => ((), driver.sleep seconds world)
  | connect (uri : Str) (openTimeout : φ) : Offers driver _ (driver.connect uri openTimeout)
  | recv (connection : Nat) (timeout : Option φ) : Offers driver _ (driver.recv connection timeout)
  | send (connection : Nat) (data : List UInt8) : Offers driver _ (driver.send connection data)
  | close (connection : Nat) : Offers driver Unit fun world => ((), driver.close connection world)

abbrev Driver.Lowers (driver : Driver φ ω) : (ω → Nat) → Prop := Transport.Lowers driver.Offers

abbrev Driver.Passing (driver : Driver φ ω) : (φ → Bool) → (ω → Nat) → Prop :=
  Transport.Passing driver.Offers driver.monotonic

abbrev Driver.RunsOut [PyFloat φ] (driver : Driver φ ω) : (φ → φ → Bool) → φ → Prop :=
  Transport.RunsOut driver.Offers driver.monotonic

/-! ## What takes no more than it has -/

/-- What is left in the world of a transport. -/
def leftFor (left : ω → Nat) (transport : WebSocketTransport ω) : Nat := left transport.world

section

variable {driver : Driver φ ω} {left : ω → Nat} (lowers : driver.Lowers left)

include lowers

theorem perform_timely {action : ω → α × ω} (offers : driver.Offers α action) :
    Timely (leftFor left) (perform action) :=
  fun _ _ within => (lowers _ _ offers _).trans within

omit lowers in
theorem own_timely (change : WebSocketTransport ω → WebSocketTransport ω)
    (same : ∀ transport, (change transport).world = transport.world) :
    Timely (leftFor left) (modify change : Method ω Unit) := by
  intro bound transport within
  exact (congrArg left (same transport)).le.trans within

variable (config : Config φ)

theorem wsConnect_timely : Timely (leftFor left) (wsConnect driver config) := by
  refine (perform_timely lowers (.connect config.uri config.openTimeout)).bind fun answer => ?_
  cases answer with
  | ok opened =>
    exact Timely.ofGet.bind fun _ => .bind (own_timely _ fun _ => rfl) fun _ =>
      .bind (own_timely _ fun _ => rfl) fun _ => .ofPure _
  | error exception => exact .bind (own_timely _ fun _ => rfl) fun _ => .ofRaised exception

theorem connect_timely : Timely (leftFor left) (connect driver config) := by
  refine Timely.ofGet.bind fun transport => ?_
  cases transport.ws with
  | some ws => exact .ofPure ()
  | none =>
    exact .tryCatch ((wsConnect_timely lowers config).bind fun _ => own_timely _ fun _ => rfl)
      fun exception => .ite (fun _ => .ofRaised _) fun _ => .ofRaised exception

theorem disconnect_timely : Timely (leftFor left) (disconnect driver : Method ω Unit) := by
  refine Timely.ofGet.bind fun transport => ?_
  cases transport.ws with
  | none => exact own_timely _ fun _ => rfl
  | some ws =>
    exact (perform_timely lowers (.close ws)).bind fun _ => .bind (own_timely _ fun _ => rfl)
      fun _ => own_timely _ fun _ => rfl

omit lowers in
theorem ensureConnected_timely : Timely (leftFor left) (ensureConnected : Method ω Nat) := by
  refine Timely.ofGet.bind fun transport => ?_
  cases transport.ws with
  | none => exact .ofRaised _
  | some ws => exact .ofPure ws

omit lowers in
theorem drainBuffer_timely (size : Int) :
    Timely (leftFor left) (drainBuffer size : Method ω (List UInt8)) :=
  Timely.ofGet.bind fun _ => .ite
    (fun _ => .bind (own_timely _ fun _ => rfl) fun _ => .ofPure _)
    fun _ => .bind (own_timely _ fun _ => rfl) fun _ => .ofPure _

theorem recv_timely (ws : Nat) (timeout : Option φ) :
    Timely (leftFor left) (recv driver ws timeout) := by
  refine (perform_timely lowers (.recv ws timeout)).bind fun answer => ?_
  cases answer with
  | ok message => exact .bind (own_timely _ fun _ => rfl) fun _ => .ofPure _
  | error exception => exact .bind (own_timely _ fun _ => rfl) fun _ => .ofPure _

theorem send_timely (ws : Nat) (data : List UInt8) :
    Timely (leftFor left) (send driver ws data) := by
  refine (perform_timely lowers (.send ws data)).bind fun answer => ?_
  cases answer with
  | ok sent => exact .bind (own_timely _ fun _ => rfl) fun _ => .ofPure _
  | error exception => exact .bind (own_timely _ fun _ => rfl) fun _ => .ofPure _

/-- The `try` of `_do_reconnect`. -/
theorem reopen_timely : Timely (leftFor left) (do
    let connection ← wsConnect driver config
    modify fun transport => { transport with ws := some connection, buffer := [] } : Method ω Unit) :=
  (wsConnect_timely lowers config).bind fun _ => own_timely _ fun _ => rfl

variable [PyFloat φ]

theorem doReconnect_le {fuel : Nat} {before after : WebSocketTransport ω}
    (ran : Methods.run (doReconnect driver config fuel) before = (.ok (), after)) :
    leftFor left after ≤ leftFor left before := by
  have clocks := (perform_timely lowers .monotonic).keeps (leftFor left before)
  have reconnects : Ensures (fun transport => leftFor left transport ≤ leftFor left before)
      (doReconnect driver config fuel)
      (fun _ transport => leftFor left transport ≤ leftFor left before)
      fun _ transport => leftFor left transport ≤ leftFor left before :=
    ((disconnect_timely lowers).keeps _).bind fun _ => clocks.bind fun start =>
      attemptLoop_keeps clocks ((perform_timely lowers (.sleep _)).keeps _)
        ((reopen_timely lowers config).keeps _) _ fuel 0
  have holds := reconnects before (Nat.le_refl _)
  rw [ran] at holds
  exact holds

omit lowers

variable {config}

theorem doReconnect_settles
    (runsOut : driver.RunsOut PyFloat.lt config.reconnectTimeout) (transport : WebSocketTransport ω) :
    Methods.Ends Uncut (doReconnect driver config) transport := by
  have disconnects := disconnect_timely (lowers_zero driver.Offers)
  refine (disconnects.ends transport).bind uncut_of_raised fun _ _ between _ => ?_
  obtain ⟨left, passing⟩ := runsOut between.world
  refine ((perform_timely passing.lowers .monotonic).ends between).bind uncut_of_raised
    fun _ start after ran => ?_
  cases ran
  have sleeps := perform_timely passing.lowers (.sleep config.reconnectInterval)
  refine attemptLoop_ends (fun state => ⟨_, _, rfl, ?_⟩) sleeps
    (reopen_timely passing.lowers config) _ _ 0 _
  exact passing.monotonic state.world

/-- A turn ends, if what follows after reconnecting does. -/
theorem readLoop_turn {deadline : Option φ} {size : Int} {ws : Nat} {transport : WebSocketTransport ω}
    (again : config.reconnect = true → ∀ remaining asked between exception,
      Methods.run (remainingUntil driver deadline) transport = (.ok remaining, asked) →
      ¬ (isUp remaining = true ∧ asked.buffer = []) →
      Methods.run (recv driver ws remaining) asked = (.ok (.error exception), between) →
      Methods.Ends Uncut (fun fuel => do
        doReconnect driver config fuel
        let ws ← ensureConnected
        readLoop driver config size deadline fuel ws) between) :
    Methods.Ends Uncut (fun fuel => readLoop driver config size deadline fuel ws) transport := by
  have kept := lowers_zero driver.Offers
  have asks : Methods.Ends Uncut (fun _ => remainingUntil driver deadline) transport := by
    cases deadline <;> exact .const nofun
  refine .turn (asks.bind uncut_of_raised fun _ remaining asked isAsked => ?_)
  have gets : Methods.Ends Uncut (fun _ => (get : Method ω _)) asked := .const nofun
  refine gets.bind uncut_of_raised fun _ _ _ got => ?_
  cases got
  refine .ite (fun _ => .const nofun) fun goesOn => ?_
  refine ((recv_timely kept ws remaining).ends asked).bind uncut_of_raised
    fun _ answer between received => ?_
  cases answer with
  | ok message =>
    have buffers : Timely (leftFor fun _ => 0) (do
        modify fun transport => { transport with buffer := transport.buffer ++ message.bytes }
        drainBuffer size : Method ω (List UInt8)) :=
      .bind (own_timely _ fun _ => rfl) fun _ => drainBuffer_timely size
    exact buffers.ends between
  | error exception =>
    exact .ite (fun _ => .const nofun) fun _ => .ite (fun _ => .ite (fun reconnects =>
      again reconnects remaining asked between exception isAsked goesOn received)
      fun _ => .const nofun) fun _ => .const nofun

/-- A deadline has passed when nothing remains until it. -/
def notUp (now deadline : φ) : Bool := !isUp (some (max0 (PyFloat.sub deadline now)))

/-- Each turn reads the clock before the deadline. -/
theorem readLoop_settles {deadline : φ}
    (passing : driver.Passing (fun now => notUp now deadline) left)
    (runsOut : driver.RunsOut PyFloat.lt config.reconnectTimeout)
    (size : Int) (ws : Nat) (transport : WebSocketTransport ω) (drained : transport.buffer = []) :
    Methods.Ends Uncut (fun fuel => readLoop driver config size (some deadline) fuel ws)
      transport := by
  induction bound : leftFor left transport using Nat.strong_induction_on
    generalizing transport ws with
  | _ bound inductionHypothesis =>
    refine readLoop_turn fun _ remaining asked between exception isAsked goesOn received => ?_
    cases isAsked
    let now := (driver.monotonic transport.world).1
    -- the buffer is empty, so that only the deadline can have kept the loop going
    have early : isUp (some (max0 (PyFloat.sub deadline now))) = false :=
      Bool.eq_false_iff.mpr fun up => goesOn ⟨up, drained⟩
    have passed := passing.monotonic transport.world (by rw [notUp, early]; rfl)
    have within := (recv_timely passing.lowers ws _).le received
    refine (doReconnect_settles runsOut between).bind uncut_of_raised fun fuel _ after ran => ?_
    have later := doReconnect_le passing.lowers config ran
    have reopened := doReconnect_ensures driver config between fuel between rfl
    rw [ran] at reopened
    have held := run_ensureConnected after
    rw [reopened.ws] at held
    have holds : Methods.Ends Uncut (fun _ => ensureConnected) after := .const (by rw [held]; nofun)
    refine holds.bind uncut_of_raised fun _ ws last ran => ?_
    cases held.symm.trans ran
    refine inductionHypothesis _ ?_ _ after reopened.buffer rfl
    simp only [leftFor] at within later bound ⊢
    omega

theorem read_settles (size : Int) {timeout : Option φ}
    (runsOut : config.reconnect = true → (∃ seconds, timeout = some seconds ∧
      driver.RunsOut notUp seconds) ∧ driver.RunsOut PyFloat.lt config.reconnectTimeout)
    (transport : WebSocketTransport ω) :
    Methods.Ends Uncut (read driver config size timeout) transport := by
  have holds : Timely (leftFor fun _ => 0) (ensureConnected : Method ω Nat) := ensureConnected_timely
  have receives : Methods.Ends Uncut (receiveBytes driver config size timeout) transport := by
    refine (holds.ends transport).bind uncut_of_raised fun _ ws held _ => ?_
    have gets : Methods.Ends Uncut (fun _ => (get : Method ω _)) held := .const nofun
    refine gets.bind uncut_of_raised fun _ _ _ got => ?_
    cases got
    have drains : Timely (leftFor fun _ => 0) (drainBuffer size : Method ω (List UInt8)) :=
      drainBuffer_timely size
    refine .ite (fun _ => drains.ends held) fun drained => ?_
    have asks : Methods.Ends Uncut (fun _ => deadlineAfter driver timeout) held := by
      cases timeout <;> exact .const nofun
    refine asks.bind uncut_of_raised fun _ deadline after ran => ?_
    cases reconnects : config.reconnect with
    -- there is only one turn
    | false => exact readLoop_turn fun given => absurd (reconnects.symm.trans given) nofun
    | true =>
      obtain ⟨⟨seconds, rfl, passes⟩, reopens⟩ := runsOut reconnects
      obtain ⟨left, passing⟩ := passes held.world
      cases ran
      exact readLoop_settles passing reopens size ws _ (not_not.mp drained)
  exact receives.bind uncut_of_raised fun _ data after _ => .const nofun

theorem write_settles
    (runsOut : config.reconnect = true → driver.RunsOut PyFloat.lt config.reconnectTimeout)
    (data : List UInt8) (transport : WebSocketTransport ω) :
    Methods.Ends Uncut (write driver config data) transport := by
  have holds : Timely (leftFor fun _ => 0) (ensureConnected : Method ω Nat) := ensureConnected_timely
  have sends (ws : Nat) := send_timely (lowers_zero driver.Offers) ws data
  refine (holds.ends transport).bind uncut_of_raised fun _ ws held _ => ?_
  refine ((sends ws).ends held).bind uncut_of_raised fun _ answer between _ => ?_
  cases answer with
  | ok result => exact .const nofun
  | error exception =>
    refine .ite (fun _ => .ite (fun reconnects => ?_) fun _ => .const nofun) fun _ =>
      .ite (fun _ => .const nofun) fun _ => .const nofun
    refine (doReconnect_settles (runsOut reconnects) between).bind uncut_of_raised
      fun _ _ after _ => ?_
    refine (holds.ends after).bind uncut_of_raised fun _ ws again _ => ?_
    refine ((sends ws).ends again).bind uncut_of_raised fun _ answer last _ => ?_
    have raises : Timely (leftFor fun _ => 0) (orRaise answer : Method ω Unit) := .ofOrRaise answer
    exact raises.ends last

end

/-! ## Any calls -/

/-- With as many turns for its loops. -/
def Call.inTurns (turns : Nat) : Call φ → Call φ
  | .read size timeout _ => .read size timeout turns
  | .write data _ => .write data turns
  | call => call

/-- The deadlines that a call has of its own; without a timeout `read` waits for ever. -/
def Call.timeouts : Call φ → List (Option φ)
  | .read _ timeout _ => [timeout]
  | _ => []

section

variable [PyFloat φ]

/-- The method that is called; only `read` returns something. -/
def methodOf (driver : Driver φ ω) (config : Config φ) : Call φ → Method ω (List UInt8)
  | .connect => do connect driver config; return []
  | .disconnect => do disconnect driver; return []
  | .read size timeout fuel => read driver config size timeout fuel
  | .write data fuel => do write driver config data fuel; return []

/-- If it reconnects, the clock gets past these deadlines and that of reconnecting. -/
def Driver.RunsOn (driver : Driver φ ω) (config : Config φ) (timeouts : List (Option φ)) : Prop :=
  config.reconnect = true →
    (∀ timeout ∈ timeouts, ∃ seconds, timeout = some seconds ∧ driver.RunsOut notUp seconds) ∧
      driver.RunsOut PyFloat.lt config.reconnectTimeout

variable {driver : Driver φ ω} {config : Config φ}

theorem methodOf_settles (call : Call φ) (runs : driver.RunsOn config call.timeouts)
    (transport : WebSocketTransport ω) :
    Methods.Ends Uncut (fun turns => methodOf driver config (call.inTurns turns)) transport := by
  have kept := lowers_zero driver.Offers
  cases call with
  | connect =>
    exact ((connect_timely kept config).ends transport).bind uncut_of_raised
      fun _ _ _ _ => .const nofun
  | disconnect =>
    exact ((disconnect_timely kept).ends transport).bind uncut_of_raised fun _ _ _ _ => .const nofun
  | write data fuel =>
    exact (write_settles (fun reconnects => (runs reconnects).2) data transport).bind
      uncut_of_raised fun _ _ _ _ => .const nofun
  | read size timeout fuel =>
    refine read_settles size (fun reconnects => ⟨?_, (runs reconnects).2⟩) transport
    exact (runs reconnects).1 timeout List.mem_cons_self

/-- If the clock gets past the deadlines, every call ends: it returns or raises, the same however
many turns more its loops are given, and however often a connection is closed. -/
theorem webSocket_calls_end (calls : List (Call φ))
    (runs : driver.RunsOn config (calls.flatMap Call.timeouts)) (transport : WebSocketTransport ω) :
    ∃ after outcomes enough, outcomes.length = calls.length ∧ (∀ outcome ∈ outcomes, Uncut outcome) ∧
      ∀ asked : List (Call φ × Nat), asked.map Prod.fst = calls →
        (∀ call ∈ asked, enough < call.2) →
          Transducer.run (calling fun call turns => methodOf driver config (call.inTurns turns))
            transport asked = (after, outcomes) := by
  refine run_settles calls (fun call given state => calling_settles
    (methodOf_settles call (fun reconnects => ⟨?_, (runs reconnects).2⟩) state)) transport
  intro timeout member
  exact (runs reconnects).1 timeout (List.mem_flatMap.mpr ⟨call, given, member⟩)

end

/-- A server that closes every connection at once, and a clock that goes on with each reading. -/
def closing : Driver Micro Int where
  monotonic time := (⟨time⟩, time + 1)
  sleep _ time := time
  connect _ _ time := (.ok (), time)
  recv _ _ time := (.error ⟨.connectionClosed, str "received 1001 (going away)"⟩, time)
  send _ _ time := (.error ⟨.connectionClosed, str "received 1001 (going away)"⟩, time)
  close _ time := time

def closingConfig : Config Micro where
  uri := str "ws://localhost:8765"
  openTimeout := PyFloat.literal 100 1
  reconnect := true
  reconnectInterval := PyFloat.literal 10 1
  reconnectTimeout := PyFloat.literal 300 1

theorem runsOut_closing (early : Micro → Micro → Bool)
    (sound : ∀ now deadline, early now deadline = true → now.units < deadline.units)
    (timeout : Micro) : closing.RunsOut early timeout := by
  refine runsOut_ticking id (fun _ => rfl) (fun _ => Int.lt_succ _) (fun α action offers time => ?_)
    sound timeout
  cases offers with
  | monotonic => exact Int.le_of_lt (Int.lt_succ _)
  | _ => exact Int.le_refl _

theorem notUp_sound (now deadline : Micro) (early : notUp now deadline = true) :
    now.units < deadline.units := by
  by_contra late
  simp [notUp, isUp, max0, PyFloat.lt, PyFloat.sub, PyFloat.literal, PyFloat.eqInt, late] at early

def closingCalls : List (Call Micro) := [.connect, .read (-1) (some ⟨50000⟩) 0, .write [0x01] 0]

theorem webSocket_calls_end_closing :
    ∃ after outcomes enough, outcomes.length = 3 ∧ (∀ outcome ∈ outcomes, Uncut outcome) ∧
      ∀ asked : List (Call Micro × Nat), asked.map Prod.fst = closingCalls →
        (∀ call ∈ asked, enough < call.2) →
          Transducer.run
            (calling fun call turns => methodOf closing closingConfig (call.inTurns turns))
            ({ world := 0 } : WebSocketTransport Int) asked = (after, outcomes) := by
  refine webSocket_calls_end closingCalls (fun _ => ⟨fun timeout member => ?_, ?_⟩) _
  · exact ⟨_, List.mem_singleton.mp member, runsOut_closing notUp notUp_sound _⟩
  · exact runsOut_closing _ (fun now deadline early => of_decide_eq_true early) _

end EmbeddedBridge.Python.WebSocketTransport
