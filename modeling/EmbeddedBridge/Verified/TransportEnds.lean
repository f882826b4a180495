import EmbeddedBridge.Library.Settling
import EmbeddedBridge.Verified.SerialStream

/-! # Every call of a serial transport ends

If the clock gets past the deadlines, `_do_reconnect` ends, and with it `connect`, `disconnect`
and `write`.  A `read` with a timeout ends too, unless it reconnects for ever: it only looks at
its deadline when there is nothing to read, and not when reading has failed (`read_hangs`).
-/

namespace EmbeddedBridge.Python

open Library Py Methods

namespace Transport

section

variable {φ σ α : Type}

/-- The call returns or raises. -/
def Uncut (outcome : Except Stop α) : Prop := outcome ≠ .error .cutOff

theorem uncut_of_raised {β : Type} (error : Stop) (uncut : Uncut (.error error : Except Stop α)) :
    Uncut (.error error : Except Stop β) :=
  fun same => uncut (congrArg Except.error (Except.error.inj same))

/-- No more is left afterwards, and it is not cut off. -/
def Timely (left : σ → Nat) (method : Method σ α) : Prop :=
  ∀ bound, Ensures (fun state => left state ≤ bound) method (fun _ state => left state ≤ bound)
    fun stop state => stop ≠ .cutOff ∧ left state ≤ bound

namespace Timely

variable {left : σ → Nat} {method : Method σ α}

theorem ofPure (result : α) : Timely left (pure result : Method σ α) := fun _ => .ofPure fun _ => id

theorem ofRaised (exception : PyException) :
    Timely left (throw (.raised exception) : Method σ α) :=
  fun _ => .ofThrow fun _ within => ⟨nofun, within⟩

theorem ofGet : Timely left (get : Method σ σ) := fun _ _ within => within

theorem ofOrRaise (answer : Except PyException α) : Timely left (orRaise answer : Method σ α) := by
  cases answer with
  | ok value => exact ofPure value
  | error exception => exact ofRaised exception

theorem bind {β : Type} {later : α → Method σ β} (first : Timely left method)
    (next : ∀ result, Timely left (later result)) : Timely left (method >>= later) :=
  fun bound => (first bound).bind fun result => next result bound

theorem ite {condition : Prop} [Decidable condition] {other : Method σ α}
    (holds : condition → Timely left method) (fails : ¬ condition → Timely left other) :
    Timely left (if condition then method else other) :=
  fun bound => .ite (fun given => holds given bound) fun given => fails given bound

/-- It is not cut off, so that a handler is only given exceptions. -/
theorem tryCatch {handler : Stop → Method σ α} (body : Timely left method)
    (handles : ∀ exception, Timely left (handler (.raised exception))) :
    Timely left (MonadExcept.tryCatch method handler) := by
  refine fun bound => Ensures.tryCatch (body bound) fun stop => ?_
  cases stop with
  | cutOff => exact fun _ within => absurd rfl within.1
  | raised exception =>
    exact (handles exception bound).weaken (fun _ within => within.2) (fun _ _ => id) fun _ _ => id

theorem uncut_and_le (timely : Timely left method) {before after : σ} {outcome : Except Stop α}
    (ran : run method before = (outcome, after)) : Uncut outcome ∧ left after ≤ left before := by
  have holds := timely (left before) before (Nat.le_refl _)
  rw [ran] at holds
  cases outcome with
  | ok result => exact ⟨nofun, holds⟩
  | error stop => exact ⟨fun cutOff => holds.1 (Except.error.inj cutOff), holds.2⟩

theorem le (timely : Timely left method) {before after : σ} {outcome : Except Stop α}
    (ran : run method before = (outcome, after)) : left after ≤ left before :=
  (timely.uncut_and_le ran).2

theorem ends (timely : Timely left method) (state : σ) : Ends Uncut (fun _ => method) state :=
  .const (timely.uncut_and_le rfl).1

/-- Without the word on being cut off. -/
theorem keeps (timely : Timely left method) (bound : Nat) :
    Ensures (fun state => left state ≤ bound) method (fun _ state => left state ≤ bound)
      fun _ state => left state ≤ bound :=
  (timely bound).weaken (fun _ => id) (fun _ _ => id) fun _ _ => And.right

end Timely

theorem succeeds_timely {left : σ → Nat} (classes : List ExceptionClass) {attempt : Method σ Unit}
    (timely : Timely left attempt) : Timely left (succeeds classes attempt) :=
  .tryCatch (timely.bind fun _ => .ofPure true) fun _ =>
    .ite (fun _ => .ofPure false) fun _ => .ofRaised _

/-- Each turn of the loop reads the clock before the deadline. -/
theorem attemptLoop_ends [PyFloat φ] {clock : Method σ φ} {sleep attempt : Method σ Unit}
    {deadline : φ} {left : σ → Nat}
    (clocks : ∀ state, ∃ now after, run clock state = (.ok now, after) ∧
      (PyFloat.lt now deadline = true → left after < left state))
    (sleeps : Timely left sleep) (attempts : Timely left attempt) (classes : List ExceptionClass)
    (gaveUp : Nat → Str) (count : Nat) (state : σ) :
    Ends Uncut (fun fuel => attemptLoop clock sleep attempt classes gaveUp deadline fuel count)
      state := by
  induction bound : left state using Nat.strong_induction_on generalizing state count with
  | _ bound inductionHypothesis =>
    obtain ⟨now, after, ran, reads⟩ := clocks state
    have clockEnds : Ends Uncut (fun _ => clock) state := .const (by rw [ran]; nofun)
    refine .turn (clockEnds.bind uncut_of_raised fun _ now' after' ran' => ?_)
    cases ran.symm.trans ran'
    cases early : PyFloat.lt now deadline with
    | false => exact .const nofun
    | true =>
      -- an attempt that fails leaves fewer readings than there were before this turn
      have fewer := reads early
      have tries := succeeds_timely classes attempts
      simp only [↓reduceIte]
      refine (tries.ends after).bind uncut_of_raised fun _ success between tried => ?_
      cases success with
      | true => exact .const nofun
      | false =>
        have within := tries.le tried
        simp only [Bool.false_eq_true, ↓reduceIte]
        refine (sleeps.ends between).bind uncut_of_raised fun _ _ last slept => ?_
        have later := sleeps.le slept
        exact inductionHypothesis (left last) (by omega) (count + 1) last rfl

end

/-! ## Drivers and their clocks -/

section

variable {φ ω : Type} (offers : (α : Type) → (ω → α × ω) → Prop) (monotonic : ω → φ × ω)

/-- Nothing that a driver offers puts up what is left. -/
def Lowers (left : ω → Nat) : Prop :=
  ∀ (α : Type) (action : ω → α × ω), offers α action → ∀ world, left (action world).2 ≤ left world

theorem lowers_zero : Lowers offers fun _ => 0 := fun _ _ _ _ => Nat.le_refl _

/-- The clock gets past the deadline after as many readings at most. -/
structure Passing (early : φ → Bool) (left : ω → Nat) : Prop where
  lowers : Lowers offers left
  monotonic : ∀ world, early (monotonic world).1 = true → left (monotonic world).2 < left world

/-- Past every deadline of a timeout. -/
def RunsOut [PyFloat φ] (early : (now deadline : φ) → Bool) (timeout : φ) : Prop :=
  ∀ world, ∃ left,
    Passing offers monotonic (fun now => early now (PyFloat.add (monotonic world).1 timeout)) left

variable {offers}

/-- A clock that goes on with each reading. -/
theorem runsOut_ticking {monotonic : ω → Micro × ω} {early : Micro → Micro → Bool} (time : ω → Int)
    (reads : ∀ world, (monotonic world).1 = ⟨time world⟩)
    (ticks : ∀ world, time world < time (monotonic world).2)
    (stays : ∀ α action, offers α action → ∀ world, time world ≤ time (action world).2)
    (sound : ∀ now deadline, early now deadline = true → now.units < deadline.units)
    (timeout : Micro) : RunsOut offers monotonic early timeout := by
  intro world
  let deadline : Micro := PyFloat.add (monotonic world).1 timeout
  refine ⟨fun world => (deadline.units - time world).toNat, ?_, ?_⟩
  · intro α action offers world
    have later := stays α action offers world
    dsimp only
    omega
  · intro world isEarly
    have before := sound _ _ isEarly
    rw [reads world] at before
    have later := ticks world
    change time world < deadline.units at before
    omega

end

end Transport

namespace SerialTransport

open Transport

variable {φ ω α : Type}

/-- What can be called of the driver. -/
inductive Driver.Offers (driver : Driver φ ω) : (α : Type) → (ω → α × ω) → Prop where
  | monotonic : Offers driver φ driver.monotonic
  | sleep (seconds : φ) : Offers driver Unit fun world => ((), driver.sleep seconds world)
  | usbDevicePort (deviceName : Str) : Offers driver _ (driver.usbDevicePort deviceName)
  | pathExists (path : Str) : Offers driver _ (driver.pathExists path)
  | openPort (path : Str) (baudrate : Int) : Offers driver _ (driver.openPort path baudrate)
  | inWaiting (port : Nat) : Offers driver _ (driver.inWaiting port)
  | read (port : Nat) (size : Int) : Offers driver _ (driver.read port size)
  | write (port : Nat) (data : List UInt8) : Offers driver _ (driver.write port data)
  | flush (port : Nat) : Offers driver _ (driver.flush port)
  | close (port : Nat) : Offers driver Unit fun world => ((), driver.close port world)

abbrev Driver.Lowers (driver : Driver φ ω) : (ω → Nat) → Prop := Transport.Lowers driver.Offers

abbrev Driver.Passing (driver : Driver φ ω) : (φ → Bool) → (ω → Nat) → Prop :=
  Transport.Passing driver.Offers driver.monotonic

abbrev Driver.RunsOut [PyFloat φ] (driver : Driver φ ω) : (φ → φ → Bool) → φ → Prop :=
  Transport.RunsOut driver.Offers driver.monotonic

/-- Reading raises as many times at most. -/
structure Driver.Recovers (driver : Driver φ ω) (fails : ω → Nat) : Prop where
  inWaiting : ∀ port world exception, (driver.inWaiting port world).1 = .error exception →
    fails (driver.inWaiting port world).2 < fails world
  read : ∀ port size world exception, (driver.read port size world).1 = .error exception →
    fails (driver.read port size world).2 < fails world

theorem run_perform (action : ω → α × ω) (transport : SerialTransport ω) :
    run (perform action) transport =
      (.ok (action transport.world).1, { transport with world := (action transport.world).2 }) := rfl

/-! ## What takes no more than it has -/

/-- What is left in the world of a transport. -/
def leftFor (left : ω → Nat) (transport : SerialTransport ω) : Nat := left transport.world

section

variable {driver : Driver φ ω} {left : ω → Nat} (lowers : driver.Lowers left)

include lowers

theorem perform_timely {action : ω → α × ω} (offers : driver.Offers α action) :
    Timely (leftFor left) (perform action) :=
  fun _ _ within => (lowers _ _ offers _).trans within

omit lowers in
theorem own_timely (change : SerialTransport ω → SerialTransport ω)
    (same : ∀ transport, (change transport).world = transport.world) :
    Timely (leftFor left) (modify change : Method ω Unit) := by
  intro bound transport within
  exact (congrArg left (same transport)).le.trans within

theorem resolvePort_timely (deviceName : Str) :
    Timely (leftFor left) (resolvePort driver deviceName) := by
  refine .ite (fun _ => .ofPure _) fun _ =>
    (perform_timely lowers (.usbDevicePort deviceName)).bind fun answer => ?_
  cases answer with
  | ok result =>
    exact .ite (fun _ => .ofRaised _) fun _ => .ite (fun _ => .ofRaised _) fun _ => .ofPure _
  | error exception =>
    exact .ite (fun _ => .ofRaised _) fun _ => .ite (fun _ => .ofRaised _) fun _ =>
      .ite (fun _ => .ofRaised _) fun _ => .ofRaised _

theorem open_timely (path : Str) (baudrate : Int) : Timely (leftFor left) (do
    let ser ← openSerial driver path baudrate
    modify fun transport => { transport with serial := some ser } : Method ω Unit) := by
  unfold openSerial
  simp only [bind_assoc, pure_bind]
  exact (perform_timely lowers (.openPort path baudrate)).bind fun answer =>
    (Timely.ofOrRaise answer).bind fun _ => Timely.ofGet.bind fun _ =>
      .bind (own_timely _ fun _ => rfl) fun _ => .bind (own_timely _ fun _ => rfl) fun _ =>
        own_timely _ fun _ => rfl

variable (config : Config φ)

theorem connect_timely : Timely (leftFor left) (connect driver config) := by
  refine Timely.ofGet.bind fun transport => .ite (fun _ => .ofPure _) fun _ => ?_
  exact (resolvePort_timely lowers config.portSpec).bind fun path =>
    .bind (own_timely _ fun _ => rfl) fun _ => open_timely lowers path config.baudrate

theorem reopen_timely : Timely (leftFor left) (reopen driver config) := by
  refine (resolvePort_timely lowers config.portSpec).bind fun path =>
    .bind (own_timely _ fun _ => rfl) fun _ => ?_
  refine Timely.bind ((perform_timely lowers (.pathExists path)).bind fun answer =>
    .ofOrRaise answer) fun present => ?_
  exact .ite (fun _ => open_timely lowers path config.baudrate) fun _ => .ofRaised _

theorem disconnect_timely : Timely (leftFor left) (disconnect driver : Method ω Unit) := by
  refine Timely.ofGet.bind fun transport => ?_
  cases transport.serial with
  | none => exact .ofPure ()
  | some ser => exact (perform_timely lowers (.close ser)).bind fun _ => own_timely _ fun _ => rfl

omit lowers in
theorem ensureConnected_timely : Timely (leftFor left) (ensureConnected driver : Method ω Nat) := by
  refine Timely.ofGet.bind fun transport => ?_
  cases transport.serial with
  | none => exact .ofRaised _
  | some ser => exact .ite (fun _ => .ofPure _) fun _ => .ofRaised _

theorem writeAndFlush_timely (ser : Nat) (data : List UInt8) :
    Timely (leftFor left) (writeAndFlush driver ser data) := by
  refine Timely.bind (fun bound transport within => ?_) fun answer => ?_
  · have wrote := lowers _ _ (.write ser data) transport.world
    rw [run_perform]
    cases answered : driver.write ser data transport.world with
    | mk answer world =>
      rw [answered] at wrote
      cases answer with
      | error exception => exact wrote.trans within
      | ok result => exact (lowers _ _ (.flush ser) world).trans (wrote.trans within)
  · cases answer with
    | ok result => exact .bind (own_timely _ fun _ => rfl) fun _ => .ofPure _
    | error exception => exact .bind (own_timely _ fun _ => rfl) fun _ => .ofPure _

/-- Failing takes one of the failures that are left. -/
theorem readAvailable_timely (ser : Nat) (size : Int) :
    Timely (leftFor left) (readAvailable driver ser size) := by
  refine (perform_timely lowers (.inWaiting ser)).bind fun answer => ?_
  cases answer with
  | error exception => exact .bind (own_timely _ fun _ => rfl) fun _ => .ofPure _
  | ok waiting =>
    refine .ite (fun _ => (perform_timely lowers (.read ser _)).bind fun answer => ?_) fun _ =>
      .ofPure _
    cases answer with
    | error exception => exact .bind (own_timely _ fun _ => rfl) fun _ => .ofPure _
    | ok data => exact .bind (own_timely _ fun _ => rfl) fun _ => .ofPure _

theorem readAvailable_fails (recovers : driver.Recovers left) (ser : Nat) (size : Int)
    {exception : PyException} {transport after : SerialTransport ω}
    (ran : run (readAvailable driver ser size) transport = (.ok (.error exception), after)) :
    leftFor left after < leftFor left transport := by
  have here := recovers.inWaiting ser transport.world
  have waits := lowers _ _ (.inWaiting ser) transport.world
  unfold readAvailable at ran
  rw [run_bind_ok _ (run_perform _ _)] at ran
  cases answered : driver.inWaiting ser transport.world with
  | mk answer world =>
    rw [answered] at ran here waits
    cases answer with
    | error exception' =>
      cases ran
      exact here exception rfl
    | ok waiting =>
      by_cases some : waiting > 0
      · simp only [some, ↓reduceIte] at ran
        rw [run_bind_ok _ (run_perform _ _)] at ran
        generalize (if size = -1 then (waiting : Int) else min size waiting) = count at ran
        have there := recovers.read ser count world
        cases answered' : driver.read ser count world with
        | mk answer' world' =>
          rw [answered'] at there
          simp only [answered'] at ran
          cases answer' with
          | error exception' =>
            cases ran
            exact (there exception rfl).trans_le waits
          | ok data => cases ran
      · simp only [some, ↓reduceIte] at ran
        cases ran

variable [PyFloatOrder φ]

theorem doReconnect_lowers (bound fuel : Nat) :
    Ensures (fun transport => leftFor left transport ≤ bound) (doReconnect driver config fuel)
      (fun _ transport => leftFor left transport ≤ bound)
      fun _ transport => leftFor left transport ≤ bound := by
  have clocks := (perform_timely lowers .monotonic).keeps bound
  exact ((disconnect_timely lowers).keeps bound).bind fun _ => clocks.bind fun start =>
    attemptLoop_keeps clocks ((perform_timely lowers (.sleep _)).keeps bound)
      ((reopen_timely lowers config).keeps bound) _ fuel 0

theorem doReconnect_le {fuel : Nat} {before after : SerialTransport ω}
    (ran : run (doReconnect driver config fuel) before = (.ok (), after)) :
    leftFor left after ≤ leftFor left before := by
  have holds := doReconnect_lowers lowers config (leftFor left before) fuel before (Nat.le_refl _)
  rw [ran] at holds
  exact holds

omit lowers

variable {config}

theorem doReconnect_ends
    (runsOut : driver.RunsOut PyFloat.lt config.reconnectTimeout) (transport : SerialTransport ω) :
    Ends Uncut (doReconnect driver config) transport := by
  obtain ⟨_, ⟨lowers, _⟩⟩ := runsOut transport.world
  refine ((disconnect_timely lowers).ends transport).bind uncut_of_raised
    fun _ _ between _ => ?_
  obtain ⟨left, passing⟩ := runsOut between.world
  refine ((perform_timely lowers .monotonic).ends between).bind uncut_of_raised
    fun _ start after ran => ?_
  cases ran
  have sleeps := perform_timely passing.lowers (.sleep config.reconnectInterval)
  refine attemptLoop_ends (fun state => ⟨_, _, rfl, ?_⟩) sleeps
    (reopen_timely passing.lowers config) _ _ 0 _
  exact passing.monotonic state.world

/-- Each turn reads the clock before the deadline, or fails. -/
theorem readLoop_ends {deadline : φ} {fails : ω → Nat}
    (passing : driver.Passing (fun now => !PyFloatOrder.le deadline now) left)
    (lowers : driver.Lowers fails)
    (recovers : config.reconnect = true → driver.Recovers fails ∧
      driver.RunsOut PyFloat.lt config.reconnectTimeout)
    (size : Int) (ser : Nat) (transport : SerialTransport ω) :
    Ends Uncut (fun fuel => readLoop driver config size (some deadline) fuel ser) transport := by
  induction bound : leftFor left transport + leftFor fails transport
    using Nat.strong_induction_on generalizing transport ser with
  | _ bound inductionHypothesis =>
    have reads := readAvailable_timely passing.lowers ser size
    refine .turn ((reads.ends transport).bind uncut_of_raised fun _ answer between ran => ?_)
    have within := reads.le ran
    have fewer := (readAvailable_timely lowers ser size).le ran
    cases answer with
    | ok available =>
      cases available with
      | some data => exact .const nofun
      | none =>
        let now := (driver.monotonic between.world).1
        let read : SerialTransport ω :=
          { between with world := (driver.monotonic between.world).2 }
        have asks : Ends Uncut (fun _ => isOver driver (some deadline)) between := .const nofun
        refine asks.bind uncut_of_raised fun _ isOver after ran => ?_
        cases ran
        refine .ite (fun _ => .const nofun) fun early => ?_
        -- there is nothing to read yet: a reading of the clock has been used up
        have passed := passing.monotonic between.world (by simpa using early)
        have kept := lowers _ _ .monotonic between.world
        let wait : φ := PyFloat.literal 1 2
        refine ((perform_timely passing.lowers (.sleep wait)).ends _).bind uncut_of_raised
          fun _ _ last paused => ?_
        cases paused
        have slept := passing.lowers _ _ (.sleep wait) (driver.monotonic between.world).2
        have slept' := lowers _ _ (.sleep wait) (driver.monotonic between.world).2
        refine inductionHypothesis _ ?_ ser _ rfl
        simp only [leftFor] at within fewer slept slept' bound ⊢
        omega
    | error exception =>
      refine .ite (fun _ => .ite (fun reconnects => ?_) fun _ => .const nofun) fun _ => .const nofun
      obtain ⟨recovers, runsOut⟩ := recovers reconnects
      -- the deadline is not looked at here; what has been used up is a failure
      have failed := readAvailable_fails lowers recovers ser size ran
      refine (doReconnect_ends runsOut between).bind uncut_of_raised fun fuel _ after ran' => ?_
      have sooner := doReconnect_le passing.lowers config ran'
      have fewer' := doReconnect_le lowers config ran'
      have holds (left : ω → Nat) : Timely (leftFor left) (ensureConnected driver : Method ω Nat) :=
        ensureConnected_timely
      refine ((holds left).ends after).bind uncut_of_raised fun _ ser last ran'' => ?_
      have sooner' := (holds left).le ran''
      have fewer'' := (holds fails).le ran''
      exact inductionHypothesis _ (by omega) ser last rfl

theorem read_ends (size : Int) {timeout : φ} {fails : ω → Nat} (lowers : driver.Lowers fails)
    (runsOut : driver.RunsOut (fun now deadline => !PyFloatOrder.le deadline now) timeout)
    (recovers : config.reconnect = true → driver.Recovers fails ∧
      driver.RunsOut PyFloat.lt config.reconnectTimeout) (transport : SerialTransport ω) :
    Ends Uncut (read driver config size (some timeout)) transport := by
  have holds : Timely (leftFor fails) (ensureConnected driver : Method ω Nat) :=
    ensureConnected_timely
  refine (holds.ends transport).bind uncut_of_raised fun _ ser between _ => ?_
  obtain ⟨left, passing⟩ := runsOut between.world
  have asks : Ends Uncut (fun _ => deadlineAfter driver (some timeout)) between := .const nofun
  refine asks.bind uncut_of_raised fun _ deadline after ran => ?_
  cases ran
  exact readLoop_ends passing lowers recovers size ser _

theorem write_ends
    (runsOut : config.reconnect = true → driver.RunsOut PyFloat.lt config.reconnectTimeout)
    (data : List UInt8) (transport : SerialTransport ω) :
    Ends Uncut (write driver config data) transport := by
  have holds : Timely (leftFor fun _ => 0) (ensureConnected driver : Method ω Nat) :=
    ensureConnected_timely
  have writes (ser : Nat) := writeAndFlush_timely (lowers_zero driver.Offers) ser data
  refine (holds.ends transport).bind uncut_of_raised fun _ ser held _ => ?_
  refine ((writes ser).ends held).bind uncut_of_raised fun _ answer between _ => ?_
  cases answer with
  | ok result => exact .const nofun
  | error exception =>
    refine .ite (fun _ => .ite (fun reconnects => ?_) fun _ => .const nofun) fun _ => .const nofun
    refine (doReconnect_ends (runsOut reconnects) between).bind uncut_of_raised
      fun _ _ after _ => ?_
    refine (holds.ends after).bind uncut_of_raised fun _ ser again _ => ?_
    refine ((writes ser).ends again).bind uncut_of_raised fun _ answer last _ => ?_
    have raises : Timely (leftFor fun _ => 0) (orRaise answer : Method ω Unit) := .ofOrRaise answer
    exact raises.ends last

end

/-! ## Any calls -/

/-- With as many turns for its loops. -/
def Call.inTurns (turns : Nat) : Call φ → Call φ
  | .read size timeout _ => .read size timeout turns
  | .write data _ => .write data turns
  | call => call

/-- The deadlines that a call has of its own; without a timeout `read` waits for ever. -/
def Call.timeouts : Call φ → List (Option φ)
  | .read _ timeout _ => [timeout]
  | _ => []

section

variable [PyFloatOrder φ]

/-- The clock gets past the deadlines of these timeouts and of reconnecting, and if there is
something to read for, it does not fail for ever. -/
structure Driver.RunsOn (driver : Driver φ ω) (config : Config φ) (timeouts : List (Option φ)) :
    Prop where
  reads : ∀ timeout ∈ timeouts, ∃ seconds, timeout = some seconds ∧
    driver.RunsOut (fun now deadline => !PyFloatOrder.le deadline now) seconds
  reconnects : config.reconnect = true → driver.RunsOut PyFloat.lt config.reconnectTimeout
  recovers : timeouts ≠ [] → config.reconnect = true →
    ∃ fails, driver.Lowers fails ∧ driver.Recovers fails

variable {driver : Driver φ ω} {config : Config φ}

theorem methodOf_ends (call : Call φ) (runs : driver.RunsOn config call.timeouts)
    (transport : SerialTransport ω) :
    Ends Uncut (fun turns => methodOf driver config (call.inTurns turns)) transport := by
  have kept := lowers_zero driver.Offers
  cases call with
  | connect =>
    exact ((connect_timely kept config).ends transport).bind uncut_of_raised
      fun _ _ _ _ => .const nofun
  | disconnect =>
    exact ((disconnect_timely kept).ends transport).bind uncut_of_raised fun _ _ _ _ => .const nofun
  | write data fuel =>
    exact (write_ends runs.reconnects data transport).bind uncut_of_raised
      fun _ _ _ _ => .const nofun
  | read size timeout fuel =>
    obtain ⟨seconds, rfl, runsOut⟩ := runs.reads timeout List.mem_cons_self
    cases reconnects : config.reconnect with
    | false => exact read_ends size kept runsOut (by rw [reconnects]; nofun) transport
    | true =>
      obtain ⟨fails, lowers, recovers⟩ := runs.recovers nofun reconnects
      exact read_ends size lowers runsOut (fun _ => ⟨recovers, runs.reconnects reconnects⟩) transport

/-- If the clock gets past the deadlines, and a port does not fail for ever, every call ends: it
returns or raises, the same however many turns more its loops are given. -/
theorem serial_calls_end (calls : List (Call φ))
    (runs : driver.RunsOn config (calls.flatMap Call.timeouts)) (transport : SerialTransport ω) :
    ∃ after outcomes enough, outcomes.length = calls.length ∧ (∀ outcome ∈ outcomes, Uncut outcome) ∧
      ∀ asked : List (Call φ × Nat), asked.map Prod.fst = calls →
        (∀ call ∈ asked, enough < call.2) →
          Transducer.run (calling fun call turns => methodOf driver config (call.inTurns turns))
            transport asked = (after, outcomes) := by
  refine run_settles calls (fun call given state => calling_settles (methodOf_ends call ?_ state))
    transport
  have fewer {timeout : Option φ} (member : timeout ∈ call.timeouts) :
      timeout ∈ calls.flatMap Call.timeouts := List.mem_flatMap.mpr ⟨call, given, member⟩
  refine ⟨fun timeout member => runs.reads timeout (fewer member), runs.reconnects, ?_⟩
  intro some
  obtain ⟨timeout, member⟩ := List.exists_mem_of_ne_nil _ some
  exact runs.recovers (List.ne_nil_of_mem (fewer member))

end

/-- A clock that goes on with each reading, and ports that fail some times more. -/
structure Bench where
  time : Int
  faults : Nat
deriving DecidableEq, Repr

def flaky : Driver Micro Bench where
  monotonic bench := (⟨bench.time⟩, { bench with time := bench.time + 1 })
  sleep _ bench := bench
  usbDevicePort _ bench := (.ok ⟨0, str "/dev/ttyACM0", []⟩, bench)
  pathExists _ bench := (.ok true, bench)
  openPort _ _ bench := (.ok (), bench)
  isOpen _ _ := true
  inWaiting _ bench :=
    (if bench.faults = 0 then .ok 0 else .error ⟨.osError, str "[Errno 5] Input/output error"⟩,
      { bench with faults := bench.faults - 1 })
  read _ _ bench := (.ok [], bench)
  write _ _ bench := (.ok (), bench)
  flush _ bench := (.ok (), bench)
  close _ bench := bench

def flakyConfig : Config Micro where
  portSpec := str "/dev/ttyACM0"
  baudrate := 115200
  reconnect := true
  reconnectInterval := PyFloat.literal 10 1
  reconnectTimeout := PyFloat.literal 300 1

theorem runsOut_flaky (early : Micro → Micro → Bool)
    (sound : ∀ now deadline, early now deadline = true → now.units < deadline.units)
    (timeout : Micro) : flaky.RunsOut early timeout := by
  refine runsOut_ticking Bench.time (fun _ => rfl) (fun _ => Int.lt_succ _)
    (fun α action offers bench => ?_) sound timeout
  cases offers with
  | monotonic => exact Int.le_of_lt (Int.lt_succ _)
  | _ => exact Int.le_refl _

theorem runsOn_flaky (seconds : Micro) : flaky.RunsOn flakyConfig [some seconds] := by
  refine ⟨fun timeout member => ⟨seconds, List.mem_singleton.mp member, ?_⟩, fun _ => ?_, fun _ _ =>
    ⟨Bench.faults, ?_, ?_, ?_⟩⟩
  · refine runsOut_flaky _ (fun now deadline early => ?_) seconds
    have early' : ¬ deadline.units ≤ now.units := by simpa [PyFloatOrder.le] using early
    omega
  · exact runsOut_flaky _ (fun now deadline early => of_decide_eq_true early) _
  · intro α action offers bench
    cases offers with
    | inWaiting port => exact Nat.sub_le _ _
    | _ => exact Nat.le_refl _
  · intro port bench exception failed
    simp only [flaky] at failed ⊢
    split at failed
    · cases failed
    · omega
  · intro port size bench exception failed
    cases failed

def flakyCalls : List (Call Micro) := [.connect, .read (-1) (some ⟨50000⟩) 0, .write [0x01] 0]

theorem serial_calls_end_flaky :
    ∃ after outcomes enough, outcomes.length = 3 ∧ (∀ outcome ∈ outcomes, Uncut outcome) ∧
      ∀ asked : List (Call Micro × Nat),
        asked.map Prod.fst = flakyCalls → (∀ call ∈ asked, enough < call.2) →
          Transducer.run
            (calling fun call turns => methodOf flaky flakyConfig (call.inTurns turns))
            ({ world := ⟨0, 2⟩ } : SerialTransport Bench) asked = (after, outcomes) :=
  serial_calls_end flakyCalls (runsOn_flaky ⟨50000⟩) _

/-! ## A port that can be opened, but not read -/

/-- The port is there and can be opened as often as one likes, in less time than there is for
reconnecting, but asking what is waiting always raises. -/
structure Driver.Jammed [PyFloat φ] (driver : Driver φ ω) (config : Config φ) (jammed : ω → Prop) :
    Prop where
  isPath : (str "/dev/").isPrefixOf config.portSpec ∨ (str "COM").isPrefixOf config.portSpec
  keeps : ∀ (α : Type) (action : ω → α × ω), driver.Offers α action →
    ∀ world, jammed world → jammed (action world).2
  pathExists : ∀ world, jammed world → (driver.pathExists config.portSpec world).1 = .ok true
  openPort : ∀ world, jammed world →
    (driver.openPort config.portSpec config.baudrate world).1 = .ok ()
  isOpen : ∀ port world, jammed world → driver.isOpen port world = true
  inWaiting : ∀ port world, jammed world → ∃ exception,
    (driver.inWaiting port world).1 = .error exception ∧
      exception.isAny [.serialException, .osError] = true
  inTime : ∀ world, jammed world →
    PyFloat.lt (driver.monotonic (driver.monotonic world).2).1
      (PyFloat.add (driver.monotonic world).1 config.reconnectTimeout) = true

section

variable [PyFloatOrder φ] {driver : Driver φ ω} {config : Config φ} {jammed : ω → Prop}

/-- A port of a jammed driver is held. -/
def HoldsPort (jammed : ω → Prop) (transport : SerialTransport ω) : Prop :=
  transport.serial.isSome = true ∧ jammed transport.world

theorem reopen_jammed (jams : driver.Jammed config jammed) :
    Ensures (fun transport => jammed transport.world) (reopen driver config)
      (fun _ => HoldsPort jammed) fun _ _ => False := by
  intro transport isJammed
  have resolves : run (resolvePort driver config.portSpec) transport =
      (.ok config.portSpec, transport) := by
    rw [resolvePort, if_pos jams.isPath]
    rfl
  let named : SerialTransport ω := { transport with portPath := some config.portSpec }
  have names : run (modify fun transport => { transport with portPath := some config.portSpec } :
      Method ω Unit) transport = (.ok (), named) := rfl
  have present : run (portExists driver config.portSpec) named =
      (.ok true, { named with world := (driver.pathExists config.portSpec transport.world).2 }) := by
    rw [portExists, run_bind_ok _ (run_perform _ _), jams.pathExists _ isJammed]
    rfl
  have jammed' := jams.keeps _ _ (.pathExists config.portSpec) _ isJammed
  have opens := jams.openPort _ jammed'
  have jammed'' := jams.keeps _ _ (.openPort config.portSpec config.baudrate) _ jammed'
  rw [reopen, run_bind_ok _ resolves, run_bind_ok _ names, run_bind_ok _ present]
  simp only [↓reduceIte, openSerial, bind_assoc]
  rw [run_bind_ok _ (run_perform _ _)]
  simp only [named] at *
  rw [opens]
  exact ⟨rfl, jammed''⟩

/-- Reconnecting is successful at once. -/
theorem doReconnect_jammed (jams : driver.Jammed config jammed) (fuel : Nat) :
    Ensures (HoldsPort jammed) (doReconnect driver config fuel) (fun _ => HoldsPort jammed)
      fun stop _ => stop = .cutOff := by
  have disconnects : Ensures (HoldsPort jammed) (disconnect driver)
      (fun _ transport => jammed transport.world) fun stop _ => stop = .cutOff := by
    rintro ⟨serial, portPath, world, ports, log⟩ ⟨_, isJammed⟩
    cases serial with
    | none => exact isJammed
    | some ser => exact jams.keeps _ _ (.close ser) world isJammed
  refine disconnects.bind fun _ => ?_
  -- the loop reads the clock again before its first attempt
  refine Ensures.bindVia (fun start transport => jammed transport.world ∧
    PyFloat.lt (driver.monotonic transport.world).1
      (PyFloat.add start config.reconnectTimeout) = true)
    (fun transport isJammed => ?_) fun start => ?_
  · exact ⟨jams.keeps _ _ .monotonic _ isJammed, jams.inTime _ isJammed⟩
  · cases fuel with
    | zero => exact .ofThrow fun _ _ => rfl
    | succ fuel =>
      refine Ensures.bindVia (fun now transport => jammed transport.world ∧
        PyFloat.lt now (PyFloat.add start config.reconnectTimeout) = true)
        (fun transport holds => ?_) fun now => ?_
      · exact ⟨jams.keeps _ _ .monotonic _ holds.1, holds.2⟩
      · refine .ite (fun early => ?_) fun late transport holds => absurd holds.2 late
        have succeeds : Ensures (fun transport => jammed transport.world)
            (succeeds [.serialException, .fileNotFoundError, .osError] (reopen driver config))
            (fun success transport => success = true ∧ HoldsPort jammed transport)
            fun stop _ => stop = .cutOff :=
          .tryCatch ((reopen_jammed jams).bind fun _ => .ofPure fun _ holds => ⟨rfl, holds⟩)
            fun stop _ impossible => impossible.elim
        refine (succeeds.weaken (fun _ holds => holds.1) (fun _ _ => id) fun _ _ => id).bind
          fun success => .ite (fun _ => .ofPure fun _ => And.right) fun fails transport holds => ?_
        exact absurd holds.1 fails

theorem ensureConnected_jammed (jams : driver.Jammed config jammed) :
    Ensures (HoldsPort jammed) (ensureConnected driver) (fun _ => HoldsPort jammed)
      fun stop _ => stop = .cutOff := by
  rintro ⟨serial, portPath, world, ports, log⟩ ⟨held, isJammed⟩
  cases serial with
  | none => cases held
  | some ser =>
    have isOpen := jams.isOpen ser world isJammed
    rw [ensureConnected, run_bind_ok _ (run_get _)]
    simp only [isOpen, ↓reduceIte]
    exact ⟨held, isJammed⟩

/-- Each turn ends in another one. -/
theorem readLoop_jammed (jams : driver.Jammed config jammed) (reconnects : config.reconnect = true)
    (size : Int) (deadline : Option φ) (fuel ser : Nat) :
    Ensures (HoldsPort jammed) (readLoop driver config size deadline fuel ser)
      (fun _ _ => False) fun stop _ => stop = .cutOff := by
  induction fuel generalizing ser with
  | zero => exact .ofThrow fun _ _ => rfl
  | succ fuel inductionHypothesis =>
    refine Ensures.bindVia (fun answer transport => HoldsPort jammed transport ∧
      ∃ exception, answer = .error exception ∧
        exception.isAny [.serialException, .osError] = true) (fun transport holds => ?_)
        fun answer transport holds => ?_
    · obtain ⟨held, isJammed⟩ := holds
      obtain ⟨exception, raises, caught⟩ := jams.inWaiting ser _ isJammed
      rw [readAvailable, run_bind_ok _ (run_perform _ _), raises]
      exact ⟨⟨held, jams.keeps _ _ (.inWaiting ser) _ isJammed⟩, exception, rfl, caught⟩
    · obtain ⟨holds, exception, rfl, caught⟩ := holds
      simp only [caught, reconnects, ↓reduceIte]
      exact ((doReconnect_jammed jams fuel).bind fun _ =>
        (ensureConnected_jammed jams).bind fun ser => inductionHypothesis ser) transport holds

/-- The deadline is not looked at: whatever the timeout, `read` does not return, in however many
turns. -/
theorem read_hangs (jams : driver.Jammed config jammed) (reconnects : config.reconnect = true)
    (size : Int) (timeout : Option φ) (fuel : Nat) (transport : SerialTransport ω)
    (holds : HoldsPort jammed transport) :
    (run (read driver config size timeout fuel) transport).1 = .error .cutOff := by
  have reads : Ensures (HoldsPort jammed) (read driver config size timeout fuel)
      (fun _ _ => False) fun stop _ => stop = .cutOff := by
    refine (ensureConnected_jammed jams).bind fun ser => Ensures.bindVia
      (fun _ => HoldsPort jammed) (fun transport holds => ?_) fun deadline =>
        readLoop_jammed jams reconnects size deadline fuel ser
    cases timeout with
    | none => exact holds
    | some timeout => exact ⟨holds.1, jams.keeps _ _ .monotonic _ holds.2⟩
  have ended := reads transport holds
  cases ran : run (read driver config size timeout fuel) transport with
  | mk outcome after =>
    rw [ran] at ended
    cases outcome with
    | ok data => exact ended.elim
    | error stop => exact congrArg Except.error ended

end

def stuck : Driver Micro Bench :=
  { flaky with
    inWaiting := fun _ bench => (.error ⟨.osError, str "[Errno 5] Input/output error"⟩, bench) }

theorem stuck_jammed : stuck.Jammed flakyConfig fun _ => True where
  isPath := by decide
  keeps _ _ _ _ _ := trivial
  pathExists _ _ := rfl
  openPort _ _ := rfl
  isOpen _ _ _ := rfl
  inWaiting _ _ _ := ⟨⟨.osError, str "[Errno 5] Input/output error"⟩, rfl, by decide⟩
  inTime bench _ := by
    refine decide_eq_true ?_
    simp only [stuck, flaky, flakyConfig, PyFloat.add, PyFloat.literal]
    omega

theorem read_hangs_stuck :
    (run (read stuck flakyConfig (-1) (some ⟨0⟩) 100)
      ({ serial := some 0, ports := 1, world := ⟨0, 0⟩ } : SerialTransport Bench)).1 =
        .error .cutOff :=
  read_hangs stuck_jammed rfl (-1) (some ⟨0⟩) 100 _ ⟨rfl, trivial⟩

end SerialTransport

end EmbeddedBridge.Python
