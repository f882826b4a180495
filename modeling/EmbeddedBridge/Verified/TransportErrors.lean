import EmbeddedBridge.Transport.Serial
import EmbeddedBridge.Transport.WebSocket

/-! # Errors of the transports

Both transports turn what the driver raises into `ConnectionError`, but for the second
attempt of `write` after a reconnect, which is made inside the handler of the first.
`errors_surface_iff`: an exception of that attempt is what the caller gets, and there
is no other way out for an exception of the driver.
-/

namespace EmbeddedBridge.Python.Transport

open Library Py Methods

variable {σ α β : Type}

def isConnectionError (exception : PyException) : Bool := exception.isAny [.connectionError]

/-- The call has not raised anything else; it may not have ended. -/
def OnlyConnectionErrors (outcome : Except Stop α) : Prop :=
  ∀ exception, outcome = .error (.raised exception) → isConnectionError exception = true

/-- Of the exceptions that sending has raised, the second is no other. -/
def RetryAccepted (exceptions : List PyException) : Prop :=
  ∀ exception, exceptions[1]? = some exception → isConnectionError exception = true

/-! ## Sending at most twice -/

section

variable {sendErrors : σ → List PyException} {before exceptions : List PyException} {state : σ}

/-- What sending has raised since the call began. -/
def Refusals (sendErrors : σ → List PyException) (before exceptions : List PyException) (state : σ) :
    Prop := sendErrors state = before ++ exceptions

/-- A call that returns has not been refused twice. -/
def Accepted (sendErrors : σ → List PyException) (before : List PyException) (state : σ) : Prop :=
  ∃ exceptions, Refusals sendErrors before exceptions state ∧ RetryAccepted exceptions

/-- A call that ends with an exception passes on the one of the second attempt. -/
def Surfaced (sendErrors : σ → List PyException) (before : List PyException) (stop : Stop)
    (state : σ) : Prop :=
  ∃ exceptions, Refusals sendErrors before exceptions state ∧
    (OnlyConnectionErrors (.error stop : Except Stop Unit) ↔ RetryAccepted exceptions)

theorem retryAccepted_of_length (short : exceptions.length ≤ 1) : RetryAccepted exceptions := by
  intro exception second
  rw [List.getElem?_eq_none short] at second
  cases second

theorem accepted (raised : Refusals sendErrors before exceptions state) (short : exceptions.length ≤ 1) :
    Accepted sendErrors before state := ⟨exceptions, raised, retryAccepted_of_length short⟩

theorem onlyConnectionErrors_raised (exception : PyException) :
    OnlyConnectionErrors (.error (.raised exception) : Except Stop Unit) ↔
      isConnectionError exception = true := by
  constructor
  · exact fun only => only exception rfl
  · intro is other same
    cases same
    exact is

/-- One of the transport's own exceptions, before anything is sent twice. -/
theorem surfaced_own {stop : Stop} (own : OnlyConnectionErrors (.error stop : Except Stop Unit))
    (raised : Refusals sendErrors before exceptions state) (short : exceptions.length ≤ 1) :
    Surfaced sendErrors before stop state :=
  ⟨exceptions, raised, iff_of_true own (retryAccepted_of_length short)⟩

/-- The exception of the second attempt. -/
theorem surfaced_retry {first exception : PyException}
    (raised : Refusals sendErrors before [first, exception] state) :
    Surfaced sendErrors before (.raised exception) state := by
  refine ⟨[first, exception], raised, (onlyConnectionErrors_raised exception).trans ?_⟩
  constructor
  · intro is other second
    cases second
    exact is
  · exact fun accepted => accepted exception rfl

theorem connectionError_own (text : Str) :
    OnlyConnectionErrors (.error (.raised ⟨.connectionError, text⟩) : Except Stop Unit) :=
  (onlyConnectionErrors_raised _).mpr rfl

theorem cutOff_own : OnlyConnectionErrors (.error .cutOff : Except Stop Unit) := nofun

/-- What becomes of a call, in terms of what sending has raised in it. -/
theorem surfaces_iff {method : Method σ α} {outcome : Except Stop α} {after : σ}
    (ensures : Ensures (Refusals sendErrors before []) method
      (fun _ => Accepted sendErrors before) (Surfaced sendErrors before))
    (start : sendErrors state = before) (ran : Methods.run method state = (outcome, after)) :
    OnlyConnectionErrors outcome ↔ RetryAccepted ((sendErrors after).drop before.length) := by
  have holds := ensures state (start.trans (List.append_nil _).symm)
  rw [ran] at holds
  cases outcome with
  | ok result =>
    obtain ⟨exceptions, raised, accepted⟩ := holds
    rw [Refusals] at raised
    rw [raised, List.drop_left]
    exact iff_of_true nofun accepted
  | error stop =>
    obtain ⟨exceptions, raised, surfaced⟩ := holds
    rw [Refusals] at raised
    rw [raised, List.drop_left, ← surfaced]
    constructor
    · exact fun only exception same => only exception (by cases same; rfl)
    · exact fun only exception same => only exception (by cases same; rfl)

end

end EmbeddedBridge.Python.Transport

namespace EmbeddedBridge.Python.SerialTransport

open Library Py Transport Methods

variable {φ ω α : Type}

/-! ## Serial -/

def Event.sendError? : Event → Option PyException
  | .sendFailed _ exception => some exception
  | _ => none

/-- What `write` and `flush` have raised. -/
def sendErrors (transport : SerialTransport ω) : List PyException :=
  transport.log.filterMap Event.sendError?

/-- What pyserial, the program and the file system are documented to raise. -/
structure Driver.Documented (driver : Driver φ ω) : Prop where
  usbDevicePort : ∀ deviceName world exception,
    (driver.usbDevicePort deviceName world).1 = .error exception →
      exception.isAny [.timeoutExpired, .osError] = true
  pathExists : ∀ path world exception, (driver.pathExists path world).1 = .error exception →
    exception.isAny [.osError] = true
  openPort : ∀ path baudrate world exception,
    (driver.openPort path baudrate world).1 = .error exception →
      exception.isAny [.serialException, .osError] = true
  inWaiting : ∀ port world exception, (driver.inWaiting port world).1 = .error exception →
    exception.isAny [.serialException, .osError] = true
  read : ∀ port size world exception, (driver.read port size world).1 = .error exception →
    exception.isAny [.serialException, .osError] = true
  write : ∀ port data world exception, (driver.write port data world).1 = .error exception →
    exception.isAny [.serialException, .osError] = true
  flush : ∀ port world exception, (driver.flush port world).1 = .error exception →
    exception.isAny [.serialException, .osError] = true

section

variable {driver : Driver φ ω} {config : Config φ} {before exceptions : List PyException}
  {stops : Transport.Stop → SerialTransport ω → Prop}

theorem refusals_logs {transport : SerialTransport ω}
    (refusals : Refusals sendErrors before exceptions transport) (event : Event) :
    Refusals sendErrors before (exceptions ++ event.sendError?.toList)
      { transport with log := transport.log ++ [event] } := by
  rw [Refusals, ← List.append_assoc, ← refusals, sendErrors, List.filterMap_append]
  cases found : event.sendError? <;> simp [sendErrors, found]

/-- Asking the driver sends nothing. -/
theorem perform_surfaces (action : ω → α × ω) :
    Ensures (Refusals sendErrors before exceptions) (perform action : Method ω α)
      (fun _ => Refusals sendErrors before exceptions) stops :=
  fun _ refusals => refusals

/-- An answer, which is one of the action's. -/
theorem performs {ε : Type} (action : ω → Except ε α × ω) :
    Ensures (Refusals sendErrors before exceptions) (perform action : Method ω (Except ε α))
      (fun answer transport => Refusals sendErrors before exceptions transport ∧
        ∃ world, (action world).1 = answer)
      stops :=
  fun transport refusals => ⟨refusals, transport.world, rfl⟩

theorem ensureConnected_surfaces (short : exceptions.length ≤ 1) :
    Ensures (Refusals sendErrors before exceptions) (ensureConnected driver)
      (fun _ => Refusals sendErrors before exceptions) (Surfaced sendErrors before) := by
  refine Ensures.ofGet.bind fun current => ?_
  have own : ∀ text (transport : SerialTransport ω),
      current = transport ∧ Refusals sendErrors before exceptions transport →
        Surfaced sendErrors before (.raised ⟨.connectionError, text⟩) transport :=
    fun text transport holds => surfaced_own (connectionError_own text) holds.2 short
  cases current.serial with
  | none => exact .ofThrow (own _)
  | some ser => exact .ite (fun _ => .ofPure fun _ holds => holds.2) fun _ => .ofThrow (own _)

theorem writeAndFlush_surfaces (documented : driver.Documented) (ser : Nat) (data : List UInt8) :
    Ensures (Refusals sendErrors before exceptions) (writeAndFlush driver ser data)
      (fun answer transport =>
        match answer with
        | .ok () => Refusals sendErrors before exceptions transport
        | .error exception => Refusals sendErrors before (exceptions ++ [exception]) transport ∧
            exception.isAny [.serialException, .osError] = true)
      stops := by
  refine Ensures.bindVia (fun answer transport =>
      Refusals sendErrors before exceptions transport ∧
        ∀ exception, answer = .error exception → exception.isAny [.serialException, .osError] = true)
    (fun transport refusals => ⟨refusals, fun exception answered => ?_⟩) fun answer => ?_
  · dsimp only at answered
    cases written : driver.write ser data transport.world with
    | mk outcome world =>
      rw [written] at answered
      cases outcome with
      | ok done => exact documented.flush ser world exception answered
      | error raised =>
        cases answered
        exact documented.write ser data transport.world exception (by rw [written])
  · intro transport holds
    cases answer with
    | ok done => exact (List.append_nil exceptions) ▸ refusals_logs holds.1 (.sent ser data)
    | error exception =>
      exact ⟨refusals_logs holds.1 (.sendFailed ser exception), holds.2 exception rfl⟩

/-- What `_do_reconnect` catches. -/
theorem caught {exception : PyException}
    (listed : exception.isAny [.serialException, .osError] = true) :
    exception.isAny [.serialException, .fileNotFoundError, .osError] = true := by
  rw [isAny_pair] at listed
  simp only [PyException.isAny, List.any_cons, List.any_nil, Bool.or_false, Bool.or_eq_true] at listed ⊢
  exact listed.imp_right .inr

section

/-- What is caught in the loop of `_do_reconnect` is as if nothing had happened. -/
abbrev Retries (before exceptions : List PyException) : Transport.Stop → SerialTransport ω → Prop :=
  Refused [.serialException, .fileNotFoundError, .osError] (Refusals sendErrors before exceptions)
    (Surfaced sendErrors before)

theorem raise_retries {pre : SerialTransport ω → Prop} {post : α → SerialTransport ω → Prop}
    (text : Str) (keeps : ∀ transport, pre transport → Refusals sendErrors before exceptions transport) :
    Ensures pre (raise .fileNotFoundError text) post (Retries before exceptions) :=
  .ofThrow fun transport holds => refused_of_caught rfl (keeps transport holds)

theorem orRaise_retries (answer : Except PyException α)
    (listed : ∀ exception, answer = .error exception →
      exception.isAny [.serialException, .fileNotFoundError, .osError] = true) :
    Ensures (Refusals sendErrors before exceptions) (orRaise answer : Method ω α)
      (fun _ => Refusals sendErrors before exceptions) (Retries before exceptions) := by
  cases answer with
  | ok value => exact .ofPure fun _ refusals => refusals
  | error exception => exact .ofThrow fun _ refusals => refused_of_caught (listed exception rfl) refusals

theorem resolvePort_retries (documented : driver.Documented) (deviceName : Str) :
    Ensures (Refusals sendErrors before exceptions) (resolvePort driver deviceName)
      (fun _ => Refusals sendErrors before exceptions) (Retries before exceptions) := by
  refine .ite (fun isPath => .ofPure fun _ refusals => refusals) fun notPath => ?_
  refine (performs (driver.usbDevicePort deviceName)).bind fun answer => ?_
  cases answer with
  | ok result =>
    refine .ite (fun failed => raise_retries _ fun _ holds => holds.1) fun succeeded => ?_
    exact .ite (fun empty => raise_retries _ fun _ holds => holds.1) fun found =>
      .ofPure fun _ holds => holds.1
  | error exception =>
    refine .ite (fun notFound => .ofThrow fun _ holds => refused_of_caught ?_ holds.1) fun _ => ?_
    · simp only [PyException.isAny, List.any_cons, List.any_nil, Bool.or_false] at notFound ⊢
      rw [notFound, Bool.true_or, Bool.or_true]
    -- both classes that it is documented to raise have their branch
    refine .ite (fun expired => raise_retries _ fun _ holds => holds.1) fun notExpired => ?_
    refine .ite (fun osError => raise_retries _ fun _ holds => holds.1) fun notOs =>
      .ofThrow fun transport holds => ?_
    obtain ⟨_, world, answered⟩ := holds
    have listed := documented.usbDevicePort deviceName world exception answered
    cases (isAny_pair exception _ _).mp listed with
    | inl expired => exact absurd expired notExpired
    | inr osError => exact absurd osError notOs

theorem openSerial_retries (documented : driver.Documented) (path : Str) (baudrate : Int) :
    Ensures (Refusals sendErrors before exceptions) (openSerial driver path baudrate)
      (fun _ => Refusals sendErrors before exceptions) (Retries before exceptions) := by
  refine (performs (driver.openPort path baudrate)).bind fun answer => ?_
  refine Ensures.bindVia (fun _ => Refusals sendErrors before exceptions)
    (fun transport holds => ?_) fun _ transport refusals =>
      (List.append_nil exceptions) ▸ refusals_logs refusals (.opened transport.ports)
  obtain ⟨refusals, world, answered⟩ := holds
  refine orRaise_retries answer (fun exception failed => ?_) transport refusals
  exact caught (documented.openPort path baudrate world exception (answered.trans failed))

theorem reopen_retries (documented : driver.Documented) :
    Ensures (Refusals sendErrors before exceptions) (reopen driver config)
      (fun _ => Refusals sendErrors before exceptions) (Retries before exceptions) := by
  refine (resolvePort_retries documented config.portSpec).bind fun path => ?_
  refine Ensures.bindVia (fun _ => Refusals sendErrors before exceptions)
    (fun _ refusals => refusals) fun _ => ?_
  refine Ensures.bindVia (fun _ => Refusals sendErrors before exceptions) ?_ fun isThere => ?_
  · refine (performs (driver.pathExists path)).bind fun answer transport holds => ?_
    obtain ⟨refusals, world, answered⟩ := holds
    refine orRaise_retries answer (fun exception failed => ?_) transport refusals
    refine caught ((isAny_pair _ _ _).mpr (.inr ?_))
    exact documented.pathExists path world exception (answered.trans failed)
  · refine .ite (fun isThere => ?_) fun _ => raise_retries _ fun _ refusals => refusals
    exact (openSerial_retries documented path config.baudrate).bind fun _ _ refusals => refusals

end

variable [PyFloatOrder φ]

theorem doReconnect_surfaces (documented : driver.Documented) (short : exceptions.length ≤ 1)
    (fuel : Nat) :
    Ensures (Refusals sendErrors before exceptions) (doReconnect driver config fuel)
      (fun _ => Refusals sendErrors before exceptions) (Surfaced sendErrors before) := by
  refine Ensures.bindVia (fun _ => Refusals sendErrors before exceptions) ?_ fun _ => ?_
  · intro transport refusals
    obtain ⟨serial, portPath, world, ports, log⟩ := transport
    cases serial with
    | none => exact refusals
    | some ser => exact refusals
  refine (perform_surfaces _).bind fun start => ?_
  exact attemptLoop_ensures (perform_surfaces _) (perform_surfaces _) (reopen_retries documented)
    (fun count transport refusals => surfaced_own (connectionError_own _) refusals short)
    (fun transport refusals => surfaced_own cutOff_own refusals short) _ fuel 0

omit [PyFloatOrder φ] in
theorem readAvailable_surfaces (documented : driver.Documented) (ser : Nat) (size : Int) :
    Ensures (Refusals sendErrors before exceptions) (readAvailable driver ser size)
      (fun answer transport => Refusals sendErrors before exceptions transport ∧
        ∀ exception, answer = .error exception → exception.isAny [.serialException, .osError] = true)
      stops := by
  have failing : ∀ exception : PyException,
      exception.isAny [.serialException, .osError] = true →
      ∀ transport : SerialTransport ω, Refusals sendErrors before exceptions transport →
        (Refusals sendErrors before exceptions
          { transport with log := transport.log ++ [.readFailed ser exception] }) ∧
        ∀ other, (Except.error exception : Except PyException (Option (List UInt8))) = .error other →
          other.isAny [.serialException, .osError] = true := by
    intro exception listed transport refusals
    refine ⟨(List.append_nil exceptions) ▸ refusals_logs refusals (.readFailed ser exception), ?_⟩
    intro other same
    cases same
    exact listed
  refine (performs (driver.inWaiting ser)).bind fun answer => ?_
  cases answer with
  | error exception =>
    intro transport holds
    obtain ⟨refusals, world, answered⟩ := holds
    exact failing exception (documented.inWaiting ser world exception answered) transport refusals
  | ok waiting =>
    refine .ite (fun some => ?_) fun none => .ofPure fun transport holds => ⟨holds.1, nofun⟩
    refine ((performs (driver.read ser _)).weaken (fun _ holds => holds.1) (fun _ _ holds => holds)
      fun _ _ holds => holds).bind fun answer => ?_
    cases answer with
    | error exception =>
      intro transport holds
      obtain ⟨refusals, world, answered⟩ := holds
      exact failing exception (documented.read ser _ world exception answered) transport refusals
    | ok data =>
      intro transport holds
      exact ⟨(List.append_nil exceptions) ▸ refusals_logs holds.1 (.received ser data), nofun⟩

theorem readLoop_surfaces (documented : driver.Documented) (size : Int) (deadline : Option φ)
    (fuel ser : Nat) :
    Ensures (Refusals sendErrors before []) (readLoop driver config size deadline fuel ser)
      (fun _ => Accepted sendErrors before) (Surfaced sendErrors before) := by
  have none : ([] : List PyException).length ≤ 1 := by decide
  induction fuel generalizing ser with
  | zero => exact .ofThrow fun transport refusals => surfaced_own cutOff_own refusals none
  | succ fuel inductionHypothesis =>
    refine (readAvailable_surfaces documented ser size).bind fun answer => ?_
    cases answer with
    | ok available =>
      cases available with
      | some data => exact .ofPure fun transport holds => accepted holds.1 none
      | none =>
        refine Ensures.bindVia (fun _ => Refusals sendErrors before [])
          (fun transport holds => ?_) fun isOver => ?_
        · cases deadline <;> exact holds.1
        refine .ite (fun isOver => .ofPure fun transport refusals => accepted refusals none) fun _ => ?_
        exact (perform_surfaces _).bind fun _ => inductionHypothesis ser
    | error exception =>
      refine .ite (fun listed => .ite (fun reconnects => ?_) fun stays => ?_) fun notListed => ?_
      · refine Ensures.bind
          (fun transport holds => doReconnect_surfaces documented none fuel transport holds.1)
          fun _ => ?_
        exact (ensureConnected_surfaces none).bind fun ser => inductionHypothesis ser
      · exact .ofThrow fun transport holds => surfaced_own (connectionError_own _) holds.1 none
      · exact .ofThrow fun transport holds => absurd (holds.2 exception rfl) notListed

theorem read_surfaces (documented : driver.Documented) (size : Int) (timeout : Option φ)
    (fuel : Nat) :
    Ensures (Refusals sendErrors before []) (read driver config size timeout fuel)
      (fun _ => Accepted sendErrors before) (Surfaced sendErrors before) := by
  refine (ensureConnected_surfaces (by decide)).bind fun ser => ?_
  refine Ensures.bindVia (fun _ => Refusals sendErrors before [])
    (fun transport refusals => ?_) fun deadline => readLoop_surfaces documented size deadline fuel ser
  cases timeout <;> exact refusals

theorem write_surfaces (documented : driver.Documented) (data : List UInt8) (fuel : Nat) :
    Ensures (Refusals sendErrors before []) (write driver config data fuel)
      (fun _ => Accepted sendErrors before) (Surfaced sendErrors before) := by
  refine (ensureConnected_surfaces (by decide)).bind fun ser => ?_
  refine (writeAndFlush_surfaces documented ser data).bind fun answer => ?_
  cases answer with
  | ok sent => exact .ofPure fun transport refusals => accepted refusals (by decide)
  | error exception =>
    have one : [exception].length ≤ 1 := by simp
    refine .ite (fun listed => .ite (fun reconnects => ?_) fun stays => ?_) fun notListed => ?_
    · refine Ensures.bind
        (fun transport holds => doReconnect_surfaces documented one fuel transport holds.1) fun _ => ?_
      -- the second attempt is outside the `try`
      refine (ensureConnected_surfaces one).bind fun ser => ?_
      refine (writeAndFlush_surfaces documented ser data).bind fun answer => ?_
      cases answer with
      | ok sent => exact .ofPure fun transport refusals => accepted refusals one
      | error exception => exact .ofThrow fun transport holds => surfaced_retry holds.1
    · exact .ofThrow fun transport holds => surfaced_own (connectionError_own _) holds.1 one
    · exact .ofThrow fun transport holds => absurd holds.2 notListed

end

/-- `read` or `write`. -/
def Call.IsTransfer : Call φ → Prop
  | .connect => False
  | .disconnect => False
  | .read _ _ _ => True
  | .write _ _ => True

theorem errors_iff [PyFloatOrder φ] {driver : Driver φ ω} (documented : driver.Documented)
    (config : Config φ) (transport : SerialTransport ω) (call : Call φ) (transfers : call.IsTransfer) :
    OnlyConnectionErrors (transport.call driver config call).1 ↔
      RetryAccepted ((sendErrors (transport.call driver config call).2).drop
        (sendErrors transport).length) := by
  cases call with
  | connect => cases transfers
  | disconnect => cases transfers
  | read size timeout fuel =>
    have finishes : Ensures (Accepted sendErrors (sendErrors transport)) (pure () : Method ω Unit)
        (fun _ => Accepted sendErrors (sendErrors transport))
        (Surfaced sendErrors (sendErrors transport)) := .ofPure fun _ holds => holds
    exact surfaces_iff ((read_surfaces documented size timeout fuel).bind fun _ => finishes) rfl rfl
  | write data fuel => exact surfaces_iff (write_surfaces documented data fuel) rfl rfl

end EmbeddedBridge.Python.SerialTransport

namespace EmbeddedBridge.Python.WebSocketTransport

open Library Py Transport Methods

variable {φ ω : Type}

/-! ## WebSocket -/

def Event.sendError? : Event → Option PyException
  | .sendFailed _ exception => some exception
  | _ => none

/-- What `send` has raised. -/
def sendErrors (transport : WebSocketTransport ω) : List PyException :=
  transport.log.filterMap Event.sendError?

/-- What the library is documented to raise. -/
structure Driver.Documented (driver : Driver φ ω) : Prop where
  connect : ∀ uri openTimeout world exception,
    (driver.connect uri openTimeout world).1 = .error exception →
      exception.isAny [.webSocketException, .osError, .timeoutError] = true
  recv : ∀ ws timeout world exception, (driver.recv ws timeout world).1 = .error exception →
    exception.isAny [.timeoutError, .connectionClosed] = true
  send : ∀ ws data world exception, (driver.send ws data world).1 = .error exception →
    exception.isAny [.connectionClosed, .webSocketException] = true

section

variable {driver : Driver φ ω} {config : Config φ} {before exceptions : List PyException}

theorem ensureConnected_surfaces (short : exceptions.length ≤ 1) :
    Ensures (Refusals sendErrors before exceptions) (ensureConnected : Method ω Nat)
      (fun _ => Refusals sendErrors before exceptions) (Surfaced sendErrors before) := by
  intro transport raised
  rw [run_ensureConnected]
  cases transport.ws with
  | none => exact surfaced_own (connectionError_own _) raised short
  | some ws => exact raised

theorem send_surfaces (documented : driver.Documented) (ws : Nat) (data : List UInt8)
    {stops : Transport.Stop → WebSocketTransport ω → Prop} :
    Ensures (Refusals sendErrors before exceptions) (send driver ws data)
      (fun answer transport =>
        match answer with
        | .ok () => Refusals sendErrors before exceptions transport
        | .error exception => Refusals sendErrors before (exceptions ++ [exception]) transport ∧
            exception.isAny [.connectionClosed, .webSocketException] = true)
      stops := by
  intro transport raised
  have logged : ∀ event, sendErrors ({ transport with
      world := (driver.send ws data transport.world).2, log := transport.log ++ [event] } :
        WebSocketTransport ω) = before ++ exceptions ++ event.sendError?.toList := by
    intro event
    rw [← raised, sendErrors, List.filterMap_append]
    cases found : event.sendError? <;> simp [sendErrors, found]
  rw [run_send]
  cases answered : (driver.send ws data transport.world).1 with
  | ok sent => exact (logged (.sent ws data)).trans (List.append_nil _)
  | error exception =>
    exact ⟨(logged (.sendFailed ws exception)).trans (List.append_assoc _ _ _),
      documented.send ws data transport.world exception answered⟩

variable [PyFloat φ]

theorem doReconnect_surfaces (documented : driver.Documented) (short : exceptions.length ≤ 1)
    (fuel : Nat) :
    Ensures (Refusals sendErrors before exceptions) (doReconnect driver config fuel)
      (fun _ => Refusals sendErrors before exceptions) (Surfaced sendErrors before) := by
  have refused : ∀ refusals : List PyException,
      (refusals.map Event.openFailed).filterMap Event.sendError? = [] := by
    intro refusals
    rw [List.filterMap_map]
    exact List.filterMap_eq_nil_iff.mpr fun _ _ => rfl
  refine .fromEach (fun transport => doReconnect_ensures driver config transport fuel) ?_ ?_
  · intro transport raised result after reopened
    obtain ⟨refusals, log⟩ := reopened.log
    have same : sendErrors after = sendErrors transport := by
      rw [sendErrors, log, List.filterMap_append, List.filterMap_append, refused]
      simp [sendErrors, Event.sendError?]
    exact same.trans raised
  · intro transport raised stop after stopped
    obtain ⟨disconnected, stops⟩ := stopped
    obtain ⟨refusals, log⟩ := disconnected.log
    have same : sendErrors after = sendErrors transport := by
      rw [sendErrors, log, List.filterMap_append, refused, List.append_nil]
      rfl
    refine surfaced_own ?_ (same.trans raised) short
    cases stop with
    | cutOff => exact cutOff_own
    | raised exception =>
      rw [onlyConnectionErrors_raised]
      cases stops with
      -- its own timeout, or what escapes from `ws_connect`
      | inl own => simp [isConnectionError, PyException.isAny, own, ExceptionClass.isA]
      | inr uncaught =>
        obtain ⟨notCaught, world, answered⟩ := uncaught
        have caught := documented.connect _ _ world exception answered
        rw [notCaught] at caught
        cases caught

omit [PyFloat φ] in
theorem recv_surfaces (documented : driver.Documented) (ws : Nat) (timeout : Option φ)
    {stops : Transport.Stop → WebSocketTransport ω → Prop} :
    Ensures (Refusals sendErrors before exceptions) (recv driver ws timeout)
      (fun answer transport => Refusals sendErrors before exceptions transport ∧
        ∀ exception, answer = .error exception →
          exception.isAny [.timeoutError, .connectionClosed] = true)
      stops := by
  intro transport raised
  rw [run_recv]
  refine ⟨?_, documented.recv ws timeout transport.world⟩
  rw [Refusals, ← raised, sendErrors, List.filterMap_append]
  cases (driver.recv ws timeout transport.world).1 <;> simp [sendErrors, Event.sendError?]

theorem readLoop_surfaces (documented : driver.Documented) (size : Int) (deadline : Option φ)
    (fuel ws : Nat) :
    Ensures (Refusals sendErrors before []) (readLoop driver config size deadline fuel ws)
      (fun _ => Refusals sendErrors before []) (Surfaced sendErrors before) := by
  have none : ([] : List PyException).length ≤ 1 := by decide
  induction fuel generalizing ws with
  | zero => exact .ofThrow fun transport raised => surfaced_own cutOff_own raised none
  | succ fuel inductionHypothesis =>
    refine Ensures.bindVia (fun _ => Refusals sendErrors before [])
      (fun transport raised => ?_) fun remaining => ?_
    · cases deadline <;> exact raised
    refine Ensures.ofGet.bind fun current => .ite (fun timedOut => ?_) fun waiting => ?_
    · exact .ofPure fun transport holds => holds.2
    refine Ensures.bind
      (fun transport holds => recv_surfaces documented ws remaining transport holds.2) fun answer => ?_
    cases answer with
    | ok message =>
      intro transport holds
      obtain ⟨taken, rest, _, ran⟩ := run_drainBuffer
        { transport with buffer := transport.buffer ++ message.bytes } size
      rw [run_bind_ok _ (run_modify _ _), ran]
      exact holds.1
    | error exception =>
      refine .ite (fun timedOut => .ofPure fun transport holds => holds.1) fun noTimeout => ?_
      refine .ite (fun closed => .ite (fun reconnects => ?_) fun stays => ?_) fun notClosed => ?_
      · refine Ensures.bind
          (fun transport holds => doReconnect_surfaces documented none fuel transport holds.1)
          fun _ => ?_
        exact (ensureConnected_surfaces none).bind fun ws => inductionHypothesis ws
      · exact .ofThrow fun transport holds => surfaced_own (connectionError_own _) holds.1 none
      · refine .ofThrow fun transport holds => ?_
        cases (isAny_pair exception _ _).mp (holds.2 exception rfl) with
        | inl timedOut => exact absurd timedOut noTimeout
        | inr closed => exact absurd closed notClosed

theorem read_surfaces (documented : driver.Documented) (size : Int) (timeout : Option φ)
    (fuel : Nat) :
    Ensures (Refusals sendErrors before []) (read driver config size timeout fuel)
      (fun _ => Accepted sendErrors before) (Surfaced sendErrors before) := by
  have none : ([] : List PyException).length ≤ 1 := by decide
  have receives : Ensures (Refusals sendErrors before []) (receiveBytes driver config size timeout fuel)
      (fun _ => Refusals sendErrors before []) (Surfaced sendErrors before) := by
    refine (ensureConnected_surfaces none).bind fun ws => ?_
    refine Ensures.ofGet.bind fun current => .ite (fun buffered => ?_) fun waiting => ?_
    · intro transport holds
      obtain ⟨taken, rest, _, ran⟩ := run_drainBuffer transport size
      rw [ran]
      exact holds.2
    refine Ensures.bindVia (fun _ => Refusals sendErrors before [])
      (fun transport holds => ?_) fun deadline => readLoop_surfaces documented size deadline fuel ws
    cases timeout <;> exact holds.2
  refine receives.bind fun data => ?_
  intro transport refusals
  have same : Refusals sendErrors before []
      { transport with log := transport.log ++ [.returned data] } := by
    rw [Refusals, ← refusals, sendErrors, List.filterMap_append]
    simp [sendErrors, Event.sendError?]
  exact accepted same none

theorem write_surfaces (documented : driver.Documented) (data : List UInt8) (fuel : Nat) :
    Ensures (Refusals sendErrors before []) (write driver config data fuel)
      (fun _ => Accepted sendErrors before) (Surfaced sendErrors before) := by
  refine (ensureConnected_surfaces (by decide)).bind fun ws => ?_
  refine (send_surfaces documented ws data).bind fun answer => ?_
  cases answer with
  | ok sent => exact .ofPure fun transport raised => accepted raised (by decide)
  | error exception =>
    have one : [exception].length ≤ 1 := by simp
    have own : ∀ text (transport : WebSocketTransport ω),
        Refusals sendErrors before [exception] transport ∧
          exception.isAny [.connectionClosed, .webSocketException] = true →
        Surfaced sendErrors before (.raised ⟨.connectionError, text⟩) transport :=
      fun text transport holds => surfaced_own (connectionError_own text) holds.1 one
    refine .ite (fun closed => .ite (fun reconnects => ?_) fun stays => .ofThrow (own _))
      fun notClosed => ?_
    · refine Ensures.bind
        (fun transport holds => doReconnect_surfaces documented one fuel transport holds.1) fun _ => ?_
      -- here, too, the second attempt is outside the `try`
      refine (ensureConnected_surfaces one).bind fun ws => ?_
      refine (send_surfaces documented ws data).bind fun answer => ?_
      cases answer with
      | ok sent => exact .ofPure fun transport raised => accepted raised one
      | error exception => exact .ofThrow fun transport holds => surfaced_retry holds.1
    · refine .ite (fun listed => .ofThrow (own _)) fun notListed =>
        .ofThrow fun transport holds => ?_
      cases (isAny_pair exception _ _).mp holds.2 with
      | inl closed => exact absurd closed notClosed
      | inr listed => exact absurd listed notListed

end

/-- `read` or `write`. -/
def Call.IsTransfer : Call φ → Prop
  | .connect => False
  | .disconnect => False
  | .read _ _ _ => True
  | .write _ _ => True

theorem errors_iff [PyFloat φ] {driver : Driver φ ω} (documented : driver.Documented)
    (config : Config φ) (transport : WebSocketTransport ω) (call : Call φ) (transfers : call.IsTransfer) :
    OnlyConnectionErrors (transport.call driver config call).1 ↔
      RetryAccepted ((sendErrors (transport.call driver config call).2).drop
        (sendErrors transport).length) := by
  cases call with
  | connect => cases transfers
  | disconnect => cases transfers
  | read size timeout fuel =>
    have finishes : Ensures (Accepted sendErrors (sendErrors transport)) (pure () : Method ω Unit)
        (fun _ => Accepted sendErrors (sendErrors transport))
        (Surfaced sendErrors (sendErrors transport)) := .ofPure fun _ holds => holds
    exact surfaces_iff ((read_surfaces documented size timeout fuel).bind fun _ => finishes) rfl rfl
  | write data fuel => exact surfaces_iff (write_surfaces documented data fuel) rfl rfl

end EmbeddedBridge.Python.WebSocketTransport

namespace EmbeddedBridge.Python.Transport

open Library Py Methods

/-! ## Both transports -/

/-- In whatever state they are and whatever the driver answers, `read` and `write` raise
nothing but `ConnectionError`, exactly when a second attempt at sending is not refused
with anything else. -/
theorem errors_surface_iff {φ ω : Type} [PyFloatOrder φ] (serial : SerialTransport.Driver φ ω)
    (webSocket : WebSocketTransport.Driver φ ω) (serialDocumented : serial.Documented)
    (webSocketDocumented : webSocket.Documented) :
    (∀ config (transport : SerialTransport ω) (call : SerialTransport.Call φ), call.IsTransfer →
      (OnlyConnectionErrors (transport.call serial config call).1 ↔
        RetryAccepted ((transport.call serial config call).2.sendErrors.drop
          transport.sendErrors.length))) ∧
    ∀ config (transport : WebSocketTransport ω) (call : WebSocketTransport.Call φ), call.IsTransfer →
      (OnlyConnectionErrors (transport.call webSocket config call).1 ↔
        RetryAccepted ((transport.call webSocket config call).2.sendErrors.drop
          transport.sendErrors.length)) :=
  ⟨SerialTransport.errors_iff serialDocumented, WebSocketTransport.errors_iff webSocketDocumented⟩

/-- The server accepts every connection, and closes it when something is sent. -/
def hangingUp : WebSocketTransport.Driver Micro Unit where
  monotonic _ := (⟨0⟩, ())
  sleep _ _ := ()
  connect _ _ _ := (.ok (), ())
  recv _ _ _ := (.error ⟨.timeoutError, []⟩, ())
  send _ _ _ := (.error ⟨.connectionClosed, str "received 1001 (going away)"⟩, ())
  close _ _ := ()

/-- A port that can be opened, but not written to. -/
def unplugged : SerialTransport.Driver Micro Unit where
  monotonic _ := (⟨0⟩, ())
  sleep _ _ := ()
  usbDevicePort _ _ := (.ok ⟨0, str "/dev/ttyACM0", []⟩, ())
  pathExists _ _ := (.ok true, ())
  openPort _ _ _ := (.ok (), ())
  isOpen _ _ := true
  inWaiting _ _ := (.ok 0, ())
  read _ _ _ := (.ok [], ())
  write _ _ _ := (.error ⟨.serialException, str "write failed"⟩, ())
  flush _ _ := (.ok (), ())
  close _ _ := ()

theorem hangingUp_documented : hangingUp.Documented where
  connect _ _ _ _ raised := nomatch raised
  recv _ _ _ _ raised := by cases raised; decide
  send _ _ _ _ raised := by cases raised; decide

theorem unplugged_documented : unplugged.Documented where
  usbDevicePort _ _ _ raised := nomatch raised
  pathExists _ _ _ raised := nomatch raised
  openPort _ _ _ _ raised := nomatch raised
  inWaiting _ _ _ raised := nomatch raised
  read _ _ _ _ raised := nomatch raised
  write _ _ _ _ raised := by cases raised; decide
  flush _ _ _ raised := nomatch raised

def hangingUpConfig (reconnect : Bool) : WebSocketTransport.Config Micro where
  uri := str "ws://localhost:8765"
  openTimeout := PyFloat.literal 100 1
  reconnect := reconnect
  reconnectInterval := PyFloat.literal 10 1
  reconnectTimeout := PyFloat.literal 300 1

/-- Without reconnecting there is no second attempt. -/
theorem errors_surface_iff_alone :
    OnlyConnectionErrors
      (({ ws := some 0, world := () } : WebSocketTransport Unit).call hangingUp
        (hangingUpConfig false) (.write [0x01] 1)).1 :=
  ((errors_surface_iff unplugged hangingUp unplugged_documented hangingUp_documented).2
    (hangingUpConfig false) _ (.write [0x01] 1) trivial).mpr fun _ raised => nomatch raised

/-- The exception of the retry escapes. -/
theorem not_onlyConnectionErrors :
    hangingUp.Documented ∧ ¬ OnlyConnectionErrors
      (({ ws := some 0, world := () } : WebSocketTransport Unit).call hangingUp
        (hangingUpConfig true) (.write [0x01] 1)).1 := by
  refine ⟨hangingUp_documented, fun only => ?_⟩
  cases only ⟨.connectionClosed, str "received 1001 (going away)"⟩ rfl

end EmbeddedBridge.Python.Transport
