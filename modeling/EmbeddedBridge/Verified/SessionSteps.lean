import EmbeddedBridge.Verified.CatalogTolerance

/-! # What the methods of a session are made of

Apart from reading a line and from reconnecting, a method asks its environment and notes what it
has done.  So what each such step keeps, the method keeps.
-/

namespace EmbeddedBridge.Python.TestSession

open Library Py Methods

variable {φ ω α : Type} (env : Environment φ ω) (detector : Option (ω → Option Str × ω))

/-- Everything but a call of `read` and the begin of a reconnection. -/
inductive Basic : (α : Type) → Method φ ω α → Prop where
  | clock : Basic φ (perform env.clock)
  | sleep (seconds : φ) : Basic Bool (perform (env.sleep seconds))
  | write (data : List UInt8) : Basic Bool (write env data)
  | connect : Basic Bool (perform env.connect)
  | disconnect : Basic Bool (perform env.disconnect)
  | portPath : Basic (Option (Option Str)) (perform env.portPath)
  | pathExists (path : Str) : Basic Bool (perform (env.pathExists path))
  | detect {detect : ω → Option Str × ω} (given : detector = some detect) :
      Basic (Option Str) (perform detect)
  | emit {event : Event φ} (noRead : event ≠ .read) (noReconnect : event ≠ .reconnect)
      (noWrite : ∀ data done, event ≠ .write data done) : Basic Unit (emit event)

/-- Made of such steps; it is not cut off. -/
abbrev Plain (method : Method φ ω α) : Prop :=
  Composed (Basic env detector) (fun stop => stop ≠ .cutOff) method

section

variable {detector}

theorem orRaise_plain (result : Except Raised α) :
    Plain env detector (orRaise result : Method φ ω α) := by
  cases result with
  | ok value => exact .pure value
  | error error => exact .throw nofun

theorem clock_plain : Plain env detector (clock env) := .step .clock

theorem sleep_plain (seconds : φ) : Plain env detector (sleep env seconds) := by
  refine .bind (.step (.sleep seconds)) fun done => ?_
  cases done with
  | true => exact .pure _
  | false => exact .throw nofun

theorem write_plain (data : List UInt8) : Plain env detector (write env data) :=
  .step (.write data)

theorem connect_plain : Plain env detector (connect env) :=
  .bind (.step .connect) fun _ => .bind (.step (.emit nofun nofun nofun)) fun _ => .pure _

theorem disconnect_plain : Plain env detector (disconnect env) :=
  .bind (.step .disconnect) fun _ => .bind (.step (.emit nofun nofun nofun)) fun _ => .pure _

end

theorem checkSleepState_plain : Plain env detector (checkSleepState env detector) := by
  refine .bind ?_ fun state => .bind (.step (.emit nofun nofun nofun)) fun _ => .pure _
  cases detector with
  | some detect =>
    refine .bind (.step (.detect rfl)) fun answer => ?_
    cases answer with
    | some state => exact .pure _
    | none => exact .throw nofun
  | none =>
    refine .bind (.step .portPath) fun answer => ?_
    cases answer with
    | none => exact .throw nofun
    | some portPath =>
      cases portPath with
      | none => exact .pure _
      | some path =>
        cases path with
        | nil => exact .pure _
        | cons first path =>
          refine .bind (.step (.pathExists _)) fun present => ?_
          cases present with
          | true => exact .pure _
          | false => exact .pure _

variable [PyFloat φ]

theorem since_plain (now : φ) (start : Option φ) :
    Plain env detector (since now start : Method φ ω φ) := by
  refine .bind (.step (.emit nofun nofun nofun)) fun _ => ?_
  cases start with
  | some start => exact .pure _
  | none => exact .throw nofun

theorem reconnectAttempts_plain (attempts : Nat) :
    Plain env detector (reconnectAttempts env attempts) := by
  induction attempts with
  | zero => exact .pure _
  | succ attempts inductionHypothesis =>
    have again : Plain env detector (sleep env (PyFloat.literal 1 0) >>= fun _ =>
        reconnectAttempts env attempts) := .bind (sleep_plain env _) fun _ => inductionHypothesis
    unfold reconnectAttempts
    refine .bind (connect_plain env) fun connected => ?_
    cases connected with
    | false => exact again
    | true =>
      refine .bind (write_plain env SOH) fun greeted => ?_
      cases greeted with
      | false => exact again
      | true => exact .pure _

variable (call : Monitoring φ ω) (monitor : Monitor φ)

theorem markerTurn_plain (payload : Str) : Plain env detector (markerTurn env call monitor payload) := by
  refine .bind (.step (.emit nofun nofun nofun)) fun _ => .bind (clock_plain env) fun hostTs => ?_
  refine .ite (.pure _) (.ite (.pure _) (.ite ?_ (.ite (.pure _) (.ite (.pure _) (.pure _)))))
  exact .bind (write_plain env ACK) fun _ => .bind (disconnect_plain env) fun _ => .pure _

theorem lineTurn_plain (depth : Nat) (line : Str) :
    Plain env detector (lineTurn env call depth monitor line) := by
  have plain : Plain env detector (plainTurn env call monitor line) := by
    refine .bind (orRaise_plain env _) fun marker => ?_
    cases marker with
    | none => exact .pure _
    | some marker => exact markerTurn_plain env detector call monitor marker.2
  refine .bind (orRaise_plain env _) fun obj => ?_
  cases obj with
  | none => exact plain
  | some obj =>
    cases obj with
    | nil => exact plain
    | cons field fields => exact .pure _

/-- While the device sleeps, there are such steps, and in the end a reconnection. -/
theorem sleepTurn_keeps {invariant : TestSession φ ω → Prop}
    {raised : Stop → TestSession φ ω → Prop}
    (plain : ∀ {α : Type} {method : Method φ ω α}, Plain env call.sleepDetector method →
      Ensures invariant method (fun _ => invariant) raised)
    (reconnects : Ensures invariant (reconnectAfterWake env 10) (fun _ => invariant) raised) :
    Ensures invariant (sleepTurn env call monitor) (fun _ => invariant) raised := by
  have wakes : Ensures invariant (wakeTurn env monitor) (fun _ => invariant) raised := by
    refine (plain (clock_plain env)).bind fun wakeTime => ?_
    refine (plain (since_plain env _ _ _)).bind fun actualSleep => reconnects.bind fun done => ?_
    exact .ite (fun _ => .ofPure fun _ => id) fun _ => .ofPure fun _ => id
  have polls (elapsed : φ) :
      Ensures invariant (pollTurn env call elapsed monitor) (fun _ => invariant) raised := by
    refine (plain (sleep_plain env _)).bind fun _ => ?_
    refine (plain (checkSleepState_plain env call.sleepDetector)).bind fun state => ?_
    refine .ite (fun _ => .ite (fun _ => .ofPure fun _ => id) fun _ => wakes) fun _ => ?_
    refine .ite (fun _ => .ofPure fun _ => id) fun _ => ?_
    exact .ite (fun _ => .ofPure fun _ => id) fun _ => .ofPure fun _ => id
  refine (plain (clock_plain env)).bind fun now => (plain (since_plain env _ _ _)).bind
    fun elapsed => ?_
  cases monitor.sleepExpectedS with
  | none => exact polls elapsed
  | some expected => exact .ite (fun _ => .ofPure fun _ => id) fun _ => polls elapsed

end EmbeddedBridge.Python.TestSession
