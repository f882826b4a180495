import EmbeddedBridge.Library.Methods
import EmbeddedBridge.Library.Py.Number

/-! # Transports: exceptions and reconnecting

What the transports of `transport/websocket.py` and `transport/serial.py` have in
common: the classes of exceptions that their handlers tell apart, and the loop of
`_do_reconnect`.  Loops run for `fuel` turns; a call that needs more is cut off there.
-/

namespace EmbeddedBridge.Python

open Library Py

/-- `other` is any class that no handler names. -/
inductive ExceptionClass where
  | osError
  | connectionError
  | timeoutError
  | fileNotFoundError
  | serialException
  | webSocketException
  | connectionClosed
  | timeoutExpired
  | other
deriving DecidableEq, Repr

namespace ExceptionClass

def parent : ExceptionClass → Option ExceptionClass
  | connectionError => some osError
  | timeoutError => some osError
  | fileNotFoundError => some osError
  | serialException => some osError
  | connectionClosed => some webSocketException
  | osError => none
  | webSocketException => none
  | timeoutExpired => none
  | other => none

/-- `issubclass` -/
def isA (cls ancestor : ExceptionClass) : Bool := cls == ancestor || cls.parent == some ancestor

end ExceptionClass

structure PyException where
  cls : ExceptionClass
  text : Str
deriving DecidableEq, Repr

/-- The classes of an `except` clause. -/
def PyException.isAny (exception : PyException) (classes : List ExceptionClass) : Bool :=
  classes.any exception.cls.isA

theorem isAny_pair (exception : PyException) (first second : ExceptionClass) :
    exception.isAny [first, second] = true ↔
      exception.isAny [first] = true ∨ exception.isAny [second] = true := by
  simp [PyException.isAny]

namespace Transport

/-- Why a call does not return. -/
inductive Stop where
  | raised (exception : PyException)
  | cutOff
deriving DecidableEq, Repr

abbrev Method (σ α : Type) := Methods.Method Stop σ α

section

variable {φ σ α : Type}

def raise (cls : ExceptionClass) (text : Str) : Method σ α := throw (.raised ⟨cls, text⟩)

def orRaise (answer : Except PyException α) : Method σ α :=
  match answer with
  | .ok value => return value
  | .error exception => throw (.raised exception)

/-- Whether an attempt is successful; the exceptions of the `except` clause say no. -/
def succeeds (classes : List ExceptionClass) (attempt : Method σ Unit) : Method σ Bool :=
  tryCatch (do attempt; return true) fun stop =>
    match stop with
    | .raised exception => if exception.isAny classes then return false else throw stop
    | .cutOff => throw stop

variable [PyFloat φ]

/-- The `while` loop of `_do_reconnect`. -/
def attemptLoop (clock : Method σ φ) (sleep attempt : Method σ Unit)
    (classes : List ExceptionClass) (gaveUp : (attempts : Nat) → Str) (deadline : φ) :
    (fuel : Nat) → (attempts : Nat) → Method σ Unit
  | 0, _ => throw .cutOff
  | fuel + 1, attempts => do
    let now ← clock
    if PyFloat.lt now deadline then
      if ← succeeds classes attempt then return
      else do
        sleep
        attemptLoop clock sleep attempt classes gaveUp deadline fuel (attempts + 1)
    else raise .connectionError (gaveUp attempts)

/-- `Failed to reconnect to '{spec}' after {timeout}s ({attempts} attempts)` -/
def gaveUp (spec : Str) (reconnectTimeout : φ) (attempts : Nat) : Str :=
  str "Failed to reconnect to '" ++ spec ++ str "' after " ++ PyFloat.toStr reconnectTimeout ++
    str "s (" ++ str (toString attempts) ++ str " attempts)"

end

/-! ## Specification -/

section

open Methods

variable {φ σ : Type} {invariant done : σ → Prop} {failed : Stop → σ → Prop}

/-- What holds when an attempt raises: an exception that is caught is as if nothing was
attempted. -/
def Refused (classes : List ExceptionClass) (invariant : σ → Prop) (failed : Stop → σ → Prop) :
    Stop → σ → Prop
  | .raised exception, state =>
    if exception.isAny classes then invariant state else failed (.raised exception) state
  | .cutOff, state => failed .cutOff state

theorem refused_of_caught {classes : List ExceptionClass} {exception : PyException} {state : σ}
    (caught : exception.isAny classes = true) (holds : invariant state) :
    Refused classes invariant failed (.raised exception) state := by
  rw [Refused, if_pos caught]
  exact holds

theorem refused_of_uncaught {classes : List ExceptionClass} {exception : PyException} {state : σ}
    (uncaught : ¬ exception.isAny classes = true) (holds : failed (.raised exception) state) :
    Refused classes invariant failed (.raised exception) state := by
  rw [Refused, if_neg uncaught]
  exact holds

theorem succeeds_ensures {classes : List ExceptionClass} {attempt : Method σ Unit}
    (attempts : Ensures invariant attempt (fun _ => done) (Refused classes invariant failed)) :
    Ensures invariant (succeeds classes attempt)
      (fun success state => if success then done state else invariant state) failed := by
  refine .tryCatch (attempts.bind fun _ => .ofPure fun state holds => holds) fun stop => ?_
  cases stop with
  | cutOff => exact .ofThrow fun state holds => holds
  | raised exception =>
    refine .ite (fun isCaught => .ofPure fun state holds => ?_) fun notCaught =>
      .ofThrow fun state holds => ?_
    · rw [Refused, if_pos isCaught] at holds
      exact holds
    · rw [Refused, if_neg notCaught] at holds
      exact holds

variable [PyFloat φ] {clock : Method σ φ} {sleep attempt : Method σ Unit}
  {classes : List ExceptionClass} {gaveUp : Nat → Str}

/-- The invariant holds between the attempts, and at the end one has been successful or
the loop raises. -/
theorem attemptLoop_ensures (clocks : Ensures invariant clock (fun _ => invariant) failed)
    (sleeps : Ensures invariant sleep (fun _ => invariant) failed)
    (attempts : Ensures invariant attempt (fun _ => done) (Refused classes invariant failed))
    (givesUp : ∀ count state, invariant state →
      failed (.raised ⟨.connectionError, gaveUp count⟩) state)
    (isCut : ∀ state, invariant state → failed .cutOff state) (deadline : φ) (fuel count : Nat) :
    Ensures invariant (attemptLoop clock sleep attempt classes gaveUp deadline fuel count)
      (fun _ => done) failed := by
  induction fuel generalizing count with
  | zero => exact .ofThrow isCut
  | succ fuel inductionHypothesis =>
    refine clocks.bind fun now => .ite (fun early => ?_) fun late => .ofThrow (givesUp count)
    refine (succeeds_ensures attempts).bind fun success => ?_
    cases success with
    | true => exact .ofPure fun state holds => holds
    | false =>
      refine (sleeps.weaken (fun state holds => holds) (fun _ _ holds => holds)
        fun _ _ holds => holds).bind fun _ => inductionHypothesis (count + 1)

/-- What all parts keep, however they end, the loop keeps. -/
theorem attemptLoop_keeps (clocks : Ensures invariant clock (fun _ => invariant) fun _ => invariant)
    (sleeps : Ensures invariant sleep (fun _ => invariant) fun _ => invariant)
    (attempts : Ensures invariant attempt (fun _ => invariant) fun _ => invariant) (deadline : φ)
    (fuel count : Nat) :
    Ensures invariant (attemptLoop clock sleep attempt classes gaveUp deadline fuel count)
      (fun _ => invariant) fun _ => invariant := by
  refine attemptLoop_ensures clocks sleeps (attempts.weaken (fun _ => id) (fun _ _ => id) ?_)
    (fun _ _ => id) (fun _ => id) deadline fuel count
  intro stop state holds
  cases stop with
  | raised exception =>
    by_cases caught : exception.isAny classes = true
    · exact refused_of_caught caught holds
    · exact refused_of_uncaught caught holds
  | cutOff => exact holds

end

end Transport

end EmbeddedBridge.Python
