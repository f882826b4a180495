import EmbeddedBridge.Receivers.Router

/-! # Routers within routers

A `Router` has a `feed` like any other receiver, so that it can be a receiver of another one
(`receivers/router.py`).  A place in such a tree is the path to it: the indices of the routes,
the outermost first.
-/

namespace EmbeddedBridge.Python

open Library

mutual

/-- An object with a `feed`, of which it only matters when it raises, or a router. -/
inductive Receiver (ε Message : Type) where
  | object (feed : Nat → Message → Except ε Unit)
  | router (routes : Routes ε Message) (passthrough : Option (Nat → Message → Except ε Unit))

inductive Routes (ε Message : Type) where
  | nil
  | cons (predicate : Option (Nat → Message → Except ε Bool)) (receiver : Receiver ε Message)
      (routes : Routes ε Message)

end

variable {ε Message : Type}

/-- What a router somewhere in the tree calls. -/
inductive NestedDelivery.Kind where
  | fed
  | passedThrough
deriving DecidableEq, Repr

structure NestedDelivery (Message : Type) where
  kind : NestedDelivery.Kind
  place : List Nat
  message : Message
deriving DecidableEq, Repr

namespace Receiver

abbrev Method (ε Message α : Type) := Methods.Method ε (List (NestedDelivery Message)) α

/-- The call is made, and does what `method` does. -/
def deliver {α : Type} (delivery : NestedDelivery Message) (method : Method ε Message α) :
    Method ε Message α := do
  modify fun log => log ++ [delivery]
  method

/-- One turn of the loop, with `matched_predicate` before and after it. -/
def feedRoute (turn : Nat) (message : Message) (predicate : Option (Nat → Message → Except ε Bool))
    (call : Method ε Message Unit) (matchedPredicate : Bool) : Method ε Message Bool :=
  match predicate with
  | none => do
    call
    return matchedPredicate
  | some predicate =>
    match predicate turn message with
    | .ok true => tryCatch (do call; return true) fun _ => return true
    | .ok false => return matchedPredicate
    | .error _ => return matchedPredicate

/-- `self._passthrough(message)`, if there is one. -/
def passOn (turn : Nat) (message : Message) (place : List Nat)
    (passthrough : Option (Nat → Message → Except ε Unit)) : Method ε Message Unit :=
  match passthrough with
  | some passthrough =>
    deliver ⟨.passedThrough, place, message⟩ (MonadExcept.ofExcept (passthrough turn message))
  | none => return ()

mutual

/-- `feed` of the receiver at a place; `turn` counts the calls of the outermost one. -/
def feed (turn : Nat) (message : Message) (place : List Nat) :
    Receiver ε Message → Method ε Message Unit
  | .object feed => MonadExcept.ofExcept (feed turn message)
  | .router routes passthrough => do
    let matchedPredicate ← feedRoutes turn message place 0 routes false
    if !matchedPredicate then passOn turn message place passthrough

def feedRoutes (turn : Nat) (message : Message) (place : List Nat) (index : Nat) :
    Routes ε Message → Bool → Method ε Message Bool
  | .nil, matchedPredicate => return matchedPredicate
  | .cons predicate receiver routes, matchedPredicate => do
    let here := place ++ [index]
    let matchedPredicate ← feedRoute turn message predicate
      (deliver ⟨.fed, here, message⟩ (feed turn message here receiver)) matchedPredicate
    feedRoutes turn message place (index + 1) routes matchedPredicate

end

/-- The calls made for a sequence of messages, each fed whether or not the one before it has
raised. -/
def run (receiver : Receiver ε Message) (messages : List Message) : List (NestedDelivery Message) :=
  messages.zipIdx.foldl
    (fun log call => (Methods.run (receiver.feed call.2 call.1 []) log).2) []

end Receiver

/-! ## Routers with nothing in them -/

def Routes.ofList : List (Route ε Message) → Routes ε Message
  | [] => .nil
  | route :: routes => .cons route.predicate (.object route.receiver) (ofList routes)

def Router.toReceiver (router : Router ε Message) : Receiver ε Message :=
  .router (Routes.ofList router.routes) router.passthrough

/-- A call of such a router. -/
def Router.Delivery.nested : Router.Delivery Message → NestedDelivery Message
  | .fed index message => ⟨.fed, [index], message⟩
  | .passedThrough message => ⟨.passedThrough, [], message⟩

end EmbeddedBridge.Python
