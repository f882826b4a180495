import EmbeddedBridge.Library.Methods

/-! # Routing

`Router` of `receivers/router.py`.  What a predicate, a receiver or the passthrough
does with a message may be different each time: `turn` counts the calls of `feed`.
The calls that a router makes are in its log, also the ones that raise.
-/

namespace EmbeddedBridge.Python

open Library

variable {ε Message : Type}

/-- A receiver's `feed`, with the predicate it is registered with. -/
structure Route (ε Message : Type) where
  receiver : Nat → Message → Except ε Unit
  predicate : Option (Nat → Message → Except ε Bool) := none

structure Router (ε Message : Type) where
  routes : List (Route ε Message) := []
  passthrough : Option (Nat → Message → Except ε Unit) := none

namespace Router

/-- A call that a router makes, receivers by their place in the list. -/
inductive Delivery (Message : Type) where
  | fed (index : Nat) (message : Message)
  | passedThrough (message : Message)
deriving DecidableEq, Repr

abbrev Method (ε Message α : Type) := Methods.Method ε (List (Delivery Message)) α

def deliver (delivery : Delivery Message) (outcome : Except ε Unit) : Method ε Message Unit := do
  modify fun log => log ++ [delivery]
  MonadExcept.ofExcept outcome

/-- One turn of the loop, with `matched_predicate` before and after it. -/
def feedRoute (turn : Nat) (message : Message) (index : Nat) (route : Route ε Message)
    (matchedPredicate : Bool) : Method ε Message Bool :=
  match route.predicate with
  | none => do
    deliver (.fed index message) (route.receiver turn message)
    return matchedPredicate
  | some predicate =>
    match predicate turn message with
    | .ok true =>
      -- set before the receiver is fed, so that it stays set when that raises
      tryCatch (do deliver (.fed index message) (route.receiver turn message); return true)
        fun _ => return true
    | .ok false => return matchedPredicate
    | .error _ => return matchedPredicate

def feedRoutes (turn : Nat) (message : Message) :
    Nat → List (Route ε Message) → Bool → Method ε Message Bool
  | _, [], matchedPredicate => return matchedPredicate
  | index, route :: routes, matchedPredicate => do
    let matchedPredicate ← feedRoute turn message index route matchedPredicate
    feedRoutes turn message (index + 1) routes matchedPredicate

def feed (router : Router ε Message) (turn : Nat) (message : Message) : Method ε Message Unit := do
  let matchedPredicate ← feedRoutes turn message 0 router.routes false
  if !matchedPredicate then
    match router.passthrough with
    | some passthrough => deliver (.passedThrough message) (passthrough turn message)
    | none => return ()

/-- The calls made for a sequence of messages, each fed whether or not the one before
it has raised. -/
def run (router : Router ε Message) (messages : List Message) : List (Delivery Message) :=
  messages.zipIdx.foldl (fun log call => (Methods.run (router.feed call.2 call.1) log).2) []

end Router

end EmbeddedBridge.Python
