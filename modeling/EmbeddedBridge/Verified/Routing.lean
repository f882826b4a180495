import EmbeddedBridge.Receivers.Router

/-! # Independent receivers

What a route is due does not depend on the others: everything without a predicate,
otherwise the messages on which its predicate returns true.  A receiver with a
predicate is fed inside the `try`, one without is not, so that its exception ends the
loop; `independent_iff` says that this is the only thing that can go wrong, and when
nobody is left to notice.
-/

namespace EmbeddedBridge.Python

open Library

variable {ε Message : Type}

namespace Route

/-- The predicate returns true. -/
def isMatch (route : Route ε Message) (turn : Nat) (message : Message) : Bool :=
  match route.predicate with
  | none => false
  | some predicate =>
    match predicate turn message with
    | .ok answer => answer
    | .error _ => false

/-- The route is due the message. -/
def isDue (route : Route ε Message) (turn : Nat) (message : Message) : Bool :=
  route.predicate.isNone || route.isMatch turn message

/-- The exception of the receiver is not caught. -/
def escapes (route : Route ε Message) (turn : Nat) (message : Message) : Bool :=
  route.predicate.isNone && !(route.receiver turn message).isOk

end Route

namespace Router

def Delivery.fedTo? (index : Nat) : Delivery Message → Option Message
  | .fed other message => if other = index then some message else none
  | .passedThrough _ => none

def Delivery.passedThrough? : Delivery Message → Option Message
  | .fed _ _ => none
  | .passedThrough message => some message

section

variable (index other : Nat) (message : Message)

@[simp] theorem fedTo?_fed : Delivery.fedTo? index (.fed other message) =
    if other = index then some message else none := rfl

@[simp] theorem fedTo?_passedThrough : Delivery.fedTo? index (.passedThrough message) = none := rfl

@[simp] theorem passedThrough?_fed : (Delivery.fed index message).passedThrough? = none := rfl

@[simp] theorem passedThrough?_passedThrough :
    (Delivery.passedThrough message).passedThrough? = some message := rfl

end

/-- What the route at a place has been fed. -/
def fedTo (index : Nat) (log : List (Delivery Message)) : List Message :=
  log.filterMap (Delivery.fedTo? index)

def passed (log : List (Delivery Message)) : List Message :=
  log.filterMap Delivery.passedThrough?

def isMatched (router : Router ε Message) (turn : Nat) (message : Message) : Bool :=
  router.routes.any fun route => route.isMatch turn message

/-- The messages of a run that satisfy a condition, in order. -/
def during (condition : Nat → Message → Bool) (messages : List Message) : List Message :=
  (messages.zipIdx.filter fun call => condition call.2 call.1).map (·.1)

/-- Every route is fed what it is due, whatever the others do, and the passthrough is
called when no predicate has returned true. -/
structure Independent (router : Router ε Message) (messages : List Message) : Prop where
  fed : ∀ index route, router.routes[index]? = some route →
    fedTo index (router.run messages) = during route.isDue messages
  passed : router.passthrough.isSome →
    passed (router.run messages) =
      during (fun turn message => !router.isMatched turn message) messages

/-- When an exception escapes, nothing is due any more. -/
def Harmless (router : Router ε Message) (messages : List Message) : Prop :=
  ∀ message turn, messages[turn]? = some message → ∀ before route after,
    router.routes = before ++ route :: after → route.escapes turn message →
      (∀ later ∈ after, later.isDue turn message = false) ∧
        (router.passthrough.isSome → router.isMatched turn message)

/-! ## One message -/

/-- The calls of the loop. -/
def callsFrom (turn : Nat) (message : Message) : Nat → List (Route ε Message) → List (Delivery Message)
  | _, [] => []
  | index, route :: routes =>
    (if route.isDue turn message then [.fed index message] else []) ++
      if route.escapes turn message then [] else callsFrom turn message (index + 1) routes

theorem run_deliver (delivery : Delivery Message) (outcome : Except ε Unit)
    (log : List (Delivery Message)) :
    Methods.run (deliver delivery outcome) log = (outcome, log ++ [delivery]) := by
  rw [deliver, Methods.run_bind_ok log (Methods.run_modify log _), Methods.run_ofExcept]

/-- A turn of the loop calls the receiver that is due, and ends with an exception only
when that escapes. -/
theorem run_feedRoute (turn : Nat) (message : Message) (index : Nat) (route : Route ε Message)
    (matchedPredicate : Bool) (log : List (Delivery Message)) :
    ∃ outcome, Methods.run (feedRoute turn message index route matchedPredicate) log =
        (outcome, log ++ if route.isDue turn message then [.fed index message] else []) ∧
      if route.escapes turn message then outcome.isOk = false
      else outcome = .ok (matchedPredicate || route.isMatch turn message) := by
  obtain ⟨receiver, predicate⟩ := route
  cases predicate with
  | none =>
    cases received : receiver turn message with
    | ok result =>
      refine ⟨.ok matchedPredicate, ?_, ?_⟩
      · simp only [feedRoute, Methods.run_bind, run_deliver, received, Methods.run_pure]
        rfl
      · simp [Route.escapes, Route.isMatch, received, Except.isOk, Except.toBool]
    | error error =>
      refine ⟨.error error, ?_, ?_⟩
      · simp only [feedRoute, Methods.run_bind, run_deliver, received]
        rfl
      · simp [Route.escapes, received, Except.isOk, Except.toBool]
  | some predicate =>
    refine ⟨.ok (matchedPredicate || Route.isMatch ⟨receiver, some predicate⟩ turn message), ?_, ?_⟩
    · cases answered : predicate turn message with
      | error error => simp [feedRoute, Route.isDue, Route.isMatch, answered]
      | ok answer =>
        cases answer with
        | false => simp [feedRoute, Route.isDue, Route.isMatch, answered]
        | true =>
          simp only [feedRoute, answered, Methods.run_tryCatch, Methods.run_bind, run_deliver]
          cases receiver turn message <;> simp [Route.isDue, Route.isMatch, answered]
    · simp [Route.escapes]

/-- Whether the loop gets to its end. -/
def reachesEnd (routes : List (Route ε Message)) (turn : Nat) (message : Message) : Bool :=
  routes.all fun route => !route.escapes turn message

theorem reachesEnd_cons (route : Route ε Message) (routes : List (Route ε Message)) (turn : Nat)
    (message : Message) : reachesEnd (route :: routes) turn message =
      (!route.escapes turn message && reachesEnd routes turn message) := rfl

/-- An exception on the way keeps the loop from the end. -/
theorem not_reachesEnd_iff {routes : List (Route ε Message)} {turn : Nat} {message : Message} :
    ¬ reachesEnd routes turn message ↔
      ∃ before route after, routes = before ++ route :: after ∧ route.escapes turn message := by
  simp only [reachesEnd, List.all_eq_true, not_forall]
  constructor
  · intro stopped
    obtain ⟨route, isThere, escapes⟩ := stopped
    obtain ⟨before, after, split⟩ := List.append_of_mem isThere
    exact ⟨before, route, after, split, by simpa using escapes⟩
  · intro stopped
    obtain ⟨before, route, after, split, escapes⟩ := stopped
    exact ⟨route, by simp [split], by simp [escapes]⟩

theorem run_feedRoutes (turn : Nat) (message : Message) (index : Nat)
    (routes : List (Route ε Message)) (matchedPredicate : Bool) (log : List (Delivery Message)) :
    ∃ outcome, Methods.run (feedRoutes turn message index routes matchedPredicate) log =
        (outcome, log ++ callsFrom turn message index routes) ∧
      if reachesEnd routes turn message then
        outcome = .ok (matchedPredicate || routes.any fun route => route.isMatch turn message)
      else outcome.isOk = false := by
  induction routes generalizing index matchedPredicate log with
  | nil => exact ⟨.ok matchedPredicate, by simp [feedRoutes, callsFrom], by simp [reachesEnd]⟩
  | cons route routes inductionHypothesis =>
    obtain ⟨first, ran, ended⟩ := run_feedRoute turn message index route matchedPredicate log
    rw [feedRoutes, Methods.run_bind, ran]
    cases escapes : route.escapes turn message with
    | true =>
      rw [escapes] at ended
      cases first with
      | ok result => cases ended
      | error error =>
        exact ⟨.error error, by simp [callsFrom, escapes], by simpa [reachesEnd, escapes] using ended⟩
    | false =>
      rw [escapes] at ended
      rw [ended]
      obtain ⟨outcome, ranRest, endedRest⟩ := inductionHypothesis (index + 1)
        (matchedPredicate || route.isMatch turn message)
        (log ++ if route.isDue turn message then [.fed index message] else [])
      refine ⟨outcome, by simp [ranRest, callsFrom, escapes], ?_⟩
      simpa [reachesEnd, escapes, Bool.or_assoc] using endedRest

/-- The calls for one message. -/
def callsFor (router : Router ε Message) (turn : Nat) (message : Message) : List (Delivery Message) :=
  callsFrom turn message 0 router.routes ++
    if router.passthrough.isSome && !router.isMatched turn message
      && reachesEnd router.routes turn message
    then [.passedThrough message] else []

theorem run_feed (router : Router ε Message) (turn : Nat) (message : Message)
    (log : List (Delivery Message)) :
    (Methods.run (router.feed turn message) log).2 = log ++ router.callsFor turn message := by
  obtain ⟨outcome, ran, ended⟩ := run_feedRoutes turn message 0 router.routes false log
  rw [feed, Methods.run_bind, ran]
  cases reaches : reachesEnd router.routes turn message with
  | false =>
    rw [reaches] at ended
    cases outcome with
    | ok result => cases ended
    | error error => simp [callsFor, reaches]
  | true =>
    rw [reaches] at ended
    rw [ended]
    cases matched : router.isMatched turn message with
    | true =>
      rw [isMatched] at matched
      simp [callsFor, isMatched, matched]
    | false =>
      have unmatched := matched
      rw [isMatched] at unmatched
      cases passthrough : router.passthrough with
      | none => simp [callsFor, unmatched, matched, reaches, passthrough]
      | some passthrough => simp [callsFor, unmatched, matched, reaches, passthrough, run_deliver]

theorem run_eq (router : Router ε Message) (messages : List Message) :
    router.run messages =
      messages.zipIdx.flatMap fun call => router.callsFor call.2 call.1 := by
  have general : ∀ (calls : List (Message × Nat)) log,
      calls.foldl (fun log call => (Methods.run (router.feed call.2 call.1) log).2) log =
        log ++ calls.flatMap fun call => router.callsFor call.2 call.1 := by
    intro calls
    induction calls with
    | nil => simp
    | cons first calls inductionHypothesis =>
      intro log
      rw [List.foldl_cons, inductionHypothesis, run_feed, List.flatMap_cons, List.append_assoc]
  rw [run, general, List.nil_append]

/-! ## What each route is fed -/

theorem fedTo_earlier (turn : Nat) (message : Message) {place index : Nat} (earlier : place < index)
    (routes : List (Route ε Message)) : fedTo place (callsFrom turn message index routes) = [] := by
  induction routes generalizing index with
  | nil => rfl
  | cons route routes inductionHypothesis =>
    have here : ¬ index = place := by omega
    have rest := inductionHypothesis (Nat.lt_succ_of_lt earlier)
    simp only [fedTo, callsFrom, List.filterMap_append] at rest ⊢
    cases route.isDue turn message <;> cases route.escapes turn message <;>
      simp [here, rest]

/-- The loop gets to a route when no exception has escaped before it. -/
theorem fedTo_callsFrom (turn : Nat) (message : Message) (index : Nat) (routes : List (Route ε Message))
    (place : Nat) (route : Route ε Message) (isThere : routes[place]? = some route) :
    fedTo (index + place) (callsFrom turn message index routes) =
      if route.isDue turn message && reachesEnd (routes.take place) turn message then [message]
      else [] := by
  induction routes generalizing index place with
  | nil => simp at isThere
  | cons first routes inductionHypothesis =>
    cases place with
    | zero =>
      cases isThere
      have later := fedTo_earlier turn message (Nat.lt_succ_self index) routes
      simp only [fedTo] at later
      rw [fedTo, callsFrom, List.filterMap_append, List.take_zero,
        show reachesEnd ([] : List (Route ε Message)) turn message = true from rfl]
      cases route.isDue turn message <;> cases route.escapes turn message <;>
        simp [later]
    | succ place =>
      have rest := inductionHypothesis (index + 1) place isThere
      rw [Nat.add_right_comm, Nat.add_assoc] at rest
      simp only [fedTo] at rest
      rw [fedTo, callsFrom, List.filterMap_append, List.take_succ_cons, reachesEnd_cons]
      cases first.isDue turn message <;> cases first.escapes turn message <;>
        simp [rest]

theorem passed_callsFrom (turn : Nat) (message : Message) (index : Nat)
    (routes : List (Route ε Message)) : passed (callsFrom turn message index routes) = [] := by
  induction routes generalizing index with
  | nil => rfl
  | cons route routes inductionHypothesis =>
    have rest := inductionHypothesis (index + 1)
    simp only [passed, callsFrom, List.filterMap_append] at rest ⊢
    cases route.isDue turn message <;> cases route.escapes turn message <;>
      simp [rest]

/-! ## Over a run -/

theorem during_eq_flatMap (condition : Nat → Message → Bool) (messages : List Message) :
    during condition messages =
      messages.zipIdx.flatMap fun call => if condition call.2 call.1 then [call.1] else [] := by
  rw [during]
  induction messages.zipIdx with
  | nil => rfl
  | cons first calls inductionHypothesis =>
    rw [List.flatMap_cons, List.filter_cons, ← inductionHypothesis]
    cases condition first.2 first.1 <;> simp

/-- A further condition leaves the same messages only if it holds of them all. -/
theorem during_and_eq_iff (condition further : Nat → Message → Bool) (messages : List Message) :
    during (fun turn message => condition turn message && further turn message) messages =
        during condition messages ↔
      ∀ message turn, messages[turn]? = some message → condition turn message →
        further turn message := by
  have sub : (messages.zipIdx.filter fun call =>
        condition call.2 call.1 && further call.2 call.1).Sublist
      (messages.zipIdx.filter fun call => condition call.2 call.1) :=
    List.monotone_filter_right _ fun call both => (Bool.and_eq_true_iff.mp both).1
  constructor
  · intro same message turn isThere holds
    have lengths := congrArg List.length same
    rw [during, during, List.length_map, List.length_map] at lengths
    have kept : (message, turn) ∈ messages.zipIdx.filter fun call => condition call.2 call.1 :=
      List.mem_filter.mpr ⟨List.mk_mem_zipIdx_iff_getElem?.mpr isThere, holds⟩
    rw [← sub.eq_of_length lengths] at kept
    exact (Bool.and_eq_true_iff.mp (List.mem_filter.mp kept).2).2
  · intro holds
    rw [during, during]
    congr 1
    apply List.filter_congr
    intro call isThere
    have here := holds call.1 call.2 (List.mk_mem_zipIdx_iff_getElem?.mp isThere)
    cases due : condition call.2 call.1 with
    | false => rfl
    | true => rw [here due]; rfl

theorem fedTo_run (router : Router ε Message) (messages : List Message) (place : Nat)
    (route : Route ε Message) (isThere : router.routes[place]? = some route) :
    fedTo place (router.run messages) =
      during (fun turn message =>
        route.isDue turn message && reachesEnd (router.routes.take place) turn message) messages := by
  rw [run_eq, during_eq_flatMap, fedTo, List.filterMap_flatMap]
  congr 1
  funext call
  have calls := fedTo_callsFrom call.2 call.1 0 router.routes place route isThere
  rw [Nat.zero_add, fedTo] at calls
  rw [callsFor, List.filterMap_append, calls]
  -- the passthrough is nobody's place
  split <;> split <;> simp

theorem passed_run (router : Router ε Message) (messages : List Message)
    (isGiven : router.passthrough.isSome) :
    passed (router.run messages) =
      during (fun turn message =>
        !router.isMatched turn message && reachesEnd router.routes turn message) messages := by
  rw [run_eq, during_eq_flatMap, passed, List.filterMap_flatMap]
  congr 1
  funext call
  have calls := passed_callsFrom call.2 call.1 0 router.routes
  rw [passed] at calls
  simp only [callsFor, List.filterMap_append, calls, isGiven, Bool.true_and]
  split <;> simp

/-! ## Independence -/

/-- In terms of what the loop has to get to. -/
theorem independent_iff_reached (router : Router ε Message) (messages : List Message) :
    router.Independent messages ↔ ∀ message turn, messages[turn]? = some message →
      (∀ place route, router.routes[place]? = some route → route.isDue turn message →
        reachesEnd (router.routes.take place) turn message) ∧
      (router.passthrough.isSome → router.isMatched turn message = false →
        reachesEnd router.routes turn message) := by
  constructor
  · intro independent message turn isFed
    constructor
    · intro place route isThere isDue
      have fed := independent.fed place route isThere
      rw [fedTo_run router messages place route isThere, during_and_eq_iff] at fed
      exact fed message turn isFed isDue
    · intro isGiven unmatched
      have passed := independent.passed isGiven
      rw [passed_run router messages isGiven, during_and_eq_iff] at passed
      exact passed message turn isFed (by rw [unmatched]; rfl)
  · intro reached
    constructor
    · intro place route isThere
      rw [fedTo_run router messages place route isThere, during_and_eq_iff]
      intro message turn isFed isDue
      exact (reached message turn isFed).1 place route isThere isDue
    · intro isGiven
      rw [passed_run router messages isGiven, during_and_eq_iff]
      intro message turn isFed unmatched
      exact (reached message turn isFed).2 isGiven (by simpa using unmatched)

/-- Exactly the exceptions of receivers without a predicate stand between the routes. -/
theorem independent_iff (router : Router ε Message) (messages : List Message) :
    router.Independent messages ↔ router.Harmless messages := by
  rw [independent_iff_reached]
  constructor
  · intro reached message turn isFed before route after split escapes
    obtain ⟨due, passing⟩ := reached message turn isFed
    constructor
    · intro later isLater
      -- a later route that is due would need the loop to have got there
      obtain ⟨between, rest, splitAfter⟩ := List.append_of_mem isLater
      have whole : router.routes = (before ++ route :: between) ++ later :: rest := by
        rw [split, splitAfter, List.append_assoc, List.cons_append]
      have isThere : router.routes[(before ++ route :: between).length]? = some later := by
        rw [whole, List.getElem?_append_right (Nat.le_refl _), Nat.sub_self]
        rfl
      have stops := not_reachesEnd_iff.mpr ⟨before, route, between, rfl, escapes⟩
      refine Bool.eq_false_iff.mpr fun isDue => stops ?_
      have reaches := due _ later isThere isDue
      rwa [whole, List.take_left] at reaches
    · intro isGiven
      have stops := not_reachesEnd_iff.mpr ⟨before, route, after, split, escapes⟩
      by_contra unmatched
      exact stops (passing isGiven (Bool.eq_false_iff.mpr unmatched))
  · intro harmless message turn isFed
    constructor
    · intro place route isThere isDue
      by_contra stopped
      obtain ⟨before, earlier, between, split, escapes⟩ := not_reachesEnd_iff.mp stopped
      obtain ⟨inside, here⟩ := List.getElem?_eq_some_iff.mp isThere
      have whole : router.routes =
          before ++ earlier :: (between ++ route :: router.routes.drop (place + 1)) := by
        rw [← List.cons_append, ← List.append_assoc, ← split, ← here,
          ← List.drop_eq_getElem_cons inside, List.take_append_drop]
      have notDue := (harmless message turn isFed before earlier _ whole escapes).1 route (by simp)
      rw [isDue] at notDue
      cases notDue
    · intro isGiven unmatched
      by_contra stopped
      obtain ⟨before, route, after, split, escapes⟩ := not_reachesEnd_iff.mp stopped
      have isMatched := (harmless message turn isFed before route after split escapes).2 isGiven
      rw [unmatched] at isMatched
      cases isMatched

/-- A receiver without a predicate that raises on its message, and one behind it. -/
def brokenRouter : Router String String where
  routes := [{ receiver := fun _ _ => .error "broken" }, { receiver := fun _ _ => .ok () }]

/-- The second receiver is fed nothing. -/
theorem not_independent : ¬ brokenRouter.Independent ["test"] := by
  intro independent
  have fed := independent.fed 1 _ rfl
  revert fed
  decide

end Router

end EmbeddedBridge.Python
