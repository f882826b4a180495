import EmbeddedBridge.Receivers.NestedRouter
import EmbeddedBridge.Verified.Routing

/-! # What gets through routers within routers

A message gets to a receiver if the predicates on its path return true, and if nothing that
raises stands before the path.  A predicate keeps what is raised behind it from getting out;
so how a receiver is connected, and not the receiver itself, says what its exceptions cost
the others (`nested_routing`).
-/

namespace EmbeddedBridge.Python

open Library

variable {ε Message : Type} (turn : Nat) (message : Message)

/-! ## What raises, and what is due -/

/-- The predicate lets the message pass. -/
def lets (predicate : Option (Nat → Message → Except ε Bool)) : Bool :=
  Route.isDue ⟨fun _ _ => .ok (), predicate⟩ turn message

mutual

/-- `feed` raises. -/
def Receiver.raises : Receiver ε Message → Bool
  | .object feed => !(feed turn message).isOk
  | .router routes passthrough =>
    Routes.raises routes ||
      !Routes.isMatched routes && passthrough.any fun passthrough => !(passthrough turn message).isOk

/-- The loop raises: only what is connected without a predicate gets out. -/
def Routes.raises : Routes ε Message → Bool
  | .nil => false
  | .cons predicate receiver routes =>
    predicate.isNone && Receiver.raises receiver || Routes.raises routes

/-- A predicate returns true. -/
def Routes.isMatched : Routes ε Message → Bool
  | .nil => false
  | .cons predicate _ routes =>
    predicate.isSome && lets turn message predicate || Routes.isMatched routes

end

mutual

/-- The receiver at the place is due the message, or the passthrough of the router there. -/
def Receiver.due (kind : NestedDelivery.Kind) : Receiver ε Message → List Nat → Bool
  | .object _, _ => false
  | .router routes passthrough, [] =>
    kind = .passedThrough && passthrough.isSome && !routes.isMatched turn message &&
      !routes.raises turn message
  | .router routes _, index :: place => Routes.due kind routes index place

def Routes.due (kind : NestedDelivery.Kind) : Routes ε Message → Nat → List Nat → Bool
  | .nil, _, _ => false
  | .cons predicate receiver _, 0, place =>
    lets turn message predicate && (kind = .fed && place = [] || Receiver.due kind receiver place)
  | .cons predicate receiver routes, index + 1, place =>
    !(predicate.isNone && receiver.raises turn message) && Routes.due kind routes index place

end

mutual

/-- Nothing raises that is connected without a predicate, in any of the routers. -/
def Receiver.calm : Receiver ε Message → Bool
  | .object _ => true
  | .router routes _ => Routes.calm routes

def Routes.calm : Routes ε Message → Bool
  | .nil => true
  | .cons predicate receiver routes =>
    !(predicate.isNone && receiver.raises turn message) && Receiver.calm receiver &&
      Routes.calm routes

end

mutual

/-- The predicates on the path to a place, if there is a receiver. -/
def Receiver.gates : Receiver ε Message → List Nat →
    Option (List (Option (Nat → Message → Except ε Bool)))
  | _, [] => some []
  | .object _, _ :: _ => none
  | .router routes _, index :: place => Routes.gates routes index place

def Routes.gates : Routes ε Message → Nat → List Nat →
    Option (List (Option (Nat → Message → Except ε Bool)))
  | .nil, _, _ => none
  | .cons predicate receiver _, 0, place => (Receiver.gates receiver place).map (predicate :: ·)
  | .cons _ _ routes, index + 1, place => Routes.gates routes index place

end

/-- Without exceptions in the way the predicates alone decide. -/
theorem Routes.due_of_calm (routes : Routes ε Message) (index : Nat) (place : List Nat)
    {gates : List (Option (Nat → Message → Except ε Bool))} (calm : routes.calm turn message = true)
    (isPath : routes.gates index place = some gates) :
    routes.due turn message .fed index place = gates.all (lets turn message) := by
  cases routes with
  | nil => cases isPath
  | cons predicate receiver routes =>
    rw [Routes.calm, Bool.and_eq_true, Bool.and_eq_true] at calm
    obtain ⟨⟨quiet, calmHere⟩, calmLater⟩ := calm
    cases index with
    | zero =>
      rw [Routes.gates, Option.map_eq_some_iff] at isPath
      obtain ⟨rest, isRest, same⟩ := isPath
      rw [Routes.due, ← same, List.all_cons]
      cases place with
      | nil =>
        cases receiver <;> cases isRest <;> simp
      | cons next place =>
        cases receiver with
        | object feed => cases isRest
        | router inner passthrough =>
          have deeper := Routes.due_of_calm inner next place calmHere isRest
          rw [Receiver.due, deeper]
          simp
    | succ index =>
      rw [Routes.due, quiet, Bool.true_and]
      exact Routes.due_of_calm routes index place calmLater isPath

/-! ## One message -/

namespace NestedDelivery

/-- A call as it looks from the router at a place. -/
def within (place : List Nat) (delivery : NestedDelivery Message) : NestedDelivery Message :=
  { delivery with place := place ++ delivery.place }

end NestedDelivery

mutual

/-- The calls made for a message, from the router outwards. -/
def Receiver.calls : Receiver ε Message → List (NestedDelivery Message)
  | .object _ => []
  | .router routes passthrough =>
    Routes.calls 0 routes ++
      if passthrough.isSome && !routes.isMatched turn message && !routes.raises turn message
      then [⟨.passedThrough, [], message⟩] else []

def Routes.calls (index : Nat) : Routes ε Message → List (NestedDelivery Message)
  | .nil => []
  | .cons predicate receiver routes =>
    (if lets turn message predicate then
        ⟨.fed, [index], message⟩ :: (Receiver.calls receiver).map (.within [index]) else []) ++
      if predicate.isNone && receiver.raises turn message then [] else Routes.calls (index + 1) routes

end

namespace Receiver

theorem run_deliver {α : Type} (delivery : NestedDelivery Message) (method : Method ε Message α)
    (log : List (NestedDelivery Message)) :
    Methods.run (deliver delivery method) log = Methods.run method (log ++ [delivery]) := by
  rw [deliver, Methods.run_bind_ok log (Methods.run_modify log _)]

/-- A turn of the loop makes the call if the predicate lets it, and raises only what it raises
if there is no predicate. -/
theorem run_feedRoute (predicate : Option (Nat → Message → Except ε Bool))
    {call : Method ε Message Unit} {log delivered : List (NestedDelivery Message)}
    {outcome : Except ε Unit} (called : Methods.run call log = (outcome, log ++ delivered))
    (matchedPredicate : Bool) :
    ∃ result, Methods.run (feedRoute turn message predicate call matchedPredicate) log =
        (result, log ++ if lets turn message predicate then delivered else []) ∧
      if predicate.isNone && !outcome.isOk then result.isOk = false
      else result = .ok (matchedPredicate || predicate.isSome && lets turn message predicate) := by
  cases predicate with
  | none =>
    have through : lets turn message (none : Option (Nat → Message → Except ε Bool)) = true := rfl
    cases outcome with
    | ok result =>
      refine ⟨.ok matchedPredicate, ?_, ?_⟩
      · simp only [feedRoute, Methods.run_bind, called, Methods.run_pure, through, if_true]
      · simp [Except.isOk, Except.toBool]
    | error error =>
      refine ⟨.error error, ?_, ?_⟩
      · simp only [feedRoute, Methods.run_bind, called, through, if_true]
      · simp [Except.isOk, Except.toBool]
  | some predicate =>
    refine ⟨.ok (matchedPredicate || lets turn message (some predicate)), ?_, by simp⟩
    cases answered : predicate turn message with
    | error error => simp [feedRoute, lets, Route.isDue, Route.isMatch, answered]
    | ok answer =>
      cases answer with
      | false => simp [feedRoute, lets, Route.isDue, Route.isMatch, answered]
      | true =>
        simp only [feedRoute, answered, Methods.run_tryCatch, Methods.run_bind, called]
        cases outcome <;> simp [lets, Route.isDue, Route.isMatch, answered]

mutual

theorem run_feed (receiver : Receiver ε Message) (place : List Nat)
    (log : List (NestedDelivery Message)) :
    ∃ outcome, Methods.run (receiver.feed turn message place) log =
        (outcome, log ++ (receiver.calls turn message).map (.within place)) ∧
      outcome.isOk = !receiver.raises turn message := by
  cases receiver with
  | object feed =>
    refine ⟨feed turn message, ?_, by simp [raises]⟩
    simp only [Receiver.feed, Methods.run_ofExcept, calls, List.map_nil, List.append_nil]
  | router routes passthrough =>
    obtain ⟨outcome, ran, ended⟩ := run_feedRoutes routes place 0 false log
    rw [Receiver.feed, Methods.run_bind, ran]
    cases raised : routes.raises turn message with
    | true =>
      rw [raised, if_pos rfl] at ended
      cases outcome with
      | ok result => cases ended
      | error error => exact ⟨.error error, by simp [calls, raised], by simp [raises, raised]; rfl⟩
    | false =>
      rw [raised, if_neg Bool.false_ne_true] at ended
      rw [ended]
      cases matched : routes.isMatched turn message with
      | true =>
        exact ⟨.ok (), by simp [calls, raised, matched], by simp [raises, raised, matched]; rfl⟩
      | false =>
        cases passthrough with
        | none => exact ⟨.ok (), by simp [calls, passOn], by simp [raises, raised]; rfl⟩
        | some passthrough =>
          refine ⟨passthrough turn message, ?_, by simp [raises, raised, matched]⟩
          simp [calls, raised, matched, passOn, run_deliver, NestedDelivery.within]

theorem run_feedRoutes (routes : Routes ε Message) (place : List Nat) (index : Nat)
    (matchedPredicate : Bool) (log : List (NestedDelivery Message)) :
    ∃ outcome, Methods.run (feedRoutes turn message place index routes matchedPredicate) log =
        (outcome, log ++ (routes.calls turn message index).map (.within place)) ∧
      if routes.raises turn message then outcome.isOk = false
      else outcome = .ok (matchedPredicate || routes.isMatched turn message) := by
  cases routes with
  | nil =>
    refine ⟨.ok matchedPredicate, ?_, by simp [Routes.raises, Routes.isMatched]⟩
    simp [feedRoutes, Routes.calls]
  | cons predicate receiver routes =>
    obtain ⟨fed, ranFed, endedFed⟩ := run_feed receiver (place ++ [index])
      (log ++ [⟨.fed, place ++ [index], message⟩])
    have called : Methods.run (deliver ⟨.fed, place ++ [index], message⟩
        (receiver.feed turn message (place ++ [index]))) log = (fed, log ++
          (⟨.fed, [index], message⟩ ::
            (receiver.calls turn message).map (.within [index])).map (.within place)) := by
      rw [run_deliver, ranFed, List.map_cons, List.map_map, List.append_assoc]
      simp [NestedDelivery.within, Function.comp_def]
    obtain ⟨first, ranFirst, endedFirst⟩ :=
      run_feedRoute turn message predicate called matchedPredicate
    rw [feedRoutes, Methods.run_bind, ranFirst]
    rw [endedFed, Bool.not_not] at endedFirst
    cases escapes : predicate.isNone && receiver.raises turn message with
    | true =>
      rw [escapes, if_pos rfl] at endedFirst
      cases first with
      | ok result => cases endedFirst
      | error error =>
        refine ⟨.error error, ?_, by simp [Routes.raises, escapes]; rfl⟩
        cases through : lets turn message predicate <;> simp [Routes.calls, escapes, through]
    | false =>
      rw [escapes, if_neg Bool.false_ne_true] at endedFirst
      rw [endedFirst]
      obtain ⟨outcome, ranRest, endedRest⟩ := run_feedRoutes routes place (index + 1)
        (matchedPredicate || predicate.isSome && lets turn message predicate) (log ++
          if lets turn message predicate then
            (⟨.fed, [index], message⟩ ::
              (receiver.calls turn message).map (.within [index])).map (.within place) else [])
      refine ⟨outcome, ?_, ?_⟩
      · simp only [ranRest]
        cases through : lets turn message predicate <;> simp [Routes.calls, escapes, through]
      · simpa [Routes.raises, Routes.isMatched, escapes, Bool.or_assoc] using endedRest

end

theorem run_eq (receiver : Receiver ε Message) (messages : List Message) :
    receiver.run messages =
      messages.zipIdx.flatMap fun call => receiver.calls call.2 call.1 := by
  have within_root (calls : List (NestedDelivery Message)) : calls.map (.within []) = calls :=
    List.map_id calls
  have general (calls : List (Message × Nat)) : ∀ log,
      calls.foldl (fun log call => (Methods.run (receiver.feed call.2 call.1 []) log).2) log =
        log ++ calls.flatMap fun call => receiver.calls call.2 call.1 := by
    induction calls with
    | nil => simp
    | cons first calls inductionHypothesis =>
      intro log
      obtain ⟨outcome, ran, _⟩ := run_feed first.2 first.1 receiver [] log
      rw [List.foldl_cons, inductionHypothesis, ran, within_root, List.flatMap_cons,
        List.append_assoc]
  rw [run, general, List.nil_append]

end Receiver

/-! ## One place -/

namespace NestedDelivery

/-- The messages of the calls of a kind at a place. -/
def delivered (kind : Kind) (place : List Nat) (log : List (NestedDelivery Message)) : List Message :=
  (log.filter fun delivery => delivery.kind = kind ∧ delivery.place = place).map (·.message)

variable (kind : Kind) (place : List Nat)

theorem delivered_append (left right : List (NestedDelivery Message)) :
    delivered kind place (left ++ right) = delivered kind place left ++ delivered kind place right := by
  rw [delivered, List.filter_append, List.map_append]
  rfl

theorem delivered_cons (first : NestedDelivery Message) (log : List (NestedDelivery Message)) :
    delivered kind place (first :: log) =
      (if first.kind = kind ∧ first.place = place then [first.message] else []) ++
        delivered kind place log := by
  simp only [delivered, List.filter_cons, decide_eq_true_eq]
  split <;> rfl

/-- The calls of an inner router are at places of its own. -/
theorem delivered_within (index : Nat) (log : List (NestedDelivery Message)) :
    delivered kind [] (log.map (within [index])) = [] ∧
      ∀ other, delivered kind (other :: place) (log.map (within [index])) =
        if other = index then delivered kind place log else [] := by
  induction log with
  | nil => exact ⟨rfl, fun other => by split <;> rfl⟩
  | cons first log inductionHypothesis =>
    constructor
    · rw [List.map_cons, delivered_cons, inductionHypothesis.1]
      simp [within]
    · intro other
      rw [List.map_cons, delivered_cons, inductionHypothesis.2, delivered_cons]
      by_cases same : other = index
      · simp [within, same]
      · have differs : ¬ index = other := fun is => same is.symm
        simp [within, same, differs]

end NestedDelivery

open NestedDelivery

/-- A loop makes no calls at places before its own, nor at the place of its router. -/
theorem Routes.delivered_earlier (kind : Kind) (routes : Routes ε Message) (index : Nat) :
    delivered kind [] (routes.calls turn message index) = [] ∧
      ∀ earlier place, earlier < index →
        delivered kind (earlier :: place) (routes.calls turn message index) = [] := by
  cases routes with
  | nil => exact ⟨rfl, fun _ _ _ => rfl⟩
  | cons predicate receiver routes =>
    have later := Routes.delivered_earlier kind routes (index + 1)
    constructor
    · rw [Routes.calls, delivered_append]
      have inner := (delivered_within kind [] index (receiver.calls turn message)).1
      split <;> split <;> simp [delivered_cons, inner, later.1] <;> rfl
    · intro earlier place before
      have differs : ¬ index = earlier := Nat.ne_of_gt before
      have inner := (delivered_within kind place index (receiver.calls turn message)).2 earlier
      rw [if_neg fun same => differs same.symm] at inner
      have rest := later.2 earlier place (Nat.lt_succ_of_lt before)
      rw [Routes.calls, delivered_append]
      split <;> split <;> simp [delivered_cons, inner, rest, differs] <;> rfl

/-- The feeding of a receiver is the call of the router that it is in. -/
theorem Receiver.due_fed_nil (receiver : Receiver ε Message) :
    receiver.due turn message .fed [] = false := by
  cases receiver <;> simp [Receiver.due]

mutual

theorem Receiver.delivered_calls (kind : Kind) (receiver : Receiver ε Message) (place : List Nat) :
    delivered kind place (receiver.calls turn message) =
      if receiver.due turn message kind place then [message] else [] := by
  cases receiver with
  | object feed => simp [Receiver.calls, Receiver.due, delivered]
  | router routes passthrough =>
    rw [Receiver.calls, delivered_append]
    cases place with
    | nil =>
      rw [(Routes.delivered_earlier turn message kind routes 0).1, Receiver.due]
      cases kind <;> split <;> simp_all [delivered]
    | cons index place =>
      have inside := Routes.delivered_calls kind routes 0 index place
      rw [Nat.zero_add] at inside
      rw [inside, Receiver.due]
      split <;> split <;> simp [delivered]

theorem Routes.delivered_calls (kind : Kind) (routes : Routes ε Message) (index offset : Nat)
    (place : List Nat) :
    delivered kind ((index + offset) :: place) (routes.calls turn message index) =
      if routes.due turn message kind offset place then [message] else [] := by
  cases routes with
  | nil => simp [Routes.calls, Routes.due, delivered]
  | cons predicate receiver routes =>
    rw [Routes.calls, delivered_append]
    cases offset with
    | zero =>
      have inner := (delivered_within kind place index (receiver.calls turn message)).2 index
      rw [if_pos rfl, Receiver.delivered_calls kind receiver place] at inner
      have rest := (Routes.delivered_earlier turn message kind routes (index + 1)).2 index place
        (Nat.lt_succ_self index)
      have rest' : delivered kind (index :: place) (if (predicate.isNone &&
          receiver.raises turn message) = true then [] else routes.calls turn message (index + 1)) =
            [] := by
        split
        · rfl
        · exact rest
      rw [Nat.add_zero, rest', List.append_nil, Routes.due]
      cases through : lets turn message predicate with
      | false => rfl
      | true =>
        rw [if_pos rfl, delivered_cons, inner, Bool.true_and]
        by_cases here : kind = .fed ∧ place = []
        · rw [here.1, here.2, Receiver.due_fed_nil]
          simp
        · have elsewhere : ¬ (Kind.fed = kind ∧ [index] = index :: place) := by
            intro same
            exact here ⟨same.1.symm, (List.cons.inj same.2).2.symm⟩
          have notHere : (decide (kind = .fed) && decide (place = [])) = false := by
            rw [← Bool.decide_and]
            exact decide_eq_false here
          rw [if_neg elsewhere, notHere]
          rfl
    | succ offset =>
      have differs : ¬ index + (offset + 1) = index := by omega
      have inner := (delivered_within kind place index (receiver.calls turn message)).2
        (index + (offset + 1))
      rw [if_neg differs] at inner
      have rest := Routes.delivered_calls kind routes (index + 1) offset place
      rw [Nat.add_right_comm, Nat.add_assoc] at rest
      have inner' : delivered kind ((index + (offset + 1)) :: place)
          (if lets turn message predicate = true then
            ⟨.fed, [index], message⟩ :: (receiver.calls turn message).map (within [index])
          else []) = [] := by
        split
        · rw [delivered_cons, inner]
          simp
        · rfl
      rw [inner', List.nil_append, Routes.due]
      cases escapes : predicate.isNone && receiver.raises turn message with
      | true => rfl
      | false => exact rest

end

/-! ## Over a run -/

theorem delivered_run (kind : Kind) (place : List Nat) (receiver : Receiver ε Message)
    (messages : List Message) :
    delivered kind place (receiver.run messages) =
      Router.during (fun turn message => receiver.due turn message kind place) messages := by
  rw [Receiver.run_eq, Router.during_eq_flatMap]
  induction messages.zipIdx with
  | nil => rfl
  | cons first calls inductionHypothesis =>
    rw [List.flatMap_cons, delivered_append, inductionHypothesis, Receiver.delivered_calls,
      List.flatMap_cons]

/-- A router with no others in it makes the calls that it makes as a tree. -/
theorem calls_ofList (index : Nat) (routes : List (Route ε Message)) :
    (Routes.ofList routes).calls turn message index =
        (Router.callsFrom turn message index routes).map Router.Delivery.nested ∧
      (Routes.ofList routes).raises turn message = !Router.reachesEnd routes turn message ∧
      (Routes.ofList routes).isMatched turn message =
        routes.any fun route => route.isMatch turn message := by
  induction routes generalizing index with
  | nil => exact ⟨rfl, rfl, rfl⟩
  | cons route routes inductionHypothesis =>
    obtain ⟨calls, raises, matched⟩ := inductionHypothesis (index + 1)
    have due : lets turn message route.predicate = route.isDue turn message := rfl
    have escapes : (route.predicate.isNone && (Receiver.object route.receiver).raises turn message) =
        route.escapes turn message := rfl
    refine ⟨?_, ?_, ?_⟩
    · rw [Routes.ofList, Routes.calls, calls, due, escapes, Router.callsFrom, Receiver.calls]
      split <;> split <;> rfl
    · rw [Routes.ofList, Routes.raises, raises, escapes, Router.reachesEnd_cons, Bool.not_and,
        Bool.not_not]
    · rw [Routes.ofList, Routes.isMatched, matched, List.any_cons]
      cases isPredicate : route.predicate <;> simp [lets, Route.isDue, Route.isMatch, isPredicate]

theorem run_toReceiver (router : Router ε Message) (messages : List Message) :
    router.toReceiver.run messages = (router.run messages).map Router.Delivery.nested := by
  rw [Receiver.run_eq, Router.run_eq, List.map_flatMap]
  refine List.flatMap_congr fun call _ => ?_
  obtain ⟨calls, raises, matched⟩ := calls_ofList call.2 call.1 0 router.routes
  rw [Router.toReceiver, Receiver.calls, calls, raises, matched, Bool.not_not, Router.callsFor,
    List.map_append]
  rw [apply_ite (List.map Router.Delivery.nested)]
  rfl

/-- Whatever raises, and in whatever routers: a receiver is fed the messages that it is due, in
order, and a passthrough called with those that it is due.  As long as nothing raises that is
connected without a predicate, a receiver is due what the predicates on its path return true
for, whatever is raised behind the predicates.  A tree of one router makes the calls of that
router. -/
theorem nested_routing (receiver : Receiver ε Message) (messages : List Message) :
    (∀ kind place, delivered kind place (receiver.run messages) =
      Router.during (fun turn message => receiver.due turn message kind place) messages) ∧
    (∀ index place gates, receiver.gates (index :: place) = some gates →
      (∀ message turn, messages[turn]? = some message → receiver.calm turn message = true) →
      delivered .fed (index :: place) (receiver.run messages) =
        Router.during (fun turn message => gates.all (lets turn message)) messages) ∧
    ∀ router : Router ε Message,
      router.toReceiver.run messages = (router.run messages).map Router.Delivery.nested := by
  refine ⟨fun kind place => delivered_run kind place receiver messages, ?_,
    fun router => run_toReceiver router messages⟩
  intro index place gates isPath calm
  rw [delivered_run, Router.during, Router.during]
  refine congrArg (List.map _) (List.filter_congr fun call member => ?_)
  have quiet := calm call.1 call.2 (List.mk_mem_zipIdx_iff_getElem?.mp member)
  cases receiver with
  | object feed => cases isPath
  | router routes passthrough =>
    rw [Receiver.due]
    exact routes.due_of_calm call.2 call.1 index place quiet isPath

/-- A receiver that always raises, behind two predicates. -/
def smallAndEven : Receiver Unit Nat :=
  .router (.cons (some fun _ number => .ok (number % 2 == 0))
    (.router (.cons (some fun _ number => .ok (decide (number < 10)))
      (.object fun _ _ => .error ()) .nil) none) .nil) none

theorem nested_routing_smallAndEven :
    delivered .fed [0, 0] (smallAndEven.run [2, 3, 12, 4]) = [2, 4] :=
  (nested_routing smallAndEven [2, 3, 12, 4]).2.1 0 [0] _ rfl fun _ _ _ => rfl

end EmbeddedBridge.Python
