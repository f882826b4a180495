import EmbeddedBridge.Library.Transducer

/-! # Mailboxes

An object with a mailbox: what it has to say about its input is kept until somebody asks
for it.  However the calls alternate, all of it is handed over once and in order, and
nothing of it outlives a `reset` (`handed_over_recent`).
-/

namespace EmbeddedBridge.Library

variable {σ τ α β : Type*}

/-- `machine` says what there is to say; the object holds a state of it and what has not
been asked for yet. -/
structure Mailbox (σ τ α β : Type*) where
  machine : Transducer.Step τ α β
  start : τ
  feed : σ → α → σ
  drain : σ → σ × List β
  reset : σ → σ
  Valid : σ → Prop
  machineOf : σ → τ
  pending : σ → List β
  valid_feed : ∀ object input, Valid object → Valid (feed object input)
  feed_spec : ∀ object input, Valid object →
    machineOf (feed object input) = (machine (machineOf object) input).1 ∧
      pending (feed object input) = pending object ++ (machine (machineOf object) input).2
  drain_spec : ∀ object, Valid object → Valid (drain object).1 ∧
    machineOf (drain object).1 = machineOf object ∧ pending (drain object).1 = [] ∧
    (drain object).2 = pending object
  reset_spec : ∀ object, Valid object →
    Valid (reset object) ∧ machineOf (reset object) = start ∧ pending (reset object) = []

namespace Mailbox

inductive Call (α : Type*) where
  | feed (input : α)
  | drain
  | reset

def Call.input? : Call α → Option α
  | .feed input => some input
  | .drain => none
  | .reset => none

/-- What is fed in between. -/
def inputs (calls : List (Call α)) : List α := calls.filterMap Call.input?

variable (box : Mailbox σ τ α β)

def call : Transducer.Step σ (Call α) β
  | object, .feed input => (box.feed object input, [])
  | object, .drain => box.drain object
  | object, .reset => (box.reset object, [])

theorem valid_call (object : σ) (one : Call α) (valid : box.Valid object) :
    box.Valid (box.call object one).1 := by
  cases one with
  | feed input => exact box.valid_feed object input valid
  | drain => exact (box.drain_spec object valid).1
  | reset => exact (box.reset_spec object valid).1

theorem valid_run (object : σ) (calls : List (Call α)) (valid : box.Valid object) :
    box.Valid (Transducer.run box.call object calls).1 :=
  Transducer.run_invariant box.call box.Valid box.valid_call object calls valid

/-- Without a reset: what has been asked for, and then what is still there. -/
theorem handed_over (object : σ) (calls : List (Call α)) (valid : box.Valid object)
    (kept : ∀ one ∈ calls, one ≠ .reset) :
    let ran := Transducer.run box.call object calls
    let said := Transducer.run box.machine (box.machineOf object) (inputs calls)
    ran.2 ++ box.pending ran.1 = box.pending object ++ said.2 ∧
      box.machineOf ran.1 = said.1 := by
  induction calls generalizing object with
  | nil => exact ⟨(List.append_nil _).symm, rfl⟩
  | cons one calls inductionHypothesis =>
    have valid' := box.valid_call object one valid
    obtain ⟨handed, machine⟩ :=
      inductionHypothesis _ valid' fun other member => kept other (List.mem_cons_of_mem _ member)
    rw [Transducer.run_cons]
    cases one with
    | feed input =>
      obtain ⟨fed, said⟩ := box.feed_spec object input valid
      simp only [call, fed, said] at handed machine ⊢
      simp only [inputs, List.filterMap_cons, Call.input?, Transducer.run_cons] at handed machine ⊢
      exact ⟨by rw [List.nil_append, handed, List.append_assoc], machine⟩
    | drain =>
      obtain ⟨_, same, empty, all⟩ := box.drain_spec object valid
      simp only [call, same, empty, List.nil_append] at handed machine ⊢
      simp only [inputs, List.filterMap_cons, Call.input?] at handed machine ⊢
      exact ⟨by rw [List.append_assoc, handed, all], machine⟩
    | reset => exact absurd rfl (kept .reset List.mem_cons_self)

/-- The calls since the last reset, or since the start. -/
structure Recent (calls before recent : List (Call α)) : Prop where
  split : calls = before ++ recent
  begun : before = [] ∨ ∃ earlier, before = earlier ++ [.reset]
  kept : ∀ one ∈ recent, one ≠ .reset

/-- From the start, whatever the calls: of what has been fed since the last reset, all has
been asked for since then or is still there; nothing else is. -/
theorem handed_over_recent (object : σ) (valid : box.Valid object)
    (fresh : box.machineOf object = box.start) (empty : box.pending object = [])
    {calls before recent : List (Call α)} (since : Recent calls before recent) :
    let ran := Transducer.run box.call object calls
    let said := Transducer.run box.machine box.start (inputs recent)
    ∃ handed, ran.2 = (Transducer.run box.call object before).2 ++ handed ∧
      handed ++ box.pending ran.1 = said.2 ∧ box.machineOf ran.1 = said.1 := by
  intro ran said
  have renewed : box.Valid (Transducer.run box.call object before).1 ∧
      box.machineOf (Transducer.run box.call object before).1 = box.start ∧
      box.pending (Transducer.run box.call object before).1 = [] := by
    cases since.begun with
    | inl none =>
      rw [none]
      exact ⟨valid, fresh, empty⟩
    | inr some =>
      obtain ⟨earlier, last⟩ := some
      rw [last, Transducer.run_append, Transducer.run_singleton]
      exact box.reset_spec _ (box.valid_run object earlier valid)
  obtain ⟨valid', fresh', empty'⟩ := renewed
  obtain ⟨handed, machine⟩ := box.handed_over _ recent valid' since.kept
  rw [fresh', empty', List.nil_append] at handed
  rw [fresh'] at machine
  have split : ran = _ :=
    (congrArg (Transducer.run box.call object) since.split).trans (Transducer.run_append _ _ _ _)
  rw [split]
  exact ⟨_, rfl, handed, machine⟩

end Mailbox

end EmbeddedBridge.Library
