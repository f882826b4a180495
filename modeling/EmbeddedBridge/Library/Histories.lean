import Mathlib.Data.List.Induction

/-! # Properties of a call after its history

`Everywhere property calls` says the property of every call of a run, given the calls
before it.  Two such properties, of what an object does and of how it is used, are the
same for every run if they are the same of one call as long as an invariant holds
(`everywhere_iff`).

`Since holds calls past recent` cuts a run after the last history of which something
holds.
-/

namespace EmbeddedBridge.Library.Histories

variable {α : Type*} {property condition : List α → α → Prop}

def Everywhere (property : List α → α → Prop) (calls : List α) : Prop :=
  ∀ before call after, calls = before ++ call :: after → property before call

theorem everywhere_nil : Everywhere property [] := by
  intro before call after split
  exact absurd split (by simp)

theorem everywhere_snoc {calls : List α} {last : α} :
    Everywhere property (calls ++ [last]) ↔ Everywhere property calls ∧ property calls last := by
  constructor
  · intro everywhere
    refine ⟨fun before call after split => ?_, everywhere calls last [] rfl⟩
    exact everywhere before call (after ++ [last]) (by simp [split])
  · intro holds before call after split
    cases List.eq_nil_or_concat after with
    | inl none =>
      rw [none] at split
      obtain ⟨same, this⟩ := List.append_inj' split rfl
      cases this
      exact same ▸ holds.2
    | inr some =>
      obtain ⟨init, final, rfl⟩ := some
      rw [List.concat_eq_append, ← List.cons_append, ← List.append_assoc] at split
      exact holds.1 before call init (List.append_inj' split rfl).1

theorem everywhere_cons {first : α} {calls : List α} :
    Everywhere property (first :: calls) ↔
      property [] first ∧ Everywhere (fun before => property (first :: before)) calls := by
  constructor
  · intro everywhere
    refine ⟨everywhere [] first calls rfl, fun before call after split => ?_⟩
    exact everywhere (first :: before) call after (by rw [split, List.cons_append])
  · intro holds before call after split
    cases before with
    | nil =>
      cases split
      exact holds.1
    | cons first' before =>
      cases split
      exact holds.2 before call after rfl

theorem everywhere_of_append {calls after : List α} (everywhere : Everywhere property (calls ++ after)) :
    Everywhere property calls := by
  intro before call between split
  exact everywhere before call (between ++ after) (by simp [split])

theorem everywhere_congr (same : ∀ before call, property before call ↔ condition before call)
    (calls : List α) : Everywhere property calls ↔ Everywhere condition calls := by
  simp only [Everywhere, same]

/-- What the condition keeps up, along any run that meets it. -/
theorem invariant_of_everywhere {invariant : List α → Prop} (start : invariant [])
    (step : ∀ calls call, invariant calls → condition calls call → invariant (calls ++ [call]))
    {calls : List α} (everywhere : Everywhere condition calls) : invariant calls := by
  induction calls using List.reverseRecOn with
  | nil => exact start
  | append_singleton calls last inductionHypothesis =>
    obtain ⟨before, now⟩ := everywhere_snoc.mp everywhere
    exact step calls last (inductionHypothesis before) now

theorem everywhere_iff (invariant : List α → Prop) (start : invariant [])
    (step : ∀ calls call, invariant calls → condition calls call → invariant (calls ++ [call]))
    (same : ∀ calls call, invariant calls → (property calls call ↔ condition calls call))
    (calls : List α) : Everywhere property calls ↔ Everywhere condition calls := by
  induction calls using List.reverseRecOn with
  | nil => exact iff_of_true everywhere_nil everywhere_nil
  | append_singleton calls last inductionHypothesis =>
    rw [everywhere_snoc, everywhere_snoc, inductionHypothesis]
    constructor
    · intro holds
      exact ⟨holds.1, (same calls last (invariant_of_everywhere start step holds.1)).mp holds.2⟩
    · intro holds
      exact ⟨holds.1, (same calls last (invariant_of_everywhere start step holds.1)).mpr holds.2⟩

/-! ## Since something held -/

/-- It holds after `past`, and no longer after any of the recent calls. -/
structure Since (holds : List α → Prop) (calls past recent : List α) : Prop where
  split : calls = past ++ recent
  held : holds past
  lost : ∀ part, part <+: recent → part ≠ [] → ¬ holds (past ++ part)

section

variable {holds : List α → Prop} {calls past recent : List α}

theorem since_now (now : holds calls) : Since holds calls calls [] where
  split := (List.append_nil calls).symm
  held := now
  lost _ inside nonempty := absurd (List.prefix_nil.mp inside) nonempty

theorem since_snoc (since : Since holds calls past recent) {call : α}
    (lost : ¬ holds (calls ++ [call])) : Since holds (calls ++ [call]) past (recent ++ [call]) where
  split := by rw [since.split, List.append_assoc]
  held := since.held
  lost part inside nonempty := by
    cases List.prefix_concat_iff.mp inside with
    | inl whole => rwa [whole, ← List.append_assoc, ← since.split]
    | inr earlier => exact since.lost part earlier nonempty

theorem since_unique (since : Since holds calls past recent) {past' recent' : List α}
    (since' : Since holds calls past' recent') : past = past' ∧ recent = recent' := by
  have whole := since.split.symm.trans since'.split
  cases List.append_eq_append_iff.mp whole with
  | inl longer =>
    obtain ⟨part, rfl, rfl⟩ := longer
    have none : part = [] := by
      by_contra nonempty
      exact since.lost part (List.prefix_append part recent') nonempty since'.held
    rw [none]
    exact ⟨(List.append_nil past).symm, rfl⟩
  | inr shorter =>
    obtain ⟨part, rfl, rfl⟩ := shorter
    have none : part = [] := by
      by_contra nonempty
      exact since'.lost part (List.prefix_append part recent) nonempty since.held
    rw [none]
    exact ⟨List.append_nil past', rfl⟩

end

end EmbeddedBridge.Library.Histories
