import EmbeddedBridge.Library.Py.Json

/-! # Dictionaries

A dictionary is a list of entries with distinct keys.  Where the comparison of keys is
exact, the entries are what setting, looking up and removing a key make of them,
whatever their order.
-/

namespace EmbeddedBridge.Library.Py.Json

variable {κ ν : Type} {same : κ → κ → Bool} {key : κ} {value : ν} {fields : List (κ × ν)}

/-- Nothing else compares as the same. -/
def Exact (same : κ → κ → Bool) (key : κ) : Prop := ∀ other, same other key = true ↔ other = key

def Distinct (fields : List (κ × ν)) : Prop := (fields.map Prod.fst).Nodup

theorem getItem_eq_some (exact : Exact same key) (distinct : Distinct fields) :
    getItem same key fields = some value ↔ (key, value) ∈ fields := by
  induction fields with
  | nil => simp [getItem]
  | cons field fields inductionHypothesis =>
    obtain ⟨fresh, distinct'⟩ := List.nodup_cons.mp distinct
    obtain ⟨k, v⟩ := field
    rw [getItem] at inductionHypothesis ⊢
    rw [List.find?_cons]
    by_cases here : k = key
    · subst here
      have found : same k k = true := (exact k).mpr rfl
      have elsewhere : (k, value) ∉ fields := fun member =>
        fresh (List.mem_map.mpr ⟨_, member, rfl⟩)
      simp only [found, Option.map_some, Option.some.injEq, List.mem_cons, Prod.mk.injEq, true_and]
      exact ⟨fun is => .inl is.symm, fun member => (member.resolve_right elsewhere).symm⟩
    · have differs : same k key = false := Bool.eq_false_iff.mpr fun is => here ((exact k).mp is)
      simp only [differs, inductionHypothesis distinct', List.mem_cons, Prod.mk.injEq]
      exact ⟨.inr, fun member => member.resolve_left fun now => here now.1.symm⟩

theorem getItem_setItem_self (exact : Exact same key) :
    getItem same key (setItem same key value fields) = some value := by
  induction fields with
  | nil => simp [setItem, getItem, (exact key).mpr rfl]
  | cons field fields inductionHypothesis =>
    rw [setItem]
    by_cases here : same field.1 key = true
    · simp [getItem, here]
    · rw [getItem] at inductionHypothesis ⊢
      rw [if_neg here, List.find?_cons, Bool.eq_false_iff.mpr here]
      exact inductionHypothesis

theorem getItem_setItem_ne {other : κ} (exact : Exact same key) (exactOther : Exact same other)
    (differs : other ≠ key) :
    getItem same other (setItem same key value fields) = getItem same other fields := by
  have apart {k : κ} (isKey : same k key = true) : same k other = false :=
    Bool.eq_false_iff.mpr fun isOther =>
      differs (((exactOther k).mp isOther).symm.trans ((exact k).mp isKey))
  induction fields with
  | nil => simp [setItem, getItem, apart ((exact key).mpr rfl)]
  | cons field fields inductionHypothesis =>
    rw [setItem]
    rw [getItem, getItem] at inductionHypothesis ⊢
    by_cases here : same field.1 key = true
    · simp [here, apart here]
    · rw [if_neg here, List.find?_cons, List.find?_cons]
      cases same field.1 other with
      | true => rfl
      | false => exact inductionHypothesis

/-- Setting what is there already. -/
theorem setItem_getItem (found : getItem same key fields = some value) :
    setItem same key value fields = fields := by
  induction fields with
  | nil => cases found
  | cons field fields inductionHypothesis =>
    rw [getItem, List.find?_cons] at found
    rw [setItem]
    cases here : same field.1 key with
    | true =>
      rw [here] at found
      cases found
      rfl
    | false =>
      rw [here] at found
      rw [if_neg Bool.false_ne_true, inductionHypothesis found]

/-- Of two settings, the later. -/
theorem setItem_setItem (exact : Exact same key) {first : ν} :
    setItem same key value (setItem same key first fields) = setItem same key value fields := by
  induction fields with
  | nil => simp [setItem, (exact key).mpr rfl]
  | cons field fields inductionHypothesis =>
    by_cases here : same field.1 key = true
    · simp [setItem, here]
    · simp only [setItem, if_neg here, inductionHypothesis]

theorem keys_setItem (exact : Exact same key) :
    (setItem same key value fields).map Prod.fst = fields.map Prod.fst ∨
      key ∉ fields.map Prod.fst ∧
        (setItem same key value fields).map Prod.fst = fields.map Prod.fst ++ [key] := by
  induction fields with
  | nil => exact .inr ⟨List.not_mem_nil, rfl⟩
  | cons field fields inductionHypothesis =>
    rw [setItem]
    by_cases here : same field.1 key = true
    · rw [if_pos here]
      exact .inl rfl
    · rw [if_neg here]
      cases inductionHypothesis with
      | inl kept => exact .inl (by rw [List.map_cons, List.map_cons, kept])
      | inr added =>
        have other : key ≠ field.1 := fun is => here ((exact field.1).mpr is.symm)
        refine .inr ⟨?_, by rw [List.map_cons, List.map_cons, added.2]; rfl⟩
        rw [List.map_cons, List.mem_cons]
        exact fun member => added.1 (member.resolve_left other)

theorem distinct_setItem (exact : Exact same key) (distinct : Distinct fields) :
    Distinct (setItem same key value fields) := by
  rw [Distinct]
  cases keys_setItem exact with
  | inl kept => rw [kept]; exact distinct
  | inr added =>
    rw [added.2]
    exact List.nodup_append.mpr ⟨distinct, List.pairwise_singleton _ key, fun other member last isLast =>
      fun is => added.1 (List.mem_singleton.mp isLast ▸ is ▸ member)⟩

theorem mem_setItem_iff (exact : Exact same key) (distinct : Distinct fields) {entry : κ × ν} :
    entry ∈ setItem same key value fields ↔
      entry = (key, value) ∨ entry.1 ≠ key ∧ entry ∈ fields := by
  induction fields with
  | nil => simp [setItem]
  | cons field fields inductionHypothesis =>
    obtain ⟨fresh, distinct'⟩ := List.nodup_cons.mp distinct
    rw [setItem]
    by_cases here : field.1 = key
    · rw [if_pos ((exact field.1).mpr here), List.mem_cons, List.mem_cons, here]
      rw [here] at fresh
      constructor
      · intro member
        cases member with
        | inl now => exact .inl now
        | inr other =>
          exact .inr ⟨fun same => fresh (same ▸ List.mem_map_of_mem other), .inr other⟩
      · intro member
        cases member with
        | inl now => exact .inl now
        | inr other =>
          refine .inr (other.2.resolve_left fun is => other.1 ?_)
          rw [is, here]
    · rw [if_neg fun is => here ((exact field.1).mp is), List.mem_cons, List.mem_cons,
        inductionHypothesis distinct']
      constructor
      · intro member
        cases member with
        | inl first => exact .inr ⟨first ▸ here, .inl first⟩
        | inr rest =>
          cases rest with
          | inl now => exact .inl now
          | inr other => exact .inr ⟨other.1, .inr other.2⟩
      · intro member
        cases member with
        | inl now => exact .inr (.inl now)
        | inr other =>
          cases other.2 with
          | inl first => exact .inl first
          | inr rest => exact .inr (.inr ⟨other.1, rest⟩)

/-- `dict.pop` -/
theorem mem_pop_iff (exact : Exact same key) (distinct : Distinct fields) {entry : κ × ν} :
    entry ∈ fields.eraseP (fun field => same field.1 key) ↔ entry.1 ≠ key ∧ entry ∈ fields := by
  induction fields with
  | nil => simp
  | cons field fields inductionHypothesis =>
    obtain ⟨fresh, distinct'⟩ := List.nodup_cons.mp distinct
    by_cases here : field.1 = key
    · have found : same field.1 key = true := (exact field.1).mpr here
      rw [List.eraseP_cons, found, List.mem_cons]
      rw [here] at fresh
      simp only [cond_true]
      constructor
      · exact fun member => ⟨fun same => fresh (same ▸ List.mem_map_of_mem member), .inr member⟩
      · exact fun member => member.2.resolve_left fun is => member.1 (is ▸ here)
    · have differs : same field.1 key = false :=
        Bool.eq_false_iff.mpr fun is => here ((exact field.1).mp is)
      rw [List.eraseP_cons, differs]
      simp only [cond_false, List.mem_cons, inductionHypothesis distinct']
      constructor
      · intro member
        cases member with
        | inl first => exact ⟨first ▸ here, .inl first⟩
        | inr rest => exact ⟨rest.1, .inr rest.2⟩
      · intro member
        cases member.2 with
        | inl first => exact .inl first
        | inr rest => exact .inr ⟨member.1, rest⟩

theorem distinct_pop (distinct : Distinct fields) :
    Distinct (fields.eraseP fun field => same field.1 key) :=
  distinct.sublist (List.eraseP_sublist.map Prod.fst)

end EmbeddedBridge.Library.Py.Json
