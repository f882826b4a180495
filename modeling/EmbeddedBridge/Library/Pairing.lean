import Mathlib.Data.List.Basic

/-! # Pairing openers with closers

Items have a key, and either open it or close it.  A pair is an opener with the next
item of its key, if that is a closer.  Whoever goes through the items can keep, for
every key, the opener that is `Open`, and add a pair for each closer that finds one;
`pairsOf_closes` and `pairsOf_silent` are the steps of that.
-/

namespace EmbeddedBridge.Library.Pairing

variable {α κ : Type*} (key : α → κ) (opens : α → Prop)

/-- The last item of the key, when it is an opener. -/
def Open (items : List α) (k : κ) (i : Nat) : Prop :=
  (∃ item, items[i]? = some item ∧ key item = k ∧ opens item) ∧
    ∀ later item, i < later → items[later]? = some item → key item ≠ k

/-- An opener and a closer of its key with no item of that key between them. -/
def Paired (items : List α) (i j : Nat) : Prop :=
  ∃ opener closer, items[i]? = some opener ∧ items[j]? = some closer ∧
    key opener = key closer ∧ opens opener ∧ ¬ opens closer ∧ i < j ∧
    ∀ between item, i < between → between < j → items[between]? = some item →
      key item ≠ key closer

/-- The pairs of a list, in the order of their closers. -/
structure PairsOf (items : List α) (pairs : List (Nat × Nat)) : Prop where
  ordered : pairs.Pairwise fun pair later => pair.2 < later.2
  exact : ∀ i j, (i, j) ∈ pairs ↔ Paired key opens items i j

variable {key : α → κ} {opens : α → Prop} {items : List α} {x : α}

theorem get_lt {i : Nat} {item : α} (found : items[i]? = some item) : i < items.length :=
  (List.getElem?_eq_some_iff.mp found).1

theorem get_snoc {i : Nat} {item : α} :
    (items ++ [x])[i]? = some item ↔ items[i]? = some item ∨ i = items.length ∧ x = item := by
  by_cases inside : i < items.length
  · rw [List.getElem?_append_left inside]
    exact ⟨.inl, fun found => found.resolve_right fun now => absurd now.1 (by omega)⟩
  · rw [List.getElem?_append_right (by omega)]
    constructor
    · intro found
      have last := get_lt found
      rw [List.length_singleton] at last
      have here : i = items.length := by omega
      rw [here, Nat.sub_self] at found
      exact .inr ⟨here, Option.some.inj found⟩
    · intro found
      cases found with
      | inl before => exact absurd (get_lt before) inside
      | inr now => rw [now.1, Nat.sub_self, now.2]; rfl

/-! ## What is open -/

theorem open_lt {k : κ} {i : Nat} (opened : Open key opens items k i) : i < items.length := by
  obtain ⟨item, found, _⟩ := opened.1
  exact get_lt found

theorem open_unique {k : κ} {i j : Nat} (one : Open key opens items k i)
    (other : Open key opens items k j) : i = j := by
  obtain ⟨⟨first, foundFirst, keyFirst, _⟩, noneAfter⟩ := one
  obtain ⟨⟨second, foundSecond, keySecond, _⟩, noneAfter'⟩ := other
  by_contra apart
  cases Nat.lt_or_gt_of_ne apart with
  | inl before => exact noneAfter j second before foundSecond keySecond
  | inr behind => exact noneAfter' i first behind foundFirst keyFirst

theorem open_snoc {k : κ} {i : Nat} :
    Open key opens (items ++ [x]) k i ↔
      key x = k ∧ opens x ∧ i = items.length ∨ key x ≠ k ∧ Open key opens items k i := by
  constructor
  · intro opened
    obtain ⟨⟨item, found, hasKey, isOpener⟩, noneAfter⟩ := opened
    cases get_snoc.mp found with
    | inl before =>
      refine .inr ⟨noneAfter items.length x (get_lt before) (get_snoc.mpr (.inr ⟨rfl, rfl⟩)), ?_⟩
      exact ⟨⟨item, before, hasKey, isOpener⟩, fun later other behind found =>
        noneAfter later other behind (get_snoc.mpr (.inl found))⟩
    | inr now =>
      obtain ⟨last, rfl⟩ := now
      exact .inl ⟨hasKey, isOpener, last⟩
  · intro opened
    cases opened with
    | inl now =>
      obtain ⟨hasKey, isOpener, rfl⟩ := now
      refine ⟨⟨x, get_snoc.mpr (.inr ⟨rfl, rfl⟩), hasKey, isOpener⟩, ?_⟩
      intro later item behind found
      have inside := get_lt found
      rw [List.length_append, List.length_singleton] at inside
      omega
    | inr before =>
      obtain ⟨otherKey, ⟨item, found, hasKey, isOpener⟩, noneAfter⟩ := before
      refine ⟨⟨item, get_snoc.mpr (.inl found), hasKey, isOpener⟩, ?_⟩
      intro later other behind found'
      cases get_snoc.mp found' with
      | inl earlier => exact noneAfter later other behind earlier
      | inr now => exact now.2 ▸ otherKey

/-! ## Pairs -/

theorem paired_snoc {i j : Nat} :
    Paired key opens (items ++ [x]) i j ↔
      Paired key opens items i j ∨
        j = items.length ∧ ¬ opens x ∧ Open key opens items (key x) i := by
  constructor
  · intro paired
    obtain ⟨opener, closer, foundOpener, foundCloser, sameKey, isOpener, isCloser, ordered,
      noneBetween⟩ := paired
    have before : items[i]? = some opener := by
      cases get_snoc.mp foundOpener with
      | inl before => exact before
      | inr last =>
        have inside := get_lt foundCloser
        rw [List.length_append, List.length_singleton] at inside
        omega
    cases get_snoc.mp foundCloser with
    | inl beforeToo =>
      exact .inl ⟨opener, closer, before, beforeToo, sameKey, isOpener, isCloser, ordered,
        fun between item after ahead found =>
          noneBetween between item after ahead (get_snoc.mpr (.inl found))⟩
    | inr now =>
      obtain ⟨rfl, rfl⟩ := now
      exact .inr ⟨rfl, isCloser, ⟨opener, before, sameKey, isOpener⟩, fun later item after found =>
        noneBetween later item after (get_lt found) (get_snoc.mpr (.inl found))⟩
  · intro paired
    cases paired with
    | inl before =>
      obtain ⟨opener, closer, foundOpener, foundCloser, sameKey, isOpener, isCloser, ordered,
        noneBetween⟩ := before
      refine ⟨opener, closer, get_snoc.mpr (.inl foundOpener), get_snoc.mpr (.inl foundCloser),
        sameKey, isOpener, isCloser, ordered, fun between item after ahead found => ?_⟩
      cases get_snoc.mp found with
      | inl earlier => exact noneBetween between item after ahead earlier
      | inr last => exact absurd (get_lt foundCloser) (by omega)
    | inr now =>
      obtain ⟨rfl, isCloser, opened⟩ := now
      have ordered := open_lt opened
      obtain ⟨⟨opener, found, sameKey, isOpener⟩, noneAfter⟩ := opened
      refine ⟨opener, x, get_snoc.mpr (.inl found), get_snoc.mpr (.inr ⟨rfl, rfl⟩), sameKey,
        isOpener, isCloser, ordered, fun between item after ahead found' => ?_⟩
      cases get_snoc.mp found' with
      | inl earlier => exact noneAfter between item after earlier
      | inr last => omega

theorem paired_lt {i j : Nat} (paired : Paired key opens items i j) : j < items.length := by
  obtain ⟨_, _, _, found, _⟩ := paired
  exact get_lt found

theorem PairsOf.bounds {pairs : List (Nat × Nat)} (are : PairsOf key opens items pairs)
    {pair : Nat × Nat} (member : pair ∈ pairs) :
    pair.1 < items.length ∧ pair.2 < items.length := by
  have paired := (are.exact pair.1 pair.2).mp member
  have last := paired_lt paired
  obtain ⟨_, _, _, _, _, _, _, ordered, _⟩ := paired
  exact ⟨Nat.lt_trans ordered last, last⟩

/-- An item is in one pair only. -/
theorem paired_unique {i j i' j' k : Nat} (one : Paired key opens items i j)
    (other : Paired key opens items i' j') (inOne : k = i ∨ k = j) (inOther : k = i' ∨ k = j') :
    i = i' ∧ j = j' := by
  obtain ⟨opener, closer, foundOpener, foundCloser, sameKey, isOpener, isCloser, ordered,
    noneBetween⟩ := one
  obtain ⟨opener', closer', foundOpener', foundCloser', sameKey', isOpener', isCloser', ordered',
    noneBetween'⟩ := other
  cases inOne with
  | inl atOpener =>
    cases atOpener
    cases inOther with
    | inr atCloser =>
      cases atCloser
      cases foundOpener.symm.trans foundCloser'
      exact absurd isOpener isCloser'
    | inl atOpener =>
      cases atOpener
      cases foundOpener.symm.trans foundOpener'
      refine ⟨rfl, ?_⟩
      by_contra apart
      cases Nat.lt_or_gt_of_ne apart with
      | inl before =>
        exact noneBetween' j closer ordered before foundCloser (sameKey.symm.trans sameKey')
      | inr behind =>
        exact noneBetween j' closer' ordered' behind foundCloser' (sameKey'.symm.trans sameKey)
  | inr atCloser =>
    cases atCloser
    cases inOther with
    | inl atOpener =>
      cases atOpener
      cases foundCloser.symm.trans foundOpener'
      exact absurd isOpener' isCloser
    | inr atCloser =>
      cases atCloser
      cases foundCloser.symm.trans foundCloser'
      refine ⟨?_, rfl⟩
      by_contra apart
      cases Nat.lt_or_gt_of_ne apart with
      | inl before => exact noneBetween i' opener' before ordered' foundOpener' sameKey'
      | inr behind => exact noneBetween' i opener behind ordered foundOpener sameKey

theorem pairsOf_nil : PairsOf key opens [] [] := by
  refine ⟨.nil, fun i j => iff_of_false List.not_mem_nil fun paired => ?_⟩
  exact absurd (paired_lt paired) (Nat.not_lt_zero j)

/-- A closer whose key is open adds a pair. -/
theorem pairsOf_closes {pairs : List (Nat × Nat)} {i : Nat} (are : PairsOf key opens items pairs)
    (closes : ¬ opens x) (opened : Open key opens items (key x) i) :
    PairsOf key opens (items ++ [x]) (pairs ++ [(i, items.length)]) := by
  constructor
  · refine List.pairwise_append.mpr ⟨are.ordered, List.pairwise_singleton _ _, ?_⟩
    intro pair member last isLast
    rw [List.mem_singleton.mp isLast]
    exact paired_lt ((are.exact pair.1 pair.2).mp member)
  · intro j k
    rw [List.mem_append, List.mem_singleton, are.exact, paired_snoc, Prod.mk.injEq]
    constructor
    · intro member
      cases member with
      | inl before => exact .inl before
      | inr last => exact .inr ⟨last.2, closes, last.1 ▸ opened⟩
    · intro paired
      cases paired with
      | inl before => exact .inl before
      | inr now => exact .inr ⟨open_unique now.2.2 opened, now.1⟩

/-- Any other item adds none. -/
theorem pairsOf_silent {pairs : List (Nat × Nat)} (are : PairsOf key opens items pairs)
    (silent : opens x ∨ ∀ i, ¬ Open key opens items (key x) i) :
    PairsOf key opens (items ++ [x]) pairs := by
  refine ⟨are.ordered, fun i j => ?_⟩
  rw [are.exact, paired_snoc]
  refine ⟨.inl, fun paired => paired.resolve_right fun now => ?_⟩
  cases silent with
  | inl isOpener => exact now.2.1 isOpener
  | inr closed => exact closed i now.2.2

end EmbeddedBridge.Library.Pairing
