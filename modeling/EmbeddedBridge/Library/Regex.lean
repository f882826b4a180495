import Mathlib.Data.List.Forall2

/-! # Regular expressions

Patterns with greedy and lazy repetition of a character class, alternatives, optional
parts, assertions about what follows, and numbered groups.  `results` lists how a pattern
matches at the beginning of a text, in the order in which a backtracking matcher tries;
such a matcher finds the first (`match?`), or at the first place where there is one
(`search`), or one after the other (`findAll`).

The character classes and what counts as the end of a text are the caller's.
-/

namespace EmbeddedBridge.Library

inductive Regex (α : Type) where
  | empty
  | one (accepts : α → Bool)
  | many (greedy : Bool) (accepts : α → Bool)
  | seq (first second : Regex α)
  | alt (first second : Regex α)
  | group (index : Nat) (inner : Regex α)
  | followedBy (accepts : List α → Bool)

namespace Regex

variable {α : Type}

/-- The texts of the groups, and the text after the match. -/
structure Match (α : Type) where
  groups : List (Nat × List α) := []
  rest : List α

/-- The text of a group, if it took part in the match. -/
def Match.group (found : Match α) (index : Nat) : Option (List α) :=
  (found.groups.find? fun entry => entry.1 == index).map Prod.snd

/-- What is left after zero, one, two, … characters of a class. -/
def skips (accepts : α → Bool) : List α → List (List α)
  | [] => [[]]
  | c :: text => (c :: text) :: if accepts c then skips accepts text else []

def results : Regex α → List α → List (Match α)
  | .empty, text => [{ rest := text }]
  | .one _, [] => []
  | .one accepts, c :: text => if accepts c then [{ rest := text }] else []
  | .many greedy accepts, text =>
    let rests := if greedy then (skips accepts text).reverse else skips accepts text
    rests.map fun rest => { rest }
  | .seq first second, text =>
    (first.results text).flatMap fun found =>
      (second.results found.rest).map fun next =>
        { groups := found.groups ++ next.groups, rest := next.rest }
  | .alt first second, text => first.results text ++ second.results text
  | .group index inner, text =>
    (inner.results text).map fun found =>
      { groups := (index, text.take (text.length - found.rest.length)) :: found.groups
        rest := found.rest }
  | .followedBy accepts, text => if accepts text then [{ rest := text }] else []

def match? (regex : Regex α) (text : List α) : Option (Match α) := (regex.results text).head?

def search (regex : Regex α) : List α → Option (Match α)
  | [] => regex.match? []
  | c :: text => regex.match? (c :: text) <|> search regex text

/-- The matches of a pattern that matches no empty text; the fuel bounds their number. -/
def findAllFrom (regex : Regex α) : Nat → List α → List (Match α)
  | 0, _ => []
  | fuel + 1, text =>
    match regex.search text with
    | none => []
    | some found => found :: findAllFrom regex fuel found.rest

def findAll (regex : Regex α) (text : List α) : List (Match α) :=
  regex.findAllFrom text.length text

/-! ## Derived forms -/

def plus (greedy : Bool) (accepts : α → Bool) : Regex α :=
  .seq (.one accepts) (.many greedy accepts)

def option (inner : Regex α) : Regex α := .alt inner .empty

/-- One after the other. -/
def all : List (Regex α) → Regex α
  | [] => .empty
  | [last] => last
  | first :: rest => .seq first (all rest)

/-- A character after the other, each of its class. -/
def text (classes : List (α → Bool)) : Regex α := all (classes.map .one)

/-! ## What matches -/

section

variable {text : List α} {found : Match α} {accepts : α → Bool} {first second inner : Regex α}

attribute [local simp] results skips

theorem mem_skips {rest : List α} :
    rest ∈ skips accepts text ↔ ∃ word, text = word ++ rest ∧ ∀ c ∈ word, accepts c = true := by
  induction text with
  | nil =>
    rw [skips, List.mem_singleton]
    constructor
    · intro none
      exact ⟨[], by rw [none, List.append_nil], nofun⟩
    · intro split
      obtain ⟨word, split, _⟩ := split
      exact (List.append_eq_nil_iff.mp split.symm).2
  | cons c text inductionHypothesis =>
    rw [skips, List.mem_cons]
    constructor
    · intro skipped
      cases skipped with
      | inl here => exact ⟨[], here.symm, nofun⟩
      | inr later =>
        split at later
        · rename_i accepted
          obtain ⟨word, split, all⟩ := inductionHypothesis.mp later
          refine ⟨c :: word, by rw [split, List.cons_append], ?_⟩
          exact List.forall_mem_cons.mpr ⟨accepted, all⟩
        · cases later
    · intro split
      obtain ⟨word, split, all⟩ := split
      cases word with
      | nil => exact .inl split.symm
      | cons c' word =>
        cases split
        obtain ⟨accepted, all⟩ := List.forall_mem_cons.mp all
        rw [if_pos accepted]
        exact .inr (inductionHypothesis.mpr ⟨word, rfl, all⟩)

theorem mem_seq : found ∈ (seq first second).results text ↔
    ∃ before ∈ first.results text, ∃ after ∈ second.results before.rest,
      found = { groups := before.groups ++ after.groups, rest := after.rest } := by
  simp [eq_comm]

theorem mem_one : found ∈ (one accepts).results text ↔
    ∃ c, text = c :: found.rest ∧ accepts c = true ∧ found.groups = [] := by
  cases text with
  | nil => exact iff_of_false nofun fun split => nomatch split.choose_spec.1
  | cons c text =>
    rw [results]
    constructor
    · intro member
      split at member
      · rename_i accepted
        rw [List.mem_singleton] at member
        rw [member]
        exact ⟨c, rfl, accepted, rfl⟩
      · cases member
    · intro split
      obtain ⟨c', split, accepted, none⟩ := split
      cases split
      rw [if_pos accepted, List.mem_singleton]
      cases found
      cases none
      rfl

theorem mem_many {greedy : Bool} : found ∈ (many greedy accepts).results text ↔
    ∃ word, text = word ++ found.rest ∧ (∀ c ∈ word, accepts c = true) ∧ found.groups = [] := by
  have skipped : found ∈ (many greedy accepts).results text ↔
      ∃ rest ∈ skips accepts text, { rest } = found := by
    cases greedy <;> simp
  rw [skipped]
  constructor
  · intro skip
    obtain ⟨rest, member, rfl⟩ := skip
    obtain ⟨word, split, all⟩ := mem_skips.mp member
    exact ⟨word, split, all, rfl⟩
  · intro split
    obtain ⟨word, split, all, none⟩ := split
    refine ⟨found.rest, mem_skips.mpr ⟨word, split, all⟩, ?_⟩
    cases found
    cases none
    rfl

theorem mem_plus {greedy : Bool} : found ∈ (plus greedy accepts).results text ↔
    ∃ word, text = word ++ found.rest ∧ word ≠ [] ∧ (∀ c ∈ word, accepts c = true) ∧
      found.groups = [] := by
  simp only [plus, mem_seq, mem_one, mem_many]
  constructor
  · intro both
    obtain ⟨before, ⟨c, split, accepted, none⟩, after, ⟨word, split', all, none'⟩, rfl⟩ := both
    exact ⟨c :: word, by rw [split, split', List.cons_append], List.cons_ne_nil c word,
      List.forall_mem_cons.mpr ⟨accepted, all⟩, by rw [none, none', List.nil_append]⟩
  · intro split
    obtain ⟨word, split, nonempty, all, none⟩ := split
    obtain ⟨c, word, rfl⟩ := List.exists_cons_of_ne_nil nonempty
    obtain ⟨accepted, all⟩ := List.forall_mem_cons.mp all
    refine ⟨{ rest := word ++ found.rest }, ⟨c, split, accepted, rfl⟩, { rest := found.rest },
      ⟨word, rfl, all, rfl⟩, ?_⟩
    cases found
    cases none
    rfl

theorem mem_group {index : Nat} : found ∈ (group index inner).results text ↔
    ∃ matched ∈ inner.results text,
      found = { groups := (index, text.take (text.length - matched.rest.length)) :: matched.groups
                rest := matched.rest } := by
  simp [eq_comm]

/-- The text of a group is what its pattern has taken. -/
theorem taken_eq {word rest : List α} (split : text = word ++ rest) :
    text.take (text.length - rest.length) = word := by
  rw [split, List.length_append, Nat.add_sub_cancel, List.take_left]

theorem mem_option : found ∈ (option inner).results text ↔
    found ∈ inner.results text ∨ found = { rest := text } := by
  simp [option]

theorem mem_followedBy {accepts : List α → Bool} : found ∈ (followedBy accepts).results text ↔
    accepts text = true ∧ found = { rest := text } := by
  cases accepted : accepts text <;> simp [accepted]

theorem results_text_cons (accepts : α → Bool) (classes : List (α → Bool)) (text : List α) :
    (Regex.text (accepts :: classes)).results text =
      (seq (one accepts) (Regex.text classes)).results text := by
  cases classes with
  | nil =>
    change (one accepts).results text = (seq (one accepts) empty).results text
    cases text with
    | nil => rfl
    | cons c text => cases accepted : accepts c <;> simp [accepted]
  | cons next classes => rfl

theorem mem_text {classes : List (α → Bool)} : found ∈ (Regex.text classes).results text ↔
    ∃ word, text = word ++ found.rest ∧
      List.Forall₂ (fun accepts c => accepts c = true) classes word ∧ found.groups = [] := by
  induction classes generalizing text found with
  | nil =>
    change found ∈ [{ rest := text }] ↔ _
    rw [List.mem_singleton]
    constructor
    · intro same
      rw [same]
      exact ⟨[], rfl, .nil, rfl⟩
    · intro split
      obtain ⟨word, split, accepted, none⟩ := split
      cases accepted
      cases found
      cases none
      cases split
      rfl
  | cons accepts classes inductionHypothesis =>
    rw [results_text_cons, mem_seq]
    simp only [mem_one, inductionHypothesis]
    constructor
    · intro both
      obtain ⟨before, ⟨c, split, accepted, none⟩, after, ⟨word, split', all, none'⟩, rfl⟩ := both
      exact ⟨c :: word, by rw [split, split', List.cons_append], .cons accepted all,
        by rw [none, none', List.nil_append]⟩
    · intro split
      obtain ⟨word, split, all, none⟩ := split
      cases all with
      | cons accepted all =>
        rename_i c word
        refine ⟨{ rest := word ++ found.rest }, ⟨c, split, accepted, rfl⟩, { rest := found.rest },
          ⟨word, rfl, all, rfl⟩, ?_⟩
        cases found
        cases none
        rfl

end

/-! ## What matches first -/

/-- The match is among the results, and what the ones before it leave of the text is `passed`. -/
def Reaches (regex : Regex α) (text : List α) (found : Match α) (passed : List α → Prop) : Prop :=
  ∃ before after, regex.results text = before ++ found :: after ∧
    ∀ earlier ∈ before, passed earlier.rest

section

variable {regex first second inner : Regex α} {text word rest : List α} {found later : Match α}
  {accepts : α → Bool} {passed : List α → Prop}

theorem match?_of_reaches (reaches : regex.Reaches text found fun _ => False) :
    regex.match? text = some found := by
  obtain ⟨before, after, split, none⟩ := reaches
  cases before with
  | nil => rw [match?, split, List.nil_append, List.head?_cons]
  | cons earlier before => exact absurd List.mem_cons_self (none earlier)

/-- Where the first pattern's earlier results lead nowhere. -/
theorem Reaches.seq
    (here : first.Reaches text found fun rest => second.results rest = [])
    (there : second.Reaches found.rest later passed) :
    (seq first second).Reaches text
      { groups := found.groups ++ later.groups, rest := later.rest } passed := by
  obtain ⟨before, after, split, earlier⟩ := here
  obtain ⟨before', after', split', earlier'⟩ := there
  let join (one two : Match α) : Match α :=
    { groups := one.groups ++ two.groups, rest := two.rest }
  refine ⟨before.flatMap (fun one => (second.results one.rest).map (join one)) ++
    before'.map (join found), after'.map (join found) ++
    after.flatMap fun one => (second.results one.rest).map (join one), ?_, ?_⟩
  · rw [results, split, List.flatMap_append, List.flatMap_cons, split']
    simp [join]
  · intro joined member
    cases List.mem_append.mp member with
    | inl skipped =>
      -- the second pattern finds nothing after an earlier match of the first
      obtain ⟨one, member', skipped⟩ := List.mem_flatMap.mp skipped
      rw [earlier one member', List.map_nil] at skipped
      cases skipped
    | inr skipped =>
      obtain ⟨two, member', rfl⟩ := List.mem_map.mp skipped
      exact earlier' two member'

theorem Reaches.group (index : Nat) (split : text = word ++ found.rest)
    (reaches : inner.Reaches text found passed) :
    (group index inner).Reaches text
      { groups := (index, word) :: found.groups, rest := found.rest } passed := by
  obtain ⟨before, after, results_eq, earlier⟩ := reaches
  let grouped (matched : Match α) : Match α :=
    { groups := (index, text.take (text.length - matched.rest.length)) :: matched.groups
      rest := matched.rest }
  refine ⟨before.map grouped, after.map grouped, ?_, ?_⟩
  · rw [results, results_eq, List.map_append, List.map_cons, ← taken_eq split]
  · intro matched member
    obtain ⟨matched', member', rfl⟩ := List.mem_map.mp member
    exact earlier matched' member'

/-- The optional part matches. -/
theorem Reaches.option (reaches : inner.Reaches text found passed) :
    (option inner).Reaches text found passed := by
  obtain ⟨before, after, split, earlier⟩ := reaches
  refine ⟨before, after ++ [{ rest := text }], ?_, earlier⟩
  rw [Regex.option, results, split, List.append_assoc, List.cons_append]
  rfl

/-- It is left out, after all its matches. -/
theorem reaches_option_none (fails : ∀ found ∈ inner.results text, passed found.rest) :
    (option inner).Reaches text { rest := text } passed :=
  ⟨inner.results text, [], rfl, fails⟩

theorem reaches_followedBy {accepts : List α → Bool} (accepted : accepts text = true) :
    (followedBy accepts).Reaches text { rest := text } passed :=
  ⟨[], [], by rw [results, if_pos accepted, List.nil_append], nofun⟩

theorem reaches_one {c : α} (accepted : accepts c = true) :
    (one accepts).Reaches (c :: text) { rest := text } passed :=
  ⟨[], [], by rw [results, if_pos accepted, List.nil_append], nofun⟩

theorem reaches_text {classes : List (α → Bool)}
    (accepted : List.Forall₂ (fun accepts c => accepts c = true) classes word) :
    (Regex.text classes).Reaches (word ++ rest) { rest } passed := by
  induction accepted with
  | nil => exact ⟨[], [], rfl, nofun⟩
  | cons accepted all inductionHypothesis =>
    obtain ⟨before, after, split, earlier⟩ :=
      Reaches.seq (reaches_one accepted) inductionHypothesis
    refine ⟨before, after, ?_, earlier⟩
    rw [results_text_cons]
    exact split

/-- Lazily, the earlier results leave a part of the word. -/
theorem reaches_lazy (all : ∀ c ∈ word, accepts c = true)
    (early : ∀ part, part ≠ [] → part <:+ word → passed (part ++ rest)) :
    (many false accepts).Reaches (word ++ rest) { rest } passed := by
  induction word with
  | nil =>
    refine ⟨[], ((skips accepts rest).tail).map fun rest => { rest }, ?_, nofun⟩
    cases rest <;> rfl
  | cons c word inductionHypothesis =>
    obtain ⟨accepted, all⟩ := List.forall_mem_cons.mp all
    obtain ⟨before, after, split, earlier⟩ := inductionHypothesis all fun part nonempty suffix =>
      early part nonempty (suffix.trans (List.suffix_cons c word))
    -- first it takes nothing, then what it takes of the shorter word
    refine ⟨{ rest := c :: (word ++ rest) } :: before, after, ?_, ?_⟩
    · have next : (many false accepts).results (c :: (word ++ rest)) =
          { rest := c :: (word ++ rest) } :: (many false accepts).results (word ++ rest) := by
        simp [results, skips, accepted]
      rw [List.cons_append, next, split, List.cons_append]
    · intro matched member
      cases List.mem_cons.mp member with
      | inl whole =>
        rw [whole]
        exact early (c :: word) (List.cons_ne_nil c word) (List.suffix_refl _)
      | inr part => exact earlier matched part

/-- Greedily, the whole word is taken first. -/
theorem reaches_greedy (all : ∀ c ∈ word, accepts c = true)
    (stops : ∀ c ∈ rest.head?, accepts c = false) :
    (many true accepts).Reaches (word ++ rest) { rest } passed := by
  -- the skips run from the shortest to the longest
  have last : ∃ longer, skips accepts (word ++ rest) = longer ++ [rest] := by
    induction word with
    | nil =>
      cases rest with
      | nil => exact ⟨[], rfl⟩
      | cons c rest =>
        have stopped : accepts c = false := stops c rfl
        exact ⟨[], by simp [skips, stopped]⟩
    | cons c word inductionHypothesis =>
      obtain ⟨accepted, all⟩ := List.forall_mem_cons.mp all
      obtain ⟨longer, split⟩ := inductionHypothesis all
      exact ⟨(c :: (word ++ rest)) :: longer, by simp [skips, accepted, split]⟩
  obtain ⟨longer, split⟩ := last
  exact ⟨[], longer.reverse.map fun rest => { rest }, by simp [results, split], nofun⟩

theorem reaches_plus_lazy (nonempty : word ≠ []) (all : ∀ c ∈ word, accepts c = true)
    (early : ∀ part, part ≠ [] → part <:+ word → passed (part ++ rest)) :
    (plus false accepts).Reaches (word ++ rest) { rest } passed := by
  obtain ⟨c, word, rfl⟩ := List.exists_cons_of_ne_nil nonempty
  obtain ⟨accepted, all⟩ := List.forall_mem_cons.mp all
  refine Reaches.seq (reaches_one accepted) (reaches_lazy all fun part nonempty suffix => ?_)
  exact early part nonempty (suffix.trans (List.suffix_cons c word))

theorem reaches_plus_greedy (nonempty : word ≠ []) (all : ∀ c ∈ word, accepts c = true)
    (stops : ∀ c ∈ rest.head?, accepts c = false) :
    (plus true accepts).Reaches (word ++ rest) { rest } passed := by
  obtain ⟨c, word, rfl⟩ := List.exists_cons_of_ne_nil nonempty
  obtain ⟨accepted, all⟩ := List.forall_mem_cons.mp all
  exact Reaches.seq (reaches_one accepted) (reaches_greedy all stops)

end

end Regex

end EmbeddedBridge.Library
