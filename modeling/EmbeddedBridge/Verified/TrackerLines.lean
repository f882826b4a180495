import EmbeddedBridge.Verified.MemorySurvival

/-! # Lines with a checksum

How the parser takes a line apart that ends with a blank, `*` and two hexadecimal digits:
which text comes before them, which tag it has, and which payload.
-/

namespace EmbeddedBridge.Python.MemoryTracker

open Library Py Regex

/-! ## The patterns -/

def trailer (high low : Nat) : Str := [0x20, 0x2A, high, low]

/-- `\s+(.*?)` -/
def payloadRe (greedy : Bool) : Regex Nat :=
  .seq (.plus true isSpace) (.group 2 (.many greedy notNewline))

/-- `\s+\*([0-9A-Fa-f]{2})$` -/
def checkRe : Regex Nat :=
  .all [.plus true isSpace, literal (str "*"), .group 3 (.text [isHex, isHex]), .followedBy atEnd]

/-- `(\S+?)` -/
def tagRe : Regex Nat := .group 1 (.plus false notSpace)

section

variable {linePrefix word text rest : Str} {found : Match Nat} {passed : Str → Prop}

theorem lineRe_eq : lineRe linePrefix =
    .seq (literal linePrefix) (.seq tagRe (.seq (.option (payloadRe false)) checkRe)) := rfl

theorem lineNoCrcRe_eq : lineNoCrcRe linePrefix =
    .seq (literal linePrefix) (.seq tagRe (.seq (.option (payloadRe true)) (.followedBy atEnd))) :=
  rfl

theorem accepted_literal : List.Forall₂ (fun accepts c => accepts c = true)
    (word.map fun letter c => c == letter) text ↔ text = word := by
  induction word generalizing text with
  | nil => simp
  | cons letter word inductionHypothesis =>
    cases text with
    | nil => simp
    | cons c text => simp [inductionHypothesis]

theorem mem_literal : found ∈ (literal word).results text ↔
    text = word ++ found.rest ∧ found.groups = [] := by
  simp only [literal, mem_text, accepted_literal]
  constructor
  · intro split
    obtain ⟨word', split, rfl, none⟩ := split
    exact ⟨split, none⟩
  · intro split
    exact ⟨word, split.1, rfl, split.2⟩

theorem reaches_literal : (literal word).Reaches (word ++ rest) { rest } passed :=
  reaches_text (accepted_literal.mpr rfl)

theorem mem_tagRe : found ∈ tagRe.results text ↔
    ∃ tag, text = tag ++ found.rest ∧ tag ≠ [] ∧ (∀ c ∈ tag, notSpace c = true) ∧
      found.groups = [(1, tag)] := by
  simp only [tagRe, mem_group, mem_plus]
  constructor
  · intro grouped
    obtain ⟨matched, ⟨tag, split, nonempty, all, none⟩, rfl⟩ := grouped
    exact ⟨tag, split, nonempty, all, by rw [taken_eq split, none]⟩
  · intro split
    obtain ⟨tag, split, nonempty, all, groups⟩ := split
    refine ⟨{ rest := found.rest }, ⟨tag, split, nonempty, all, rfl⟩, ?_⟩
    rw [taken_eq split]
    cases found
    cases groups
    rfl

theorem mem_payloadRe {greedy : Bool} : found ∈ (payloadRe greedy).results text ↔
    ∃ spaces payload, text = spaces ++ (payload ++ found.rest) ∧ spaces ≠ [] ∧
      (∀ c ∈ spaces, isSpace c = true) ∧ (∀ c ∈ payload, notNewline c = true) ∧
      found.groups = [(2, payload)] := by
  simp only [payloadRe, mem_seq, mem_group, mem_plus, mem_many]
  constructor
  · intro both
    obtain ⟨before, ⟨spaces, split, nonempty, all, none⟩, _,
      ⟨matched, ⟨payload, split', all', none'⟩, rfl⟩, rfl⟩ := both
    refine ⟨spaces, payload, ?_, nonempty, all, all', ?_⟩
    · rw [split, split']
    · rw [none, none', taken_eq split', List.nil_append]
  · intro split
    obtain ⟨spaces, payload, split, nonempty, all, all', groups⟩ := split
    refine ⟨{ rest := payload ++ found.rest }, ⟨spaces, split, nonempty, all, rfl⟩, found,
      ⟨{ rest := found.rest }, ⟨payload, rfl, all', rfl⟩, ?_⟩, rfl⟩
    rw [taken_eq rfl]
    cases found
    cases groups
    rfl

theorem mem_checkRe : found ∈ checkRe.results text ↔
    ∃ spaces high low, text = spaces ++ 0x2A :: high :: low :: found.rest ∧ spaces ≠ [] ∧
      (∀ c ∈ spaces, isSpace c = true) ∧ isHex high = true ∧ isHex low = true ∧
      atEnd found.rest = true ∧ found.groups = [(3, [high, low])] := by
  simp only [checkRe, Regex.all, mem_seq, mem_plus, mem_literal, mem_group, mem_text,
    mem_followedBy]
  constructor
  · intro chain
    obtain ⟨before, ⟨spaces, split, nonempty, all, none⟩, _, ⟨star, ⟨split', none'⟩, _,
      ⟨_, ⟨matched, ⟨word, split'', hex, none''⟩, rfl⟩, _, ⟨ended, rfl⟩, rfl⟩, rfl⟩, rfl⟩ := chain
    cases hex with
    | cons isHigh hex =>
      cases hex with
      | cons isLow hex =>
        cases hex
        rename_i high low
        refine ⟨spaces, high, low, ?_, nonempty, all, isHigh, isLow, ended, ?_⟩
        · rw [split, split', split'']
          rfl
        · rw [none, none', none'', taken_eq split'']
          rfl
  · intro split
    obtain ⟨spaces, high, low, split, nonempty, all, isHigh, isLow, ended, groups⟩ := split
    refine ⟨{ rest := 0x2A :: high :: low :: found.rest }, ⟨spaces, split, nonempty, all, rfl⟩,
      found, ⟨{ rest := high :: low :: found.rest }, ⟨rfl, rfl⟩, found, ⟨found,
        ⟨{ rest := found.rest }, ⟨[high, low], rfl, ?_, rfl⟩, ?_⟩, { rest := found.rest },
        ⟨ended, rfl⟩, ?_⟩, rfl⟩, rfl⟩
    · exact .cons isHigh (.cons isLow .nil)
    · have taken : (high :: low :: found.rest).take
          ((high :: low :: found.rest).length - found.rest.length) = [high, low] := taken_eq rfl
      rw [taken]
      cases found
      cases groups
      rfl
    · rw [List.append_nil]

end

/-! ## Texts that end with a checksum -/

section

variable {linePrefix tag text : Str} {high low : Nat} {found : Match Nat}

theorem isHex_not_space {c : Nat} (hex : isHex c = true) : isSpace c = false ∧ c ≠ 0x0A := by
  have ascii : ∀ c < 0x67, isHex c = true → isSpace c = false ∧ c ≠ 0x0A := by decide
  refine ascii c ?_ hex
  simp only [isHex, Bool.or_eq_true, Bool.and_eq_true, decide_eq_true_eq] at hex
  omega

/-- No newline follows the digits. -/
theorem rest_of_trailer {front rest : Str} (isLow : isHex low = true) (ended : atEnd rest = true)
    (same : front ++ rest = text ++ trailer high low) : rest = [] := by
  simp only [atEnd, Bool.or_eq_true, beq_iff_eq] at ended
  cases ended with
  | inl none => exact none
  | inr newline =>
    have last := congrArg List.getLast? same
    simp [newline, trailer] at last
    exact absurd last.symm (isHex_not_space isLow).2

/-- The blank before the asterisk is the last of the spaces. -/
theorem eq_of_trailer {spaces rest : Str} {high' low' : Nat} (isLow : isHex low = true)
    (ended : atEnd rest = true)
    (same : spaces ++ 0x2A :: high' :: low' :: rest = text ++ trailer high low) :
    spaces = text ++ [0x20] ∧ high' = high ∧ low' = low ∧ rest = [] := by
  have front : (spaces ++ [0x2A, high', low']) ++ rest = text ++ trailer high low := by
    rw [← same, List.append_assoc]
    rfl
  have none := rest_of_trailer isLow ended front
  have same' : spaces ++ [0x2A, high', low'] = (text ++ [0x20]) ++ [0x2A, high, low] := by
    rw [none, List.append_nil] at front
    rw [front, List.append_assoc]
    rfl
  obtain ⟨isSpaces, digits⟩ := List.append_inj' same' rfl
  cases digits
  exact ⟨isSpaces, rfl, rfl, none⟩

theorem checkRe_trailer (isHigh : isHex high = true) (isLow : isHex low = true)
    {passed : Str → Prop} :
    checkRe.Reaches (trailer high low) { groups := [(3, [high, low])], rest := [] } passed := by
  have star : isSpace 0x2A = false := rfl
  have digits : List.Forall₂ (fun accepts c => accepts c = true) [isHex, isHex] [high, low] :=
    .cons isHigh (.cons isLow .nil)
  have blank {passed : Str → Prop} : (plus true isSpace).Reaches ([0x20] ++ [0x2A, high, low])
      { rest := [0x2A, high, low] } passed :=
    reaches_plus_greedy (by simp) (by simp [isSpace]) (by simp [star])
  have asterisk {passed : Str → Prop} : (literal (str "*")).Reaches (str "*" ++ [high, low])
      { rest := [high, low] } passed := reaches_literal
  have pair {passed : Str → Prop} :
      (Regex.group 3 (.text [isHex, isHex])).Reaches ([high, low] ++ [])
        { groups := [(3, [high, low])], rest := [] } passed := by
    have word : (Regex.text [isHex, isHex]).Reaches ([high, low] ++ []) { rest := [] } passed :=
      reaches_text digits
    refine Reaches.group 3 ?_ word
    rfl
  exact blank.seq (asterisk.seq (pair.seq (reaches_followedBy rfl)))

/-- The text before the trailer has to end with its spaces. -/
theorem checkRe_text (isLow : isHex low = true) (nonempty : text ≠ [])
    (trimmed : ∀ c ∈ text.getLast?, isSpace c = false) :
    checkRe.results (text ++ trailer high low) = [] := by
  rw [List.eq_nil_iff_forall_not_mem]
  intro found member
  obtain ⟨spaces, high', low', same, _, all, _, _, ended, _⟩ := mem_checkRe.mp member
  obtain ⟨isSpaces, _⟩ := eq_of_trailer isLow ended same.symm
  have last := List.getLast?_eq_some_getLast nonempty
  have space := all (text.getLast nonempty) (by rw [isSpaces]; simp)
  rw [trimmed _ last] at space
  cases space

/-- Nothing that begins with another character is optional. -/
theorem checkRe_start {c : Nat} (visible : isSpace c = false) :
    checkRe.results (c :: text) = [] := by
  rw [List.eq_nil_iff_forall_not_mem]
  intro found member
  obtain ⟨spaces, high, low, same, nonempty, all, _⟩ := mem_checkRe.mp member
  obtain ⟨c', spaces, rfl⟩ := List.exists_cons_of_ne_nil nonempty
  cases same
  rw [all c List.mem_cons_self] at visible
  cases visible

theorem payloadRe_start {c : Nat} {greedy : Bool} (visible : isSpace c = false) :
    (payloadRe greedy).results (c :: text) = [] := by
  rw [List.eq_nil_iff_forall_not_mem]
  intro found member
  obtain ⟨spaces, payload, same, nonempty, all, _⟩ := mem_payloadRe.mp member
  obtain ⟨c', spaces, rfl⟩ := List.exists_cons_of_ne_nil nonempty
  cases same
  rw [all c List.mem_cons_self] at visible
  cases visible

/-! ## The match of such a text -/

theorem checkRe_visible (visible : ∀ c ∈ text, isSpace c = false) : checkRe.results text = [] := by
  cases text with
  | nil =>
    rw [List.eq_nil_iff_forall_not_mem]
    intro found member
    obtain ⟨spaces, high, low, same, _⟩ := mem_checkRe.mp member
    simp at same
  | cons c text => exact checkRe_start (visible c List.mem_cons_self)

theorem afterTag_start {c : Nat} (visible : isSpace c = false) :
    (Regex.seq (.option (payloadRe false)) checkRe).results (c :: text) = [] := by
  rw [List.eq_nil_iff_forall_not_mem]
  intro found member
  obtain ⟨before, here, after, there, _⟩ := mem_seq.mp member
  cases mem_option.mp here with
  | inl payload =>
    rw [payloadRe_start visible] at payload
    cases payload
  | inr none =>
    rw [none, checkRe_start visible] at there
    cases there

/-- The tag is the text up to the first space. -/
theorem match_lineRe (nonempty : tag ≠ []) (visible : ∀ c ∈ tag, isSpace c = false)
    {groups : List (Nat × Str)} (after : (Regex.seq (.option (payloadRe false)) checkRe).Reaches
      text { groups, rest := [] } fun _ => False) :
    (lineRe linePrefix).match? (linePrefix ++ (tag ++ text)) =
      some { groups := (1, tag) :: groups, rest := [] } := by
  have tagged : tagRe.Reaches (tag ++ text) { groups := [(1, tag)], rest := text } fun rest =>
      (Regex.seq (.option (payloadRe false)) checkRe).results rest = [] := by
    have word : (plus false notSpace).Reaches (tag ++ text) { rest := text } fun rest =>
        (Regex.seq (.option (payloadRe false)) checkRe).results rest = [] := by
      refine reaches_plus_lazy nonempty (fun c member => by simp [notSpace, visible c member]) ?_
      intro part nonempty' suffix
      obtain ⟨c, part, rfl⟩ := List.exists_cons_of_ne_nil nonempty'
      rw [List.cons_append, afterTag_start (visible c (suffix.subset List.mem_cons_self))]
    refine Reaches.group 1 ?_ word
    rfl
  have whole {passed : Str → Prop} : (literal linePrefix).Reaches (linePrefix ++ (tag ++ text))
      { rest := tag ++ text } passed := reaches_literal
  rw [lineRe_eq]
  exact match?_of_reaches (whole.seq (tagged.seq after))

theorem match_lineRe_bare (nonempty : tag ≠ []) (visible : ∀ c ∈ tag, isSpace c = false)
    (isHigh : isHex high = true) (isLow : isHex low = true) :
    (lineRe linePrefix).match? (linePrefix ++ (tag ++ trailer high low)) =
      some { groups := [(1, tag), (3, [high, low])], rest := [] } := by
  refine match_lineRe nonempty visible ?_
  refine Reaches.seq (reaches_option_none fun found member => ?_) (checkRe_trailer isHigh isLow)
  -- a payload would leave a part of the digits
  obtain ⟨spaces, payload, same, nonempty', _⟩ := mem_payloadRe.mp member
  obtain ⟨c, spaces, rfl⟩ := List.exists_cons_of_ne_nil nonempty'
  obtain ⟨_, same⟩ := List.cons.inj same
  have star : isSpace 0x2A = false := rfl
  have digits : ∀ c ∈ [0x2A, high, low], isSpace c = false := by
    simp [star, (isHex_not_space isHigh).1, (isHex_not_space isLow).1]
  refine checkRe_visible fun c member' => digits c ?_
  rw [same]
  simp [member']

theorem match_lineRe_payload (nonempty : tag ≠ []) (visible : ∀ c ∈ tag, isSpace c = false)
    {spaces payload : Str} (spaced : spaces ≠ []) (all : ∀ c ∈ spaces, isSpace c = true)
    (nonblank : payload ≠ []) (begins : ∀ c ∈ payload.head?, isSpace c = false)
    (ends : ∀ c ∈ payload.getLast?, isSpace c = false)
    (oneLine : ∀ c ∈ payload, notNewline c = true)
    (isHigh : isHex high = true) (isLow : isHex low = true) :
    (lineRe linePrefix).match?
        (linePrefix ++ (tag ++ (spaces ++ (payload ++ trailer high low)))) =
      some { groups := [(1, tag), (2, payload), (3, [high, low])], rest := [] } := by
  refine match_lineRe nonempty visible ?_
  have lazy : (many false notNewline).Reaches (payload ++ trailer high low)
      { rest := trailer high low } fun rest => checkRe.results rest = [] := by
    refine reaches_lazy oneLine fun part nonempty' suffix => ?_
    have last : part.getLast? = payload.getLast? := by
      obtain ⟨before, rfl⟩ := suffix
      rw [List.getLast?_append_of_ne_nil _ nonempty']
    rw [checkRe_text isLow nonempty' (by rwa [last])]
  have captured : (Regex.group 2 (.many false notNewline)).Reaches (payload ++ trailer high low)
      { groups := [(2, payload)], rest := trailer high low }
      fun rest => checkRe.results rest = [] := by
    refine Reaches.group 2 ?_ lazy
    rfl
  have separated {passed : Str → Prop} : (plus true isSpace).Reaches
      (spaces ++ (payload ++ trailer high low)) { rest := payload ++ trailer high low } passed := by
    refine reaches_plus_greedy spaced all ?_
    rwa [List.head?_append_of_ne_nil _ nonblank]
  exact (separated.seq captured).option.seq (checkRe_trailer isHigh isLow)

/-! ## The tag -/

/-- A pattern that a text has to begin with a space for, unless it is empty. -/
def Spaced (regex : Regex Nat) : Prop :=
  ∀ text, ∀ found ∈ regex.results text, ∀ c ∈ text.head?, isSpace c = true

theorem spaced_of_word {spaces : Str} (nonempty : spaces ≠ [])
    (all : ∀ c ∈ spaces, isSpace c = true) : ∀ c ∈ (spaces ++ text).head?, isSpace c = true := by
  obtain ⟨c, spaces, rfl⟩ := List.exists_cons_of_ne_nil nonempty
  intro c' here
  cases here
  exact all c List.mem_cons_self

theorem spaced_payload {greedy : Bool} {regex : Regex Nat} (spaced : Spaced regex) :
    Spaced (.seq (.option (payloadRe greedy)) regex) := by
  intro text found member
  obtain ⟨before, here, after, there, _⟩ := mem_seq.mp member
  cases mem_option.mp here with
  | inl matched =>
    obtain ⟨spaces, payload, split, nonempty, all, _⟩ := mem_payloadRe.mp matched
    rw [split]
    exact spaced_of_word nonempty all
  | inr none =>
    rw [none] at there
    exact spaced text after there

theorem spaced_checkRe : Spaced checkRe := by
  intro text found member
  obtain ⟨spaces, high, low, split, nonempty, all, _⟩ := mem_checkRe.mp member
  rw [split]
  exact spaced_of_word nonempty all

theorem spaced_end : Spaced (.followedBy atEnd) := by
  intro text found member
  have ended := (mem_followedBy.mp member).1
  simp only [atEnd, Bool.or_eq_true, beq_iff_eq] at ended
  cases ended with
  | inl none =>
    rw [none]
    exact nofun
  | inr newline =>
    rw [newline]
    intro c here
    cases here
    rfl

theorem tag_of_mem {regex : Regex Nat} (spaced : Spaced regex)
    (member : found ∈ (Regex.seq (literal linePrefix) (.seq tagRe regex)).results text) :
    ∃ tag rest, text = linePrefix ++ (tag ++ rest) ∧ found.group 1 = some tag ∧
      (∀ c ∈ tag, isSpace c = false) ∧ (∀ c ∈ rest.head?, isSpace c = true) ∧
      ∃ after ∈ regex.results rest, found.rest = after.rest ∧
        found.group 3 = after.group 3 := by
  obtain ⟨before, begins, _, follows, rfl⟩ := mem_seq.mp member
  obtain ⟨split, none⟩ := mem_literal.mp begins
  obtain ⟨tagged, isTag, after, there, rfl⟩ := mem_seq.mp follows
  obtain ⟨tag, split', nonempty, all, groups⟩ := mem_tagRe.mp isTag
  refine ⟨tag, tagged.rest, by rw [split, split'], ?_, ?_, spaced _ _ there, after, there, rfl, ?_⟩
  · simp [Match.group, none, groups]
  · intro c member'
    simpa [notSpace] using all c member'
  · simp [Match.group, none, groups]

/-- The digits are those at the end. -/
theorem group_lineRe (isLow : isHex low = true)
    (member : found ∈ (lineRe linePrefix).results (text ++ trailer high low)) :
    found.group 3 = some [high, low] := by
  rw [lineRe_eq] at member
  obtain ⟨tag, rest, split, _, _, _, after, there, _, digits⟩ :=
    tag_of_mem (spaced_payload spaced_checkRe) member
  obtain ⟨before, here, checked, there', rfl⟩ := mem_seq.mp there
  obtain ⟨spaces, high', low', split', _, _, _, _, ended, groups⟩ := mem_checkRe.mp there'
  -- whatever stands before the spaces
  have upTo : ∃ front, rest = front ++ before.rest ∧ before.group 3 = none := by
    cases mem_option.mp here with
    | inl matched =>
      obtain ⟨spaces, payload, split, _, _, _, groups⟩ := mem_payloadRe.mp matched
      exact ⟨spaces ++ payload, by rw [split, List.append_assoc], by simp [Match.group, groups]⟩
    | inr skipped => exact ⟨[], by rw [skipped, List.nil_append], by simp [Match.group, skipped]⟩
  obtain ⟨front, isFront, noGroup⟩ := upTo
  have same : (linePrefix ++ (tag ++ (front ++ spaces))) ++ 0x2A :: high' :: low' :: checked.rest =
      text ++ trailer high low := by
    rw [split, isFront, split']
    simp
  obtain ⟨_, rfl, rfl, _⟩ := eq_of_trailer isLow ended same
  rw [digits]
  simp only [Match.group, Option.map_eq_none_iff] at noGroup
  simp [Match.group, List.find?_append, noGroup, groups]

/-- A tag that is longer than the trailer stands before it. -/
theorem tag_before_trailer {rest : Str} (visible : ∀ c ∈ tag, isSpace c = false)
    (long : 4 < tag.length) (split : text ++ trailer high low = linePrefix ++ (tag ++ rest)) :
    ∃ body, text = linePrefix ++ (tag ++ body) ∧ rest = body ++ trailer high low := by
  rw [← List.append_assoc] at split
  cases List.append_eq_append_iff.mp split with
  | inl shorter =>
    obtain ⟨part, whole, isPart⟩ := shorter
    cases part with
    | nil =>
      rw [List.append_nil] at whole
      exact ⟨[], by rw [← whole, List.append_nil], isPart.symm⟩
    | cons blank part =>
      -- the tag would have the blank in it
      have length := congrArg List.length isPart
      simp only [trailer, List.cons_append, List.length_cons, List.length_nil,
        List.length_append] at length
      have isBlank : 0x20 = blank := (List.cons.inj isPart).1
      cases List.append_eq_append_iff.mp whole with
      | inl inTag =>
        obtain ⟨front, _, isTag⟩ := inTag
        have seen : isSpace 0x20 = false := visible 0x20 (by simp [isTag, isBlank])
        cases seen
      | inr inPrefix =>
        obtain ⟨front, _, isRest⟩ := inPrefix
        have length' := congrArg List.length isRest
        simp only [List.length_cons, List.length_append] at length'
        omega
  | inr longer =>
    obtain ⟨body, isText, isRest⟩ := longer
    exact ⟨body, by rw [isText, List.append_assoc], isRest⟩

/-- Without its leading spaces a text is part of what a payload can take. -/
theorem dropWhile_subset {spaces payload body behind : Str} (all : ∀ c ∈ spaces, isSpace c = true)
    (split : body ++ behind = spaces ++ payload) :
    ∀ c ∈ body.dropWhile isSpace, c ∈ payload := by
  induction spaces generalizing body with
  | nil =>
    intro c member
    rw [List.nil_append] at split
    rw [← split]
    exact List.mem_append_left behind ((List.dropWhile_suffix isSpace).subset member)
  | cons space spaces inductionHypothesis =>
    obtain ⟨spaced, others⟩ := List.forall_mem_cons.mp all
    cases body with
    | nil => exact nofun
    | cons c body =>
      obtain ⟨same, rest⟩ := List.cons.inj split
      rw [List.dropWhile_cons, if_pos (same ▸ spaced)]
      exact inductionHypothesis others rest

theorem dropWhile_visible (body : Str) : ∀ c ∈ (body.dropWhile isSpace).head?, isSpace c = false := by
  intro c here
  have visible := List.head?_dropWhile_not isSpace body
  rw [Option.mem_def.mp here] at visible
  simpa using visible

/-- What a line without a checksum may have for its payload. -/
theorem oneLine_of_lineNoCrcRe (isLow : isHex low = true) {body : Str} {after : Match Nat}
    (member : after ∈ (Regex.seq (.option (payloadRe true)) (.followedBy atEnd)).results
      (body ++ trailer high low)) :
    ∀ c ∈ body.dropWhile isSpace, notNewline c = true := by
  obtain ⟨before, here, _, there, _⟩ := mem_seq.mp member
  have ended := (mem_followedBy.mp there).1
  cases mem_option.mp here with
  | inr none =>
    -- the text has not ended there
    rw [none] at ended
    simp only [atEnd, Bool.or_eq_true, beq_iff_eq] at ended
    cases ended with
    | inl empty => simp [trailer] at empty
    | inr newline =>
      have length := congrArg List.length newline
      simp only [trailer, List.length_append, List.length_cons, List.length_nil] at length
      omega
  | inl matched =>
    obtain ⟨spaces, payload, split, _, all, oneLine, _⟩ := mem_payloadRe.mp matched
    have whole : (spaces ++ payload) ++ before.rest = body ++ trailer high low := by
      rw [split, List.append_assoc]
    rw [rest_of_trailer isLow ended whole, List.append_nil] at split
    intro c inPayload
    exact oneLine c (dropWhile_subset all split c inPayload)

/-- Of a line with a checksum, the spaces and the payload match. -/
theorem afterTag_trailer (isHigh : isHex high = true) (isLow : isHex low = true) {body : Str}
    (spaced : ∀ c ∈ (body ++ trailer high low).head?, isSpace c = true)
    (oneLine : ∀ c ∈ body.dropWhile isSpace, notNewline c = true) :
    ∃ found, found ∈ (Regex.seq (.option (payloadRe false)) checkRe).results
      (body ++ trailer high low) := by
  have body_eq : body.takeWhile isSpace ++ body.dropWhile isSpace = body :=
    List.takeWhile_append_dropWhile
  have spaces : ∀ c ∈ body.takeWhile isSpace, isSpace c = true := fun c => List.mem_takeWhile_imp
  cases blank : body.dropWhile isSpace with
  | nil =>
    -- only spaces before the asterisk
    rw [blank, List.append_nil] at body_eq
    refine ⟨{ groups := [(3, [high, low])], rest := [] }, mem_seq.mpr
      ⟨{ rest := body ++ trailer high low }, mem_option.mpr (.inr rfl),
        { groups := [(3, [high, low])], rest := [] }, mem_checkRe.mpr
          ⟨body ++ [0x20], high, low, by simp [trailer], by simp, ?_, isHigh, isLow, rfl, rfl⟩, rfl⟩⟩
    intro c member
    cases List.mem_append.mp member with
    | inl inBody => exact spaces c (by rwa [body_eq])
    | inr isBlank =>
      rw [List.mem_singleton] at isBlank
      rw [isBlank]
      rfl
  | cons first payload =>
    rw [blank] at body_eq oneLine
    have separated : body.takeWhile isSpace ≠ [] := by
      intro none
      rw [none, List.nil_append] at body_eq
      rw [← body_eq] at spaced
      have visible : isSpace first = false := dropWhile_visible body first (by rw [blank]; rfl)
      rw [spaced first rfl] at visible
      cases visible
    refine ⟨{ groups := [(2, first :: payload), (3, [high, low])], rest := [] }, mem_seq.mpr
      ⟨{ groups := [(2, first :: payload)], rest := trailer high low }, mem_option.mpr (.inl
        (mem_payloadRe.mpr ⟨body.takeWhile isSpace, first :: payload, ?_, separated, spaces, oneLine,
          rfl⟩)), { groups := [(3, [high, low])], rest := [] }, mem_checkRe.mpr
            ⟨[0x20], high, low, rfl, by simp, by simp [isSpace], isHigh, isLow, rfl, rfl⟩, rfl⟩⟩
    rw [← List.append_assoc, body_eq]

/-- The pattern for lines without a checksum finds none that has one. -/
theorem lineRe_of_lineNoCrcRe (isHigh : isHex high = true) (isLow : isHex low = true)
    (long : 4 < tag.length) (member : found ∈ (lineNoCrcRe linePrefix).results
      (text ++ trailer high low)) (isTag : found.group 1 = some tag) :
    (lineRe linePrefix).results (text ++ trailer high low) ≠ [] := by
  rw [lineNoCrcRe_eq] at member
  obtain ⟨tag', rest, split, isTag', visible, spaced, after, there, _⟩ :=
    tag_of_mem (spaced_payload spaced_end) member
  cases isTag.symm.trans isTag'
  obtain ⟨body, _, rfl⟩ := tag_before_trailer visible long split
  obtain ⟨matched, member'⟩ :=
    afterTag_trailer isHigh isLow spaced (oneLine_of_lineNoCrcRe isLow there)
  have tagged : { groups := [(1, tag)], rest := body ++ trailer high low } ∈
      tagRe.results (tag ++ (body ++ trailer high low)) := by
    refine mem_tagRe.mpr ⟨tag, rfl, List.ne_nil_of_length_pos (by omega), fun c inTag => ?_, rfl⟩
    simp [notSpace, visible c inTag]
  have joined := mem_seq.mpr ⟨_, tagged, matched, member', rfl⟩
  rw [split, lineRe_eq]
  exact List.ne_nil_of_mem (mem_seq.mpr ⟨{ rest := tag ++ (body ++ trailer high low) },
    mem_literal.mpr ⟨rfl, rfl⟩, _, joined, rfl⟩)

/-! ## Parsing -/

theorem contentOf_trailer : contentOf (text ++ trailer high low) [high, low] = text := by
  have whole : trailer high low = str " *" ++ [high, low] := rfl
  rw [contentOf, whole, rfind_append text (by simp [str]), sliceTo_length]

def heapTags : List Str := [str "MEM:BEFORE", str "MEM:AFTER"]

/-- The text has one of the tags that the tracker records. -/
def IsHeapLine (linePrefix text : Str) : Prop :=
  ∃ tag ∈ heapTags, ∃ body, text = linePrefix ++ (tag ++ body) ∧ ∀ c ∈ body.head?, isSpace c = true

/-- What is parsed has matched one of the patterns. -/
theorem parse_cases {line : Str} {parsed : ParsedTag}
    (isParsed : parseLine linePrefix line = .ok (some parsed)) :
    (∃ m, (lineRe linePrefix).match? (strip line) = some m ∧ parsed.tag = (m.group 1).getD [] ∧
      ∃ value, crc8 (contentOf (strip line) ((m.group 3).getD [])) = .ok value ∧
        parsed.crcValid = some (value == hexValue ((m.group 3).getD []))) ∨
    (lineRe linePrefix).match? (strip line) = none ∧
      ∃ m, (lineNoCrcRe linePrefix).match? (strip line) = some m ∧
        parsed.tag = (m.group 1).getD [] := by
  cases begins : linePrefix.isPrefixOf (strip line) with
  | false =>
    simp only [parseLine, begins] at isParsed
    cases isParsed
  | true =>
    cases found : (lineRe linePrefix).match? (strip line) with
    | some m =>
      simp only [parseLine, begins, found] at isParsed
      cases checks : crc8 (contentOf (strip line) ((m.group 3).getD [])) with
      | error raised =>
        rw [checks] at isParsed
        cases isParsed
      | ok value =>
        rw [checks] at isParsed
        cases isParsed
        exact .inl ⟨m, rfl, rfl, value, checks, rfl⟩
    | none =>
      cases found' : (lineNoCrcRe linePrefix).match? (strip line) with
      | none =>
        simp only [parseLine, begins, found, found'] at isParsed
        cases isParsed
      | some m =>
        simp only [parseLine, begins, found, found'] at isParsed
        cases isParsed
        exact .inr ⟨rfl, m, rfl, rfl⟩

theorem tag_length_le {line : Str} {parsed : ParsedTag}
    (isParsed : parseLine linePrefix line = .ok (some parsed)) :
    parsed.tag.length ≤ (strip line).length := by
  have tagged : ∃ regex m, Spaced regex ∧
      m ∈ (Regex.seq (literal linePrefix) (.seq tagRe regex)).results (strip line) ∧
      parsed.tag = (m.group 1).getD [] := by
    cases parse_cases isParsed with
    | inl checked =>
      obtain ⟨m, found, isTag, _⟩ := checked
      exact ⟨_, m, spaced_payload spaced_checkRe, List.mem_of_mem_head? found, isTag⟩
    | inr plain =>
      obtain ⟨_, m, found, isTag⟩ := plain
      exact ⟨_, m, spaced_payload spaced_end, List.mem_of_mem_head? found, isTag⟩
  obtain ⟨regex, m, spaced, member, isTag⟩ := tagged
  obtain ⟨tag, rest, split, isTag', _⟩ := tag_of_mem spaced member
  rw [isTag, isTag', split, Option.getD_some, List.length_append, List.length_append]
  omega

/-- Such a line is parsed only with its checksum. -/
theorem parse_heapLine (isHigh : isHex high = true) (isLow : isHex low = true) {line : Str}
    (stripped : strip line = text ++ trailer high low) {value : Nat} (checks : crc8 text = .ok value)
    {parsed : ParsedTag} (isParsed : parseLine linePrefix line = .ok (some parsed))
    (heap : parsed.tag ∈ heapTags) :
    IsHeapLine linePrefix text ∧ parsed.crcValid = some (value == hexValue [high, low]) := by
  have long : 4 < parsed.tag.length := by
    have all : ∀ tag ∈ heapTags, 4 < tag.length := by decide
    exact all parsed.tag heap
  have outcome := parse_cases isParsed
  rw [stripped] at outcome
  cases outcome with
  | inl checked =>
    obtain ⟨m, found, isTag, value', checks', valid⟩ := checked
    have member : m ∈ (lineRe linePrefix).results (text ++ trailer high low) :=
      List.mem_of_mem_head? found
    rw [group_lineRe isLow member, Option.getD_some] at checks' valid
    rw [contentOf_trailer] at checks'
    cases checks.symm.trans checks'
    obtain ⟨tag, rest, split, isTag', visible, spaced, _⟩ :=
      tag_of_mem (spaced_payload spaced_checkRe) member
    rw [isTag, isTag', Option.getD_some] at heap long
    obtain ⟨body, split', isRest⟩ := tag_before_trailer visible long split
    refine ⟨⟨tag, heap, body, split', fun c here => spaced c ?_⟩, valid⟩
    rw [isRest, List.head?_append, Option.mem_def.mp here, Option.some_or]
    rfl
  | inr plain =>
    obtain ⟨none, m, found, isTag⟩ := plain
    rw [isTag] at long
    cases isTag' : m.group 1 with
    | none =>
      rw [isTag', Option.getD_none] at long
      cases long
    | some tag =>
      rw [isTag', Option.getD_some] at long
      have matched := lineRe_of_lineNoCrcRe isHigh isLow long (List.mem_of_mem_head? found) isTag'
      exact absurd (List.head?_eq_none_iff.mp none) matched

end

end EmbeddedBridge.Python.MemoryTracker
