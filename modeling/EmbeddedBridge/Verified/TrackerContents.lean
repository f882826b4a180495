import EmbeddedBridge.Verified.TrackerLines

/-! # What a tracker line says

A `Content` is the prefix with a tag and perhaps a payload.  With a checksum behind it, it is
parsed as it is (`parse_content`); what the tracker records of a line hangs on its tag and on
the checksum (`feed_unchanged`, `feed_changed`).
-/

namespace EmbeddedBridge.Python.MemoryTracker

open Library Py Methods

/-! ## Contents -/

/-- A payload and the spaces before it. -/
structure SpacedPayload where
  spaces : Str
  text : Str
  spaced : spaces ≠ []
  blank : ∀ c ∈ spaces, isSpace c = true
  nonempty : text ≠ []
  begins : ∀ c ∈ text.head?, isSpace c = false
  ends : ∀ c ∈ text.getLast?, isSpace c = false

def SpacedPayload.all (payload : Option SpacedPayload) : Str :=
  payload.elim [] fun payload => payload.spaces ++ payload.text

/-- A tag, and a payload or none. -/
structure Content (linePrefix : Str) where
  tag : Str
  payload : Option SpacedPayload
  nonempty : tag ≠ []
  visible : ∀ c ∈ tag, isSpace c = false

variable {linePrefix : Str} {high low : Nat}

def Content.text (content : Content linePrefix) : Str :=
  linePrefix ++ (content.tag ++ SpacedPayload.all content.payload)

theorem Content.ends (content : Content linePrefix) :
    ∀ c ∈ content.text.getLast?, isSpace c = false := by
  cases isPayload : content.payload with
  | none =>
    rw [Content.text, isPayload, SpacedPayload.all, Option.elim_none, List.append_nil,
      List.getLast?_append_of_ne_nil _ content.nonempty]
    exact fun c last => content.visible c (List.mem_of_getLast? last)
  | some payload =>
    have whole : content.text = (linePrefix ++ (content.tag ++ payload.spaces)) ++ payload.text := by
      simp [Content.text, isPayload, SpacedPayload.all]
    rw [whole, List.getLast?_append_of_ne_nil _ payload.nonempty]
    exact payload.ends

theorem match_content (content : Content linePrefix) (oneLine : ∀ c ∈ content.text, c ≠ 0x0A)
    (isHigh : isHex high = true) (isLow : isHex low = true) :
    ∃ m, (lineRe linePrefix).match? (content.text ++ trailer high low) = some m ∧
      m.group 1 = some content.tag ∧
      (m.group 2).getD [] = content.payload.elim [] SpacedPayload.text ∧
      m.group 3 = some [high, low] := by
  cases isPayload : content.payload with
  | none =>
    have whole : content.text ++ trailer high low =
        linePrefix ++ (content.tag ++ trailer high low) := by
      simp [Content.text, isPayload, SpacedPayload.all]
    rw [whole, match_lineRe_bare content.nonempty content.visible isHigh isLow]
    exact ⟨_, rfl, rfl, rfl, rfl⟩
  | some payload =>
    have whole : content.text ++ trailer high low = linePrefix ++ (content.tag ++
        (payload.spaces ++ (payload.text ++ trailer high low))) := by
      simp [Content.text, isPayload, SpacedPayload.all]
    have plain : ∀ c ∈ payload.text, notNewline c = true := by
      intro c member
      have inLine : c ∈ content.text := by
        simp [Content.text, isPayload, SpacedPayload.all, member]
      simpa [notNewline] using oneLine c inLine
    rw [whole, match_lineRe_payload content.nonempty content.visible payload.spaced payload.blank
      payload.nonempty payload.begins payload.ends plain isHigh isLow]
    exact ⟨_, rfl, rfl, rfl, rfl⟩

/-! ## Stripping -/

theorem strip_trailer (isLow : isHex low = true) (text : Str) :
    strip (text ++ trailer high low) =
      if text.dropWhile isSpace = [] then [0x2A, high, low]
      else text.dropWhile isSpace ++ trailer high low := by
  have blank : isSpace 0x20 = true := rfl
  have star : isSpace 0x2A = false := rfl
  have visible := (isHex_not_space isLow).1
  have last (front : Str) : (front ++ [low]).rdropWhile isSpace = front ++ [low] :=
    List.rdropWhile_concat_neg isSpace front low (by simp [visible])
  rw [strip, List.dropWhile_append]
  by_cases spaces : text.dropWhile isSpace = []
  · have rest : (trailer high low).dropWhile isSpace = [0x2A, high] ++ [low] := by
      simp [trailer, blank, star]
    rw [if_pos spaces, spaces, List.isEmpty_nil, if_pos rfl, rest, last]
    rfl
  · have whole : text.dropWhile isSpace ++ trailer high low =
        (text.dropWhile isSpace ++ [0x20, 0x2A, high]) ++ [low] := by
      simp [trailer]
    rw [if_neg spaces, if_neg (by simpa using spaces), whole, last]

theorem strip_begins (isLow : isHex low = true) {text : Str} (nonempty : text ≠ [])
    (begins : ∀ c ∈ text.head?, isSpace c = false) :
    strip (text ++ trailer high low) = text ++ trailer high low := by
  obtain ⟨c, text, rfl⟩ := List.exists_cons_of_ne_nil nonempty
  have kept : (c :: text).dropWhile isSpace = c :: text := by
    rw [List.dropWhile_cons, if_neg (by simp [begins c rfl])]
  rw [strip_trailer isLow, kept, if_neg nonempty]

theorem dropWhile_blank {spaces rest : Str} (blank : ∀ c ∈ spaces, isSpace c = true)
    (begins : ∀ c ∈ rest.head?, isSpace c = false) :
    (spaces ++ rest).dropWhile isSpace = rest := by
  rw [List.dropWhile_append_of_pos blank]
  cases rest with
  | nil => rfl
  | cons c rest => rw [List.dropWhile_cons, if_neg (by simp [begins c rfl])]

/-! ## Parsing -/

theorem parse_content (content : Content linePrefix)
    (oneLine : ∀ c ∈ content.text, c ≠ 0x0A) (isHigh : isHex high = true)
    (isLow : isHex low = true) {value : Nat} (checks : crc8 content.text = .ok value) {line : Str}
    (stripped : strip line = content.text ++ trailer high low) :
    parseLine linePrefix line = .ok (some
      { tag := content.tag, payloadStr := content.payload.elim [] SpacedPayload.text
        crcValid := some (value == hexValue [high, low]), raw := content.text ++ trailer high low }) := by
  obtain ⟨m, found, isTag, isPayload, digits⟩ := match_content content oneLine isHigh isLow
  have isPrefix : linePrefix.isPrefixOf (content.text ++ trailer high low) = true := by
    rw [List.isPrefixOf_iff_prefix, Content.text, List.append_assoc]
    exact List.prefix_append _ _
  simp only [parseLine, stripped, isPrefix, found, isTag, isPayload, digits, Option.getD_some,
    contentOf_trailer, checks]
  rfl

theorem visible_heapTags {tag : Str} (isTag : tag ∈ heapTags) :
    tag.head? = some 0x4D := by
  have all : ∀ tag ∈ heapTags, tag.head? = some 0x4D := by decide
  exact all tag isTag

theorem heapLine_ne_nil {rest : Str} (heap : IsHeapLine linePrefix rest) : rest ≠ [] := by
  obtain ⟨tag, isTag, body, rfl, _⟩ := heap
  intro empty
  obtain ⟨_, empty'⟩ := List.append_eq_nil_iff.mp empty
  have none := visible_heapTags isTag
  rw [(List.append_eq_nil_iff.mp empty').1] at none
  cases none

theorem content_of_heapLine {text : Str} (heap : IsHeapLine linePrefix text)
    (ends : ∀ c ∈ text.getLast?, isSpace c = false) :
    ∃ content : Content linePrefix, content.text = text ∧ content.tag ∈ heapTags := by
  obtain ⟨tag, isTag, body, rfl, spaced⟩ := heap
  have nonempty : tag ≠ [] := by
    intro empty
    have none := visible_heapTags isTag
    rw [empty] at none
    cases none
  have visible : ∀ tag ∈ heapTags, ∀ c ∈ tag, isSpace c = false := by decide
  cases payload : body.dropWhile isSpace with
  | nil =>
    -- a body of spaces would be the end of the line
    have blank : ∀ c ∈ body, isSpace c = true := List.dropWhile_eq_nil_iff.mp payload
    have empty : body = [] := by
      by_contra nonempty'
      have last := List.getLast?_eq_some_getLast nonempty'
      rw [← List.append_assoc, List.getLast?_append_of_ne_nil _ nonempty', last] at ends
      have seen := ends _ rfl
      rw [blank _ (List.getLast_mem nonempty')] at seen
      cases seen
    exact ⟨⟨tag, none, nonempty, visible tag isTag⟩,
      by simp [Content.text, SpacedPayload.all, empty], isTag⟩
  | cons c payload' =>
    have whole : body.takeWhile isSpace ++ c :: payload' = body := by
      rw [← payload, List.takeWhile_append_dropWhile]
    have begins : isSpace c = false := dropWhile_visible body c (by rw [payload]; rfl)
    have separated : body.takeWhile isSpace ≠ [] := by
      intro empty
      rw [empty, List.nil_append] at whole
      rw [← whole] at spaced
      rw [spaced c rfl] at begins
      cases begins
    rw [← whole, ← List.append_assoc, ← List.append_assoc,
      List.getLast?_append_of_ne_nil _ (List.cons_ne_nil c payload')] at ends
    refine ⟨⟨tag, some
      { spaces := body.takeWhile isSpace, text := c :: payload', spaced := separated
        blank := fun c => List.mem_takeWhile_imp, nonempty := List.cons_ne_nil c payload'
        begins := by simpa using begins, ends }, nonempty, visible tag isTag⟩, ?_, isTag⟩
    rw [Content.text, SpacedPayload.all, Option.elim_some, whole]

/-! ## What is recorded -/

variable {isWord : Nat → Bool} {tracker : MemoryTracker} {message : Line}

theorem run_feed_parsed {parsed : ParsedTag}
    (isParsed : parseLine linePrefix message.text = .ok (some parsed)) :
    run (feed isWord linePrefix message) tracker = run (feedParsed isWord parsed) tracker := by
  simp only [feed, run_bind, run_ofExcept, isParsed]

/-- A line that is rejected, or of another tag, records nothing. -/
theorem feed_unchanged (rejected : ∀ parsed, parseLine linePrefix message.text = .ok (some parsed) →
      parsed.tag ∈ heapTags → parsed.crcValid = some false) :
    (run (feed isWord linePrefix message) tracker).2.data = tracker.data := by
  cases outcome : parseLine linePrefix message.text with
  | error raised => simp only [feed, run_bind, run_ofExcept, outcome]
  | ok result =>
    cases result with
    | none =>
      simp only [feed, run_bind, run_ofExcept, outcome]
      rfl
    | some parsed =>
      rw [run_feed_parsed outcome, run_feedParsed]
      split
      · rfl
      · rename_i heard
        obtain ⟨accepted, _⟩ := not_or.mp heard
        have other : parsed.tag ∉ heapTags := fun heap => accepted (rejected parsed outcome heap)
        simp only [heapTags, List.mem_cons, List.not_mem_nil, or_false, not_or] at other
        rw [if_neg other.1, if_neg other.2]

theorem setItem_ne_nil {name : Str} {info : MemoryInfo} {data : List (Str × MemoryInfo)} :
    Json.setItem (· == ·) name info data ≠ [] := by
  intro empty
  have found : Json.getItem (fun left right : Str => left == right) name
      (Json.setItem (· == ·) name info data) = some info := Json.getItem_setItem_self exact_name
  rw [empty] at found
  cases found

/-- A record is not lost. -/
def Keeps (before after : MemoryTracker) : Prop := before.data ≠ [] → after.data ≠ []

theorem preserves_assign (change : MemoryInfo → MemoryInfo) :
    Preserves Keeps (modify (assign change) : Method Unit) := by
  refine Preserves.ofModify fun tracker recorded => ?_
  cases found : tracker.infoOf tracker.currentTest with
  | none => simpa only [assign, found] using recorded
  | some info =>
    simp only [assign, found]
    exact setItem_ne_nil

theorem preserves_field {payload : Payload} {name : String} {next : Int → Method Unit}
    (later : ∀ value, Preserves Keeps (next value)) :
    Preserves Keeps (MonadExcept.ofExcept (fieldValue payload name) >>= next) :=
  Preserves.bind (fun _ _ _ first second recorded => second (first recorded))
    (Preserves.ofExcept (fun _ recorded => recorded) _) later

theorem preserves_then {change : MemoryInfo → MemoryInfo} {next : Method Unit}
    (later : Preserves Keeps next) :
    Preserves Keeps (do modify (assign change); next) :=
  Preserves.bind (fun _ _ _ first second recorded => second (first recorded))
    (preserves_assign change) fun _ => later

theorem setDefault_ne_nil : tracker.setDefault.data ≠ [] := by
  cases found : tracker.infoOf tracker.currentTest with
  | none =>
    simp only [setDefault, found]
    exact setItem_ne_nil
  | some info =>
    simp only [setDefault, found]
    intro empty
    rw [infoOf, empty] at found
    cases found

theorem recordBefore_ne_nil (payload : Payload) :
    (run (recordBefore payload) tracker).2.data ≠ [] := by
  rw [recordBefore, run_bind_ok tracker (run_modify tracker setDefault)]
  refine preserves_field (fun free => preserves_then (preserves_field fun min => ?_)) _
    setDefault_ne_nil
  exact preserves_assign _

theorem recordAfter_ne_nil (payload : Payload) :
    (run (recordAfter payload) tracker).2.data ≠ [] := by
  rw [recordAfter, run_bind_ok tracker (run_modify tracker setDefault)]
  refine preserves_field (fun free => preserves_then (preserves_field fun delta =>
    preserves_then (preserves_field fun min => ?_))) _ setDefault_ne_nil
  exact preserves_assign _

/-- A line that is accepted records something, even if it raises. -/
theorem feed_changed {parsed : ParsedTag} (hasTest : tracker.currentTest ≠ [])
    (isParsed : parseLine linePrefix message.text = .ok (some parsed))
    (heap : parsed.tag ∈ heapTags) (accepted : parsed.crcValid ≠ some false) :
    (run (feed isWord linePrefix message) tracker).2.data ≠ [] := by
  rw [run_feed_parsed isParsed, run_feedParsed, if_neg (not_or.mpr ⟨accepted, hasTest⟩)]
  split
  · exact recordBefore_ne_nil _
  · rename_i notBefore
    split
    · exact recordAfter_ne_nil _
    · rename_i notAfter
      simp [heapTags, notBefore, notAfter] at heap

end EmbeddedBridge.Python.MemoryTracker
