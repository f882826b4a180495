import EmbeddedBridge.Receivers.MemoryTracker

/-! # What device output does to the memory tracker

A line records every field of its kind or changes nothing, unless it raises: where its
checksum is over a text that cannot be encoded (`Checked`), or where a field that it
should record is no integer (`Numeric`).  In the latter case the test has a record by
then, with the fields before that one.
-/

namespace EmbeddedBridge.Python.MemoryTracker

open Library Py Methods

variable {isWord : Nat → Bool} {linePrefix : Str}

/-! ## Records -/

theorem exact_name {name : Str} : Json.Exact (fun left right : Str => left == right) name := by
  intro other
  exact beq_iff_eq

def infoNow (tracker : MemoryTracker) : MemoryInfo := (tracker.infoOf tracker.currentTest).getD {}

def withInfo (tracker : MemoryTracker) (info : MemoryInfo) : MemoryTracker :=
  { tracker with data := Json.setItem (· == ·) tracker.currentTest info tracker.data }

variable {tracker after : MemoryTracker} {change : MemoryInfo → MemoryInfo} {info : MemoryInfo}

theorem assign_withInfo :
    assign change (tracker.withInfo info) = tracker.withInfo (change info) := by
  have found : (tracker.withInfo info).infoOf (tracker.withInfo info).currentTest = some info :=
    Json.getItem_setItem_self exact_name
  simp only [assign, found]
  simp only [withInfo, Json.setItem_setItem exact_name]

theorem assign_setDefault :
    assign change tracker.setDefault = tracker.withInfo (change tracker.infoNow) := by
  cases found : tracker.infoOf tracker.currentTest with
  | none =>
    have created : tracker.setDefault = tracker.withInfo {} := by
      simp only [setDefault, found, withInfo]
    rw [created, assign_withInfo, infoNow, found, Option.getD_none]
  | some info =>
    have kept : tracker.setDefault = tracker := by simp only [setDefault, found]
    simp only [kept, assign, infoNow, found, Option.getD_some, withInfo]

/-- All fields of a `MEM:BEFORE` line. -/
def RecordsBefore (payload : Payload) (tracker after : MemoryTracker) : Prop :=
  ∃ free min, fieldValue payload "free" = .ok free ∧ fieldValue payload "min" = .ok min ∧
    after = tracker.withInfo { tracker.infoNow with freeBefore := free, minBefore := min }

/-- All fields of a `MEM:AFTER` line. -/
def RecordsAfter (payload : Payload) (tracker after : MemoryTracker) : Prop :=
  ∃ free delta min, fieldValue payload "free" = .ok free ∧ fieldValue payload "delta" = .ok delta ∧
    fieldValue payload "min" = .ok min ∧
    after = tracker.withInfo
      { tracker.infoNow with freeAfter := free, delta := delta, minAfter := min }

theorem recordBefore_ok {payload : Payload} :
    run (recordBefore payload) tracker = (.ok (), after) ↔ RecordsBefore payload tracker after := by
  constructor
  · intro ran
    simp only [recordBefore, run_bind_eq_ok, run_modify, run_ofExcept, Prod.mk.injEq] at ran
    obtain ⟨_, _, ⟨_, rfl⟩, free, _, ⟨isFree, rfl⟩, _, _, ⟨_, rfl⟩, min, _, ⟨isMin, rfl⟩, _,
      rfl⟩ := ran
    exact ⟨free, min, isFree, isMin, by rw [assign_setDefault, assign_withInfo]⟩
  · intro records
    obtain ⟨free, min, isFree, isMin, rfl⟩ := records
    simp [recordBefore, run_bind, isFree, isMin, assign_setDefault, assign_withInfo]

theorem recordAfter_ok {payload : Payload} :
    run (recordAfter payload) tracker = (.ok (), after) ↔ RecordsAfter payload tracker after := by
  constructor
  · intro ran
    simp only [recordAfter, run_bind_eq_ok, run_modify, run_ofExcept, Prod.mk.injEq] at ran
    obtain ⟨_, _, ⟨_, rfl⟩, free, _, ⟨isFree, rfl⟩, _, _, ⟨_, rfl⟩, delta, _, ⟨isDelta, rfl⟩, _, _,
      ⟨_, rfl⟩, min, _, ⟨isMin, rfl⟩, _, rfl⟩ := ran
    exact ⟨free, delta, min, isFree, isDelta, isMin, by
      rw [assign_setDefault, assign_withInfo, assign_withInfo]⟩
  · intro records
    obtain ⟨free, delta, min, isFree, isDelta, isMin, rfl⟩ := records
    simp [recordAfter, run_bind, isFree, isDelta, isMin, assign_setDefault, assign_withInfo]

/-! ## Fields and checksums -/

/-- What the payload has under the name, if that is a text, is one of an integer. -/
def Numeric (payload : Payload) (name : String) : Prop :=
  ∀ value, Json.getItem (· == ·) (str name) payload = some (.text value) →
    ∃ number, intOfText value = .ok number

theorem fieldValue_isOk {payload : Payload} {name : String} :
    (∃ number, fieldValue payload name = .ok number) ↔ Numeric payload name := by
  rw [fieldValue, Numeric]
  cases found : Json.getItem (· == ·) (str name) payload with
  | none =>
    refine iff_of_true ⟨0, ?_⟩ fun value isText => nomatch isText
    rfl
  | some value =>
    cases value with
    | flag => exact iff_of_true ⟨0, rfl⟩ fun value isText => nomatch isText
    | text value => simp

/-- The line ends with a checksum, over that content. -/
def Checked (linePrefix line content : Str) : Prop :=
  linePrefix.isPrefixOf (strip line) ∧ ∃ m, (lineRe linePrefix).match? (strip line) = some m ∧
    content = contentOf (strip line) ((m.group 3).getD [])

theorem crc8_isOk {data : Str} : (∃ crc, crc8 data = .ok crc) ↔ Encodable data := by
  rw [crc8, encode]
  split
  · rename_i encodable
    exact iff_of_true ⟨_, rfl⟩ encodable
  · rename_i not
    exact iff_of_false (fun returned => nomatch returned) not

theorem parseLine_isOk {line : Str} :
    (∃ parsed, parseLine linePrefix line = .ok parsed) ↔
      ∀ content, Checked linePrefix line content → Encodable content := by
  by_cases begins : linePrefix.isPrefixOf (strip line)
  · cases found : (lineRe linePrefix).match? (strip line) with
    | none =>
      refine iff_of_true ?_ fun content checked => ?_
      · simp only [parseLine, begins, found]
        cases (lineNoCrcRe linePrefix).match? (strip line) <;> exact ⟨_, rfl⟩
      · obtain ⟨_, m, found', _⟩ := checked
        cases found.symm.trans found'
    | some m =>
      -- a line has one checksum, over one content
      have only : (∀ content, Checked linePrefix line content → Encodable content) ↔
          Encodable (contentOf (strip line) ((m.group 3).getD [])) := by
        constructor
        · intro encodable
          exact encodable _ ⟨begins, m, found, rfl⟩
        · intro encodable content checked
          obtain ⟨_, m', found', isContent⟩ := checked
          cases found.symm.trans found'
          rwa [isContent]
      rw [only, ← crc8_isOk]
      simp only [parseLine, begins, found]
      cases crc8 (contentOf (strip line) ((m.group 3).getD [])) with
      | ok crc => exact iff_of_true ⟨_, rfl⟩ ⟨crc, rfl⟩
      | error raised => exact iff_of_false (fun ok => nomatch ok) fun ok => nomatch ok
  · refine iff_of_true ⟨none, ?_⟩ fun content checked => absurd checked.1 begins
    simp only [parseLine, begins]
    rfl

/-! ## Feeding a line -/

/-- A line of the test's fields that is not rejected has integers in them. -/
def WellFormed (isWord : Nat → Bool) (tracker : MemoryTracker) (parsed : ParsedTag) : Prop :=
  parsed.crcValid ≠ some false → tracker.currentTest ≠ [] →
    (parsed.tag = str "MEM:BEFORE" → ∀ name ∈ ["free", "min"],
      Numeric (parsePayload isWord parsed.payloadStr) name) ∧
    (parsed.tag = str "MEM:AFTER" → ∀ name ∈ ["free", "delta", "min"],
      Numeric (parsePayload isWord parsed.payloadStr) name)

/-- A line that is read records all fields of its kind, or leaves the data as they are. -/
def Recorded (isWord : Nat → Bool) (tracker after : MemoryTracker) (parsed : ParsedTag) : Prop :=
  after.data = tracker.data ∨
    parsed.tag = str "MEM:BEFORE" ∧
      RecordsBefore (parsePayload isWord parsed.payloadStr) tracker after ∨
    parsed.tag = str "MEM:AFTER" ∧
      RecordsAfter (parsePayload isWord parsed.payloadStr) tracker after

theorem run_feedParsed (parsed : ParsedTag) :
    run (feedParsed isWord parsed) tracker =
      if parsed.crcValid = some false ∨ tracker.currentTest = [] then (.ok (), tracker)
      else if parsed.tag = str "MEM:BEFORE" then
        run (recordBefore (parsePayload isWord parsed.payloadStr)) tracker
      else if parsed.tag = str "MEM:AFTER" then
        run (recordAfter (parsePayload isWord parsed.payloadStr)) tracker
      else (.ok (), tracker) := by
  by_cases rejected : parsed.crcValid = some false
  · simp [feedParsed, rejected]
  · by_cases noTest : tracker.currentTest = []
    · simp [feedParsed, rejected, noTest, run_bind]
    · simp only [feedParsed, rejected, noTest, if_false, run_bind, run_get, or_self, ne_eq,
        not_false_eq_true, and_true]
      split
      · rfl
      · split <;> rfl

theorem recorded_of_feedParsed {parsed : ParsedTag}
    (ran : run (feedParsed isWord parsed) tracker = (.ok (), after)) :
    Recorded isWord tracker after parsed := by
  rw [run_feedParsed] at ran
  split at ran
  · cases ran
    exact .inl rfl
  · split at ran
    · rename_i isBefore
      exact .inr (.inl ⟨isBefore, recordBefore_ok.mp ran⟩)
    · split at ran
      · rename_i isAfter
        exact .inr (.inr ⟨isAfter, recordAfter_ok.mp ran⟩)
      · cases ran
        exact .inl rfl

theorem recordBefore_isOk {payload : Payload} :
    (∃ after, run (recordBefore payload) tracker = (.ok (), after)) ↔
      ∀ name ∈ ["free", "min"], Numeric payload name := by
  simp only [recordBefore_ok, RecordsBefore, List.mem_cons, List.not_mem_nil, or_false,
    forall_eq_or_imp, forall_eq, ← fieldValue_isOk]
  constructor
  · intro records
    obtain ⟨_, free, min, isFree, isMin, _⟩ := records
    exact ⟨⟨free, isFree⟩, ⟨min, isMin⟩⟩
  · intro integers
    obtain ⟨⟨free, isFree⟩, ⟨min, isMin⟩⟩ := integers
    exact ⟨_, free, min, isFree, isMin, rfl⟩

theorem recordAfter_isOk {payload : Payload} :
    (∃ after, run (recordAfter payload) tracker = (.ok (), after)) ↔
      ∀ name ∈ ["free", "delta", "min"], Numeric payload name := by
  simp only [recordAfter_ok, RecordsAfter, List.mem_cons, List.not_mem_nil, or_false,
    forall_eq_or_imp, forall_eq, ← fieldValue_isOk]
  constructor
  · intro records
    obtain ⟨_, free, delta, min, isFree, isDelta, isMin, _⟩ := records
    exact ⟨⟨free, isFree⟩, ⟨delta, isDelta⟩, ⟨min, isMin⟩⟩
  · intro integers
    obtain ⟨⟨free, isFree⟩, ⟨delta, isDelta⟩, ⟨min, isMin⟩⟩ := integers
    exact ⟨_, free, delta, min, isFree, isDelta, isMin, rfl⟩

theorem feedParsed_isOk {parsed : ParsedTag} :
    (∃ after, run (feedParsed isWord parsed) tracker = (.ok (), after)) ↔
      WellFormed isWord tracker parsed := by
  rw [run_feedParsed, WellFormed]
  split
  · rename_i ignored
    refine iff_of_true ⟨tracker, rfl⟩ fun accepted hasTest => ?_
    cases ignored with
    | inl rejected => exact absurd rejected accepted
    | inr noTest => exact absurd noTest hasTest
  · rename_i heard
    obtain ⟨accepted, hasTest⟩ := not_or.mp heard
    simp only [ne_eq, accepted, hasTest, not_false_eq_true, forall_const]
    split
    · rename_i isBefore
      -- the two kinds exclude each other
      have notAfter : parsed.tag ≠ str "MEM:AFTER" := by
        rw [isBefore]
        decide
      rw [recordBefore_isOk]
      exact ⟨fun integers => ⟨fun _ => integers, fun isAfter => absurd isAfter notAfter⟩,
        fun both => both.1 isBefore⟩
    · rename_i notBefore
      split
      · rename_i isAfter
        rw [recordAfter_isOk]
        exact ⟨fun integers => ⟨fun isBefore => absurd isBefore notBefore, fun _ => integers⟩,
          fun both => both.2 isAfter⟩
      · rename_i notAfter
        exact iff_of_true ⟨tracker, rfl⟩
          ⟨fun isBefore => absurd isBefore notBefore, fun isAfter => absurd isAfter notAfter⟩

variable (isWord linePrefix tracker)

/-- `feed` returns, and records all fields of a line or nothing. -/
def Survives (message : Line) : Prop :=
  ∃ after, run (feed isWord linePrefix message) tracker = (.ok (), after) ∧
    (after.data = tracker.data ∨
      ∃ parsed, parseLine linePrefix message.text = .ok (some parsed) ∧
        Recorded isWord tracker after parsed)

/-- What a line has to be for that. -/
def Sound (message : Line) : Prop :=
  (∀ content, Checked linePrefix message.text content → Encodable content) ∧
    ∀ parsed, parseLine linePrefix message.text = .ok (some parsed) →
      WellFormed isWord tracker parsed

theorem memory_survives_iff (message : Line) :
    Survives isWord linePrefix tracker message ↔ Sound isWord linePrefix tracker message := by
  rw [Sound, ← parseLine_isOk]
  simp only [Survives, feed, run_bind, run_ofExcept]
  cases parseLine linePrefix message.text with
  | error raised =>
    exact iff_of_false (fun survives => nomatch survives) fun sound => nomatch sound.1
  | ok outcome =>
    cases outcome with
    | none =>
      exact iff_of_true ⟨tracker, rfl, .inl rfl⟩
        ⟨⟨none, rfl⟩, fun parsed isParsed => nomatch isParsed⟩
    | some parsed =>
      constructor
      · intro survives
        obtain ⟨after, ran, _⟩ := survives
        refine ⟨⟨_, rfl⟩, fun parsed' same => ?_⟩
        cases same
        exact feedParsed_isOk.mp ⟨after, ran⟩
      · intro sound
        obtain ⟨after, ran⟩ := feedParsed_isOk.mpr (sound.2 parsed rfl)
        exact ⟨after, ran, .inr ⟨parsed, rfl, recorded_of_feedParsed ran⟩⟩

/-- `\w` in ASCII. -/
def asciiWord (c : Nat) : Bool :=
  (0x30 ≤ c && c ≤ 0x39) || (0x41 ≤ c && c ≤ 0x5A) || c == 0x5F || (0x61 ≤ c && c ≤ 0x7A)

/-- A test whose heap is reported with a text for a number. -/
def garbled : Line := .str (str "ETST:MEM:BEFORE free=200000 min=?")

/-- It raises, and the first field is recorded by then. -/
theorem memory_not_survived :
    ¬ Survives asciiWord defaultPrefix { currentTest := str "t" } garbled ∧
      (run (feed asciiWord defaultPrefix garbled) { currentTest := str "t" }).2.data =
        [(str "t", { freeBefore := 200000 })] := by
  have raised : run (feed asciiWord defaultPrefix garbled) { currentTest := str "t" } =
      (.error .valueError,
        { currentTest := str "t", data := [(str "t", { freeBefore := 200000 })] }) := by
    decide +kernel
  constructor
  · intro survives
    obtain ⟨after, ran, _⟩ := survives
    cases raised.symm.trans ran
  · rw [raised]

end EmbeddedBridge.Python.MemoryTracker
