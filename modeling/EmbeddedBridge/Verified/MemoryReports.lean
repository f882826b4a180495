import EmbeddedBridge.Verified.MemorySurvival

/-! # What the memory tracker reports

A line changes the record of the current test, and what it makes of that depends on nothing
else (`affects_feed`).  So each test has the record that it would have if its lines were the
only ones, and `report()` is about these records (`reports_leaks`).  It raises nothing, since
all the numbers have been read from texts.
-/

namespace EmbeddedBridge.Python.MemoryTracker

open Library Py Methods

variable {isWord : Nat → Bool} {linePrefix name : Str} {tracker : MemoryTracker}

/-! ## Numbers -/

/-- The numbers of the report are not too long. -/
structure Printable (info : MemoryInfo) : Prop where
  freeBefore : info.freeBefore.natAbs < 10 ^ maxStrDigits
  freeAfter : info.freeAfter.natAbs < 10 ^ maxStrDigits
  delta : info.delta.natAbs < 10 ^ maxStrDigits

theorem natAbs_zero_lt (most : Nat) : (0 : Int).natAbs < 10 ^ most := Nat.pow_pos (Nat.succ_pos 9)

theorem printable_default : Printable {} :=
  ⟨natAbs_zero_lt _, natAbs_zero_lt _, natAbs_zero_lt _⟩

theorem fieldValue_lt {payload : Payload} {field : String} {value : Int}
    (isField : fieldValue payload field = .ok value) : value.natAbs < 10 ^ maxStrDigits := by
  rw [fieldValue] at isField
  cases found : (Json.getItem (· == ·) (str field) payload).getD (.text (str "0")) with
  | text text =>
    rw [found] at isField
    exact intOfText_lt isField
  | flag =>
    rw [found] at isField
    cases isField
    exact natAbs_zero_lt _

theorem reportLine_isOk {entry : Str × MemoryInfo} (printable : Printable entry.2) :
    ∃ line, reportLine entry = .ok line := by
  obtain ⟨delta, isDelta⟩ := reprInt_isOk printable.delta
  obtain ⟨freeBefore, isBefore⟩ := reprInt_isOk printable.freeBefore
  obtain ⟨freeAfter, isAfter⟩ := reprInt_isOk printable.freeAfter
  simp only [reportLine, formatSigned, isDelta, isBefore, isAfter]
  exact ⟨_, rfl⟩

theorem reportLines_isOk (entries : List (Str × MemoryInfo))
    (printable : ∀ entry ∈ entries, Printable entry.2) :
    ∃ lines, entries.mapM reportLine = .ok lines := by
  induction entries with
  | nil => exact ⟨[], rfl⟩
  | cons entry entries inductionHypothesis =>
    obtain ⟨line, first⟩ := reportLine_isOk (printable entry List.mem_cons_self)
    obtain ⟨lines, rest⟩ := inductionHypothesis fun other member =>
      printable other (List.mem_cons_of_mem _ member)
    exact ⟨line :: lines, by rw [List.mapM_cons, first, rest]; rfl⟩

/-! ## What a line does -/

theorem setDefault_eq : tracker.setDefault = tracker.withInfo tracker.infoNow := by
  cases found : tracker.infoOf tracker.currentTest with
  | none => simp only [setDefault, found, withInfo, infoNow, Option.getD_none]
  | some info =>
    simp only [setDefault, found, withInfo, infoNow, Option.getD_some]
    rw [Json.setItem_getItem found]

/-- The method makes of the record of the current test what it would make of it in any
other tracker. -/
def Records (method : Method Unit) : Prop :=
  ∃ outcome, ∃ change : MemoryInfo → MemoryInfo,
    (∀ info, Printable info → Printable (change info)) ∧
      ∀ tracker info, run method (withInfo tracker info) = (outcome, withInfo tracker (change info))

theorem records_assign {change : MemoryInfo → MemoryInfo}
    (keeps : ∀ info, Printable info → Printable (change info)) :
    Records (modify (assign change)) :=
  ⟨.ok (), change, keeps, fun tracker info => by rw [run_modify, assign_withInfo]⟩

theorem records_then {change : MemoryInfo → MemoryInfo} {next : Method Unit}
    (keeps : ∀ info, Printable info → Printable (change info)) (later : Records next) :
    Records (do modify (assign change); next) := by
  obtain ⟨outcome, after, keepsAfter, ran⟩ := later
  refine ⟨outcome, after ∘ change, fun info printable => keepsAfter _ (keeps info printable), ?_⟩
  intro tracker info
  rw [run_bind_ok _ (run_modify _ _), assign_withInfo, ran]
  rfl

theorem records_field {payload : Payload} {field : String} {next : Int → Method Unit}
    (later : ∀ value : Int, value.natAbs < 10 ^ maxStrDigits → Records (next value)) :
    Records (MonadExcept.ofExcept (fieldValue payload field) >>= next) := by
  cases isField : fieldValue payload field with
  | error raised =>
    exact ⟨.error raised, id, fun _ printable => printable, fun tracker info => by
      rw [run_bind, run_ofExcept]
      rfl⟩
  | ok value =>
    obtain ⟨outcome, change, keeps, ran⟩ := later value (fieldValue_lt isField)
    exact ⟨outcome, change, keeps, fun tracker info => by
      rw [run_bind_ok _ (run_ofExcept _ _), ran]⟩

/-- What is left of the tracker when the record of the current test has changed, if it has. -/
def recorded (tracker : MemoryTracker) (change : Option (MemoryInfo → MemoryInfo)) :
    MemoryTracker :=
  change.elim tracker fun change => tracker.withInfo (change tracker.infoNow)

/-- While the test is the current one, the method does to its record always the same, if
anything. -/
def Affects (name : Str) (method : Method Unit) : Prop :=
  ∃ change : Option (MemoryInfo → MemoryInfo),
    (∀ change' ∈ change, ∀ info, Printable info → Printable (change' info)) ∧
    ∀ tracker : MemoryTracker, tracker.currentTest = name →
      (run method tracker).2 = tracker.recorded change

theorem affects_nothing {method : Method Unit} (unchanged : ∀ tracker : MemoryTracker,
    tracker.currentTest = name → (run method tracker).2 = tracker) : Affects name method := by
  refine ⟨none, ?_, unchanged⟩
  intro change isNone
  cases isNone

theorem affects_setDefault {method : Method Unit} (records : Records method) :
    Affects name (do modify setDefault; method) := by
  obtain ⟨outcome, change, keeps, ran⟩ := records
  refine ⟨some change, ?_, ?_⟩
  · intro change' isSome
    cases isSome
    exact keeps
  · intro tracker _
    rw [run_bind_ok _ (run_modify _ _), setDefault_eq, ran]
    rfl

theorem affects_congr {method method' : Method Unit} (affects : Affects name method)
    (same : ∀ tracker : MemoryTracker, tracker.currentTest = name →
      run method' tracker = run method tracker) : Affects name method' := by
  obtain ⟨change, keeps, ran⟩ := affects
  exact ⟨change, keeps, fun tracker current => by rw [same tracker current, ran tracker current]⟩

theorem affects_recordBefore (payload : Payload) : Affects name (recordBefore payload) := by
  refine affects_setDefault (records_field fun free small => records_then ?_ ?_)
  · exact fun info printable => { printable with freeBefore := small }
  · exact records_field fun min _ => records_assign fun info printable => { printable with }

theorem affects_recordAfter (payload : Payload) : Affects name (recordAfter payload) := by
  refine affects_setDefault (records_field fun free small => records_then ?_ ?_)
  · exact fun info printable => { printable with freeAfter := small }
  refine records_field fun delta small => records_then ?_ ?_
  · exact fun info printable => { printable with delta := small }
  exact records_field fun min _ => records_assign fun info printable => { printable with }

variable (isWord name) in
theorem affects_feedParsed (parsed : ParsedTag) : Affects name (feedParsed isWord parsed) := by
  by_cases ignored : parsed.crcValid = some false ∨ name = []
  · refine affects_nothing fun tracker current => ?_
    rw [run_feedParsed, current, if_pos ignored]
  · by_cases isBefore : parsed.tag = str "MEM:BEFORE"
    · refine affects_congr (affects_recordBefore (parsePayload isWord parsed.payloadStr)) ?_
      intro tracker current
      rw [run_feedParsed, current, if_neg ignored, if_pos isBefore]
    · by_cases isAfter : parsed.tag = str "MEM:AFTER"
      · refine affects_congr (affects_recordAfter (parsePayload isWord parsed.payloadStr)) ?_
        intro tracker current
        rw [run_feedParsed, current, if_neg ignored, if_neg isBefore, if_pos isAfter]
      · refine affects_nothing fun tracker current => ?_
        rw [run_feedParsed, current, if_neg ignored, if_neg isBefore, if_neg isAfter]

variable (isWord linePrefix name) in
theorem affects_feed (message : Line) : Affects name (feed isWord linePrefix message) := by
  cases isParsed : parseLine linePrefix message.text with
  | error raised =>
    refine affects_nothing fun tracker _ => ?_
    simp only [feed, run_bind, run_ofExcept, isParsed]
  | ok result =>
    cases result with
    | none =>
      refine affects_nothing fun tracker _ => ?_
      simp only [feed, run_bind, run_ofExcept, isParsed]
      rfl
    | some parsed =>
      refine affects_congr (affects_feedParsed isWord name parsed) fun tracker _ => ?_
      simp only [feed, run_bind, run_ofExcept, isParsed]

/-! ## Records of one test -/

@[simp] theorem withInfo_currentTest (info : MemoryInfo) :
    (tracker.withInfo info).currentTest = tracker.currentTest := rfl

@[simp] theorem withInfo_leakThreshold (info : MemoryInfo) :
    (tracker.withInfo info).leakThreshold = tracker.leakThreshold := rfl

theorem infoOf_withInfo (info : MemoryInfo) : (tracker.withInfo info).infoOf name =
    if tracker.currentTest = name then some info else tracker.infoOf name := by
  split
  next current =>
    rw [← current]
    exact Json.getItem_setItem_self exact_name
  next elsewhere =>
    exact Json.getItem_setItem_ne exact_name exact_name fun same => elsewhere same.symm

theorem recorded_currentTest (change : Option (MemoryInfo → MemoryInfo)) :
    (tracker.recorded change).currentTest = tracker.currentTest := by
  cases change <;> rfl

/-- What is done to the record of the current test depends on that record alone. -/
theorem infoOf_recorded {tracker' : MemoryTracker} (change : Option (MemoryInfo → MemoryInfo))
    (current : tracker.currentTest = name) (current' : tracker'.currentTest = name)
    (same : tracker.infoOf name = tracker'.infoOf name) :
    (tracker.recorded change).infoOf name = (tracker'.recorded change).infoOf name := by
  cases change with
  | none => exact same
  | some change =>
    have now : tracker.infoNow = tracker'.infoNow := by
      rw [infoNow, infoNow, current, current', same]
    simp only [recorded, Option.elim_some, infoOf_withInfo, current, current', now, if_true]

/-- A line of another test. -/
theorem infoOf_recorded_ne (change : Option (MemoryInfo → MemoryInfo))
    (elsewhere : tracker.currentTest ≠ name) :
    (tracker.recorded change).infoOf name = tracker.infoOf name := by
  cases change with
  | none => rfl
  | some change => simp only [recorded, Option.elim_some, infoOf_withInfo, if_neg elsewhere]

/-- The lines of one test since the last `reset()`, each with the prefix at that time. -/
structure Hearing where
  currentTest : Str := []
  linePrefix : Str
  heard : List (Str × Line) := []

def hears (name : Str) (hearing : Hearing) : Call → Hearing
  | .feed message =>
    if hearing.currentTest = name then
      { hearing with heard := hearing.heard ++ [(hearing.linePrefix, message)] }
    else hearing
  | .setCurrentTest other => { hearing with currentTest := other }
  | .setPrefix linePrefix => { hearing with linePrefix }
  | .reset => { hearing with currentTest := [], heard := [] }

/-- A tracker with one test, which is fed these lines. -/
def replay (isWord : Nat → Bool) (name : Str) (heard : List (Str × Line)) : MemoryTracker :=
  heard.foldl (fun tracker line => (run (feed isWord line.1 line.2) tracker).2)
    { currentTest := name }

theorem replay_snoc (heard : List (Str × Line)) (line : Str × Line) :
    replay isWord name (heard ++ [line]) =
      (run (feed isWord line.1 line.2) (replay isWord name heard)).2 := by
  rw [replay, List.foldl_append]
  rfl

theorem replay_currentTest (heard : List (Str × Line)) :
    (replay isWord name heard).currentTest = name := by
  induction heard using List.reverseRecOn with
  | nil => rfl
  | append_singleton heard line inductionHypothesis =>
    obtain ⟨change, _, ran⟩ := affects_feed isWord line.1 name line.2
    rw [replay_snoc, ran _ inductionHypothesis, recorded_currentTest, inductionHypothesis]

/-- The record of the test is that of a tracker that is fed its lines only. -/
structure Follows (isWord : Nat → Bool) (name : Str) (state : MemoryTracker × Str)
    (hearing : Hearing) : Prop where
  currentTest : hearing.currentTest = state.1.currentTest
  linePrefix : hearing.linePrefix = state.2
  record : state.1.infoOf name = (replay isWord name hearing.heard).infoOf name

theorem follows_call {state : MemoryTracker × Str} {hearing : Hearing}
    (follows : Follows isWord name state hearing) (next : Call) :
    Follows isWord name (call isWord state next) (hears name hearing next) := by
  have current := follows.currentTest
  cases next with
  | feed message =>
    obtain ⟨change, _, ran⟩ := affects_feed isWord state.2 state.1.currentTest message
    simp only [call, hears, ran state.1 rfl]
    split
    next here =>
      rw [current] at here
      subst here
      refine ⟨current.trans (recorded_currentTest change).symm, follows.linePrefix, ?_⟩
      simp only [replay_snoc, follows.linePrefix]
      rw [ran _ (replay_currentTest _)]
      exact infoOf_recorded change rfl (replay_currentTest _) follows.record
    next elsewhere =>
      rw [current] at elsewhere
      refine ⟨current.trans (recorded_currentTest change).symm, follows.linePrefix, ?_⟩
      exact (infoOf_recorded_ne change elsewhere).trans follows.record
  | setCurrentTest other => exact ⟨rfl, follows.linePrefix, follows.record⟩
  | setPrefix linePrefix => exact ⟨current, rfl, follows.record⟩
  | reset => exact ⟨rfl, follows.linePrefix, rfl⟩

/-! ## All records -/

/-- One record for each test, of numbers that can be printed. -/
structure Tidy (leakThreshold : Int) (tracker : MemoryTracker) : Prop where
  distinct : Json.Distinct tracker.data
  printable : ∀ entry ∈ tracker.data, Printable entry.2
  leakThreshold : tracker.leakThreshold = leakThreshold

theorem tidy_recorded {leakThreshold : Int} (tidy : Tidy leakThreshold tracker)
    {change : Option (MemoryInfo → MemoryInfo)}
    (keeps : ∀ change' ∈ change, ∀ info, Printable info → Printable (change' info)) :
    Tidy leakThreshold (tracker.recorded change) := by
  cases change with
  | none => exact tidy
  | some change =>
    have now : Printable tracker.infoNow := by
      rw [infoNow]
      cases found : tracker.infoOf tracker.currentTest with
      | none => exact printable_default
      | some info =>
        exact tidy.printable _ ((Json.getItem_eq_some exact_name tidy.distinct).mp found)
    refine ⟨Json.distinct_setItem exact_name tidy.distinct, ?_, tidy.leakThreshold⟩
    intro entry member
    cases (Json.mem_setItem_iff exact_name tidy.distinct).mp member with
    | inl new =>
      rw [new]
      exact keeps change rfl _ now
    | inr old => exact tidy.printable entry old.2

theorem tidy_call {leakThreshold : Int} {state : MemoryTracker × Str}
    (tidy : Tidy leakThreshold state.1) (next : Call) :
    Tidy leakThreshold (call isWord state next).1 := by
  cases next with
  | feed message =>
    obtain ⟨change, keeps, ran⟩ := affects_feed isWord state.2 state.1.currentTest message
    simp only [call, ran state.1 rfl]
    exact tidy_recorded tidy keeps
  | setCurrentTest other => exact ⟨tidy.distinct, tidy.printable, tidy.leakThreshold⟩
  | setPrefix linePrefix => exact tidy
  | reset =>
    exact ⟨List.nodup_nil, fun _ member => absurd member List.not_mem_nil, tidy.leakThreshold⟩

variable (isWord) in
theorem tracked_calls (leakThreshold : Int) (linePrefix : Str) (calls : List Call) :
    let after := calls.foldl (call isWord) ({ leakThreshold }, linePrefix)
    Tidy leakThreshold after.1 ∧
      ∀ name, Follows isWord name after (calls.foldl (hears name) { linePrefix }) := by
  intro after
  induction calls using List.reverseRecOn with
  | nil =>
    refine ⟨⟨List.nodup_nil, fun _ member => absurd member List.not_mem_nil, rfl⟩, ?_⟩
    exact fun name => ⟨rfl, rfl, rfl⟩
  | append_singleton calls next inductionHypothesis =>
    simp only [after, List.foldl_append, List.foldl_cons, List.foldl_nil]
    exact ⟨tidy_call inductionHypothesis.1 next,
      fun name => follows_call (inductionHypothesis.2 name) next⟩

/-! ## Main result -/

/-- After any calls: each test has the record that its own lines alone would have given it, and
`report()` returns one line for each test that leaks, the worst first, and tests that leak the
same in the order of the records. -/
theorem reports_leaks (isWord : Nat → Bool) (leakThreshold : Int) (linePrefix : Str)
    (calls : List Call) :
    let after := (calls.foldl (call isWord) ({ leakThreshold }, linePrefix)).1
    let alone (name : Str) : Option MemoryInfo :=
      (replay isWord name (calls.foldl (hears name) { linePrefix }).heard).infoOf name
    (∀ name, after.infoOf name = alone name) ∧
    ∃ entries lines,
      after.report = .ok (if entries = [] then []
        else List.intercalate (str "\n") (str "Memory Report:" :: lines)) ∧
      entries.mapM reportLine = .ok lines ∧
      (entries.map Prod.fst).Nodup ∧
      (∀ name info, (name, info) ∈ entries ↔ alone name = some info ∧ info.delta < leakThreshold) ∧
      (entries.Pairwise fun left right => left.2.delta ≤ right.2.delta) ∧
      ∀ delta, entries.filter (fun entry => decide (entry.2.delta = delta)) =
        after.allTests.filter fun entry =>
          decide (entry.2.delta = delta) && decide (delta < leakThreshold) := by
  intro after alone
  obtain ⟨tidy, follows⟩ := tracked_calls isWord leakThreshold linePrefix calls
  have records (name : Str) : after.infoOf name = alone name := (follows name).record
  refine ⟨records, ?_⟩
  let entries := sortedBy (fun entry : Str × MemoryInfo => entry.2.delta) after.leaks
  have leaking {entry : Str × MemoryInfo} :
      entry ∈ entries ↔ entry ∈ after.data ∧ entry.2.delta < leakThreshold := by
    rw [mem_sortedBy, leaks, List.mem_filter, decide_eq_true_eq, tidy.leakThreshold]
  obtain ⟨lines, written⟩ := reportLines_isOk entries fun entry member =>
    tidy.printable entry (leaking.mp member).1
  refine ⟨entries, lines, ?_, written, ?_, ?_, pairwise_sortedBy _ _, ?_⟩
  · change reportOf entries = _
    rw [reportOf, written]
    split <;> rfl
  · refine ((sortedBy_perm _ _).map Prod.fst).nodup_iff.mpr ?_
    exact tidy.distinct.sublist (List.filter_sublist.map Prod.fst)
  · intro name info
    rw [leaking, ← records, infoOf, Json.getItem_eq_some exact_name tidy.distinct]
  · intro delta
    rw [filter_sortedBy, leaks, List.filter_filter, tidy.leakThreshold, allTests]
    refine List.filter_congr fun entry _ => ?_
    by_cases here : entry.2.delta = delta
    · rw [here]
    · simp [here]

end EmbeddedBridge.Python.MemoryTracker
