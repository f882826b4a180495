import EmbeddedBridge.Library.Histories
import EmbeddedBridge.Testing.Discovery
import EmbeddedBridge.Verified.SleepSafety

/-! # What discovery makes of any device

Whether `discover` raises something else than its `TimeoutError` is decided by the first line
that is a catalog or is nested too deep (`discoverLoop_outcome`).  And the loops end if the
clock gets past every deadline (`discover_ends`).
-/

namespace EmbeddedBridge.Python.TestSession

open Library Py Histories Methods

variable {φ ω : Type}

/-! ## Catalogs -/

/-- A value of `tests` that can be gone through. -/
inductive Listed : Json φ → Prop where
  | array {elements : List (Json φ)}
      (each : ∀ t ∈ elements, ∃ fields, t = .object fields ∧
        (Json.get fields (str "id")).isSome = true) :
      Listed (.array elements)
  | noKeys : Listed (.object [])
  | noCharacters : Listed (.str [])

theorem testInfo_ok_iff (t : Json φ) : (∃ info, testInfo t = .ok info) ↔
    ∃ fields, t = .object fields ∧ (Json.get fields (str "id")).isSome = true := by
  cases t with
  | object fields =>
    cases found : Json.get fields (str "id") with
    | none => simp [testInfo, item, found, bind, Except.bind]
    | some id => simp [testInfo, item, getOr, found, bind, Except.bind, pure, Except.pure]
  | _ => simp [testInfo, item, bind, Except.bind]

/-- A string in the place of a test raises. -/
theorem testInfo_str (text : Str) : ¬ ∃ info, testInfo (.str text : Json φ) = .ok info := by
  rw [testInfo_ok_iff]
  simp

theorem catalog_ok_iff (obj : List (Str × Json φ)) : (∃ tests, catalog obj = .ok tests) ↔
    Listed ((Json.get obj (str "tests")).getD (.array [])) := by
  simp only [catalog]
  cases (Json.get obj (str "tests")).getD (.array []) with
  | array tests =>
    change (∃ infos, tests.mapM testInfo = .ok infos) ↔ _
    simp only [mapM_ok_iff, testInfo_ok_iff]
    constructor
    · exact .array
    · intro listed
      cases listed with
      | array each => exact each
  | object fields =>
    change (∃ infos, (fields.map fun field => Json.str field.1).mapM testInfo = .ok infos) ↔ _
    rw [mapM_ok_iff]
    cases fields with
    | nil => exact iff_of_true (by simp) .noKeys
    | cons field fields =>
      refine iff_of_false (fun each => ?_) nofun
      exact testInfo_str field.1 (each _ (by simp))
  | str text =>
    change (∃ infos, (text.map fun c => Json.str [c]).mapM testInfo = .ok infos) ↔ _
    rw [mapM_ok_iff]
    cases text with
    | nil => exact iff_of_true (by simp) .noCharacters
    | cons c text =>
      refine iff_of_false (fun each => ?_) nofun
      exact testInfo_str [c] (each _ (by simp))
  | null => exact iff_of_false nofun nofun
  | bool value => exact iff_of_false nofun nofun
  | number value => exact iff_of_false nofun nofun

/-- Neither a run that goes on nor a timeout. -/
def DiscoverStop.IsForeign : DiscoverStop → Prop
  | .session .cutOff => False
  | .timeoutError _ => False
  | _ => True

theorem foreign_of_testInfo {t : Json φ} {stop : DiscoverStop} (raises : testInfo t = .error stop) :
    stop.IsForeign := by
  cases t with
  | object fields =>
    cases found : Json.get fields (str "id") with
    | none =>
      simp only [testInfo, item, found, bind, Except.bind] at raises
      cases raises
      trivial
    | some id => simp [testInfo, item, getOr, found, bind, Except.bind, pure, Except.pure] at raises
  | _ =>
    cases raises
    trivial

theorem foreign_of_catalog {obj : List (Str × Json φ)} {stop : DiscoverStop}
    (raises : catalog obj = .error stop) : stop.IsForeign := by
  simp only [catalog] at raises
  cases gone : elements ((Json.get obj (str "tests")).getD (.array [])) with
  | ok tests =>
    rw [gone] at raises
    obtain ⟨t, member, raises'⟩ := mapM_error raises
    exact foreign_of_testInfo raises'
  | error stop' =>
    rw [gone] at raises
    cases raises
    cases value : (Json.get obj (str "tests")).getD (.array []) with
    | null | bool | number =>
      rw [value] at gone
      cases gone
      trivial
    | array | object | str =>
      rw [value] at gone
      cases gone

/-! ## Lines -/

section

variable (φ) [PyFloat φ] (depth : Nat) (line : Str)

def IsCatalog : Prop :=
  ∃ obj : List (Str × Json φ), parseJsonLine depth line = .ok (some obj) ∧ isCatalog obj = true

/-- A line that is nested deeper than `json.loads` goes, or a catalog whose tests cannot be
gone through. -/
inductive Breaks : Prop where
  | tooDeep (error : Raised)
      (raises : (parseJsonLine depth line : Except Raised (Option (List (Str × Json φ)))) =
        .error error)
  | unlisted (obj : List (Str × Json φ)) (parsed : parseJsonLine depth line = .ok (some obj))
      (isCatalog : isCatalog obj = true)
      (notListed : ¬ Listed ((Json.get obj (str "tests")).getD (.array [])))

/-- What ends the loop, if the line does. -/
def decided : Option (Except DiscoverStop (List (TestInfo φ))) :=
  match (catalogIn depth line : Except DiscoverStop (Option (List (TestInfo φ)))) with
  | .ok none => none
  | .ok (some tests) => some (.ok tests)
  | .error stop => some (.error stop)

/-- The line has the tests. -/
def Answers (tests : List (TestInfo φ)) : Prop :=
  ∃ obj : List (Str × Json φ), parseJsonLine depth line = .ok (some obj) ∧
    isCatalog obj = true ∧ catalog obj = .ok tests

inductive Decision : Prop where
  | passes (undecided : decided φ depth line = none) (noCatalog : ¬ IsCatalog φ depth line)
      (whole : ¬ Breaks φ depth line)
  | answers (tests : List (TestInfo φ)) (decides : decided φ depth line = some (.ok tests))
      (has : Answers φ depth line tests) (whole : ¬ Breaks φ depth line)
  | breaks (stop : DiscoverStop) (decides : decided φ depth line = some (.error stop))
      (foreign : stop.IsForeign) (broken : Breaks φ depth line)

theorem decision : Decision φ depth line := by
  cases parsed : (parseJsonLine depth line : Except Raised (Option (List (Str × Json φ)))) with
  | error error =>
    refine .breaks (.session (.raised error)) ?_ trivial (.tooDeep error parsed)
    simp only [decided, catalogIn, parsed]
  | ok result =>
    -- a line that is parsed breaks the loop only as a catalog
    have whole_of (listed : ∀ obj, result = some obj → isCatalog obj = true →
        Listed ((Json.get obj (str "tests")).getD (.array []))) : ¬ Breaks φ depth line := by
      intro broken
      cases broken with
      | tooDeep error raises => cases parsed.symm.trans raises
      | unlisted obj parsed' isCatalog notListed =>
        cases parsed.symm.trans parsed'
        exact notListed (listed obj rfl isCatalog)
    cases result with
    | none =>
      refine .passes (by simp only [decided, catalogIn, parsed]) ?_ (whole_of nofun)
      intro isCatalog
      obtain ⟨obj, parsed', isCatalog⟩ := isCatalog
      cases parsed.symm.trans parsed'
    | some obj =>
      by_cases is : isCatalog obj = true
      · cases built : catalog obj with
        | ok tests =>
          refine .answers tests ?_ ⟨obj, parsed, is, built⟩ (whole_of ?_)
          · simp only [decided, catalogIn, parsed, if_pos is, built, Except.map]
          · intro obj' same isCatalog'
            cases same
            exact (catalog_ok_iff obj).mp ⟨tests, built⟩
        | error stop =>
          refine .breaks stop ?_ (foreign_of_catalog built) (.unlisted obj parsed is ?_)
          · simp only [decided, catalogIn, parsed, if_pos is, built, Except.map]
          · intro listed
            obtain ⟨tests, built'⟩ := (catalog_ok_iff obj).mpr listed
            cases built.symm.trans built'
      · refine .passes ?_ ?_ (whole_of ?_)
        · simp only [decided, catalogIn, parsed, if_neg is]
        · intro isCatalog'
          obtain ⟨obj', parsed', is'⟩ := isCatalog'
          cases parsed.symm.trans parsed'
          exact is is'
        · intro obj' same is'
          cases same
          exact absurd is' is

section

variable {φ depth line}

theorem answers_of_decided {tests : List (TestInfo φ)}
    (decides : decided φ depth line = some (.ok tests)) : Answers φ depth line tests := by
  cases decision φ depth line with
  | passes undecided noCatalog whole => cases undecided.symm.trans decides
  | answers tests' decides' has whole =>
    cases decides'.symm.trans decides
    exact has
  | breaks stop decides' foreign broken => cases decides'.symm.trans decides

theorem foreign_of_decided {stop : DiscoverStop}
    (decides : decided φ depth line = some (.error stop)) : stop.IsForeign := by
  cases decision φ depth line with
  | passes undecided noCatalog whole => cases undecided.symm.trans decides
  | answers tests decides' has whole => cases decides'.symm.trans decides
  | breaks stop' decides' foreign broken =>
    cases decides'.symm.trans decides
    exact foreign

end

/-- No line breaks up to the first catalog. -/
def Sound (lines : List Str) : Prop :=
  Everywhere (fun before line =>
    (∀ earlier ∈ before, ¬ IsCatalog φ depth earlier) → ¬ Breaks φ depth line) lines

theorem sound_iff (lines : List Str) : Sound φ depth lines ↔
    ∀ stop, lines.findSome? (decided φ depth) ≠ some (.error stop) := by
  induction lines with
  | nil => exact iff_of_true everywhere_nil nofun
  | cons line lines inductionHypothesis =>
    rw [Sound, everywhere_cons, List.findSome?_cons]
    cases decision φ depth line with
    | passes undecided noCatalog whole =>
      rw [undecided, ← inductionHypothesis]
      simp only [List.not_mem_nil, false_implies, implies_true, whole, not_false_eq_true,
        List.forall_mem_cons, noCatalog, true_and, Sound]
    | answers tests decides has whole =>
      rw [decides]
      refine iff_of_true ⟨fun _ => whole, fun before call after split none => ?_⟩ nofun
      obtain ⟨obj, parsed, is, built⟩ := has
      exact absurd ⟨obj, parsed, is⟩ (none line List.mem_cons_self)
    | breaks stop decides foreign broken =>
      rw [decides]
      refine iff_of_false (fun sound => sound.1 nofun broken) fun other => other stop rfl

end

variable [PyFloat φ] (env : Environment φ ω) (depth : Nat) (timeout : φ)

/-! ## What is heard -/

/-- The lines that the loop would read if none of them ended it. -/
def heardLoop (deadline : φ) : (fuel : Nat) → TestSession φ ω → List Str
  | 0, _ => []
  | fuel + 1, session =>
    match run (clock env) session with
    | (.error _, _) => []
    | (.ok now, session) =>
      if PyFloat.lt now deadline then
        match run (readLine env (PyFloat.literal 5 1) fuel) session with
        | (.error _, _) => []
        | (.ok line, session) => line.toList ++ heardLoop deadline fuel session
      else []

/-- From the request for the catalog on. -/
def heard (fuel : Nat) (session : TestSession φ ω) : List Str :=
  match run (write env SOH >>= fun _ => clock env) session with
  | (.error _, _) => []
  | (.ok now, session) => heardLoop env (PyFloat.add now timeout) fuel session

/-- What a turn of `_read_line` comes to: `none` if the loop goes on. -/
def readOnce (timeout : φ) : Method φ ω (Option (Option Str)) := do
  let tenth := PyFloat.literal 1 1
  let data ← read env (if PyFloat.lt timeout tenth then timeout else tenth)
  if data = [] then do
    match ← takeLine with
    | some stripped => return some (if stripped ≠ [] then some stripped else none)
    | none => return none
  else do
    decode data
    match ← takeLine with
    | some stripped => return if stripped ≠ [] then some (some stripped) else none
    | none => return none

theorem readLineLoop_succ (deadline : φ) (fuel : Nat) :
    readLineLoop env timeout deadline (fuel + 1) = (do
      let now ← clock env
      if PyFloat.lt now deadline then do
        match ← readOnce env timeout with
        | some result => return result
        | none => readLineLoop env timeout deadline fuel
      else return none) := by
  rw [readLineLoop]
  congr 1
  funext now
  split
  · simp only [readOnce, bind_assoc]
    congr 1
    funext data
    split
    · simp only [bind_assoc]
      congr 1
      funext taken
      cases taken with
      | none => simp only [pure_bind]
      | some stripped => simp only [pure_bind]
    · simp only [bind_assoc]
      congr 1
      funext _
      congr 1
      funext taken
      cases taken with
      | none => simp only [pure_bind]
      | some stripped =>
        simp only [pure_bind]
        split <;> rfl
  · rfl

/-! ## The loops end -/

/-- The clock gets past the deadline after as many readings at most. -/
structure Passes (deadline : φ) (left : ω → Nat) : Prop where
  clock : ∀ world, PyFloat.lt (env.clock world).1 deadline = true →
    left (env.clock world).2 < left world
  later : ∀ world, left (env.clock world).2 ≤ left world
  read : ∀ seconds world, left (env.read seconds world).2 ≤ left world

/-- And past every deadline. -/
def Runs : Prop := ∀ deadline, ∃ left, Passes env deadline left

section

variable {env} {deadline : φ} {left : ω → Nat} (session : TestSession φ ω)

omit [PyFloat φ] in
theorem run_clock : run (clock env) session =
    (.ok (env.clock session.environment).1,
      { session with environment := (env.clock session.environment).2 }) := rfl

omit [PyFloat φ] in
/-- Only the buffer changes. -/
theorem run_takeLine : ∃ taken after,
    run (takeLine : Method φ ω (Option Str)) session = (.ok taken, after) ∧
      after.environment = session.environment := by
  simp only [takeLine, run_bind, run_get]
  cases partition 0x0A session.lineBuf with
  | none => exact ⟨none, session, rfl, rfl⟩
  | some parts => exact ⟨_, _, rfl, rfl⟩

variable (env) in
theorem run_readOnce : ∃ result after seconds,
    run (readOnce env timeout) session = (.ok result, after) ∧
      after.environment = (env.read seconds session.environment).2 := by
  let seconds := if PyFloat.lt timeout (PyFloat.literal 1 1) then timeout else PyFloat.literal 1 1
  obtain ⟨data, read', ran, world⟩ : ∃ data after,
      run (read env seconds) session = (.ok data, after) ∧
        after.environment = (env.read seconds session.environment).2 := ⟨_, _, rfl, rfl⟩
  rw [readOnce, run_bind_ok _ ran]
  split
  · obtain ⟨taken, after, took, same⟩ := run_takeLine read'
    rw [run_bind_ok _ took]
    cases taken with
    | none => exact ⟨_, after, seconds, rfl, same.trans world⟩
    | some stripped => exact ⟨_, after, seconds, rfl, same.trans world⟩
  · obtain ⟨decoded, decodes, unread⟩ : ∃ decoded, run (decode data) read' = (.ok (), decoded) ∧
        decoded.environment = read'.environment := ⟨_, rfl, rfl⟩
    obtain ⟨taken, after, took, same⟩ := run_takeLine decoded
    rw [run_bind_ok _ decodes, run_bind_ok _ took]
    cases taken with
    | none => exact ⟨_, after, seconds, rfl, (same.trans unread).trans world⟩
    | some stripped => exact ⟨_, after, seconds, rfl, (same.trans unread).trans world⟩

/-- `_read_line` itself never raises. -/
theorem readLine_raises (fuel : Nat) {stop : Stop} {after : TestSession φ ω}
    (ran : run (readLine env timeout fuel) session = (.error stop, after)) : stop = .cutOff := by
  rw [readLine, run_bind_ok _ (run_clock session)] at ran
  generalize PyFloat.add _ timeout = deadline at ran
  generalize ({ session with environment := _ } : TestSession φ ω) = session at ran
  induction fuel generalizing session with
  | zero =>
    cases ran
    rfl
  | succ fuel inductionHypothesis =>
    rw [readLineLoop_succ, run_bind_ok _ (run_clock session)] at ran
    split at ran
    · obtain ⟨result, between, seconds, once, world⟩ := run_readOnce env timeout
        { session with environment := (env.clock session.environment).2 }
      rw [run_bind_ok _ once] at ran
      cases result with
      | some result => cases ran
      | none => exact inductionHypothesis between ran
    · cases ran

/-- Enough fuel is fuel for a turn and enough after it. -/
theorem turns {holds : Nat → Prop} {enough : Nat}
    (turn : ∀ fuel, enough ≤ fuel → holds (fuel + 1)) : ∀ fuel, enough < fuel → holds fuel := by
  intro fuel longer
  cases fuel with
  | zero => exact absurd longer (Nat.not_lt_zero enough)
  | succ fuel => exact turn fuel (Nat.le_of_lt_succ longer)

/-- With enough fuel, a call of `_read_line` returns the same whatever the fuel. -/
theorem readLineLoop_ends (passes : Passes env deadline left) : ∃ line after,
    (∀ fuel, left session.environment < fuel →
      run (readLineLoop env timeout deadline fuel) session = (.ok line, after)) ∧
    ∀ deadline' left', Passes env deadline' left' →
      left' after.environment ≤ left' session.environment := by
  induction remaining : left session.environment using Nat.strong_induction_on generalizing session
    with
  | _ bound inductionHypothesis =>
    let now := (env.clock session.environment).1
    let session' : TestSession φ ω :=
      { session with environment := (env.clock session.environment).2 }
    have asked : run (clock env) session = (.ok now, session') := run_clock session
    cases early : PyFloat.lt now deadline with
    -- a timeout takes one turn
    | false =>
      refine ⟨none, session', turns fun fuel _ => ?_, fun _ _ passes' => passes'.later _⟩
      rw [readLineLoop_succ, run_bind_ok _ asked, early]
      rfl
    | true =>
      obtain ⟨result, between, seconds, once, world⟩ := run_readOnce env timeout session'
      -- the reading of the clock is what brings the deadline nearer
      have less : left between.environment < bound := by
        have fewer := passes.clock session.environment early
        have unread : left (env.read seconds session'.environment).2 ≤
            left (env.clock session.environment).2 := passes.read seconds _
        rw [world]
        omega
      have later (deadline' : φ) (left' : ω → Nat) (passes' : Passes env deadline' left') :
          left' between.environment ≤ left' session.environment := by
        rw [world]
        exact (passes'.read seconds _).trans (passes'.later _)
      cases result with
      | some result =>
        refine ⟨result, between, turns fun fuel _ => ?_, later⟩
        rw [readLineLoop_succ, run_bind_ok _ asked, early, if_pos rfl, run_bind_ok _ once]
        rfl
      | none =>
        obtain ⟨line, after, ends, later'⟩ := inductionHypothesis _ less between rfl
        refine ⟨line, after, turns fun fuel enough => ?_, fun deadline' left' passes' =>
          (later' _ _ passes').trans (later _ _ passes')⟩
        rw [readLineLoop_succ, run_bind_ok _ asked, early, if_pos rfl, run_bind_ok _ once]
        exact ends fuel (by omega)

end

/-! ## Discover -/

section

variable {env} {deadline : φ} {left : ω → Nat} {session after : TestSession φ ω} {α : Type}
  {method : Method φ ω α}

omit [PyFloat φ] in
theorem run_part_ok {result : α} (ran : run method session = (.ok result, after)) :
    run (part method) session = (.ok result, after) := by
  rw [part, run_adapt, ran]

omit [PyFloat φ] in
theorem run_part_error {stop : Stop} (ran : run method session = (.error stop, after)) :
    run (part method) session = (.error (.session stop), after) := by
  rw [part, run_adapt, ran]

variable (env deadline session) in
/-- The first line that decides does so, and without one the loop times out or goes on. -/
theorem discoverLoop_outcome (fuel : Nat) : ∃ last : DiscoverStop, ¬ last.IsForeign ∧
    (run (discoverLoop env depth timeout deadline fuel) session).1 =
      ((heardLoop env deadline fuel session).findSome? (decided φ depth)).getD (.error last) := by
  induction fuel generalizing session with
  | zero => exact ⟨.session .cutOff, not_false, rfl⟩
  | succ fuel inductionHypothesis =>
    rw [discoverLoop, run_bind_ok _ (run_part_ok (run_clock session)), heardLoop, run_clock]
    dsimp only
    split
    · generalize ({ session with environment := _ } : TestSession φ ω) = session
      cases ran : run (readLine env (PyFloat.literal 5 1) fuel) session with
      | mk outcome after =>
        cases outcome with
        | error stop =>
          cases readLine_raises _ session fuel ran
          refine ⟨.session .cutOff, not_false, ?_⟩
          rw [run_bind, run_part_error ran]
          rfl
        | ok line =>
          rw [run_bind_ok _ (run_part_ok ran)]
          cases line with
          | none => exact inductionHypothesis after
          | some line =>
            dsimp only
            rw [run_bind, run_ofExcept, Option.toList_some, List.singleton_append,
              List.findSome?_cons, decided]
            cases found : (catalogIn depth line :
              Except DiscoverStop (Option (List (TestInfo φ)))) with
            | error stop => exact ⟨.session .cutOff, not_false, rfl⟩
            | ok tests =>
              cases tests with
              | none => exact inductionHypothesis after
              | some tests => exact ⟨.session .cutOff, not_false, rfl⟩
    · exact ⟨.timeoutError _, not_false, rfl⟩

variable (session) in
theorem readLine_ends (runs : Runs env) (passes : Passes env deadline left) :
    ∃ line after enough,
      (∀ fuel, enough < fuel → run (readLine env timeout fuel) session = (.ok line, after)) ∧
        left after.environment ≤ left (env.clock session.environment).2 := by
  obtain ⟨left', passes'⟩ := runs (PyFloat.add (env.clock session.environment).1 timeout)
  obtain ⟨line, after, ends, later⟩ := readLineLoop_ends timeout
    { session with environment := (env.clock session.environment).2 } passes'
  refine ⟨line, after, left' (env.clock session.environment).2, fun fuel enough => ?_,
    later deadline left passes⟩
  rw [readLine, run_bind_ok _ (run_clock session)]
  exact ends fuel enough

variable (session deadline) in
theorem discoverLoop_ends (runs : Runs env) : ∃ enough, ∀ fuel, enough < fuel →
    (run (discoverLoop env depth timeout deadline fuel) session).1 ≠
      .error (.session .cutOff) := by
  obtain ⟨left, passes⟩ := runs deadline
  induction count : left session.environment using Nat.strong_induction_on generalizing session
    with
  | _ bound inductionHypothesis =>
    let now := (env.clock session.environment).1
    let session' : TestSession φ ω :=
      { session with environment := (env.clock session.environment).2 }
    have asked : run (part (clock env) : Discovering φ ω φ) session = (.ok now, session') :=
      run_part_ok (run_clock session)
    cases early : PyFloat.lt now deadline with
    | false =>
      refine ⟨0, turns fun fuel _ => ?_⟩
      rw [discoverLoop, run_bind_ok _ asked, early]
      exact nofun
    | true =>
      obtain ⟨line, after, enough, returns, later⟩ :=
        readLine_ends (PyFloat.literal 5 1) session' runs passes
      have fewer : left after.environment < bound := by
        have below := passes.clock session.environment early
        have later' : left (env.clock session'.environment).2 ≤
            left (env.clock session.environment).2 := passes.later _
        omega
      obtain ⟨enough', goesOn⟩ := inductionHypothesis _ fewer after rfl
      -- the line and what follows it are read with the same fuel
      refine ⟨max enough enough' + 1, turns fun fuel longer => ?_⟩
      rw [discoverLoop, run_bind_ok _ asked, early, if_pos rfl,
        run_bind_ok _ (run_part_ok (returns fuel (by omega)))]
      cases line with
      | none => exact goesOn fuel (by omega)
      | some line =>
        dsimp only
        rw [run_bind, run_ofExcept]
        cases found : (catalogIn depth line :
          Except DiscoverStop (Option (List (TestInfo φ)))) with
        | error stop =>
          have decides : decided φ depth line = some (.error stop) := by rw [decided, found]
          intro cutOff
          cases cutOff
          exact foreign_of_decided decides
        | ok tests =>
          cases tests with
          | none => exact goesOn fuel (by omega)
          | some tests => exact nofun

theorem run_discover (working : (env.write SOH session.environment).1 = true) :
    ∃ now asked, run (write env SOH >>= fun _ => clock env) session = (.ok now, asked) ∧
      ∀ fuel, run (discover env depth timeout fuel) session =
        run (discoverLoop env depth timeout (PyFloat.add now timeout) fuel) asked := by
  obtain ⟨written, wrote⟩ : ∃ written, run (write env SOH) session = (.ok true, written) :=
    ⟨_, congrArg (fun done => (Except.ok done, _)) working⟩
  refine ⟨_, _, by rw [run_bind_ok _ wrote, run_clock], fun fuel => ?_⟩
  rw [discover, run_bind_ok _ (run_part_ok wrote), if_pos rfl,
    run_bind_ok _ (run_part_ok (run_clock written))]

end

/-- Nothing but a list from a catalog that has been heard or a timeout comes of it, and one of
them does if the clock goes on. -/
structure Tolerates (session : TestSession φ ω) : Prop where
  outcomes : ∀ fuel,
    match (run (discover env depth timeout fuel) session).1 with
    | .ok tests => ∃ line ∈ heard env timeout fuel session, Answers φ depth line tests
    | .error stop => ¬ stop.IsForeign
  ends : Runs env → ∃ enough, ∀ fuel, enough < fuel →
    (run (discover env depth timeout fuel) session).1 ≠ .error (.session .cutOff)

theorem discover_tolerates_iff (session : TestSession φ ω)
    (working : (env.write SOH session.environment).1 = true) :
    Tolerates env depth timeout session ↔
      ∀ fuel, Sound φ depth (heard env timeout fuel session) := by
  obtain ⟨now, asked, began, discovers⟩ := run_discover depth timeout working
  have heard_eq (fuel : Nat) : heard env timeout fuel session =
      heardLoop env (PyFloat.add now timeout) fuel asked := by rw [heard, began]
  constructor
  · intro tolerates fuel
    rw [heard_eq, sound_iff]
    intro stop first
    obtain ⟨last, own, outcome⟩ :=
      discoverLoop_outcome env depth timeout (PyFloat.add now timeout) asked fuel
    rw [first, ← discovers] at outcome
    have tolerated := tolerates.outcomes fuel
    rw [outcome] at tolerated
    obtain ⟨line, member, decides⟩ := List.exists_of_findSome?_eq_some first
    exact tolerated (foreign_of_decided decides)
  · intro sound
    refine ⟨fun fuel => ?_, fun runs => ?_⟩
    · obtain ⟨last, own, outcome⟩ :=
        discoverLoop_outcome env depth timeout (PyFloat.add now timeout) asked fuel
      have never := (sound_iff φ depth _).mp (sound fuel)
      rw [heard_eq] at never
      rw [discovers, outcome, heard_eq]
      cases first : (heardLoop env (PyFloat.add now timeout) fuel asked).findSome?
          (decided φ depth) with
      | none => exact own
      | some answer =>
        cases answer with
        | error stop => exact absurd first (never stop)
        | ok tests =>
          obtain ⟨line, member, decides⟩ := List.exists_of_findSome?_eq_some first
          exact ⟨line, member, answers_of_decided decides⟩
    · obtain ⟨enough, ends⟩ := discoverLoop_ends depth timeout (PyFloat.add now timeout) asked runs
      refine ⟨enough, fun fuel longer => ?_⟩
      rw [discovers]
      exact ends fuel longer

/-- A clock that goes on with each reading. -/
theorem runs_scripted : Runs scripted := by
  intro deadline
  refine ⟨fun script => (deadline.units - script.time).toNat, ?_, ?_, ?_⟩
  · intro script early
    have early' : script.time < deadline.units := of_decide_eq_true early
    simp only [scripted]
    omega
  · intro script
    simp only [scripted]
    omega
  · intro seconds script
    exact le_refl _

/-- A session with a device that sends one line. -/
def sends (line : String) : TestSession Micro Script :=
  { environment := { chunks := [Utf8.encode (line ++ "\n").toList], answers := [] } }

theorem discover_tolerates_iff_empty :
    Tolerates scripted 10 ⟨1000000⟩ (sends "\x7b\"type\":\"test_catalog\",\"tests\":\"\"\x7d") ↔
      ∀ fuel, Sound Micro 10
        (heard scripted ⟨1000000⟩ fuel (sends "\x7b\"type\":\"test_catalog\",\"tests\":\"\"\x7d")) :=
  discover_tolerates_iff scripted 10 ⟨1000000⟩ _ rfl

/-- A test without an id. -/
theorem discover_raises :
    ¬ Tolerates scripted 10 ⟨1000000⟩
      (sends "\x7b\"type\":\"test_catalog\",\"tests\":[\x7b\"name\":\"a\"\x7d]\x7d") := by
  intro tolerates
  have tolerated := tolerates.outcomes 10
  have raised : run (discover scripted 10 ⟨1000000⟩ 10)
      (sends "\x7b\"type\":\"test_catalog\",\"tests\":[\x7b\"name\":\"a\"\x7d]\x7d") =
        (.error (.keyError (str "id")), _) := rfl
  rw [raised] at tolerated
  exact tolerated trivial

end EmbeddedBridge.Python.TestSession
