import EmbeddedBridge.Library.Lines
import EmbeddedBridge.Testing.Start

/-! # What a session asks of the device

A request is one control character, and for the start of a test a line of printable ASCII and
a newline after it.  So requests can be told apart however many are sent, and the line gives
back the id of the test and its parameters.
-/

namespace EmbeddedBridge.Python.TestSession

open Library Py Json

variable {φ : Type} [PyFloat φ]

/-- An id that stands for itself in a line with more words. -/
def Named (testId : Str) : Prop := ∀ c ∈ testId, 0x20 < c ∧ c ≤ 0x7E

instance (testId : Str) : Decidable (Named testId) := inferInstanceAs (Decidable (∀ c ∈ testId, _))

/-- The dictionary that is sent; without parameters it is empty. -/
def fieldsOf (params : Option (List (Str × Json φ))) : List (Str × Json φ) := params.getD []

/-- The id, and after a space the text of the parameters, if there are any. -/
structure Tells (depth : Nat) (testId : Str) (fields : List (Str × Json φ)) (line : Str) : Prop where
  printable : Printable line
  bare : fields = [] → line = testId
  withParams : fields ≠ [] → ∃ text, partition 0x20 line = some (testId, text) ∧
    loads depth text = .ok (.object fields)

/-! ## The line -/

theorem commandLine_ok_iff (depth : Nat) (testId : Str) (params : Option (List (Str × Json φ))) :
    (∃ line, commandLine depth testId params = .ok line) ↔
      (fieldsOf params ≠ [] → Fits φ depth (.object (fieldsOf params))) := by
  cases params with
  | none => exact iff_of_true ⟨testId, rfl⟩ fun some => absurd rfl some
  | some fields =>
    cases fields with
    | nil => exact iff_of_true ⟨testId, rfl⟩ fun some => absurd rfl some
    | cons field fields =>
      change _ ↔ (field :: fields ≠ [] → Fits φ depth (.object (field :: fields)))
      rw [← dumps_ok_iff, commandLine]
      cases dumps depth (.object (field :: fields)) with
      | error error => exact iff_of_false nofun fun fits => nomatch fits nofun
      | ok text => exact iff_of_true ⟨_, rfl⟩ fun _ => ⟨text, rfl⟩

theorem commandLine_eq_ok {depth : Nat} {testId line : Str}
    {params : Option (List (Str × Json φ))} (written : commandLine depth testId params = .ok line) :
    fieldsOf params = [] ∧ line = testId ∨
      fieldsOf params ≠ [] ∧ ∃ text, dumps depth (.object (fieldsOf params)) = .ok text ∧
        line = testId ++ 0x20 :: text := by
  cases params with
  | none =>
    cases written
    exact .inl ⟨rfl, rfl⟩
  | some fields =>
    cases fields with
    | nil =>
      cases written
      exact .inl ⟨rfl, rfl⟩
    | cons field fields =>
      rw [commandLine] at written
      cases dumped : dumps depth (.object (field :: fields)) with
      | error error =>
        rw [dumped] at written
        cases written
      | ok text =>
        rw [dumped] at written
        cases written
        exact .inr ⟨List.cons_ne_nil _ _, text, dumped, List.append_assoc _ _ _⟩

theorem partition_named {testId : Str} (named : Named testId) (text : Str) :
    partition 0x20 (testId ++ 0x20 :: text) = some (testId, text) := by
  induction testId with
  | nil => rfl
  | cons c testId inductionHypothesis =>
    obtain ⟨here, later⟩ := List.forall_mem_cons.mp named
    rw [List.cons_append, partition, if_neg (by omega), inductionHypothesis later]
    rfl

section

variable {depth : Nat} {testId line : Str} {params : Option (List (Str × Json φ))}

theorem commandLine_tells (named : Named testId) (portable : Portable (.object (fieldsOf params)))
    (written : commandLine depth testId params = .ok line) :
    Tells depth testId (fieldsOf params) line := by
  have id_printable : Printable testId := fun c member => ⟨(named c member).1.le, (named c member).2⟩
  cases commandLine_eq_ok written with
  | inl bare =>
    obtain ⟨none, rfl⟩ := bare
    exact ⟨id_printable, fun _ => rfl, fun some => absurd none some⟩
  | inr withParams =>
    obtain ⟨some, text, dumped, rfl⟩ := withParams
    refine ⟨?_, fun none => absurd none some, fun _ => ⟨text, partition_named named text, ?_⟩⟩
    · exact printable_append id_printable
        (printable_append (by decide : Printable [0x20]) (reads_dumps portable dumped).printable)
    · exact loads_dumps portable dumped

/-- The parameters are ASCII, whatever they are. -/
theorem commandLine_ascii (portable : Portable (.object (fieldsOf params)))
    (written : commandLine depth testId params = .ok line) :
    (∀ c ∈ line, c < 0x80) ↔ ∀ c ∈ testId, c < 0x80 := by
  cases commandLine_eq_ok written with
  | inl bare => rw [bare.2]
  | inr withParams =>
    obtain ⟨_, text, dumped, rfl⟩ := withParams
    have ascii : ∀ c ∈ (0x20 :: text), c < 0x80 := by
      intro c member
      have printable := printable_append (by decide : Printable [0x20])
        (reads_dumps portable dumped).printable c member
      omega
    rw [List.forall_mem_append, and_iff_left ascii]

/-! ## The command -/

theorem command_eq_ok {cmd : List UInt8} : command depth testId params = .ok cmd ↔
    ∃ line, commandLine depth testId params = .ok line ∧ (∀ c ∈ line, c < 0x80) ∧
      cmd = STX ++ line.map UInt8.ofNat ++ [0x0A] := by
  unfold command
  cases commandLine depth testId params with
  | error error => exact iff_of_false nofun nofun
  | ok line =>
    change (do
      let encoded ← encodeAscii line
      return STX ++ encoded ++ [0x0A]) = Except.ok cmd ↔ _
    have asAscii : line.all (· < 0x80) = true ↔ ∀ c ∈ line, c < 0x80 := by simp
    unfold encodeAscii
    split
    · rename_i ascii
      constructor
      · intro sent
        cases sent
        exact ⟨line, rfl, asAscii.mp ascii, rfl⟩
      · intro sent
        obtain ⟨_, same, _, rfl⟩ := sent
        cases same
        rfl
    · rename_i other
      refine iff_of_false nofun fun sent => ?_
      obtain ⟨_, same, ascii, _⟩ := sent
      cases same
      exact other (asAscii.mpr ascii)

end

/-- The command is sent if the id is ASCII and the parameters can be written; it is one line,
and the line gives back the id and the parameters. -/
theorem start_command (depth : Nat) (testId : Str) (params : Option (List (Str × Json φ)))
    (portable : Portable (.object (fieldsOf params))) :
    ((∃ cmd, command depth testId params = .ok cmd) ↔ (∀ c ∈ testId, c < 0x80) ∧
      (fieldsOf params ≠ [] → Fits φ depth (.object (fieldsOf params)))) ∧
    (Named testId → ∀ cmd, command depth testId params = .ok cmd →
      ∃ line, cmd = STX ++ line.map UInt8.ofNat ++ [0x0A] ∧
        Tells depth testId (fieldsOf params) line) := by
  constructor
  · rw [← commandLine_ok_iff depth testId params]
    constructor
    · intro sent
      obtain ⟨cmd, sent⟩ := sent
      obtain ⟨line, written, ascii, _⟩ := command_eq_ok.mp sent
      exact ⟨(commandLine_ascii portable written).mp ascii, line, written⟩
    · intro can
      obtain ⟨ascii, line, written⟩ := can
      exact ⟨_, command_eq_ok.mpr ⟨line, written, (commandLine_ascii portable written).mpr ascii,
        rfl⟩⟩
  · intro named cmd sent
    obtain ⟨line, written, _, framed⟩ := command_eq_ok.mp sent
    exact ⟨line, framed, commandLine_tells named portable written⟩

/-- A parameter of each kind that is not a float. -/
def someParams : List (Str × Json Micro) :=
  [(str "button_wakeup", .bool false), (str "seconds", .number (.int (-30))),
    (str "names", .array [.str (str "é\n😀"), .null])]

theorem portable_someParams : Portable (.object someParams) := by
  refine .object (by decide) ?_ ?_
  · simp only [someParams, List.forall_mem_cons, List.not_mem_nil, false_implies, implies_true,
      and_true]
    exact ⟨⟨by decide, by decide⟩, ⟨by decide, by decide⟩, ⟨by decide, by decide⟩⟩
  · simp only [someParams, List.forall_mem_cons, List.not_mem_nil, false_implies, implies_true,
      and_true]
    refine ⟨.bool false, .int (-30), .array ?_⟩
    simp only [List.forall_mem_cons, List.not_mem_nil, false_implies, implies_true, and_true]
    exact ⟨.str ⟨by decide, by decide⟩, .null⟩

theorem start_command_someParams :
    ((∃ cmd, command 2 (str "sleep_w2") (some someParams) = .ok cmd) ↔
      (∀ c ∈ str "sleep_w2", c < 0x80) ∧ (someParams ≠ [] → Fits Micro 2 (.object someParams))) ∧
    (Named (str "sleep_w2") → ∀ cmd, command 2 (str "sleep_w2") (some someParams) = .ok cmd →
      ∃ line, cmd = STX ++ line.map UInt8.ofNat ++ [0x0A] ∧
        Tells 2 (str "sleep_w2") someParams line) :=
  start_command 2 (str "sleep_w2") (some someParams) portable_someParams

/-! ## Many requests -/

/-- What a session sends.  No parameters are the same as an empty dictionary. -/
inductive Request (φ : Type) where
  | discover
  | startTest (testId : Str) (params : List (Str × Json φ))
  | sleepAck

namespace Request

def bytes (depth : Nat) : Request φ → Except Raised (List UInt8)
  | discover => .ok SOH
  | startTest testId params => command depth testId (some params)
  | sleepAck => .ok ACK

def WellFormed : Request φ → Prop
  | startTest testId params => Named testId ∧ Portable (.object params)
  | _ => True

end Request

theorem map_ofNat_injective {line line' : Str} (ascii : ∀ c ∈ line, c < 0x80)
    (ascii' : ∀ c ∈ line', c < 0x80) (same : line.map UInt8.ofNat = line'.map UInt8.ofNat) :
    line = line' := by
  have back (text : Str) (ascii : ∀ c ∈ text, c < 0x80) :
      (text.map UInt8.ofNat).map UInt8.toNat = text := by
    rw [List.map_map]
    refine (List.map_congr_left fun c member => ?_).trans (List.map_id text)
    have small := ascii c member
    exact Nat.mod_eq_of_lt (by omega)
  rw [← back line ascii, same, back line' ascii']

theorem partition_bare {testId : Str} (named : Named testId) : partition 0x20 testId = none := by
  induction testId with
  | nil => rfl
  | cons c testId inductionHypothesis =>
    obtain ⟨here, later⟩ := List.forall_mem_cons.mp named
    rw [partition, if_neg (by omega), inductionHypothesis later]
    rfl

/-- A line tells one thing. -/
theorem tells_unique {depth : Nat} {testId testId' line : Str} {fields fields' : List (Str × Json φ)}
    (named : Named testId) (named' : Named testId') (tells : Tells depth testId fields line)
    (tells' : Tells depth testId' fields' line) : testId = testId' ∧ fields = fields' := by
  by_cases none : fields = []
  · by_cases none' : fields' = []
    · exact ⟨(tells.bare none).symm.trans (tells'.bare none'), none.trans none'.symm⟩
    · obtain ⟨text, split, _⟩ := tells'.withParams none'
      rw [tells.bare none, partition_bare named] at split
      cases split
  · obtain ⟨text, split, loaded⟩ := tells.withParams none
    by_cases none' : fields' = []
    · rw [tells'.bare none', partition_bare named'] at split
      cases split
    · obtain ⟨text', split', loaded'⟩ := tells'.withParams none'
      cases split.symm.trans split'
      cases loaded.symm.trans loaded'
      exact ⟨rfl, rfl⟩

theorem newline_not_mem {line : Str} (printable : Printable line) :
    0x0A ∉ line.map UInt8.ofNat := by
  intro member
  obtain ⟨c, isChar, isNewline⟩ := List.mem_map.mp member
  have shown := printable c isChar
  have code := congrArg UInt8.toNat isNewline
  have small : (UInt8.ofNat c).toNat = c := Nat.mod_eq_of_lt (by omega)
  rw [small] at code
  change c = 0x0A at code
  omega

/-- The first of some requests is known from what is sent, and so is the rest. -/
theorem first_request {depth : Nat} {request request' : Request φ} {sent sent' rest rest' : List UInt8}
    (formed : request.WellFormed) (formed' : request'.WellFormed)
    (bytes : request.bytes depth = .ok sent) (bytes' : request'.bytes depth = .ok sent')
    (same : sent ++ rest = sent' ++ rest') : request = request' ∧ rest = rest' := by
  cases request with
  | discover =>
    cases bytes
    cases request' with
    | discover =>
      cases bytes'
      exact ⟨rfl, List.append_cancel_left same⟩
    | sleepAck =>
      cases bytes'
      cases same
    | startTest testId' params' =>
      obtain ⟨_, _, _, rfl⟩ := command_eq_ok.mp bytes'
      cases same
  | sleepAck =>
    cases bytes
    cases request' with
    | sleepAck =>
      cases bytes'
      exact ⟨rfl, List.append_cancel_left same⟩
    | discover =>
      cases bytes'
      cases same
    | startTest testId' params' =>
      obtain ⟨_, _, _, rfl⟩ := command_eq_ok.mp bytes'
      cases same
  | startTest testId params =>
    obtain ⟨line, written, ascii, rfl⟩ := command_eq_ok.mp bytes
    cases request' with
    | discover =>
      cases bytes'
      cases same
    | sleepAck =>
      cases bytes'
      cases same
    | startTest testId' params' =>
      obtain ⟨line', written', ascii', rfl⟩ := command_eq_ok.mp bytes'
      have tells := @commandLine_tells φ _ depth testId line (some params) formed.1 formed.2 written
      have tells' := @commandLine_tells φ _ depth testId' line' (some params') formed'.1 formed'.2
        written'
      -- both lines end at the first newline
      have split : Lines.partition 0x0A (line.map UInt8.ofNat ++ 0x0A :: rest) =
          some (line.map UInt8.ofNat, rest) :=
        Lines.partition_eq_some.mpr ⟨rfl, newline_not_mem tells.printable⟩
      have split' : Lines.partition 0x0A (line'.map UInt8.ofNat ++ 0x0A :: rest') =
          some (line'.map UInt8.ofNat, rest') :=
        Lines.partition_eq_some.mpr ⟨rfl, newline_not_mem tells'.printable⟩
      simp only [List.append_assoc, List.append_cancel_left_eq, List.singleton_append] at same
      rw [same, split'] at split
      obtain ⟨sameLine, sameRest⟩ := Prod.ext_iff.mp (Option.some.inj split)
      rw [map_ofNat_injective ascii' ascii sameLine] at tells'
      obtain ⟨sameId, sameParams⟩ := tells_unique formed.1 formed'.1 tells tells'
      change params = params' at sameParams
      exact ⟨by rw [sameId, sameParams], sameRest.symm⟩

theorem bytes_ne_nil {depth : Nat} {request : Request φ} {sent : List UInt8}
    (bytes : request.bytes depth = .ok sent) : sent ≠ [] := by
  cases request with
  | discover =>
    cases bytes
    exact List.cons_ne_nil _ _
  | sleepAck =>
    cases bytes
    exact List.cons_ne_nil _ _
  | startTest testId params =>
    obtain ⟨_, _, _, rfl⟩ := command_eq_ok.mp bytes
    exact List.cons_ne_nil _ _

/-- Requests that are sent one after the other can be told apart by what has been sent. -/
theorem requests_distinct (depth : Nat) {requests requests' : List (Request φ)}
    (formed : ∀ request ∈ requests, request.WellFormed)
    (formed' : ∀ request ∈ requests', request.WellFormed) {sent sent' : List (List UInt8)}
    (bytes : requests.mapM (Request.bytes depth) = .ok sent)
    (bytes' : requests'.mapM (Request.bytes depth) = .ok sent')
    (same : sent.flatten = sent'.flatten) : requests = requests' := by
  replace bytes := Methods.mapM_eq_ok bytes
  replace bytes' := Methods.mapM_eq_ok bytes'
  induction bytes generalizing requests' sent' with
  | nil =>
    cases bytes' with
    | nil => rfl
    | cons first later =>
      have none := (List.append_eq_nil_iff.mp same.symm).1
      exact absurd none (bytes_ne_nil first)
  | cons first later inductionHypothesis =>
    obtain ⟨wellFormed, formed⟩ := List.forall_mem_cons.mp formed
    cases bytes' with
    | nil =>
      have none := (List.append_eq_nil_iff.mp same).1
      exact absurd none (bytes_ne_nil first)
    | cons first' later' =>
      obtain ⟨wellFormed', formed'⟩ := List.forall_mem_cons.mp formed'
      obtain ⟨sameFirst, sameRest⟩ := first_request wellFormed wellFormed' first first' same
      rw [sameFirst, inductionHypothesis formed formed' sameRest later']

def askedOf : List (Request Micro) :=
  [.discover, .startTest (str "sleep_w2") someParams, .sleepAck]

def sentFor : List (List UInt8) :=
  [SOH,
    STX ++ (str "sleep_w2 \x7b\"button_wakeup\":false,\"seconds\":-30," ++
      str "\"names\":[\"\\u00e9\\n\\ud83d\\ude00\",null]\x7d").map UInt8.ofNat ++ [0x0A],
    ACK]

theorem requests_distinct_asked :
    (∀ request ∈ askedOf, request.WellFormed) ∧ askedOf.mapM (Request.bytes 2) = .ok sentFor ∧
      askedOf = askedOf := by
  have formed : ∀ request ∈ askedOf, request.WellFormed := by
    simp only [askedOf, List.forall_mem_cons, List.not_mem_nil, false_implies, implies_true,
      and_true]
    exact ⟨trivial, ⟨by decide, portable_someParams⟩, trivial⟩
  have bytes : askedOf.mapM (Request.bytes 2) = .ok sentFor := by decide +kernel
  exact ⟨formed, bytes, requests_distinct 2 formed formed bytes bytes rfl⟩

end EmbeddedBridge.Python.TestSession
