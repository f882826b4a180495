import Mathlib.Data.List.Chain
import Mathlib.Data.List.Forall2
import Mathlib.Data.List.TakeDrop
import EmbeddedBridge.Library.Methods
import EmbeddedBridge.Library.Py.Json

/-! # JSON, as Python's `json` writes it

`json.dumps(value, separators=(",", ":"))`.  The text is printable ASCII, since every other
character of a string is escaped.  What raises is an integer with too many digits, and arrays
and objects that are nested deeper than the interpreter goes.

`loads_dumps` says that the text is read as the value, if the value is `Portable`: two
surrogates that stand next to each other in a string come back as one character, and of
floats it has to be known how they are written.
-/

namespace EmbeddedBridge.Library.Py

/-! ## Texts of numbers -/

def digitsOf (n : Nat) : Str := ofChars (Nat.toDigits 10 n)

/-- `int.__repr__` -/
def reprInt (n : Int) : Except Raised Str :=
  if (digitsOf n.natAbs).length > maxStrDigits then .error .valueError
  else .ok ((if n < 0 then [0x2D] else []) ++ digitsOf n.natAbs)

theorem reprInt_isOk {n : Int} (small : n.natAbs < 10 ^ maxStrDigits) :
    ∃ text, reprInt n = .ok text := by
  have short : (digitsOf n.natAbs).length ≤ maxStrDigits := by
    rw [digitsOf, ofChars, List.length_map]
    exact (Nat.length_toDigits_le_iff (by decide) (by decide)).mpr small
  exact ⟨_, if_neg (Nat.not_lt.mpr short)⟩

namespace Json

variable {φ : Type}

/-! ## Writing -/

def hexChar (d : Nat) : Nat := if d < 10 then 0x30 + d else 0x61 + (d - 10)

/-- `\uXXXX` -/
def dumpHex (unit : Nat) : Str :=
  [0x5C, 0x75, hexChar (unit / 0x1000), hexChar (unit / 0x100 % 0x10),
    hexChar (unit / 0x10 % 0x10), hexChar (unit % 0x10)]

/-- `ESCAPE_DCT`, and `\u` escapes; a character beyond the first plane is a pair. -/
def dumpChar (c : Nat) : Str :=
  if c = 0x22 ∨ c = 0x5C then [0x5C, c]
  else if c = 0x0A then [0x5C, 0x6E]
  else if c = 0x0D then [0x5C, 0x72]
  else if c = 0x09 then [0x5C, 0x74]
  else if c = 0x0C then [0x5C, 0x66]
  else if c = 0x08 then [0x5C, 0x62]
  else if 0x20 ≤ c ∧ c ≤ 0x7E then [c]
  else if c < 0x10000 then dumpHex c
  else dumpHex (0xD800 + (c - 0x10000) / 0x400) ++ dumpHex (0xDC00 + (c - 0x10000) % 0x400)

def dumpString (text : Str) : Str := 0x22 :: (text.flatMap dumpChar ++ [0x22])

/-- `floatstr`: only for a number is anything true of a comparison. -/
def dumpFloat [PyFloat φ] (x : φ) : Str :=
  match PyFloat.lt x PyFloat.infinity, PyFloat.lt (PyFloat.neg PyFloat.infinity) x with
  | true, true => PyFloat.toStr x
  | false, true => Py.str "Infinity"
  | true, false => Py.str "-Infinity"
  | false, false => Py.str "NaN"

def dumpNumber [PyFloat φ] : Number φ → Except Raised Str
  | .int value => reprInt value
  | .float value => .ok (dumpFloat value)

/-- `json.dumps` -/
def dumps [PyFloat φ] : (depth : Nat) → Json φ → Except Raised Str
  | _, .null => .ok (Py.str "null")
  | _, .bool value => .ok (if value then Py.str "true" else Py.str "false")
  | _, .number value => dumpNumber value
  | _, .str value => .ok (dumpString value)
  | 0, .array _ => .error .recursionError
  | 0, .object _ => .error .recursionError
  | depth + 1, .array elements => do
    let texts ← elements.mapM (dumps depth)
    return 0x5B :: (List.intercalate [0x2C] texts ++ [0x5D])
  | depth + 1, .object fields => do
    let texts ← fields.mapM fun field => do
      let text ← dumps depth field.2
      return dumpString field.1 ++ 0x3A :: text
    return 0x7B :: (List.intercalate [0x2C] texts ++ [0x7D])

example : dumps 1 (.object [(Py.str "a\n", .array []), (Py.str "é", .number (.int (-12)))] :
    Json Micro) = .error .recursionError := by decide

example : dumps 2 (.object [(Py.str "a\n", .array []), (Py.str "é", .number (.int (-12)))] :
    Json Micro) = .ok (Py.str "\x7b\"a\\n\":[],\"\\u00e9\":-12\x7d") := by decide

/-- Nothing but printable ASCII. -/
def Printable (text : Str) : Prop := ∀ c ∈ text, 0x20 ≤ c ∧ c ≤ 0x7E

instance (text : Str) : Decidable (Printable text) := inferInstanceAs (Decidable (∀ c ∈ text, _))

/-! ## Strings -/

def IsHigh (c : Nat) : Prop := 0xD800 ≤ c ∧ c ≤ 0xDBFF
def IsLow (c : Nat) : Prop := 0xDC00 ≤ c ∧ c ≤ 0xDFFF

instance (c : Nat) : Decidable (IsHigh c) := inferInstanceAs (Decidable (_ ∧ _))
instance (c : Nat) : Decidable (IsLow c) := inferInstanceAs (Decidable (_ ∧ _))

/-- No two of the characters are read as one. -/
structure PortableText (text : Str) : Prop where
  inRange : ∀ c ∈ text, c < 0x110000
  unpaired : text.IsChain fun c d => ¬ (IsHigh c ∧ IsLow d)

/-- What follows is no escaped low surrogate, though it may be another escape. -/
def NoLow (text : Str) : Prop :=
  ∀ after, text = 0x5C :: 0x75 :: after →
    ∃ unit rest, scanHex after = some (unit, rest) ∧ ¬ IsLow unit

theorem hexDigit_hexChar : ∀ d < 16, hexDigit (hexChar d) = some d := by decide

theorem hexChar_printable : ∀ d < 16, 0x20 ≤ hexChar d ∧ hexChar d ≤ 0x7E := by decide

theorem scanHex_dumpHex (unit : Nat) (short : unit < 0x10000) (more : Str) :
    scanHex ((dumpHex unit).drop 2 ++ more) = some (unit, more) := by
  change scanHex (_ :: _ :: _ :: _ :: more) = _
  rw [scanHex, hexDigit_hexChar _ (by omega), hexDigit_hexChar _ (by omega),
    hexDigit_hexChar _ (by omega), hexDigit_hexChar _ (by omega)]
  refine congrArg some (Prod.ext ?_ rfl)
  change ((unit / 0x1000 * 16 + unit / 0x100 % 0x10) * 16 + unit / 0x10 % 0x10) * 16 +
    unit % 0x10 = unit
  omega

theorem scanUnicode_unit {unit : Nat} (short : unit < 0x10000) {more : Str}
    (alone : IsHigh unit → NoLow more) :
    scanUnicode ((dumpHex unit).drop 2 ++ more) = some (unit, more) := by
  rw [scanUnicode, scanHex_dumpHex _ short more]
  change (if 0xD800 ≤ unit ∧ unit ≤ 0xDBFF then _ else _) = _
  split
  · rename_i isHigh
    split
    · rename_i after
      obtain ⟨low, rest, scanned, notLow⟩ := alone isHigh after rfl
      rw [scanned]
      exact if_neg notLow
    · rfl
  · rfl

theorem scanUnicode_pair {text after rest : Str} {high low : Nat}
    (first : scanHex text = some (high, 0x5C :: 0x75 :: after)) (isHigh : IsHigh high)
    (second : scanHex after = some (low, rest)) (isLow : IsLow low) :
    scanUnicode text = some (0x10000 + (high - 0xD800) * 0x400 + (low - 0xDC00), rest) := by
  rw [scanUnicode, first]
  change (if 0xD800 ≤ high ∧ high ≤ 0xDBFF then (scanHex after).bind _ else some _) = _
  rw [second]
  exact (if_pos isHigh).trans (if_pos isLow)

/-- A character beyond the first plane. -/
theorem scanUnicode_beyond {c : Nat} (beyond : 0x10000 ≤ c) (inRange : c < 0x110000) (more : Str) :
    scanUnicode ((dumpHex (0xD800 + (c - 0x10000) / 0x400)).drop 2 ++
      (dumpHex (0xDC00 + (c - 0x10000) % 0x400) ++ more)) = some (c, more) := by
  have first := scanHex_dumpHex (0xD800 + (c - 0x10000) / 0x400) (by omega)
    (dumpHex (0xDC00 + (c - 0x10000) % 0x400) ++ more)
  have second := scanHex_dumpHex (0xDC00 + (c - 0x10000) % 0x400) (by omega) more
  rw [scanUnicode_pair first (by unfold IsHigh; omega) second (by unfold IsLow; omega)]
  refine congrArg some (Prod.ext ?_ rfl)
  dsimp only
  omega

/-- What an escape, or a character that needs none, is read as. -/
theorem scanString_dumpChar (fuel : Nat) {c : Nat} (inRange : c < 0x110000) {more : Str}
    (alone : IsHigh c → NoLow more) :
    scanString (fuel + 1) (dumpChar c ++ more) =
      (scanString fuel more).map fun scanned => (c :: scanned.1, scanned.2) := by
  -- a backslash and a letter
  have simple (escape : Nat) (isEscape : simpleEscape escape = some c) (other : escape ≠ 0x75) :
      scanString (fuel + 1) ([0x5C, escape] ++ more) =
        (scanString fuel more).map fun scanned => (c :: scanned.1, scanned.2) := by
    change scanString (fuel + 1) (0x5C :: escape :: more) = _
    rw [scanString]
    simp only [Nat.reduceEqDiff, ↓reduceIte, other, isEscape, Option.map_some]
  -- a backslash, a letter and digits
  have coded {tail more' : Str} (scanned : scanUnicode tail = some (c, more')) :
      scanString (fuel + 1) (0x5C :: 0x75 :: tail) =
        (scanString fuel more').map fun scanned => (c :: scanned.1, scanned.2) := by
    rw [scanString]
    simp only [Nat.reduceEqDiff, ↓reduceIte, scanned]
  unfold dumpChar
  split
  · rename_i quoted
    refine simple c (if_pos ?_) ?_ <;> omega
  split
  · rename_i newline
    exact simple 0x6E (newline ▸ rfl) (by decide)
  split
  · rename_i carriage
    exact simple 0x72 (carriage ▸ rfl) (by decide)
  split
  · rename_i tab
    exact simple 0x74 (tab ▸ rfl) (by decide)
  split
  · rename_i feed
    exact simple 0x66 (feed ▸ rfl) (by decide)
  split
  · rename_i backspace
    exact simple 0x62 (backspace ▸ rfl) (by decide)
  split
  · rename_i unquoted _ _ _ _ _ printable
    rw [scanString.eq_def]
    exact (if_neg (by omega)).trans ((if_neg (by omega)).trans (if_neg (by omega)))
  split
  · rename_i short
    exact coded (scanUnicode_unit short alone)
  · rename_i beyond
    rw [List.append_assoc]
    exact coded (scanUnicode_beyond (by omega) inRange more)

/-- What an escaped character begins with is the character, or the first one of a pair. -/
theorem dumpChar_unit {d : Nat} (inRange : d < 0x110000) {more after : Str}
    (escaped : dumpChar d ++ more = 0x5C :: 0x75 :: after) :
    ∃ unit rest, scanHex after = some (unit, rest) ∧ (unit = d ∨ IsHigh unit) := by
  unfold dumpChar at escaped
  split at escaped
  · rename_i quoted
    cases escaped
    omega
  split at escaped
  · cases escaped
  split at escaped
  · cases escaped
  split at escaped
  · cases escaped
  split at escaped
  · cases escaped
  split at escaped
  · cases escaped
  split at escaped
  · rename_i unquoted _ _ _ _ _ _
    cases escaped
    omega
  split at escaped
  · rename_i short
    cases escaped
    exact ⟨d, more, scanHex_dumpHex _ short more, .inl rfl⟩
  · rw [List.append_assoc] at escaped
    cases escaped
    exact ⟨_, _, scanHex_dumpHex _ (by omega) _, .inr (by unfold IsHigh; omega)⟩

theorem noLow_dumped {text : Str} (inRange : ∀ c ∈ text, c < 0x110000)
    (notLow : ∀ c ∈ text.head?, ¬ IsLow c) (rest : Str) :
    NoLow (text.flatMap dumpChar ++ 0x22 :: rest) := by
  intro after escaped
  cases text with
  | nil => cases escaped
  | cons d text =>
    rw [List.flatMap_cons, List.append_assoc] at escaped
    obtain ⟨unit, rest', scanned, isUnit⟩ := dumpChar_unit (inRange d List.mem_cons_self) escaped
    refine ⟨unit, rest', scanned, ?_⟩
    cases isUnit with
    | inl same => exact same ▸ notLow d rfl
    | inr isHigh =>
      unfold IsHigh at isHigh
      unfold IsLow
      omega

theorem dumpChar_ne_nil (c : Nat) : dumpChar c ≠ [] := by
  unfold dumpChar dumpHex
  repeat' split
  all_goals exact nofun

theorem scanString_dumped {text : Str} (portable : PortableText text) (rest : Str) {fuel : Nat}
    (enough : text.length < fuel) :
    scanString fuel (text.flatMap dumpChar ++ 0x22 :: rest) = .ok (text, rest) := by
  induction text generalizing fuel with
  | nil =>
    obtain ⟨fuel, rfl⟩ := Nat.exists_eq_add_of_lt enough
    rfl
  | cons c text inductionHypothesis =>
    obtain ⟨inRange, unpaired⟩ := portable
    rw [List.isChain_cons] at unpaired
    obtain ⟨here, later⟩ := List.forall_mem_cons.mp inRange
    cases fuel with
    | zero => exact absurd enough (Nat.not_lt_zero _)
    | succ fuel =>
      have alone (isHigh : IsHigh c) : NoLow (text.flatMap dumpChar ++ 0x22 :: rest) :=
        noLow_dumped later (fun d isHead isLow => unpaired.1 d isHead ⟨isHigh, isLow⟩) rest
      rw [List.flatMap_cons, List.append_assoc, scanString_dumpChar fuel here alone,
        inductionHypothesis ⟨later, unpaired.2⟩ (Nat.lt_of_succ_lt_succ enough)]
      rfl

theorem length_dumped (text : Str) : text.length ≤ (text.flatMap dumpChar).length := by
  induction text with
  | nil => exact Nat.le_refl 0
  | cons c text inductionHypothesis =>
    have one := List.length_pos_iff.mpr (dumpChar_ne_nil c)
    rw [List.flatMap_cons, List.length_append, List.length_cons]
    omega

/-- A string, with what follows it. -/
theorem scanString_dumpString {text : Str} (portable : PortableText text) (rest : Str) :
    ∃ body, dumpString text ++ rest = 0x22 :: body ∧
      scanString body.length body = .ok (text, rest) := by
  refine ⟨text.flatMap dumpChar ++ 0x22 :: rest, ?_, ?_⟩
  · rw [dumpString, List.cons_append, List.append_assoc]
    rfl
  · refine scanString_dumped portable rest ?_
    have long := length_dumped text
    rw [List.length_append, List.length_cons]
    omega

theorem dumpHex_printable {unit : Nat} (short : unit < 0x10000) : Printable (dumpHex unit) := by
  simp only [Printable, dumpHex, List.forall_mem_cons, List.not_mem_nil, false_implies, implies_true,
    and_true]
  exact ⟨by decide, by decide, hexChar_printable _ (by omega), hexChar_printable _ (by omega),
    hexChar_printable _ (by omega), hexChar_printable _ (by omega)⟩

theorem dumpChar_printable {c : Nat} (inRange : c < 0x110000) : Printable (dumpChar c) := by
  unfold dumpChar
  split
  · rename_i quoted
    simp only [Printable, List.forall_mem_cons, List.not_mem_nil, false_implies, implies_true, and_true]
    omega
  split
  · decide
  split
  · decide
  split
  · decide
  split
  · decide
  split
  · decide
  split
  · rename_i printable
    simpa [Printable] using printable
  split
  · rename_i short
    exact dumpHex_printable short
  · refine List.forall_mem_append.mpr ⟨dumpHex_printable ?_, dumpHex_printable ?_⟩ <;> omega

theorem dumpString_printable {text : Str} (inRange : ∀ c ∈ text, c < 0x110000) :
    Printable (dumpString text) := by
  intro b member
  simp only [dumpString, List.mem_cons, List.mem_append, List.mem_flatMap, List.not_mem_nil,
    or_false] at member
  rcases member with rfl | ⟨c, isChar, escaped⟩ | rfl
  · decide
  · exact dumpChar_printable (inRange c isChar) b escaped
  · decide

/-! ## Digits -/

theorem digitsOf_eq (n : Nat) :
    digitsOf n = if n < 10 then [0x30 + n] else digitsOf (n / 10) ++ [0x30 + n % 10] := by
  have digit (d : Nat) (short : d < 10) : (Nat.digitChar d).toNat = 0x30 + d := by
    rw [Nat.toNat_digitChar_of_lt_ten short, Nat.add_comm]
  rw [digitsOf, Nat.toDigits_eq_if (by decide)]
  split
  · rename_i short
    exact congrArg (fun c => [c]) (digit n short)
  · rw [ofChars, List.map_append, List.map_singleton, digit _ (Nat.mod_lt n (by decide))]
    rfl

theorem isDigit_digitsOf (n : Nat) : ∀ c ∈ digitsOf n, isDigit c = true := by
  have digit (d : Nat) (short : d < 10) : isDigit (0x30 + d) = true := by
    simp only [isDigit, Bool.and_eq_true, decide_eq_true_eq]
    omega
  induction n using Nat.strong_induction_on with
  | _ n inductionHypothesis =>
    rw [digitsOf_eq]
    split
    · rename_i short
      exact List.forall_mem_singleton.mpr (digit n short)
    · exact List.forall_mem_append.mpr ⟨inductionHypothesis _ (by omega),
        List.forall_mem_singleton.mpr (digit _ (Nat.mod_lt n (by decide)))⟩

theorem digitsOf_head (n : Nat) :
    digitsOf n = [0x30] ∨ ∃ d more, digitsOf n = d :: more ∧ d ≠ 0x30 := by
  induction n using Nat.strong_induction_on with
  | _ n inductionHypothesis =>
    rw [digitsOf_eq]
    split
    · by_cases zero : n = 0
      · exact .inl (zero ▸ rfl)
      · exact .inr ⟨0x30 + n, [], rfl, by omega⟩
    · refine .inr ?_
      cases inductionHypothesis (n / 10) (by omega) with
      | inl zero =>
        -- then there would be one digit only
        rw [digitsOf_eq] at zero
        split at zero
        · have isZero : 0x30 + n / 10 = 0x30 := List.head_eq_of_cons_eq zero
          omega
        · have long := congrArg List.length zero
          rw [List.length_append, List.length_singleton, List.length_singleton] at long
          have none := List.length_eq_zero_iff.mp (Nat.succ.inj long)
          rw [digitsOf, ofChars, List.map_eq_nil_iff] at none
          exact absurd none Nat.toDigits_ne_nil
      | inr some =>
        obtain ⟨d, more, same, notZero⟩ := some
        exact ⟨d, more ++ [0x30 + n % 10], by rw [same]; rfl, notZero⟩

theorem decimalValue_digitsOf (n : Nat) : decimalValue (digitsOf n) = n := by
  have digit : ∀ d < 10, (decimal (0x30 + d)).getD 0 = d := by decide
  induction n using Nat.strong_induction_on with
  | _ n inductionHypothesis =>
    rw [digitsOf_eq]
    split
    · rename_i short
      change 10 * 0 + (decimal (0x30 + n)).getD 0 = n
      rw [digit n short, Nat.zero_add]
    · have rest := inductionHypothesis (n / 10) (by omega)
      rw [decimalValue] at rest
      rw [decimalValue, List.foldl_append, rest]
      change 10 * (n / 10) + (decimal (0x30 + n % 10)).getD 0 = n
      rw [digit _ (Nat.mod_lt n (by decide))]
      omega

/-! ## Numbers -/

/-- The text of a number, in its parts. -/
structure NumberText (minus digits fraction exponent : Str) : Prop where
  minus : minus = [] ∨ minus = [0x2D]
  decimal : ∀ c ∈ digits, isDigit c = true
  digits : digits = [0x30] ∨ ∃ d more, digits = d :: more ∧ d ≠ 0x30
  fraction : fraction = [] ∨ ∃ d more, fraction = 0x2E :: d :: more ∧
    ∀ c ∈ d :: more, isDigit c = true
  exponent : exponent = [] ∨ ∃ e sign d more, exponent = e :: (sign ++ d :: more) ∧
    (e = 0x65 ∨ e = 0x45) ∧ (sign = [] ∨ sign = [0x2B] ∨ sign = [0x2D]) ∧
      ∀ c ∈ d :: more, isDigit c = true

/-- What comes after a value in a document that is written. -/
def Terminated (rest : Str) : Prop := ∀ c ∈ rest.head?, c = 0x2C ∨ c = 0x5D ∨ c = 0x7D

theorem scanDigits_append {digits rest : Str} (decimal : ∀ c ∈ digits, isDigit c = true)
    (ends : ∀ c ∈ rest.head?, isDigit c = false) : scanDigits (digits ++ rest) = (digits, rest) := by
  rw [scanDigits, List.span_eq_takeWhile_dropWhile, List.takeWhile_append_of_pos decimal,
    List.dropWhile_append_of_pos decimal]
  cases rest with
  | nil => simp
  | cons c rest => simp [ends c rfl]

theorem scanFraction_append {fraction rest : Str}
    (shape : fraction = [] ∨ ∃ d more, fraction = 0x2E :: d :: more ∧
      ∀ c ∈ d :: more, isDigit c = true)
    (ends : ∀ c ∈ rest.head?, isDigit c = false ∧ c ≠ 0x2E) :
    scanFraction (fraction ++ rest) = (fraction, rest) := by
  cases shape with
  | inl none =>
    subst none
    cases rest with
    | nil => rfl
    | cons c rest =>
      unfold scanFraction
      split
      · rename_i same
        cases same
        exact absurd rfl (ends _ rfl).2
      · rfl
  | inr some =>
    obtain ⟨d, more, rfl, decimal⟩ := some
    change scanFraction (0x2E :: (d :: more ++ rest)) = _
    rw [scanFraction, scanDigits_append decimal fun c isHead => (ends c isHead).1]

theorem scanExponent_append {exponent rest : Str}
    (shape : exponent = [] ∨ ∃ e sign d more, exponent = e :: (sign ++ d :: more) ∧
      (e = 0x65 ∨ e = 0x45) ∧ (sign = [] ∨ sign = [0x2B] ∨ sign = [0x2D]) ∧
        ∀ c ∈ d :: more, isDigit c = true)
    (terminated : Terminated rest) : scanExponent (exponent ++ rest) = (exponent, rest) := by
  have ends (c : Nat) (isHead : c ∈ rest.head?) : isDigit c = false := by
    rcases terminated c isHead with rfl | rfl | rfl <;> rfl
  cases shape with
  | inl none =>
    subst none
    cases rest with
    | nil => rfl
    | cons c rest =>
      have other : ¬ (c = 0x65 ∨ c = 0x45) := by
        rcases terminated c rfl with rfl | rfl | rfl <;> decide
      exact if_neg other
  | inr some =>
    obtain ⟨e, sign, d, more, rfl, isE, isSign, decimal⟩ := some
    have first : isDigit d = true := decimal d List.mem_cons_self
    have unsigned : (d == 0x2B || d == 0x2D) = false := by
      unfold isDigit at first
      simp only [Bool.and_eq_true, decide_eq_true_eq] at first
      simp only [Bool.or_eq_false_iff, beq_eq_false_iff_ne]
      omega
    have signs : ((sign ++ d :: more ++ rest).takeWhile fun c => c == 0x2B || c == 0x2D).take 1 =
        sign := by
      rcases isSign with rfl | rfl | rfl <;> simp [unsigned]
    have after : (sign ++ d :: more ++ rest).drop sign.length = d :: more ++ rest := by
      rw [List.append_assoc, List.drop_left]
    change scanExponent (e :: (sign ++ d :: more ++ rest)) = _
    simp only [scanExponent, isE, ↓reduceIte, signs, after]
    rw [scanDigits_append decimal ends]
    rfl

section

variable {minus digits fraction exponent rest : Str}

theorem terminated_head (terminated : Terminated rest) : ∀ c ∈ rest.head?,
    isDigit c = false ∧ c ≠ 0x2E := by
  intro c isHead
  rcases terminated c isHead with rfl | rfl | rfl <;> decide

theorem exponent_head (shape : NumberText minus digits fraction exponent)
    (terminated : Terminated rest) : ∀ c ∈ (exponent ++ rest).head?,
      isDigit c = false ∧ c ≠ 0x2E := by
  cases shape.exponent with
  | inl none => exact none ▸ terminated_head terminated
  | inr some =>
    obtain ⟨e, sign, d, more, rfl, isE, _⟩ := some
    intro c isHead
    cases isHead
    rcases isE with rfl | rfl <;> decide

theorem fraction_head (shape : NumberText minus digits fraction exponent)
    (terminated : Terminated rest) : ∀ c ∈ (fraction ++ (exponent ++ rest)).head?,
      isDigit c = false := by
  cases shape.fraction with
  | inl none => exact none ▸ fun c isHead => (exponent_head shape terminated c isHead).1
  | inr some =>
    obtain ⟨d, more, rfl, _⟩ := some
    intro c isHead
    cases isHead
    rfl

/-- The digits begin with one, which is no sign. -/
theorem digits_head (shape : NumberText minus digits fraction exponent) :
    ∃ d more, digits = d :: more ∧ isDigit d = true := by
  cases shape.digits with
  | inl zero => exact ⟨0x30, [], zero, rfl⟩
  | inr other =>
    obtain ⟨d, more, same, _⟩ := other
    exact ⟨d, more, same, shape.decimal d (same ▸ List.mem_cons_self)⟩

/-- A leading zero is the only digit. -/
theorem scanWhole (shape : NumberText minus digits fraction exponent) {after : Str}
    (ends : ∀ c ∈ after.head?, isDigit c = false) :
    (match digits ++ after with
      | 0x30 :: rest => ([0x30], rest)
      | rest => scanDigits rest) = (digits, after) := by
  cases shape.digits with
  | inl zero =>
    subst zero
    rfl
  | inr other =>
    obtain ⟨d, more, same, notZero⟩ := other
    split
    · rename_i zero
      rw [same] at zero
      cases zero
      exact absurd rfl notZero
    · exact scanDigits_append shape.decimal ends

variable [PyFloat φ]

theorem scanNumber_text (shape : NumberText minus digits fraction exponent)
    (terminated : Terminated rest) :
    scanNumber (minus ++ (digits ++ (fraction ++ (exponent ++ rest)))) =
      if fraction = [] ∧ exponent = [] then do
        let value ← intOfDigits digits
        return ((.int (if minus = [] then value else -value) : Number φ), rest)
      else
        match PyFloat.ofText (minus ++ digits ++ fraction ++ exponent) with
        | some value => .ok (.float value, rest)
        | none => .error .valueError := by
  obtain ⟨d, more, begins, isDigit⟩ := digits_head shape
  have unsigned : (d == 0x2D) = false := by
    unfold Json.isDigit at isDigit
    simp only [Bool.and_eq_true, decide_eq_true_eq] at isDigit
    simp only [beq_eq_false_iff_ne]
    omega
  have minuses : ((minus ++ (digits ++ (fraction ++ (exponent ++ rest)))).takeWhile
      (· == 0x2D)).take 1 = minus := by
    rcases shape.minus with rfl | rfl <;> simp [begins, unsigned]
  have someDigits : digits ≠ [] := begins ▸ List.cons_ne_nil d more
  rw [scanNumber, minuses, List.drop_left]
  conv =>
    enter [1, 2]
    equals (digits, fraction ++ (exponent ++ rest)) =>
      exact scanWhole shape (fraction_head shape terminated)
  dsimp only
  rw [if_neg someDigits, scanFraction_append shape.fraction (exponent_head shape terminated)]
  dsimp only
  rw [scanExponent_append shape.exponent terminated]
  rfl

/-- A text that begins as a number is none of the constants. -/
theorem scanConstant_number (shape : NumberText minus digits fraction exponent) (after : Str) :
    (scanConstant (minus ++ (digits ++ after)) : Option (Json φ × Str)) = none := by
  obtain ⟨d, more, rfl, isDigit⟩ := digits_head shape
  unfold Json.isDigit at isDigit
  simp only [Bool.and_eq_true, decide_eq_true_eq] at isDigit
  have other (c : Nat) (letter : 0x40 < c) : (c == d) = false := by
    rw [beq_eq_false_iff_ne]
    omega
  have unsigned : (0x2D == d) = false := by
    rw [beq_eq_false_iff_ne]
    omega
  rcases shape.minus with rfl | rfl <;>
    simp [scanConstant, Py.str, List.isPrefixOf, other, unsigned]

theorem scanOnce_plain (depth : Nat) {c : Nat} {more : Str} (notQuote : c ≠ 0x22)
    (notBrace : c ≠ 0x7B) (notBracket : c ≠ 0x5B) :
    (scanOnce depth (c :: more) : Except Raised (Json φ × Str)) =
      match (scanConstant (c :: more) : Option (Json φ × Str)) with
      | some scanned => .ok scanned
      | none => (scanNumber (c :: more)).map fun scanned => (.number scanned.1, scanned.2) := by
  rw [scanOnce.eq_def]
  split
  · rename_i quote
    cases quote
    exact absurd rfl notQuote
  · rename_i brace
    cases brace
    exact absurd rfl notBrace
  · rename_i bracket
    cases bracket
    exact absurd rfl notBracket
  · rename_i brace
    cases brace
    exact absurd rfl notBrace
  · rename_i bracket
    cases bracket
    exact absurd rfl notBracket
  · rfl

/-- What a text that begins as a number is read as. -/
theorem scanOnce_number (shape : NumberText minus digits fraction exponent) (depth : Nat)
    (after : Str) :
    (scanOnce depth (minus ++ (digits ++ after)) : Except Raised (Json φ × Str)) =
      (scanNumber (minus ++ (digits ++ after))).map
        fun scanned => (.number scanned.1, scanned.2) := by
  have unknown : (scanConstant (minus ++ (digits ++ after)) : Option (Json φ × Str)) = none :=
    scanConstant_number shape after
  obtain ⟨d, more, same, isDigit⟩ := digits_head shape
  unfold Json.isDigit at isDigit
  simp only [Bool.and_eq_true, decide_eq_true_eq] at isDigit
  rw [same] at unknown ⊢
  rcases shape.minus with rfl | rfl
  · change (scanOnce depth (d :: (more ++ after)) : Except Raised (Json φ × Str)) = _
    rw [scanOnce_plain depth (by omega) (by omega) (by omega)]
    change (scanConstant (d :: (more ++ after)) : Option (Json φ × Str)) = none at unknown
    rw [unknown]
    rfl
  · change (scanOnce depth (0x2D :: (d :: more ++ after)) : Except Raised (Json φ × Str)) = _
    rw [scanOnce_plain depth (by decide) (by decide) (by decide)]
    change (scanConstant (0x2D :: (d :: more ++ after)) : Option (Json φ × Str)) = none at unknown
    rw [unknown]
    rfl

end

/-! ## Values -/

section

variable [PyFloat φ]

/-- What is known of how a float is written: a number with a point or an exponent, which is the
text of that float. -/
inductive WrittenFloat : φ → Prop where
  | nan (written : dumpFloat (PyFloat.nan : φ) = Py.str "NaN") : WrittenFloat PyFloat.nan
  | infinity (written : dumpFloat (PyFloat.infinity : φ) = Py.str "Infinity") :
      WrittenFloat PyFloat.infinity
  | negative (written : dumpFloat (PyFloat.neg PyFloat.infinity : φ) = Py.str "-Infinity") :
      WrittenFloat (PyFloat.neg PyFloat.infinity)
  | finite {x : φ} {minus digits fraction exponent : Str}
      (shape : NumberText minus digits fraction exponent)
      (broken : ¬ (fraction = [] ∧ exponent = []))
      (written : dumpFloat x = minus ++ digits ++ fraction ++ exponent)
      (isRead : PyFloat.ofText (dumpFloat x) = some x) : WrittenFloat x

/-- What comes back as it was. -/
inductive Portable : Json φ → Prop where
  | null : Portable .null
  | bool (value : Bool) : Portable (.bool value)
  | int (value : Int) : Portable (.number (.int value))
  | float {value : φ} (written : WrittenFloat value) : Portable (.number (.float value))
  | str {text : Str} (portable : PortableText text) : Portable (.str text)
  | array {elements : List (Json φ)} (each : ∀ value ∈ elements, Portable value) :
      Portable (.array elements)
  | object {fields : List (Str × Json φ)} (distinct : (fields.map Prod.fst).Nodup)
      (keys : ∀ field ∈ fields, PortableText field.1)
      (values : ∀ field ∈ fields, Portable field.2) : Portable (.object fields)

/-- A value does not begin with white space, nor as the end of an array or object. -/
def Begins (text : Str) : Prop :=
  ∃ c more, text = c :: more ∧ 0x20 < c ∧ c ≤ 0x7E ∧ c ≠ 0x5D ∧ c ≠ 0x7D

/-- The text is read as the value, whatever else the document has. -/
structure Reads {α : Type} (scan : Str → Except Raised (α × Str)) (value : α) (text : Str) :
    Prop where
  begins : Begins text
  printable : Printable text
  scanned : ∀ rest, Terminated rest → scan (text ++ rest) = .ok (value, rest)

omit [PyFloat φ] in
theorem begins_number {minus digits fraction exponent : Str}
    (shape : NumberText minus digits fraction exponent) (after : Str) :
    Begins (minus ++ (digits ++ after)) := by
  obtain ⟨d, more, rfl, isDigit⟩ := digits_head shape
  unfold Json.isDigit at isDigit
  simp only [Bool.and_eq_true, decide_eq_true_eq] at isDigit
  rcases shape.minus with rfl | rfl
  · exact ⟨d, more ++ after, rfl, by omega, by omega, by omega, by omega⟩
  · exact ⟨0x2D, d :: more ++ after, rfl, by decide⟩

omit [PyFloat φ] in
theorem printable_digits {digits : Str} (decimal : ∀ c ∈ digits, isDigit c = true) :
    Printable digits := by
  intro c member
  have isDigit := decimal c member
  unfold Json.isDigit at isDigit
  simp only [Bool.and_eq_true, decide_eq_true_eq] at isDigit
  omega

omit [PyFloat φ] in
theorem printable_append {left right : Str} (first : Printable left) (second : Printable right) :
    Printable (left ++ right) := List.forall_mem_append.mpr ⟨first, second⟩

omit [PyFloat φ] in
theorem printable_number {minus digits fraction exponent : Str}
    (shape : NumberText minus digits fraction exponent) :
    Printable (minus ++ digits ++ fraction ++ exponent) := by
  have isMinus : Printable minus := by
    rcases shape.minus with rfl | rfl <;> decide
  have isFraction : Printable fraction := by
    rcases shape.fraction with rfl | ⟨d, more, rfl, decimal⟩
    · decide
    · exact printable_append (by decide : Printable [0x2E]) (printable_digits decimal)
  have isExponent : Printable exponent := by
    rcases shape.exponent with rfl | ⟨e, sign, d, more, rfl, isE, isSign, decimal⟩
    · decide
    · have isMark : Printable (e :: sign) := by
        rcases isE with rfl | rfl <;> rcases isSign with rfl | rfl | rfl <;> decide
      exact printable_append isMark (printable_digits decimal)
  exact printable_append (printable_append (printable_append isMinus
    (printable_digits shape.decimal)) isFraction) isExponent

theorem reads_int (depth : Nat) {n : Int} {text : Str} (written : reprInt n = .ok text) :
    Reads (scanOnce depth) (.number (.int n) : Json φ) text := by
  unfold reprInt at written
  split at written
  · cases written
  · rename_i short
    cases written
    let minus : Str := if n < 0 then [0x2D] else []
    have shape : NumberText minus (digitsOf n.natAbs) [] [] := by
      refine ⟨?_, isDigit_digitsOf _, digitsOf_head _, .inl rfl, .inl rfl⟩
      by_cases negative : n < 0
      · exact .inr (if_pos negative)
      · exact .inl (if_neg negative)
    refine ⟨?_, ?_, fun rest terminated => ?_⟩
    · have begins := begins_number shape []
      rwa [List.append_nil] at begins
    · have printable := printable_number shape
      rwa [List.append_nil, List.append_nil] at printable
    · rw [List.append_assoc, scanOnce_number shape]
      have scanned : scanNumber (minus ++ (digitsOf n.natAbs ++ rest)) = _ :=
        @scanNumber_text φ _ _ _ _ _ _ shape terminated
      rw [scanned, intOfDigits, if_neg short, decimalValue_digitsOf]
      have signed : (if minus = [] then (n.natAbs : Int) else -n.natAbs) = n := by
        by_cases negative : n < 0
        · have isMinus : minus = [0x2D] := if_pos negative
          rw [isMinus, if_neg (List.cons_ne_nil _ _)]
          omega
        · have isMinus : minus = [] := if_neg negative
          rw [isMinus, if_pos rfl]
          omega
      change Except.ok (Json.number (.int (if minus = [] then (n.natAbs : Int) else -n.natAbs)), rest)
        = _
      rw [signed]

/-- A constant is read as it stands. -/
theorem reads_constant (depth : Nat) {value : Json φ} {text : Str} (begins : Begins text)
    (printable : Printable text)
    (plain : ∀ c ∈ text.head?, c ≠ 0x22 ∧ c ≠ 0x7B ∧ c ≠ 0x5B)
    (isConstant : ∀ rest, scanConstant (text ++ rest) = some (value, rest)) :
    Reads (scanOnce depth) value text := by
  refine ⟨begins, printable, fun rest _ => ?_⟩
  have found := isConstant rest
  obtain ⟨c, more, rfl, _⟩ := begins
  obtain ⟨notQuote, notBrace, notBracket⟩ := plain c rfl
  change scanConstant (c :: (more ++ rest)) = _ at found
  change scanOnce depth (c :: (more ++ rest)) = _
  rw [scanOnce_plain depth notQuote notBrace notBracket, found]

theorem reads_float (depth : Nat) {x : φ} (written : WrittenFloat x) :
    Reads (scanOnce depth) (.number (.float x) : Json φ) (dumpFloat x) := by
  cases written with
  | nan written =>
    rw [written]
    exact reads_constant depth ⟨_, _, rfl, by decide⟩ (by decide) (by decide) fun rest => rfl
  | infinity written =>
    rw [written]
    exact reads_constant depth ⟨_, _, rfl, by decide⟩ (by decide) (by decide) fun rest => rfl
  | negative written =>
    rw [written]
    exact reads_constant depth ⟨_, _, rfl, by decide⟩ (by decide) (by decide) fun rest => rfl
  | @finite _ minus digits fraction exponent shape broken written isRead =>
    rw [written] at isRead ⊢
    refine ⟨?_, printable_number shape, fun rest terminated => ?_⟩
    · simp only [List.append_assoc]
      exact begins_number shape _
    · simp only [List.append_assoc] at isRead ⊢
      rw [scanOnce_number shape, @scanNumber_text φ _ _ _ _ _ _ shape terminated, if_neg broken]
      simp only [List.append_assoc, isRead]
      rfl

theorem reads_str (depth : Nat) {text : Str} (portable : PortableText text) :
    Reads (scanOnce depth) (.str text : Json φ) (dumpString text) := by
  refine ⟨⟨_, _, rfl, by decide⟩, dumpString_printable portable.inRange, fun rest _ => ?_⟩
  obtain ⟨body, same, scanned⟩ := scanString_dumpString portable rest
  rw [same, scanOnce.eq_def]
  change (scanString body.length body).map _ = _
  rw [scanned]
  rfl

/-! ## Arrays and objects -/

omit [PyFloat φ] in
theorem skipSpace_begins {text : Str} (begins : Begins text) (rest : Str) :
    skipSpace (text ++ rest) = text ++ rest := by
  obtain ⟨c, more, rfl, dark, _⟩ := begins
  refine List.dropWhile_cons_of_neg ?_
  simp only [Bool.or_eq_true, beq_iff_eq]
  omega

omit [PyFloat φ] in
theorem intercalate_cons (separator text : Str) (texts : List Str) (rest : Str) :
    List.intercalate separator (text :: texts) ++ rest =
      text ++ if texts = [] then rest else separator ++ (List.intercalate separator texts ++ rest) := by
  cases texts with
  | nil => simp
  | cons next texts => simp [List.intercalate_cons_cons]

omit [PyFloat φ] in
/-- What follows an element, or a field, up to the end of the whole. -/
theorem terminated_following (texts : List Str) {close : Nat} (closes : close = 0x5D ∨ close = 0x7D)
    (rest : Str) : Terminated (if texts = [] then close :: rest
      else [0x2C] ++ (List.intercalate [0x2C] texts ++ close :: rest)) := by
  intro c isHead
  split at isHead
  · cases isHead
    exact .inr closes
  · cases isHead
    exact .inl rfl

omit [PyFloat φ] in
theorem begins_intercalate {texts : List Str} (some : texts ≠ []) (begins : ∀ text ∈ texts, Begins text) :
    Begins (List.intercalate [0x2C] texts) := by
  cases texts with
  | nil => exact absurd rfl some
  | cons text texts =>
    obtain ⟨c, more, rfl, dark⟩ := begins text List.mem_cons_self
    have split := intercalate_cons [0x2C] (c :: more) texts []
    rw [List.append_nil] at split
    exact ⟨c, _, split, dark⟩

omit [PyFloat φ] in
theorem printable_intercalate {texts : List Str} (printable : ∀ text ∈ texts, Printable text) :
    Printable (List.intercalate [0x2C] texts) := by
  induction texts with
  | nil => exact nofun
  | cons text texts inductionHypothesis =>
    obtain ⟨here, later⟩ := List.forall_mem_cons.mp printable
    have split := intercalate_cons [0x2C] text texts []
    rw [List.append_nil] at split
    rw [split, List.append_nil]
    refine printable_append here ?_
    split
    · exact nofun
    · exact printable_append (by decide) (inductionHypothesis later)

omit [PyFloat φ] in
theorem holds_each {α : Type} {reads : α → Str → Prop} {holds : Str → Prop} {values : List α}
    {texts : List Str} (written : List.Forall₂ reads values texts)
    (each : ∀ value text, reads value text → holds text) : ∀ text ∈ texts, holds text := by
  induction written with
  | nil => exact nofun
  | cons here _ inductionHypothesis =>
    exact List.forall_mem_cons.mpr ⟨each _ _ here, inductionHypothesis⟩

omit [PyFloat φ] in
theorem scanElements_written {scan : Str → Except Raised (Json φ × Str)} {elements : List (Json φ)}
    {texts : List Str} (written : List.Forall₂ (Reads scan) elements texts) (some : texts ≠ [])
    (rest : Str) {fuel : Nat} (enough : texts.length ≤ fuel) :
    scanElements scan fuel (List.intercalate [0x2C] texts ++ 0x5D :: rest) =
      .ok (elements, rest) := by
  induction written generalizing fuel with
  | nil => exact absurd rfl some
  | @cons value text elements texts reads written inductionHypothesis =>
    cases fuel with
    | zero => exact absurd enough (Nat.not_succ_le_zero _)
    | succ fuel =>
      have scanned := reads.scanned _ (terminated_following texts (.inl rfl) rest)
      rw [intercalate_cons]
      by_cases last : texts = []
      · subst last
        cases written
        exact scanElements_last scanned rfl fuel
      · rw [if_neg last, List.singleton_append] at scanned ⊢
        have begins := holds_each written fun _ _ reads => reads.begins
        rw [scanElements_more scanned rfl, skipSpace_begins (begins_intercalate last begins),
          inductionHypothesis last (Nat.le_of_succ_le_succ enough)]
        rfl

/-- A field, as it is written. -/
structure ReadsField (scan : Str → Except Raised (Json φ × Str)) (field : Str × Json φ)
    (text : Str) : Prop where
  key : PortableText field.1
  value : ∃ valueText, text = dumpString field.1 ++ 0x3A :: valueText ∧ Reads scan field.2 valueText

omit [PyFloat φ] in
theorem begins_field {scan : Str → Except Raised (Json φ × Str)} {field : Str × Json φ} {text : Str}
    (reads : ReadsField scan field text) : Begins text := by
  obtain ⟨valueText, rfl, _⟩ := reads.value
  exact ⟨0x22, _, rfl, by decide⟩

omit [PyFloat φ] in
theorem printable_field {scan : Str → Except Raised (Json φ × Str)} {field : Str × Json φ}
    {text : Str} (reads : ReadsField scan field text) : Printable text := by
  obtain ⟨valueText, rfl, value⟩ := reads.value
  exact printable_append (dumpString_printable reads.key.inRange)
    (printable_append (by decide : Printable [0x3A]) value.printable)

omit [PyFloat φ] in
/-- A new key comes last. -/
theorem setItem_new {key : Str} {value : Json φ} {fields : List (Str × Json φ)}
    (new : key ∉ fields.map Prod.fst) :
    setItem (fun left right => left == right) key value fields = fields ++ [(key, value)] := by
  induction fields with
  | nil => rfl
  | cons field fields inductionHypothesis =>
    rw [List.map_cons, List.mem_cons, not_or] at new
    rw [setItem, if_neg (by simpa using Ne.symm new.1), inductionHypothesis new.2]
    rfl

omit [PyFloat φ] in
theorem scanFields_written {scan : Str → Except Raised (Json φ × Str)}
    {fields : List (Str × Json φ)} {texts : List Str}
    (written : List.Forall₂ (ReadsField scan) fields texts) (some : texts ≠ [])
    (done : List (Str × Json φ)) (distinct : ((done ++ fields).map Prod.fst).Nodup) (rest : Str)
    {fuel : Nat} (enough : texts.length ≤ fuel) :
    scanFields scan fuel done (List.intercalate [0x2C] texts ++ 0x7D :: rest) =
      .ok (done ++ fields, rest) := by
  induction written generalizing fuel done with
  | nil => exact absurd rfl some
  | @cons field text fields texts reads written inductionHypothesis =>
    cases fuel with
    | zero => exact absurd enough (Nat.not_succ_le_zero _)
    | succ fuel =>
      have begins := holds_each written fun _ _ => begins_field
      obtain ⟨portable, valueText, rfl, value⟩ := reads
      have new : field.1 ∉ done.map Prod.fst := by
        rw [List.map_append, List.nodup_append] at distinct
        intro member
        exact distinct.2.2 _ member _ List.mem_cons_self rfl
      rw [intercalate_cons]
      generalize following : (if texts = [] then 0x7D :: rest else
        [0x2C] ++ (List.intercalate [0x2C] texts ++ 0x7D :: rest)) = more
      have terminated : Terminated more := following ▸ terminated_following texts (.inr rfl) rest
      obtain ⟨body, same, scannedKey⟩ := scanString_dumpString portable (0x3A :: valueText ++ more)
      have scanned : scan (skipSpace (valueText ++ more)) = .ok (field.2, more) := by
        rw [skipSpace_begins value.begins, value.scanned more terminated]
      rw [List.append_assoc, same]
      subst following
      by_cases last : texts = []
      · subst last
        cases written
        rw [scanFields_last scannedKey rfl scanned rfl, setItem_new new]
      · rw [if_neg last, List.singleton_append] at scannedKey scanned
        rw [scanFields_more scannedKey rfl scanned rfl, setItem_new new,
          skipSpace_begins (begins_intercalate last begins),
          inductionHypothesis last _ (by simpa using distinct) (Nat.le_of_succ_le_succ enough)]
        simp

omit [PyFloat φ] in
theorem length_intercalate {texts : List Str} (begins : ∀ text ∈ texts, Begins text) :
    texts.length ≤ (List.intercalate [0x2C] texts).length := by
  induction texts with
  | nil => exact Nat.zero_le _
  | cons text texts inductionHypothesis =>
    obtain ⟨⟨c, more, rfl, _⟩, later⟩ := List.forall_mem_cons.mp begins
    have split := intercalate_cons [0x2C] (c :: more) texts []
    have long := inductionHypothesis later
    rw [List.append_nil, List.append_nil] at split
    rw [split]
    by_cases last : texts = []
    · simp [last]
    · rw [if_neg last]
      simp only [List.length_append, List.length_cons]
      omega

theorem reads_array {depth : Nat} {elements : List (Json φ)} {texts : List Str}
    (written : List.Forall₂ (Reads (scanOnce depth)) elements texts) :
    Reads (scanOnce (depth + 1)) (.array elements)
      (0x5B :: (List.intercalate [0x2C] texts ++ [0x5D])) := by
  have begins := holds_each written fun _ _ reads => reads.begins
  have printable := printable_intercalate (holds_each written fun _ _ reads => reads.printable)
  refine ⟨⟨_, _, rfl, by decide⟩, printable_append (by decide : Printable [0x5B])
    (printable_append printable (by decide)), fun rest _ => ?_⟩
  rw [List.cons_append, List.append_assoc]
  by_cases none : texts = []
  · subst none
    cases written
    rfl
  · have first := begins_intercalate none begins
    have enough : texts.length ≤ (List.intercalate [0x2C] texts ++ 0x5D :: rest).length := by
      rw [List.length_append]
      exact (length_intercalate begins).trans (Nat.le_add_right _ _)
    have skipped := skipSpace_begins first (0x5D :: rest)
    have scanned := scanElements_written written none rest enough
    obtain ⟨c, more, same, _, _, noClose, _⟩ := first
    rw [same, List.cons_append] at skipped scanned
    rw [List.singleton_append, same, List.cons_append, scanOnce_array skipped noClose, scanned]
    rfl

theorem reads_object {depth : Nat} {fields : List (Str × Json φ)} {texts : List Str}
    (written : List.Forall₂ (ReadsField (scanOnce depth)) fields texts)
    (distinct : (fields.map Prod.fst).Nodup) :
    Reads (scanOnce (depth + 1)) (.object fields)
      (0x7B :: (List.intercalate [0x2C] texts ++ [0x7D])) := by
  have begins := holds_each written fun _ _ => begins_field
  have printable := printable_intercalate (holds_each written fun _ _ => printable_field)
  refine ⟨⟨_, _, rfl, by decide⟩, printable_append (by decide : Printable [0x7B])
    (printable_append printable (by decide)), fun rest _ => ?_⟩
  rw [List.cons_append, List.append_assoc]
  by_cases none : texts = []
  · subst none
    cases written
    rfl
  · have first := begins_intercalate none begins
    have enough : texts.length ≤ (List.intercalate [0x2C] texts ++ 0x7D :: rest).length := by
      rw [List.length_append]
      exact (length_intercalate begins).trans (Nat.le_add_right _ _)
    have skipped := skipSpace_begins first (0x7D :: rest)
    have scanned := scanFields_written written none [] distinct rest enough
    obtain ⟨c, more, same, _, _, _, noClose⟩ := first
    rw [same, List.cons_append] at skipped scanned
    rw [List.singleton_append, same, List.cons_append, scanOnce_object skipped noClose, scanned]
    rfl

/-- What is written is read as the value, with any document around it. -/
theorem reads_dumps {value : Json φ} (portable : Portable value) {depth : Nat} {text : Str}
    (written : dumps depth value = .ok text) : Reads (scanOnce depth) value text := by
  induction portable generalizing depth text with
  | null =>
    unfold dumps at written
    cases written
    exact reads_constant depth ⟨_, _, rfl, by decide⟩ (by decide) (by decide) fun rest => rfl
  | bool value =>
    unfold dumps at written
    cases written
    cases value with
    | true => exact reads_constant depth ⟨_, _, rfl, by decide⟩ (by decide) (by decide) fun rest => rfl
    | false => exact reads_constant depth ⟨_, _, rfl, by decide⟩ (by decide) (by decide) fun rest => rfl
  | int value =>
    unfold dumps at written
    exact reads_int depth written
  | float isWritten =>
    unfold dumps at written
    cases written
    exact reads_float depth isWritten
  | str portable =>
    unfold dumps at written
    cases written
    exact reads_str depth portable
  | @array elements each inductionHypothesis =>
    cases depth with
    | zero => cases written
    | succ depth =>
      unfold dumps at written
      cases dumped : elements.mapM (dumps depth) with
      | error error =>
        rw [dumped] at written
        cases written
      | ok texts =>
        rw [dumped] at written
        cases written
        have each := (List.forall₂_and_left _ _).mpr ⟨@inductionHypothesis, Methods.mapM_eq_ok dumped⟩
        exact reads_array (each.imp fun _ _ both => both.1 both.2)
  | @object fields distinct keys values inductionHypothesis =>
    cases depth with
    | zero => cases written
    | succ depth =>
      unfold dumps at written
      cases dumped : fields.mapM (fun field => do
          let text ← dumps depth field.2
          return dumpString field.1 ++ 0x3A :: text) with
      | error error =>
        rw [dumped] at written
        cases written
      | ok texts =>
        rw [dumped] at written
        cases written
        have each := (List.forall₂_and_left _ _).mpr ⟨keys, (List.forall₂_and_left _ _).mpr
          ⟨@inductionHypothesis, Methods.mapM_eq_ok dumped⟩⟩
        refine reads_object (each.imp fun field text all => ⟨all.1, ?_⟩) distinct
        obtain ⟨_, reads, written⟩ := all
        cases value : dumps depth field.2 with
        | error error =>
          rw [value] at written
          cases written
        | ok valueText =>
          rw [value] at written
          cases written
          exact ⟨valueText, rfl, reads value⟩

/-- The round trip. -/
theorem loads_dumps {value : Json φ} (portable : Portable value) {depth : Nat} {text : Str}
    (written : dumps depth value = .ok text) : loads depth text = .ok value := by
  obtain ⟨begins, _, scanned⟩ := reads_dumps portable written
  have whole := scanned [] nofun
  have unskipped := skipSpace_begins begins []
  rw [List.append_nil] at whole unskipped
  obtain ⟨c, more, rfl, _, ascii, _⟩ := begins
  have unmarked : (c :: more).head? ≠ some 0xFEFF := by
    intro marked
    cases marked
    omega
  rw [loads, if_neg unmarked, unskipped, whole]
  rfl

/-! ## What is written at all -/

omit [PyFloat φ] in
variable (φ) in
/-- No integer is too long, and nothing is nested too deep. -/
def Fits : (depth : Nat) → Json φ → Prop
  | _, .number (.int value) => value.natAbs < 10 ^ maxStrDigits
  | 0, .array _ => False
  | 0, .object _ => False
  | depth + 1, .array elements => ∀ value ∈ elements, Fits depth value
  | depth + 1, .object fields => ∀ field ∈ fields, Fits depth field.2
  | _, _ => True

theorem reprInt_ok_iff (n : Int) :
    (∃ text, reprInt n = .ok text) ↔ n.natAbs < 10 ^ maxStrDigits := by
  have length : (digitsOf n.natAbs).length = (Nat.toDigits 10 n.natAbs).length := List.length_map _
  rw [← Nat.length_toDigits_le_iff (by decide) (by decide), reprInt, length]
  split
  · rename_i long
    exact iff_of_false nofun (Nat.not_le_of_gt long)
  · rename_i short
    exact iff_of_true ⟨_, rfl⟩ (Nat.le_of_not_gt short)

theorem dumps_ok_iff (depth : Nat) (value : Json φ) :
    (∃ text, dumps depth value = .ok text) ↔ Fits φ depth value := by
  induction depth generalizing value with
  | zero =>
    cases value with
    | number value =>
      cases value with
      | int value => exact reprInt_ok_iff value
      | float value => exact iff_of_true ⟨_, rfl⟩ trivial
    | array elements => exact iff_of_false nofun id
    | object fields => exact iff_of_false nofun id
    | _ => exact iff_of_true ⟨_, rfl⟩ trivial
  | succ depth inductionHypothesis =>
    cases value with
    | number value =>
      cases value with
      | int value => exact reprInt_ok_iff value
      | float value => exact iff_of_true ⟨_, rfl⟩ trivial
    | array elements =>
      have each := Methods.mapM_ok_iff (dumps depth) elements
      simp only [inductionHypothesis] at each
      rw [Fits, ← each, dumps]
      cases elements.mapM (dumps depth) with
      | error error => exact iff_of_false nofun nofun
      | ok texts => exact iff_of_true ⟨_, rfl⟩ ⟨_, rfl⟩
    | object fields =>
      let dumpField (field : Str × Json φ) : Except Raised Str := do
        let text ← dumps depth field.2
        return dumpString field.1 ++ 0x3A :: text
      have field_ok_iff (field : Str × Json φ) :
          (∃ text, dumpField field = .ok text) ↔ Fits φ depth field.2 := by
        rw [← inductionHypothesis]
        simp only [dumpField]
        cases dumps depth field.2 with
        | error error => exact iff_of_false nofun nofun
        | ok text => exact iff_of_true ⟨_, rfl⟩ ⟨_, rfl⟩
      have each := Methods.mapM_ok_iff dumpField fields
      simp only [field_ok_iff] at each
      rw [Fits, ← each, dumps]
      cases fields.mapM dumpField with
      | error error => exact iff_of_false nofun nofun
      | ok texts => exact iff_of_true ⟨_, rfl⟩ ⟨_, rfl⟩
    | _ => exact iff_of_true ⟨_, rfl⟩ trivial

end

end Json

end EmbeddedBridge.Library.Py
