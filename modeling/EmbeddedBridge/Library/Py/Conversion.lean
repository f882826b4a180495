import EmbeddedBridge.Library.Py.Number
import EmbeddedBridge.Library.Utf8

/-! # Conversions of texts

`int(text)`, `text.encode("utf-8")`, and `rfind` with the slice that ends where it says.
The first two raise a `ValueError` (for the second, a `UnicodeEncodeError`, which is one).
-/

namespace EmbeddedBridge.Library.Py

/-! ## Integers -/

/-- What `int` strips: white space, other than four separators of ASCII. -/
def isIntSpace (c : Nat) : Bool := isSpace c && !(0x1C ≤ c && c ≤ 0x1F)

/-- Digits, with single underscores between them left out. -/
def ungroup : Str → Option Str
  | [] => none
  | [c] => if isDecimal c then some [c] else none
  | c :: 0x5F :: digits => if isDecimal c then (ungroup digits).map (c :: ·) else none
  | c :: digits => if isDecimal c then (ungroup digits).map (c :: ·) else none

/-- Whether the text has a minus sign, and the text after its sign. -/
def takeSign : Str → Bool × Str
  | 0x2D :: text => (true, text)
  | 0x2B :: text => (false, text)
  | text => (false, text)

def intOfText (text : Str) : Except Raised Int :=
  let (negative, unsigned) := takeSign ((text.dropWhile isIntSpace).rdropWhile isIntSpace)
  match ungroup unsigned with
  | none => .error .valueError
  | some digits => do
    let value ← intOfDigits digits
    return if negative then -value else value

/-- No integer out of a text has more digits than may be converted. -/
theorem intOfText_lt {text : Str} {value : Int} (converted : intOfText text = .ok value) :
    value.natAbs < 10 ^ maxStrDigits := by
  simp only [intOfText] at converted
  cases isNumber : ungroup (takeSign ((text.dropWhile isIntSpace).rdropWhile isIntSpace)).2 with
  | none =>
    rw [isNumber] at converted
    cases converted
  | some digits =>
    rw [isNumber] at converted
    simp only [intOfDigits] at converted
    by_cases long : digits.length > maxStrDigits
    · rw [if_pos long] at converted
      cases converted
    · rw [if_neg long] at converted
      cases converted
      have small := decimalValue_lt_pow (Nat.le_of_not_gt long)
      split
      · rw [Int.natAbs_neg]
        exact small
      · exact small

/-- `int(digits, 16)` of a text of hexadecimal digits. -/
def hexValue (digits : Str) : Nat :=
  digits.foldl (fun value c => 16 * value +
    if c ≤ 0x39 then c - 0x30 else if c ≤ 0x46 then c - 0x37 else c - 0x57) 0

/-! ## Bytes -/

/-- A lone surrogate has no encoding. -/
def Encodable (text : Str) : Prop := ∀ c ∈ text, c.isValidChar

instance (text : Str) : Decidable (Encodable text) := inferInstanceAs (Decidable (∀ c ∈ text, _))

def encode (text : Str) : Except Raised (List UInt8) :=
  if Encodable text then .ok (Utf8.encode (text.map Char.ofNat)) else .error .valueError

/-! ## Places -/

/-- Where `part` is in the text for the last time, or `-1`. -/
def rfind (text part : Str) : Int :=
  match (List.range (text.length + 1)).reverse.find? fun i => part.isPrefixOf (text.drop i) with
  | some i => i
  | none => -1

/-- `text[:stop]`, where a negative `stop` counts from the end. -/
def sliceTo (text : Str) (stop : Int) : Str :=
  text.take (if stop < 0 then text.length - stop.natAbs else stop.toNat)

theorem find?_reverse_range {holds : Nat → Bool} {bound last : Nat} (here : holds last = true)
    (inside : last < bound) (later : ∀ i, last < i → i < bound → holds i = false) :
    (List.range bound).reverse.find? holds = some last := by
  induction bound with
  | zero => omega
  | succ bound inductionHypothesis =>
    rw [List.range_succ, List.reverse_append, List.reverse_singleton, List.singleton_append,
      List.find?_cons]
    by_cases isLast : last = bound
    · rw [← isLast, here]
    · rw [later bound (by omega) (by omega)]
      exact inductionHypothesis (by omega) fun i after below => later i after (by omega)

/-- A part at the end of the text is there for the last time. -/
theorem rfind_append (text : Str) {part : Str} (nonempty : part ≠ []) :
    rfind (text ++ part) part = text.length := by
  have found : (List.range ((text ++ part).length + 1)).reverse.find?
      (fun i => part.isPrefixOf ((text ++ part).drop i)) = some text.length := by
    refine find?_reverse_range ?_ ?_ fun i after below => ?_
    · rw [List.drop_left]
      exact List.isPrefixOf_iff_prefix.mpr (List.prefix_refl part)
    · have length : (text ++ part).length = text.length + part.length := List.length_append
      omega
    · -- what is left is shorter than the part
      rw [Bool.eq_false_iff]
      intro isPrefix
      have short := (List.isPrefixOf_iff_prefix.mp isPrefix).length_le
      have long := List.length_pos_iff.mpr nonempty
      rw [List.length_drop, List.length_append] at short
      omega
  rw [rfind, found]

theorem sliceTo_length (text part : Str) : sliceTo (text ++ part) text.length = text := by
  rw [sliceTo, if_neg (by omega), Int.toNat_natCast, List.take_left]

end EmbeddedBridge.Library.Py
