import Mathlib.Algebra.Group.Nat.Defs
import Mathlib.Data.List.DropRight

/-! # Python texts

A `str` is the list of its code points, so that it can hold lone surrogates.  What
counts as white space and which characters are decimal digits is Unicode's;
neither is the same as in ASCII.
-/

namespace EmbeddedBridge.Library.Py

abbrev Str := List Nat

/-- A literal. -/
def str (text : String) : Str := text.toList.map Char.toNat

/-- What a decoder hands on. -/
def ofChars (text : List Char) : Str := text.map Char.toNat

/-! ## White space -/

def isSpace (c : Nat) : Bool :=
  (0x09 ≤ c && c ≤ 0x0D) || (0x1C ≤ c && c ≤ 0x20) || (0x2000 ≤ c && c ≤ 0x200A) ||
    [0x85, 0xA0, 0x1680, 0x2028, 0x2029, 0x202F, 0x205F, 0x3000].contains c

def strip (text : Str) : Str := (text.dropWhile isSpace).rdropWhile isSpace

/-! ## Decimal digits -/

/-- The zeros of the scripts that have decimal digits; nine more follow each. -/
def decimalZeros : List Nat :=
  [0x30, 0x660, 0x6F0, 0x7C0, 0x966, 0x9E6, 0xA66, 0xAE6, 0xB66, 0xBE6, 0xC66, 0xCE6, 0xD66, 0xDE6,
    0xE50, 0xED0, 0xF20, 0x1040, 0x1090, 0x17E0, 0x1810, 0x1946, 0x19D0, 0x1A80, 0x1A90, 0x1B50,
    0x1BB0, 0x1C40, 0x1C50, 0xA620, 0xA8D0, 0xA900, 0xA9D0, 0xA9F0, 0xAA50, 0xABF0, 0xFF10, 0x104A0,
    0x10D30, 0x11066, 0x110F0, 0x11136, 0x111D0, 0x112F0, 0x11450, 0x114D0, 0x11650, 0x116C0,
    0x11730, 0x118E0, 0x11950, 0x11C50, 0x11D50, 0x11DA0, 0x16A60, 0x16AC0, 0x16B50, 0x1D7CE,
    0x1D7D8, 0x1D7E2, 0x1D7EC, 0x1D7F6, 0x1E140, 0x1E2F0, 0x1E950, 0x1FBF0]

def decimal (c : Nat) : Option Nat :=
  (decimalZeros.find? fun first => first ≤ c && c < first + 10).map (c - ·)

def isDecimal (c : Nat) : Bool := (decimal c).isSome

def decimalValue (digits : Str) : Nat :=
  digits.foldl (fun value c => 10 * value + (decimal c).getD 0) 0

theorem decimal_lt {c d : Nat} (isDigit : decimal c = some d) : d < 10 := by
  rw [decimal, Option.map_eq_some_iff] at isDigit
  obtain ⟨first, found, same⟩ := isDigit
  have between := List.find?_some found
  simp only [Bool.and_eq_true, decide_eq_true_eq] at between
  omega

theorem decimalValue_lt (digits : Str) : decimalValue digits < 10 ^ digits.length := by
  induction digits using List.reverseRecOn with
  | nil => exact Nat.one_pos
  | append_singleton digits c inductionHypothesis =>
    have last : (decimal c).getD 0 < 10 := by
      cases isDigit : decimal c with
      | none => exact Nat.succ_pos 9
      | some d => exact decimal_lt isDigit
    rw [decimalValue] at inductionHypothesis ⊢
    rw [List.foldl_append, List.length_append, List.length_singleton, Nat.pow_succ]
    simp only [List.foldl_cons, List.foldl_nil]
    omega

theorem decimalValue_lt_pow {digits : Str} {most : Nat} (short : digits.length ≤ most) :
    decimalValue digits < 10 ^ most :=
  (decimalValue_lt digits).trans_le (Nat.pow_le_pow_right (Nat.succ_pos 9) short)

/-! ## What a pattern asks for -/

/-- `\S` -/
def notSpace (c : Nat) : Bool := !isSpace c

/-- `.` -/
def notNewline (c : Nat) : Bool := c != 0x0A

/-- `$`: the end of the text, or a newline there. -/
def atEnd (rest : Str) : Bool := rest == [] || rest == [0x0A]

/-! ## Splitting -/

/-- `partition` at one character: what is before it and what after, if it occurs. -/
def partition (separator : Nat) : Str → Option (Str × Str)
  | [] => none
  | c :: text =>
    if c = separator then some ([], text)
    else (partition separator text).map fun parts => (c :: parts.1, parts.2)

end EmbeddedBridge.Library.Py
