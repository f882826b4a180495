import Mathlib.Data.List.TakeWhile
import Mathlib.Data.Nat.Digits.Defs
import EmbeddedBridge.Framing.Writer

/-! # Printing

`Writer` and `BufferWriter` of `writer.h`.  The `print` methods put a text together and pass it
to `write(buf, len)`, which writes byte by byte; `call_eq` says which bytes each of them asks
for.  Whole numbers are never cut off, other texts are where their array ends, or at a NUL.

`print(s) + print("\r\n")` may evaluate its operands in either order, which is up to the
compiler.
-/

namespace EmbeddedBridge.Cpp

open Library

/-! ## Texts -/

/-- What `strlen` takes for the text: all before the first NUL. -/
def cString (s : List UInt8) : List UInt8 := s.takeWhile (· ≠ 0)

/-- What `snprintf` leaves in an array of `size` bytes. -/
def snprintf (size : Nat) (formatted : List UInt8) : List UInt8 := formatted.take (size - 1)

/-- `%d`, `%u` and `%ld` -/
def decimal (v : Int) : List UInt8 :=
  (if v < 0 then [0x2D] else []) ++ (Nat.toDigits 10 v.natAbs).map Char.toUInt8

def ascii (text : String) : List UInt8 := text.toList.map Char.toUInt8

/-! ## Writers -/

/-- `write(uint8_t)`, with the count that it returns. -/
abbrev Writer (σ : Type) := σ → UInt8 → σ × Nat

/-- What can be called on a `Writer`.  Floats are formatted by the library, and so is what is
given to `printf`, which may fail. -/
inductive PrintCall where
  | write (c : UInt8)
  | writeBuf (buf : List UInt8)
  | print (s : Option (List UInt8))
  | printChar (c : UInt8)
  | printInt (v : Int32)
  | printUnsigned (v : UInt32)
  | printLong (v : Int64)
  | printFloat (formatted : List UInt8)
  | printBool (v : Bool)
  | println (s : Option (List UInt8))
  | printlnInt (v : Int32)
  | printlnFloat (formatted : List UInt8)
  | printf (formatted : Option (List UInt8))
deriving DecidableEq, Repr

/-- The operand that is evaluated first. -/
inductive Operand where
  | left
  | right
deriving DecidableEq, Repr

namespace Writer

variable {σ : Type} (write : Writer σ)

def writeBuf (state : σ) (buf : List UInt8) : σ × Nat :=
  buf.foldl (fun result c =>
    let one := write result.1 c
    (one.1, result.2 + one.2)) (state, 0)

def print (s : Option (List UInt8)) (state : σ) : σ × Nat :=
  match s with
  | none => (state, 0)
  | some s => write.writeBuf state (cString s)

def printInt (v : Int32) : σ → σ × Nat := write.print (some (snprintf 16 (decimal v.toInt)))

def printUnsigned (v : UInt32) : σ → σ × Nat := write.print (some (snprintf 16 (decimal v.toNat)))

def printLong (v : Int64) : σ → σ × Nat := write.print (some (snprintf 24 (decimal v.toInt)))

def printFloat (formatted : List UInt8) : σ → σ × Nat := write.print (some (snprintf 24 formatted))

def printBool (v : Bool) : σ → σ × Nat := write.print (some (ascii (if v then "true" else "false")))

def printf (formatted : Option (List UInt8)) (state : σ) : σ × Nat :=
  match formatted with
  | none => (state, 0)
  | some formatted =>
    if 0 < formatted.length then write.print (some (snprintf 128 formatted)) state else (state, 0)

/-- The sum of two calls. -/
def sum (operand : Operand) (left right : σ → σ × Nat) (state : σ) : σ × Nat :=
  match operand with
  | .left => ((right (left state).1).1, (left state).2 + (right (left state).1).2)
  | .right => ((left (right state).1).1, (left (right state).1).2 + (right state).2)

def crlf : List UInt8 := [0x0D, 0x0A]

def call (operand : Operand) : PrintCall → σ → σ × Nat
  | .write c => fun state => write state c
  | .writeBuf buf => fun state => write.writeBuf state buf
  | .print s => write.print s
  | .printChar c => fun state => write state c
  | .printInt v => write.printInt v
  | .printUnsigned v => write.printUnsigned v
  | .printLong v => write.printLong v
  | .printFloat formatted => write.printFloat formatted
  | .printBool v => write.printBool v
  | .println s => sum operand (write.print s) (write.print (some crlf))
  | .printlnInt v => sum operand (write.printInt v) (write.print (some crlf))
  | .printlnFloat formatted => sum operand (write.printFloat formatted) (write.print (some crlf))
  | .printf formatted => write.printf formatted

/-- The calls one after the other, and the counts that they return. -/
def run (operand : Operand) : List PrintCall → σ → σ × List Nat
  | [], state => (state, [])
  | call :: calls, state =>
    let here := write.call operand call state
    let later := run operand calls here.1
    (later.1, here.2 :: later.2)

end Writer

/-! ## What is asked for -/

/-- The text with the end of its line. -/
def ended (operand : Operand) (text : List UInt8) : List UInt8 :=
  match operand with
  | .left => text ++ Writer.crlf
  | .right => Writer.crlf ++ text

/-- The bytes that a call asks to be written. -/
def PrintCall.asks (operand : Operand) : PrintCall → List UInt8
  | .write c => [c]
  | .writeBuf buf => buf
  | .print s => (s.map cString).getD []
  | .printChar c => [c]
  | .printInt v => decimal v.toInt
  | .printUnsigned v => decimal v.toNat
  | .printLong v => decimal v.toInt
  | .printFloat formatted => cString (formatted.take 23)
  | .printBool v => ascii (if v then "true" else "false")
  | .println s => ended operand ((s.map cString).getD [])
  | .printlnInt v => ended operand (decimal v.toInt)
  | .printlnFloat formatted => ended operand (cString (formatted.take 23))
  | .printf formatted => (formatted.map fun formatted => cString (formatted.take 127)).getD []

/-! ## Buffers -/

/-- `BufferWriter<N>`; an index into its array is below its size. -/
structure BufferWriter (n : Nat) where
  buf : Vector UInt8 (n + 1)
  pos : Nat := 0
  overflow : Bool := false

namespace BufferWriter

variable {n : Nat}

def write : Writer (BufferWriter n) := fun writer c =>
  if room : writer.pos < n then
    ({ writer with
        buf := (writer.buf.set writer.pos c (by omega)).set (writer.pos + 1) 0 (by omega)
        pos := writer.pos + 1 }, 1)
  else ({ writer with overflow := true }, 0)

def clear (writer : BufferWriter n) : BufferWriter n :=
  { buf := writer.buf.set 0 0, pos := 0, overflow := false }

/-- `str()` as a text, if the array has an end of it. -/
def str (writer : BufferWriter n) : Option (List UInt8) :=
  if 0 ∈ writer.buf.toList then some (cString writer.buf.toList) else none

/-- What can be called on it; the constructor clears it. -/
inductive Call where
  | print (call : PrintCall)
  | clear
deriving DecidableEq, Repr

/-- A call, with the sum of what has been returned since the last `clear()`. -/
def call (operand : Operand) (state : BufferWriter n × Nat) : Call → BufferWriter n × Nat
  | .print call =>
    let result := write.call operand call state.1
    (result.1, state.2 + result.2)
  | .clear => (state.1.clear, 0)

/-- The bytes that have been asked for since the last `clear()`. -/
def asked (operand : Operand) (text : List UInt8) : Call → List UInt8
  | .print call => text ++ call.asks operand
  | .clear => []

end BufferWriter

/-! ## Texts that are not cut off -/

theorem cString_of_noNul {s : List UInt8} (noNul : 0 ∉ s) : cString s = s := by
  refine List.takeWhile_eq_self_iff.mpr fun c member => ?_
  exact decide_eq_true fun zero => noNul (zero ▸ member)

theorem noNul_decimal (v : Int) : 0 ∉ decimal v := by
  intro member
  cases List.mem_append.mp member with
  | inl sign =>
    split at sign
    · simp at sign
    · cases sign
  | inr digit =>
    obtain ⟨c, member, zero⟩ := List.mem_map.mp digit
    have bounds := Char.isDigit_iff_toNat.mp (Nat.isDigit_of_mem_toDigits (by decide) (by decide) member)
    have code : c.toNat % 256 = 0 := congrArg UInt8.toNat zero
    have lowest : '0'.toNat = 48 := rfl
    have highest : '9'.toNat = 57 := rfl
    omega

/-- A sign and as many digits. -/
theorem length_decimal {v : Int} {digits : Nat} (positive : 0 < digits)
    (small : v.natAbs < 10 ^ digits) : (decimal v).length ≤ digits + 1 := by
  have short := (Nat.length_toDigits_le_iff (by decide : 1 < 10) positive).mpr small
  rw [decimal, List.length_append, List.length_map]
  split
  · simp only [List.length_singleton]
    omega
  · simp only [List.length_nil]
    omega

theorem cString_snprintf_decimal {v : Int} {size digits : Nat} (positive : 0 < digits)
    (small : v.natAbs < 10 ^ digits) (room : digits + 2 ≤ size) :
    cString (snprintf size (decimal v)) = decimal v := by
  have short := length_decimal positive small
  rw [snprintf, List.take_of_length_le (by omega), cString_of_noNul (noNul_decimal v)]

theorem natAbs_int (v : Int32) : v.toInt.natAbs < 10 ^ 10 := by
  have low := v.le_toInt
  have high := v.toInt_lt
  omega

theorem natAbs_unsigned (v : UInt32) : (v.toNat : Int).natAbs < 10 ^ 10 := by
  have high := v.toNat_lt
  omega

theorem natAbs_long (v : Int64) : v.toInt.natAbs < 10 ^ 19 := by
  have low := v.le_toInt
  have high := v.toInt_lt
  omega

/-! ## What the calls write -/

namespace Writer

variable {σ : Type} (write : Writer σ)

theorem writeBuf_append (state : σ) (left right : List UInt8) :
    write.writeBuf state (left ++ right) =
      ((write.writeBuf (write.writeBuf state left).1 right).1,
        (write.writeBuf state left).2 + (write.writeBuf (write.writeBuf state left).1 right).2) := by
  induction right using List.reverseRecOn with
  | nil => simp [writeBuf]
  | append_singleton right c inductionHypothesis =>
    have snoc (state : σ) (buf : List UInt8) : write.writeBuf state (buf ++ [c]) =
        ((write (write.writeBuf state buf).1 c).1,
          (write.writeBuf state buf).2 + (write (write.writeBuf state buf).1 c).2) := by
      simp only [writeBuf, List.foldl_append, List.foldl_cons, List.foldl_nil]
    rw [← List.append_assoc, snoc, snoc, inductionHypothesis]
    simp only [Nat.add_assoc]

theorem writeBuf_singleton (state : σ) (c : UInt8) : write.writeBuf state [c] = write state c := by
  simp [writeBuf]

/-- A call is `write(buf, len)` of what it asks for. -/
theorem call_eq (operand : Operand) (call : PrintCall) (state : σ) :
    write.call operand call state = write.writeBuf state (call.asks operand) := by
  have crlfs (state : σ) : write.print (some crlf) state = write.writeBuf state crlf := rfl
  have sums {left : σ → σ × Nat} {text : List UInt8}
      (writes : ∀ state, left state = write.writeBuf state text) :
      sum operand left (write.print (some crlf)) state = write.writeBuf state (ended operand text) := by
    cases operand with
    | left => simp only [sum, ended, writes, crlfs, writeBuf_append]
    | right => simp only [sum, ended, writes, crlfs, writeBuf_append, Nat.add_comm]
  have prints (s : Option (List UInt8)) (state : σ) :
      write.print s state = write.writeBuf state ((s.map cString).getD []) := by
    cases s with
    | none => rfl
    | some s => rfl
  have ints (v : Int32) (state : σ) :
      write.printInt v state = write.writeBuf state (decimal v.toInt) := by
    rw [printInt, print, cString_snprintf_decimal (by decide) (natAbs_int v) (by decide)]
  cases call with
  | write c => exact (write.writeBuf_singleton state c).symm
  | writeBuf buf => rfl
  | print s => exact prints s state
  | printChar c => exact (write.writeBuf_singleton state c).symm
  | printInt v => exact ints v state
  | printUnsigned v =>
    rw [call, printUnsigned, print,
      cString_snprintf_decimal (by decide) (natAbs_unsigned v) (by decide)]
    rfl
  | printLong v =>
    rw [call, printLong, print, cString_snprintf_decimal (by decide) (natAbs_long v) (by decide)]
    rfl
  | printFloat formatted => rfl
  | printBool v => cases v <;> rfl
  | println s => exact sums (prints s)
  | printlnInt v => exact sums (ints v)
  | printlnFloat formatted => exact sums fun _ => rfl
  | printf formatted =>
    cases formatted with
    | none => rfl
    | some formatted =>
      cases formatted with
      | nil => rfl
      | cons c formatted => rfl

/-- All that the calls ask for is written, and what they return adds up. -/
theorem run_eq (operand : Operand) (calls : List PrintCall) (state : σ) :
    ((write.run operand calls state).1, (write.run operand calls state).2.sum) =
      write.writeBuf state (calls.flatMap (PrintCall.asks operand)) := by
  induction calls generalizing state with
  | nil => rfl
  | cons call calls inductionHypothesis =>
    have later := inductionHypothesis (write.writeBuf state (call.asks operand)).1
    rw [List.flatMap_cons, writeBuf_append, ← later, run, call_eq]
    rfl

end Writer

end EmbeddedBridge.Cpp
