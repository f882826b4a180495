import Mathlib.Algebra.Group.Int.Defs
import Mathlib.Algebra.Group.Nat.Defs
import EmbeddedBridge.Library.Py.Text

/-! # Python numbers

Integers are unbounded, floats are a type of their own: `PyFloat` has the
operations on them that are needed, and says nothing of how they round.  An
operation on two numbers is the one on integers when both are, and otherwise the
one on floats, for which an integer may be too large.
-/

namespace EmbeddedBridge.Library.Py

/-- What an operation of the language may raise. -/
inductive Raised where
  | valueError
  | typeError
  | attributeError
  | overflowError
  | recursionError
deriving DecidableEq, Repr

class PyFloat (φ : Type) where
  /-- `float(text)`, if it is the text of a float -/
  ofText : Str → Option φ
  /-- `float(n)`, if it is in range -/
  ofInt : Int → Option φ
  nan : φ
  infinity : φ
  neg : φ → φ
  add : φ → φ → φ
  sub : φ → φ → φ
  mul : φ → φ → φ
  div : φ → φ → φ
  /-- `n / d` of integers, rounded once, if it is in range -/
  trueDiv : Int → Int → Option φ
  /-- the literal of `m` shifted by that many decimals -/
  literal : Nat → Nat → φ
  lt : φ → φ → Bool
  ltInt : φ → Int → Bool
  eqInt : φ → Int → Bool
  /-- the same as keys of a dictionary: equal or identical -/
  same : φ → φ → Bool
  /-- `f"{x:.nf}"` -/
  format : Nat → φ → Str
  /-- `str(x)` -/
  toStr : φ → Str

/-- Floats with six decimals, which read integers only: enough for examples. -/
structure Micro where
  units : Int
deriving DecidableEq, Repr

instance : PyFloat Micro where
  ofText text := if text ≠ [] ∧ text.all isDecimal then some ⟨1000000 * decimalValue text⟩ else none
  ofInt value := some ⟨1000000 * value⟩
  nan := ⟨0⟩
  infinity := ⟨0⟩
  neg x := ⟨-x.units⟩
  add x y := ⟨x.units + y.units⟩
  sub x y := ⟨x.units - y.units⟩
  mul x y := ⟨x.units * y.units / 1000000⟩
  div x y := ⟨x.units * 1000000 / y.units⟩
  trueDiv n d := some ⟨n * 1000000 / d⟩
  literal m decimals := ⟨1000000 * m / 10 ^ decimals⟩
  lt x y := decide (x.units < y.units)
  ltInt x n := decide (x.units < 1000000 * n)
  eqInt x n := x.units == 1000000 * n
  same x y := x == y
  format _ x := str (toString (x.units / 1000000))
  toStr x := str (toString (x.units / 1000000))

/-- Floats that are also compared by `<=`, which is not the negation of `>`. -/
class PyFloatOrder (φ : Type) extends PyFloat φ where
  le : φ → φ → Bool

instance : PyFloatOrder Micro where
  le x y := decide (x.units ≤ y.units)

/-- `sys.get_int_max_str_digits()` -/
def maxStrDigits : Nat := 4300

/-- `int(digits)` of a text of decimal digits. -/
def intOfDigits (digits : Str) : Except Raised Int :=
  if digits.length > maxStrDigits then .error .valueError else .ok (decimalValue digits)

inductive Number (φ : Type) where
  | int (value : Int)
  | float (value : φ)
deriving DecidableEq, Repr

namespace Number

variable {φ : Type} [PyFloat φ]

def toFloat : Number φ → Except Raised φ
  | .float value => .ok value
  | .int value =>
    match PyFloat.ofInt value with
    | some value => .ok value
    | none => .error .overflowError

/-- On floats as soon as one of the two is. -/
def arithmetic (onInts : Int → Int → Int) (onFloats : φ → φ → φ) :
    Number φ → Number φ → Except Raised (Number φ)
  | .int left, .int right => .ok (.int (onInts left right))
  | left, right => do
    let left ← left.toFloat
    let right ← right.toFloat
    return .float (onFloats left right)

def add : Number φ → Number φ → Except Raised (Number φ) := arithmetic (· + ·) PyFloat.add
def sub : Number φ → Number φ → Except Raised (Number φ) := arithmetic (· - ·) PyFloat.sub

def ltInt : Number φ → Int → Bool
  | .int left, right => decide (left < right)
  | .float left, right => PyFloat.ltInt left right

/-- `/` by an integer other than zero. -/
def divInt (left : Number φ) (right : Int) : Except Raised φ :=
  match left with
  | .int left =>
    match PyFloat.trueDiv left right with
    | some value => .ok value
    | none => .error .overflowError
  | .float left => do
    let right ← (Number.int right : Number φ).toFloat
    return PyFloat.div left right

def isZero : Number φ → Bool
  | .int value => value == 0
  | .float value => PyFloat.eqInt value 0

def same : Number φ → Number φ → Bool
  | .int left, .int right => left == right
  | .int left, .float right => PyFloat.eqInt right left
  | .float left, .int right => PyFloat.eqInt left right
  | .float left, .float right => PyFloat.same left right

/-! ## What does not overflow -/

/-- `float(number)` is in range. -/
def InRange : Number φ → Prop
  | .int value => (PyFloat.ofInt value : Option φ).isSome
  | .float _ => True

/-- Two integers, or two numbers that are in range as floats. -/
def Compatible : Number φ → Number φ → Prop
  | .int _, .int _ => True
  | left, right => left.InRange ∧ right.InRange

theorem toFloat_isOk {number : Number φ} :
    (∃ value, number.toFloat = .ok value) ↔ number.InRange := by
  cases number with
  | float value => exact iff_of_true ⟨value, rfl⟩ trivial
  | int value =>
    rw [toFloat, InRange]
    cases (PyFloat.ofInt value : Option φ) <;> simp

theorem arithmetic_isOk {onInts : Int → Int → Int} {onFloats : φ → φ → φ} {left right : Number φ} :
    (∃ result, arithmetic onInts onFloats left right = .ok result) ↔ left.Compatible right := by
  have onFloat : (∃ result, (do
      let left ← left.toFloat
      let right ← right.toFloat
      return .float (onFloats left right) : Except Raised (Number φ)) = .ok result) ↔
        left.InRange ∧ right.InRange := by
    rw [← toFloat_isOk, ← toFloat_isOk]
    cases left.toFloat with
    | error error => exact iff_of_false nofun nofun
    | ok first =>
      cases right.toFloat with
      | error error => exact iff_of_false nofun nofun
      | ok second => exact iff_of_true ⟨_, rfl⟩ ⟨⟨_, rfl⟩, ⟨_, rfl⟩⟩
  cases left with
  | float first => exact onFloat
  | int first =>
    cases right with
    | float second => exact onFloat
    | int second => exact iff_of_true ⟨_, rfl⟩ trivial

/-- The quotient is in range, as a float. -/
def QuotientInRange : Number φ → Int → Prop
  | .int left, right => (PyFloat.trueDiv left right : Option φ).isSome
  | .float _, right => (PyFloat.ofInt right : Option φ).isSome

theorem divInt_isOk {left : Number φ} {right : Int} :
    (∃ quotient, left.divInt right = .ok quotient) ↔ left.QuotientInRange right := by
  cases left with
  | int left =>
    rw [divInt, QuotientInRange]
    cases (PyFloat.trueDiv left right : Option φ) <;> simp
  | float left =>
    rw [divInt, QuotientInRange, toFloat]
    cases (PyFloat.ofInt right : Option φ) with
    | none => exact iff_of_false nofun nofun
    | some value => exact iff_of_true ⟨_, rfl⟩ rfl

@[simp] theorem add_int (left right : Int) :
    add (.int left : Number φ) (.int right) = .ok (.int (left + right)) := rfl

/-- A sum with a float is a float. -/
theorem add_float {left : φ} {right sum : Number φ} (added : add (.float left) right = .ok sum) :
    ∃ value, sum = .float value := by
  change (do
    let left ← (Number.float left).toFloat
    let right ← right.toFloat
    return .float (PyFloat.add left right) : Except Raised (Number φ)) = .ok sum at added
  cases isFloat : right.toFloat with
  | error error => rw [isFloat] at added; cases added
  | ok value => rw [isFloat] at added; cases added; exact ⟨_, rfl⟩

end Number

end EmbeddedBridge.Library.Py
