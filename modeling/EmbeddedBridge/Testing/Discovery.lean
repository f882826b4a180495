import EmbeddedBridge.Testing.Session

/-! # Test discovery

`TestSession.discover` of `testing/session.py`: asks for the catalog, and reads lines until
one is a catalog or the time is up.  A catalog is whatever JSON the device sends: its
`tests` is iterated, indexed and asked for keys as Python does that with a value of any
type.
-/

namespace EmbeddedBridge.Python

open Library Py

structure TestInfo (φ : Type) where
  id : Json φ
  name : Json φ
  group : Json φ

namespace TestSession

/-- Why `discover` does not return: also for what a session's methods do not raise. -/
inductive DiscoverStop where
  | session (stop : Stop)
  | keyError (key : Str)
  | timeoutError (message : Str)
deriving DecidableEq, Repr

variable {φ ω α : Type}

/-! ## Catalogs -/

/-- What `for t in value` goes through: the keys of a dictionary, the characters of a
string. -/
def elements : Json φ → Except DiscoverStop (List (Json φ))
  | .array elements => .ok elements
  | .object fields => .ok (fields.map fun field => .str field.1)
  | .str value => .ok (value.map fun c => .str [c])
  | .null | .bool _ | .number _ => .error (.session (.raised .typeError))

/-- `value[key]`; a string or a list takes no string for an index, and the others none. -/
def item (value : Json φ) (key : Str) : Except DiscoverStop (Json φ) :=
  match value with
  | .object fields =>
    match Json.get fields key with
    | some found => .ok found
    | none => .error (.keyError key)
  | _ => .error (.session (.raised .typeError))

/-- `value.get(key, default)` -/
def getOr (value : Json φ) (key : Str) (default : Json φ) : Except DiscoverStop (Json φ) :=
  match value with
  | .object fields => .ok ((Json.get fields key).getD default)
  | _ => .error (.session (.raised .attributeError))

def testInfo (t : Json φ) : Except DiscoverStop (TestInfo φ) := do
  let id ← item t (str "id")
  let name ← getOr t (str "name") (← item t (str "id"))
  let group ← getOr t (str "group") (.str [])
  return { id, name, group }

/-- An empty object, which counts as none, has no type. -/
def isCatalog (obj : List (Str × Json φ)) : Bool :=
  ((Json.get obj (str "type")).getD .null).isStr (str "test_catalog")

def catalog (obj : List (Str × Json φ)) : Except DiscoverStop (List (TestInfo φ)) := do
  let tests ← elements ((Json.get obj (str "tests")).getD (.array []))
  tests.mapM testInfo

variable [PyFloat φ]

/-- What a line brings: nothing, if it is no catalog. -/
def catalogIn (depth : Nat) (line : Str) : Except DiscoverStop (Option (List (TestInfo φ))) :=
  match (parseJsonLine depth line : Except Raised (Option (List (Str × Json φ)))) with
  | .error error => .error (.session (.raised error))
  | .ok none => .ok none
  | .ok (some obj) => if isCatalog obj then (catalog obj).map some else .ok none

/-! ## Discover -/

abbrev Discovering (φ ω α : Type) := Methods.Method DiscoverStop (TestSession φ ω) α

omit [PyFloat φ] in
def part (method : Method φ ω α) : Discovering φ ω α := ExceptT.adapt .session method

variable (env : Environment φ ω) (depth : Nat) (timeout : φ)

/-- The `while` loop of `discover`. -/
def discoverLoop (deadline : φ) : (fuel : Nat) → Discovering φ ω (List (TestInfo φ))
  | 0 => throw (.session .cutOff)
  | fuel + 1 => do
    let now ← part (clock env)
    if PyFloat.lt now deadline then do
      match ← part (readLine env (PyFloat.literal 5 1) fuel) with
      | none => discoverLoop deadline fuel
      | some line =>
        match ← MonadExcept.ofExcept (catalogIn depth line) with
        | some tests => return tests
        | none => discoverLoop deadline fuel
    else
      throw (.timeoutError
        (str "No test_catalog received within " ++ PyFloat.toStr timeout ++ str "s"))

def discover (fuel : Nat) : Discovering φ ω (List (TestInfo φ)) := do
  if ← part (write env SOH) then do
    let now ← part (clock env)
    discoverLoop env depth timeout (PyFloat.add now timeout) fuel
  else throw (.session .foreign)

end TestSession

end EmbeddedBridge.Python
