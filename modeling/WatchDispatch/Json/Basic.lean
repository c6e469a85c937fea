import WatchDispatch.Json.Real
import WatchDispatch.Table

/-!
JSON values.

Numbers are exact integers or binary floating-point numbers, never both: `1` and `1.0` are different
values, and only the first can be read as an integer. The members of an object are a table: keys
increase, and each occurs once. `Json.ofMembers` builds an object from any list of members, of two
with one key the later stays.
-/

namespace WatchDispatch

inductive Json where
  | null
  | bool (b : Bool)
  | integer (n : Int)
  | real (x : Json.Real)
  | text (s : String)
  | array (items : List Json)
  | object (members : List (String × Json))
deriving BEq, Repr, Inhabited

namespace Json

def ofMembers (members : List (String × Json)) : Json := object (Assoc.ofList members)

/-- The value of a member; `none` if this is no object or the member is missing. -/
def member? (key : String) : Json → Option Json
  | object members => Assoc.get? key members
  | _ => none

/-- Puts a member into an object; leaves other values as they are. -/
def setMember (record : Json) (key : String) (value : Json) : Json :=
  match record with
  | object members => object (Assoc.insert key value members)
  | other => other

def text? : Json → Option String
  | text s => some s
  | _ => none

def bool? : Json → Option Bool
  | bool b => some b
  | _ => none

def integer? : Json → Option Int
  | integer n => some n
  | _ => none

def array? : Json → Option (List Json)
  | array items => some items
  | _ => none

def object? : Json → Option (List (String × Json))
  | object members => some members
  | _ => none

/-- The natural number below `bound` that this value is. -/
def natBelow? (bound : Nat) (value : Json) : Option Nat := do
  let n ← value.integer?
  if 0 ≤ n ∧ n < bound then some n.toNat else none

def byte? : Json → Option UInt8 := fun value => (value.natBelow? UInt8.size).map UInt8.ofNat

def nat16? : Json → Option Nat := natBelow? UInt16.size

def nat32? : Json → Option Nat := natBelow? UInt32.size

def nat64? : Json → Option Nat := natBelow? UInt64.size

/-- A value that may be missing: `null` and an absent member count as nothing. -/
def optional? {α : Type} (read : Json → Option α) : Option Json → Option (Option α)
  | none | some null => some none
  | some value => (read value).map some

/-- A list all of whose items can be read. -/
def list? {α : Type} (read : Json → Option α) (value : Json) : Option (List α) :=
  value.array?.bind (fun items => items.mapM read)

end Json

end WatchDispatch
