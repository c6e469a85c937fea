import WatchDispatch.Controller.Configuration

/-!
The registry of controller configurations.

Configurations are kept under their names. A name is registered once; replacing puts a configuration
in place of the one with its name, or adds it. The main statements are the look-up equations of both
operations.
-/

namespace WatchDispatch

/-- A name that is taken, and the two controllers that claim it. -/
structure NameCollision where
  name : String
  existing : String
  incoming : String
deriving DecidableEq, Repr, Inhabited

def NameCollision.message (c : NameCollision) : String :=
  s!"controller name '{c.name}' is used by both {c.existing} and {c.incoming}"

abbrev Registry := Table String Configuration

namespace Registry

def empty : Registry := Table.empty

def replace (r : Registry) (c : Configuration) : Registry := r.insert c.name c

/-- Puts a configuration under its name unless that is taken. -/
def register (r : Registry) (c : Configuration) : Except NameCollision Registry :=
  match r.get? c.name with
  | some taken => .error ⟨taken.name, taken.identity.typeName, c.identity.typeName⟩
  | none => .ok (r.replace c)

def getFor? (r : Registry) (c : ControllerIdentity) : Option Configuration :=
  r.get? c.controllerName

/-- The registered names, increasing. -/
def names (r : Registry) : List String := r.keys

/-- The configurations by increasing name. -/
def configurations (r : Registry) : List Configuration := r.values

theorem get?_replace (r : Registry) (c : Configuration) (name : String) :
    (r.replace c).get? name = if name = c.name then some c else r.get? name :=
  Table.get?_insert r c.name name c

theorem register_eq_ok_iff {r next : Registry} {c : Configuration} :
    r.register c = .ok next ↔ r.get? c.name = none ∧ next = r.replace c := by
  unfold register
  cases h : r.get? c.name with
  | none => simp [eq_comm]
  | some taken => simp

end Registry

end WatchDispatch
