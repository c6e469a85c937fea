import WatchDispatch.Json.Basic

/-!
Records and choices as JSON.

A record is an object with one member per field; members with other names are passed over. An array
with exactly one item per field, in the order of the fields, is read as the same record. A choice
without content is the name of the alternative, one with content an object with that name as its
only key; a choice without content may also be such an object with `null` in it.
-/

namespace WatchDispatch.Json

def fields? (names : List String) : Json → Option (List (String × Json))
  | object members => some members
  | array items => if items.length = names.length then some (names.zip items) else none
  | _ => none

def required? {α : Type} (fields : List (String × Json)) (name : String)
    (read : Json → Option α) : Option α :=
  (Assoc.get? name fields).bind read

/-- A field that may be missing or `null`. -/
def absentOr? {α : Type} (fields : List (String × Json)) (name : String)
    (read : Json → Option α) : Option (Option α) :=
  optional? read (Assoc.get? name fields)

/-- The name of the chosen alternative and its content. -/
def choice? : Json → Option (String × Option Json)
  | text name => some (name, none)
  | object [(name, content)] => some (name, some content)
  | _ => none

/-- Whether the content is that of an alternative without content. -/
def noContent : Option Json → Bool
  | none | some null => true
  | _ => false

/-- A value that may be missing, written as `null` if it is. -/
def ofOption {α : Type} (write : α → Json) : Option α → Json
  | none => null
  | some a => write a

def ofNat (n : Nat) : Json := integer n

end WatchDispatch.Json
