import WatchDispatch.Text.Split

/-!
Controller identities.

A controller is known by the path of its type and possibly by a name of its own. Without one its
name is the last segment of the path in lower case, where type arguments in angle brackets do not
count.
-/

namespace WatchDispatch

structure ControllerIdentity where
  /-- The path of the controller's type, its segments separated by two colons. -/
  typeName : String
  /-- A name that overrides the one derived from the type. -/
  name : Option String
deriving DecidableEq, Repr, Inhabited

namespace ControllerIdentity

/-- The text after the last two colons that stand together; all of it if there are none. -/
def lastSegment : List Char → List Char → List Char
  | found, [] => found
  | found, ':' :: rest =>
    match rest with
    | ':' :: rest' => lastSegment rest' rest
    | _ => lastSegment found rest
  | found, _ :: rest => lastSegment found rest

/-- The name derived from a type path. -/
def derivedName (typeName : String) : String :=
  let base := typeName.toList.takeWhile (· ≠ '<')
  Text.lowerAscii (String.ofList (lastSegment base base))

/-- The name of a controller, under which it is registered: its own one unless that is empty, else
the derived one. -/
def controllerName (c : ControllerIdentity) : String :=
  match c.name with
  | some name => if name = "" then derivedName c.typeName else name
  | none => derivedName c.typeName

end ControllerIdentity

end WatchDispatch
