import WatchDispatch.Scope.Watch
import WatchDispatch.Text.Blank

/-!
The namespaces that a controller is responsible for.

A target scope is read from a list of namespace names and spread over one watch scope per
subscription. Names count without blanks around them; blank names, order and repetition do not
count.
-/

namespace WatchDispatch

/-- A set of names, by increasing name. -/
abbrev NameSet := Table String Unit

namespace NameSet

def ofList (names : List String) : NameSet :=
  names.foldl (fun set name => set.insert name ()) Table.empty

/-- The names, increasing. -/
def toList (set : NameSet) : List String := set.keys

end NameSet

/-- Which namespaces a controller is responsible for. -/
inductive TargetScope where
  | all
  | defaultNamespace
  /-- The named ones; without any name it stands for the default namespace. -/
  | names (set : NameSet)

namespace TargetScope

instance : Inhabited TargetScope := ⟨all⟩

/-- The name that stands for the client's default namespace when it is the only one in a list. No
namespace can have it, since names of namespaces hold neither capitals nor underscores. -/
def currentMarker : String := "WATCH_CURRENT"

/-- The names of a list without blanks around them, the blank ones left out. -/
def cleanNames (names : List String) : List String :=
  (names.map Text.trim).filter (fun name => name ≠ "")

/-- The target that a list of names stands for. -/
def ofNames (names : List String) : TargetScope :=
  let set := NameSet.ofList (cleanNames names)
  if set.toList = [] then all
  else if set.toList = [currentMarker] then defaultNamespace
  else .names set

/-- The watch scopes that cover a target, one per subscription. -/
def watchScopes : TargetScope → List Scope
  | all => [.allNamespaces]
  | defaultNamespace => [.defaultNamespace]
  | names set => if set.toList = [] then [.defaultNamespace] else set.toList.map .named

end TargetScope

end WatchDispatch
