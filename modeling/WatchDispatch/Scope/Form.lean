import WatchDispatch.Json.Record
import WatchDispatch.Scope.Target

/-!
Scopes and target scopes as JSON.
-/

namespace WatchDispatch

def Scope.toJson : Scope → Json
  | allNamespaces => .text "AllNamespaces"
  | defaultNamespace => .text "DefaultNamespace"
  | named ns => .object [("Namespace", .text ns)]

def Scope.ofJson? (value : Json) : Option Scope := do
  let (name, content) ← value.choice?
  match name with
  | "AllNamespaces" => if Json.noContent content then some allNamespaces else none
  | "DefaultNamespace" => if Json.noContent content then some defaultNamespace else none
  | "Namespace" => (content.bind Json.text?).map named
  | _ => none

/-- A target scope as JSON; names are listed by increasing name. -/
def TargetScope.toJson : TargetScope → Json
  | all => .text "All"
  | defaultNamespace => .text "DefaultNamespace"
  | names set => .object [("Namespaces", .array (set.toList.map .text))]

def TargetScope.ofJson? (value : Json) : Option TargetScope := do
  let (name, content) ← value.choice?
  match name with
  | "All" => if Json.noContent content then some all else none
  | "DefaultNamespace" => if Json.noContent content then some defaultNamespace else none
  | "Namespaces" => (content.bind (Json.list? Json.text?)).map (fun ns => names (NameSet.ofList ns))
  | _ => none

end WatchDispatch
