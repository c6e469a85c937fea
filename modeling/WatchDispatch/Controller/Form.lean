import WatchDispatch.Controller.Configuration
import WatchDispatch.Scope.Form

/-!
Controller identities and configurations as JSON.
-/

namespace WatchDispatch

namespace ControllerIdentity

def fieldNames : List String := ["type_name", "name"]

def toJson (c : ControllerIdentity) : Json :=
  Json.ofMembers [("type_name", .text c.typeName), ("name", Json.ofOption .text c.name)]

def ofJson? (value : Json) : Option ControllerIdentity := do
  let fields ← value.fields? fieldNames
  let typeName ← Json.required? fields "type_name" Json.text?
  let name ← Json.absentOr? fields "name" Json.text?
  some ⟨typeName, name⟩

end ControllerIdentity

namespace Configuration

def fieldNames : List String :=
  ["name", "crd_name", "gvk_key", "finalizer_name", "generation_aware", "target_scope",
    "controller_identity"]

def toJson (c : Configuration) : Json :=
  Json.ofMembers [("name", .text c.name), ("crd_name", .text c.crdName),
    ("gvk_key", .text c.gvkKey), ("finalizer_name", .text c.finalizer),
    ("generation_aware", .bool c.generationAware), ("target_scope", c.target.toJson),
    ("controller_identity", c.identity.toJson)]

def ofJson? (value : Json) : Option Configuration := do
  let fields ← value.fields? fieldNames
  let name ← Json.required? fields "name" Json.text?
  let crdName ← Json.required? fields "crd_name" Json.text?
  let gvkKey ← Json.required? fields "gvk_key" Json.text?
  let finalizer ← Json.required? fields "finalizer_name" Json.text?
  let aware ← Json.required? fields "generation_aware" Json.bool?
  let target ← Json.required? fields "target_scope" TargetScope.ofJson?
  let identity ← Json.required? fields "controller_identity" ControllerIdentity.ofJson?
  some ⟨name, crdName, gvkKey, finalizer, aware, target, identity⟩

end Configuration

end WatchDispatch
