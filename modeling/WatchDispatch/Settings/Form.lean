import WatchDispatch.Scope.Form
import WatchDispatch.Settings

/-!
Settings as JSON.
-/

namespace WatchDispatch.Settings

def fieldNames : List String :=
  ["watch_timeout_secs", "watch_bookmarks", "gvk", "crd_name", "controller", "scope",
    "generation_aware"]

def toJson (s : Settings) : Json :=
  Json.ofMembers [("watch_timeout_secs", .integer s.watchTimeout.toNat),
    ("watch_bookmarks", .bool s.watchBookmarks), ("gvk", Json.ofOption .text s.gvk),
    ("crd_name", Json.ofOption .text s.crdName), ("controller", .text s.controller),
    ("scope", s.target.toJson), ("generation_aware", .bool s.generationAware)]

def ofJson? (value : Json) : Option Settings := do
  let fields ← value.fields? fieldNames
  let timeout ← Json.required? fields "watch_timeout_secs" Json.nat32?
  let bookmarks ← Json.required? fields "watch_bookmarks" Json.bool?
  let gvk ← Json.absentOr? fields "gvk" Json.text?
  let crdName ← Json.absentOr? fields "crd_name" Json.text?
  let controller ← Json.required? fields "controller" Json.text?
  let target ← Json.required? fields "scope" TargetScope.ofJson?
  let aware ← Json.required? fields "generation_aware" Json.bool?
  some ⟨UInt32.ofNat timeout, bookmarks, gvk, crdName, controller, target, aware⟩

end WatchDispatch.Settings
