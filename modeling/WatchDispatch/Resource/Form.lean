import WatchDispatch.Json.Record
import WatchDispatch.Resource.Snapshot

/-!
Resources and events as JSON.

A uid is an array of sixteen numbers, an instant its text with the fewest exact fraction digits.
-/

namespace WatchDispatch

def Uid.toJson (u : Uid) : Json := .array (u.bytes.map (fun b => .integer b.toNat))

def Uid.ofJson? (value : Json) : Option Uid := (value.list? Json.byte?).bind Uid.ofBytes?

def Time.Instant.toJson (t : Instant) : Json := .text t.print

def Time.Instant.ofJson? (value : Json) : Option Instant := value.text?.bind Instant.parse?

namespace ResourceIdentity

def fieldNames : List String := ["uid", "namespace", "name", "kind"]

def toJson (r : ResourceIdentity) : Json :=
  Json.ofMembers [("uid", r.uid.toJson), ("namespace", Json.ofOption .text r.ns),
    ("name", .text r.name), ("kind", .text r.kind)]

def ofJson? (value : Json) : Option ResourceIdentity := do
  let fields ← value.fields? fieldNames
  let uid ← Json.required? fields "uid" Uid.ofJson?
  let ns ← Json.absentOr? fields "namespace" Json.text?
  let name ← Json.required? fields "name" Json.text?
  let kind ← Json.required? fields "kind" Json.text?
  some ⟨uid, ns, name, kind⟩

end ResourceIdentity

namespace Snapshot

def fieldNames : List String :=
  ["identity", "generation", "deletion_timestamp", "finalizers", "payload"]

def toJson (s : Snapshot) : Json :=
  Json.ofMembers [("identity", s.identity.toJson), ("generation", .integer s.generation.toNat),
    ("deletion_timestamp", Json.ofOption Time.Instant.toJson s.deletion),
    ("finalizers", .array (s.finalizers.map .text)), ("payload", s.payload)]

def ofJson? (value : Json) : Option Snapshot := do
  let fields ← value.fields? fieldNames
  let identity ← Json.required? fields "identity" ResourceIdentity.ofJson?
  let generation ← Json.required? fields "generation" Json.nat64?
  let deletion ← Json.absentOr? fields "deletion_timestamp" Time.Instant.ofJson?
  let finalizers ← Json.required? fields "finalizers" (Json.list? Json.text?)
  let payload ← Json.required? fields "payload" some
  some ⟨identity, UInt64.ofNat generation, deletion, finalizers, payload⟩

end Snapshot

namespace Action

def name : Action → String
  | added => "Added"
  | modified => "Modified"
  | deleted => "Deleted"
  | error => "Error"

def ofName? : String → Option Action
  | "Added" => some added
  | "Modified" => some modified
  | "Deleted" => some deleted
  | "Error" => some error
  | _ => none

def toJson (a : Action) : Json := .text a.name

def ofJson? (value : Json) : Option Action := do
  let (name, content) ← value.choice?
  if Json.noContent content then ofName? name else none

end Action

namespace Event

def fieldNames : List String := ["action", "snapshot"]

def toJson (e : Event) : Json :=
  Json.ofMembers [("action", e.action.toJson), ("snapshot", e.snapshot.toJson)]

def ofJson? (value : Json) : Option Event := do
  let fields ← value.fields? fieldNames
  let action ← Json.required? fields "action" Action.ofJson?
  let snapshot ← Json.required? fields "snapshot" Snapshot.ofJson?
  some ⟨action, snapshot⟩

end Event

end WatchDispatch
