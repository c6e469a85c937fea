import WatchDispatch.Json.Reading
import WatchDispatch.Time.Instant

/-!
The metadata of an object of the cluster.

Metadata is an open record: a field that is missing or `null` counts as absent, a field that no name
is given for is dropped, and a value that does not fit its field makes the whole metadata
unreadable. What is read is kept in canonical form: instants in UTC cut to whole seconds, owner
references with all their texts.
-/

namespace WatchDispatch.Cluster

open Json (Draft Reader ReadError)

def textValue : Reader Json := Draft.asJson .text Draft.string

def flagValue : Reader Json := Draft.asJson .bool Draft.flag

def numberValue : Reader Json := Draft.asJson .integer Draft.int64

/-- An instant, in canonical form. -/
def instantValue : Reader Json :=
  Draft.asJson (fun t => .text (Time.Instant.printSecond t)) (Draft.parsed Time.Instant.parse?)

def textsValue : Reader Json := Draft.asJson .array (Draft.list textValue)

def namedTextsValue : Reader Json := Draft.asJson .object (Draft.named textValue)

def ownerField? : String → Option (Reader Json)
  | "apiVersion" | "kind" | "name" | "uid" => some textValue
  | "blockOwnerDeletion" | "controller" => some flagValue
  | _ => none

/-- The texts of an owner reference that are written even if they are absent, then as empty ones. -/
def ownerTexts : List String := ["apiVersion", "kind", "name", "uid"]

/-- Adds the texts that are absent. -/
def withOwnerTexts (fields : List (String × Json)) : List (String × Json) :=
  ownerTexts.foldl (fun fields name =>
    if (Assoc.get? name fields).isSome then fields else Assoc.insert name (.text "") fields) fields

def ownerValue : Reader Json :=
  Draft.asJson (fun fields => .object (withOwnerTexts fields)) (Draft.openRecord ownerField?)

def managerField? : String → Option (Reader Json)
  | "apiVersion" | "fieldsType" | "manager" | "operation" | "subresource" => some textValue
  | "fieldsV1" => some Draft.value
  | "time" => some instantValue
  | _ => none

/-- The record of who manages which fields. -/
def managersValue : Reader Json :=
  Draft.asJson .array (Draft.list (Draft.asJson .object (Draft.openRecord managerField?)))

/-- The fields of metadata, except for the instant of the deletion. -/
def metadataField? : String → Option (Reader Json)
  | "annotations" | "labels" => some namedTextsValue
  | "creationTimestamp" => some instantValue
  | "deletionGracePeriodSeconds" | "generation" => some numberValue
  | "finalizers" => some textsValue
  | "managedFields" => some managersValue
  | "generateName" | "name" | "namespace" | "resourceVersion" | "selfLink" | "uid" => some textValue
  | "ownerReferences" => some (Draft.asJson .array (Draft.list ownerValue))
  | _ => none

structure Metadata where
  /-- The fields that are present, in canonical form, by increasing name. -/
  members : List (String × Json)
  /-- When the deletion was asked for, with its fraction of a second. -/
  deletion : Option Time.Instant
deriving Repr, Inhabited

namespace Metadata

def empty : Metadata := ⟨[], none⟩

/-- Puts a field in place of the one with its name; an absent one is taken away. -/
def put (m : Metadata) (name : String) : Option Json → Metadata
  | some v => { m with members := Assoc.insert name v m.members }
  | none => { m with members := Assoc.erase name m.members }

def step (m : Metadata) : String → Reader Metadata
  | "deletionTimestamp", d => do
    let t ← Draft.optional (Draft.parsed Time.Instant.parse?) d
    return { m.put "deletionTimestamp" (t.map (fun t => .text t.printSecond)) with deletion := t }
  | name, d =>
    match metadataField? name with
    | none => Draft.ignored m d
    | some read => (Draft.optional read d).map (m.put name)

def read : Reader Metadata := Draft.record step empty

def toJson (m : Metadata) : Json := .object m.members

def text? (m : Metadata) (key : String) : Option String :=
  (Assoc.get? key m.members).bind Json.text?

def uid? (m : Metadata) : Option String := m.text? "uid"

def name? (m : Metadata) : Option String := m.text? "name"

def ns? (m : Metadata) : Option String := m.text? "namespace"

def resourceVersion? (m : Metadata) : Option String := m.text? "resourceVersion"

/-- The generation of the object: its number if that is not negative, else zero. -/
def generation (m : Metadata) : UInt64 :=
  UInt64.ofNat (((Assoc.get? "generation" m.members).bind Json.integer?).getD 0).toNat

/-- The finalizers of the object, as they are listed. -/
def finalizers (m : Metadata) : List String :=
  ((Assoc.get? "finalizers" m.members).bind (Json.list? Json.text?)).getD []

end Metadata

end WatchDispatch.Cluster
