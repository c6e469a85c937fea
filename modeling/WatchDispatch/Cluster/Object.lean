import WatchDispatch.Cluster.Metadata
import WatchDispatch.Resource.Snapshot

/-!
Objects of the cluster and the snapshots taken of them.

An object has metadata, possibly a version and a kind, and any other members, which are kept as they
are; of two with one name the later stays. The snapshot of an object needs a uid and a name in the
metadata; its payload is the object written back without the record of who manages which fields.
-/

namespace WatchDispatch.Cluster

open Json (Draft Reader)

/-- The version and the kind that an object names. -/
structure TypeMeta where
  apiVersion : String
  kind : String
deriving DecidableEq, Repr, Inhabited

structure Object where
  types : Option TypeMeta
  metadata : Metadata
  /-- The other members. -/
  others : List (String × Json)
deriving Repr, Inhabited

inductive SnapshotError where
  | missingUid
  | malformedUid (text : String)
  | missingName (uid : String)
deriving DecidableEq, Repr, Inhabited

/-- What the library that reads uids says of a text that is none. -/
class UidErrors where
  text : String → String

/-- Where nobody asks what it says, this stands for it. -/
instance : UidErrors := ⟨fun _ => "<uuid error>"⟩

def SnapshotError.message (e : SnapshotError) (uidError : String → String := UidErrors.text) :
    String :=
  match e with
  | missingUid => "object missing metadata.uid"
  | malformedUid text => s!"parsing metadata.uid as uuid: {uidError text}"
  | missingName uid => s!"object {uid} missing metadata.name"

namespace Object

/-- Version and kind if both are there. -/
def typesOf : Option String → Option String → Option TypeMeta
  | some apiVersion, some kind => some ⟨apiVersion, kind⟩
  | _, _ => none

/-- The text of a member that did not occur before. -/
def firstText? : Option String → Json → Option String
  | none, .text s => some s
  | _, _ => none

/-- Takes version and kind out of members, given what was found of them before. If one of them is no
text or occurs twice, the object has no type, and the members behind that one stay where they
are. -/
def takeTypes (apiVersion kind : Option String) :
    List (String × Json) → Option TypeMeta × List (String × Json)
  | [] => (typesOf apiVersion kind, [])
  | (name, v) :: rest =>
    if name = "apiVersion" then
      match firstText? apiVersion v with
      | some s => takeTypes (some s) kind rest
      | none => (none, rest)
    else if name = "kind" then
      match firstText? kind v with
      | some s => takeTypes apiVersion (some s) rest
      | none => (none, rest)
    else
      let (types, others) := takeTypes apiVersion kind rest
      (types, (name, v) :: others)

/-- An object while its members are taken: the metadata, if they were there, and the other members,
the last one first. -/
abbrev Progress := Option Metadata × List (String × Json)

def step (p : Progress) : String → Reader Progress
  | "metadata", d =>
    match p.1 with
    | some _ => .error .malformed
    | none => (Metadata.read d).map (fun m => (some m, p.2))
  | name, d => d.value.map (fun v => (p.1, (name, v) :: p.2))

/-- The object with these members. Absent metadata are empty. -/
def ofProgress (p : Progress) : Object :=
  let (types, others) := takeTypes none none p.2.reverse
  ⟨types, p.1.getD Metadata.empty, others⟩

def read : Reader Object := fun d => (Draft.record step (none, []) d).map ofProgress

def ofJson? (value : Json) : Option Object := (read (.ofJson value)).toOption

def typeMembers : Option TypeMeta → List (String × Json)
  | some types => [("apiVersion", .text types.apiVersion), ("kind", .text types.kind)]
  | none => []

def toJson (o : Object) : Json :=
  Json.ofMembers (o.others ++ ("metadata", o.metadata.toJson) :: typeMembers o.types)

/-- Takes the record of managers out of a written object. -/
def stripManagers : Json → Json
  | .object members =>
    match Assoc.get? "metadata" members with
    | some (.object fields) =>
      .object (Assoc.insert "metadata" (.object (Assoc.erase "managedFields" fields)) members)
    | _ => .object members
  | v => v

/-- The kind that the object names, or the other one if it names none. -/
def kindOr (o : Object) (fallback : String) : String :=
  match o.types with
  | some types => if types.kind = "" then fallback else types.kind
  | none => fallback

/-- The snapshot of an object of a kind: the uid is looked at first, then the name. -/
def snapshot (o : Object) (fallback : String) : Except SnapshotError Snapshot :=
  match o.metadata.uid? with
  | none => .error .missingUid
  | some text =>
    match Uid.parse? text with
    | none => .error (.malformedUid text)
    | some uid =>
      match o.metadata.name? with
      | none => .error (.missingName text)
      | some name =>
        .ok ⟨⟨uid, o.metadata.ns?, name, o.kindOr fallback⟩, o.metadata.generation,
          o.metadata.deletion, o.metadata.finalizers, stripManagers o.toJson⟩

end Object

end WatchDispatch.Cluster
