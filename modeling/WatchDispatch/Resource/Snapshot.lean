import WatchDispatch.Json.Basic
import WatchDispatch.Time.Instant
import WatchDispatch.Uid

/-!
Observed resources: who they are, what was last seen of them, and the events that report a change.
-/

namespace WatchDispatch

structure ResourceIdentity where
  uid : Uid
  /-- The namespace, unless the resource belongs to the whole cluster. -/
  ns : Option String
  name : String
  kind : String
deriving Repr, Inhabited

def ResourceIdentity.label (r : ResourceIdentity) : String :=
  match r.ns with
  | some ns => s!"{r.kind}/{ns}/{r.name} ({r.uid.print})"
  | none => s!"{r.kind}/{r.name} ({r.uid.print})"

/-- What was last seen of a resource. -/
structure Snapshot where
  identity : ResourceIdentity
  /-- The counter that the control plane raises with every change of the wanted state. -/
  generation : UInt64
  /-- When the deletion of the resource was asked for. -/
  deletion : Option Time.Instant
  finalizers : List String
  /-- The object as it was received, without its managed fields. -/
  payload : Json
deriving Repr, Inhabited

namespace Snapshot

def uid (s : Snapshot) : Uid := s.identity.uid

def hasFinalizer (s : Snapshot) (finalizer : String) : Bool := s.finalizers.contains finalizer

def isDeleting (s : Snapshot) : Bool := s.deletion.isSome

end Snapshot

inductive Action where
  | added
  | modified
  | deleted
  | error
deriving DecidableEq, Repr, Inhabited

def Action.label : Action → String
  | added => "ADDED"
  | modified => "MODIFIED"
  | deleted => "DELETED"
  | error => "ERROR"

structure Event where
  action : Action
  snapshot : Snapshot
deriving Repr, Inhabited

end WatchDispatch
