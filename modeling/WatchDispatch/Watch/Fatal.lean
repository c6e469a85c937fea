import WatchDispatch.Fault
import WatchDispatch.Scope.Watch

/-!
Fatal faults and the errors of opening and closing watches.
-/

namespace WatchDispatch.Watch

/-- A fault that ends a session, reported to whoever supervises it. -/
structure FatalFault where
  /-- The key of the watched kind. -/
  gvkKey : String
  scope : Scope
  fault : Fault
deriving DecidableEq, Repr, Inhabited

def FatalFault.message (f : FatalFault) : String :=
  s!"{f.gvkKey} in {f.scope.label}: {f.fault.message}"

/-- Why a source cannot be made, started or closed. -/
inductive WatchError where
  | alreadyStarted
  | unknownController (name : String)
  | subscribing (scope : Scope) (fault : Fault)
  | closing (scope : Scope) (fault : Fault)
  /-- The delivery of events broke down. -/
  | aborted {reason : String} (scope : Scope)
deriving DecidableEq, Repr, Inhabited

def WatchError.message : WatchError → String
  | alreadyStarted => "event source already started"
  | unknownController name => s!"no configuration registered for controller '{name}'"
  | subscribing scope fault => s!"subscribing watch for {scope.label}: {fault.message}"
  | closing scope fault => s!"closing watch for {scope.label}: {fault.message}"
  | @aborted reason scope => s!"watch delivery for {scope.label} aborted: {reason}"

end WatchDispatch.Watch
