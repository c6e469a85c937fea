/-!
Faults of a watch stream.

A fault either says that the server let the watch expire, which a fresh subscription repairs, or
that the watch ended for any other reason, which nothing repairs here.
-/

namespace WatchDispatch

inductive Fault where
  /-- The server let the watch expire: its resource version is too old. -/
  | expired (reason : String)
  /-- Any other reason. -/
  | failed (reason : String)
deriving DecidableEq, Repr, Inhabited

namespace Fault

def message : Fault → String
  | expired reason => s!"watch expired: {reason}"
  | failed reason => s!"watch failed: {reason}"

/-- Whether a fresh subscription repairs the fault. -/
def isTransient : Fault → Bool
  | expired _ => true
  | failed _ => false

end Fault

end WatchDispatch
