import WatchDispatch.Fault
import WatchDispatch.Resource.Snapshot
import WatchDispatch.Scope.Watch

/-!
Transports: where subscriptions come from.

A transport grants subscriptions, each with a handle and a stream of its own, and takes them back.
It is a state with four operations, so that a run is a function of the transport's state alone.
-/

namespace WatchDispatch.Watch

/-- How a transport answers a request for a subscription. -/
inductive Subscribed where
  | granted (h : Handle)
  | refused (f : Fault)
  /-- The answer never comes. -/
  | unanswered
deriving Repr, Inhabited

/-- How a transport takes a subscription back. -/
inductive Released where
  | released
  | failed (f : Fault)
  /-- The transport itself breaks down. -/
  | crashed
deriving DecidableEq, Repr, Inhabited

/-- What a stream has to offer. -/
inductive Item where
  | event (e : Event)
  | fault (f : Fault)
  /-- The stream is over. -/
  | ended
  /-- Nothing yet. -/
  | idle
  /-- Nothing yet, and the transport has asked the server for more. -/
  | busy
deriving Repr, Inhabited

/-- A source of subscriptions with states in `τ`. -/
structure Transport (τ : Type) where
  /-- Asks for a subscription to a scope, from a fresh baseline. -/
  subscribe : Scope → τ → Subscribed × τ
  /-- Takes a subscription back. -/
  unsubscribe : Handle → τ → Released × τ
  /-- Takes the next item from the stream of a subscription. -/
  next : Handle → τ → Item × τ
  /-- Forgets the stream of a subscription, which nobody reads any more. -/
  abandon : Handle → τ → τ
  /-- Whether others go on while a subscription is being asked for. -/
  suspends : Bool
  /-- A bound for the items that can still be taken, over all streams. -/
  work : τ → Nat
  /-- What is said of the task with a number if it breaks down in an operation. -/
  breakdown : Nat → String

/-- The least that is said of a task that breaks down. -/
def panicked (n : Nat) : String := s!"task {n} panicked"

end WatchDispatch.Watch
