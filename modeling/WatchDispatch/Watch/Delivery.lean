import WatchDispatch.Watch.Fatal
import WatchDispatch.Watch.Transport

/-!
The delivery of one session: it takes items from its stream and hands the events on.

A delivery moves in steps. Each step first looks whether a stop was asked for; if so, the
subscription is given back and the delivery ends. Otherwise it takes one item. An event goes to the
sink. An expired watch is given back and subscribed to afresh, which nobody but the transport
notices. Everything else, a sink that crashes included, gives the subscription back and ends the
delivery with one fatal fault. What a step does is listed as acts, in order.
-/

namespace WatchDispatch.Watch

/-- What a session shows of itself. -/
inductive SessionState where
  | starting
  | active
  | closed
deriving DecidableEq, Repr, Inhabited

/-- How an event was taken by a sink. -/
inductive Handled where
  | done
  /-- The handling crashed, if it can be told with what message. -/
  | crashed (message : Option String)
deriving DecidableEq, Repr, Inhabited

/-- A receiver of events with states in `σ`. -/
abbrev Sink (σ : Type) := Event → σ → Handled × σ

inductive Outcome where
  /-- By a stop, with the subscription given back. -/
  | stopped
  /-- By a stop, but the transport failed to take the subscription back. -/
  | releaseFailed (f : Fault)
  /-- With a fatal fault. -/
  | escalated
  /-- By a crash of the transport. -/
  | aborted
deriving DecidableEq, Repr, Inhabited

/-- Where a delivery stands. -/
inductive Phase where
  /-- It reads the stream of a subscription. -/
  | watching (h : Handle)
  /-- It has given the expired subscription back and is about to subscribe again. -/
  | renewing (expired : Handle)
  /-- It waits for a subscription that is never granted. -/
  | awaiting (expired : Handle)
  | ended (outcome : Outcome)
deriving DecidableEq, Repr, Inhabited

/-- The delivery of one session. -/
structure Delivery where
  gvkKey : String
  scope : Scope
  /-- Whether a stop was asked for, by request or by dropping the session. -/
  stopAsked : Bool
  /-- The state that was published last. -/
  state : SessionState
  phase : Phase
deriving Repr, Inhabited

inductive Act where
  | subscribed (h : Handle)
  | refused (f : Fault)
  | unanswered
  | released (h : Handle) (result : Released)
  | delivered (e : Event)
  | published (state : SessionState)
  | reported (f : FatalFault)
deriving Repr, Inhabited

/-- Who goes next after a step. -/
inductive Turn where
  /-- The same delivery. -/
  | again
  /-- The others, then this one. -/
  | pause
  /-- This one rests until it is woken. -/
  | rest
deriving DecidableEq, Repr, Inhabited

/-- A delivery after a step, with the states of transport and sink. -/
structure Step (τ σ : Type) where
  delivery : Delivery
  transport : τ
  sink : σ
  acts : List Act
  turn : Turn

def crashFault (message : Option String) : Fault :=
  .failed ("dispatcher panicked: " ++ message.getD "non-string panic payload")

def endFault : Fault := .failed "watch stream ended unexpectedly"

/-- The fault of an expired watch that was not renewed. -/
def renewalFault (f : Fault) : Fault := .failed s!"resubscribe after expiry failed: {f.message}"

namespace Delivery

variable {τ σ : Type}

def isRunning (d : Delivery) : Bool :=
  match d.phase with
  | .ended _ => false
  | _ => true

/-- Whether the delivery is about to subscribe again. -/
def isRenewing (d : Delivery) : Bool :=
  match d.phase with
  | .renewing _ => true
  | _ => false

def fatal (d : Delivery) (f : Fault) : FatalFault := ⟨d.gvkKey, d.scope, f⟩

/-- Ends a delivery that reads a stream because of a stop: it shows itself closed, then gives the
subscription back. -/
def stop (t : Transport τ) (d : Delivery) (h : Handle) (x : τ) (y : σ) : Step τ σ :=
  let (result, x) := t.unsubscribe h x
  let outcome := match result with
    | .released => .stopped
    | .failed f => .releaseFailed f
    | .crashed => .aborted
  ⟨{ d with state := .closed, phase := .ended outcome }, t.abandon h x, y,
    [.published .closed, .released h result], .rest⟩

/-- Ends a delivery that subscribes again because of a stop; there is nothing to give back. -/
def stopRenewal (t : Transport τ) (d : Delivery) (expired : Handle) (x : τ) (y : σ) : Step τ σ :=
  ⟨{ d with state := .closed, phase := .ended .stopped }, t.abandon expired x, y,
    [.published .closed], .rest⟩

/-- Ends a delivery with a fatal fault: the subscription is given back whatever comes of it, then
the fault is reported. If the transport crashes meanwhile, nothing is reported. -/
def escalate (t : Transport τ) (d : Delivery) (h : Handle) (f : Fault) (before : List Act) (x : τ)
    (y : σ) : Step τ σ :=
  let (result, x) := t.unsubscribe h x
  let x := t.abandon h x
  match result with
  | .crashed => ⟨{ d with phase := .ended .aborted }, x, y, before ++ [.released h result], .rest⟩
  | _ =>
    ⟨{ d with state := .closed, phase := .ended .escalated }, x, y,
      before ++ [.released h result, .published .closed, .reported (d.fatal f)], .rest⟩

/-- Gives an expired subscription back and turns to subscribing again. -/
def expire (t : Transport τ) (d : Delivery) (h : Handle) (x : τ) (y : σ) : Step τ σ :=
  let (result, x) := t.unsubscribe h x
  match result with
  | .crashed =>
    ⟨{ d with state := .starting, phase := .ended .aborted }, t.abandon h x, y,
      [.published .starting, .released h result], .rest⟩
  | _ =>
    ⟨{ d with state := .starting, phase := .renewing h }, x, y,
      [.published .starting, .released h result], .again⟩

/-- Subscribes again after an expiry. -/
def renew (t : Transport τ) (d : Delivery) (expired : Handle) (x : τ) (y : σ) : Step τ σ :=
  match t.subscribe d.scope x with
  | (.granted h, x) =>
    ⟨{ d with state := .active, phase := .watching h }, t.abandon expired x, y,
      [.subscribed h, .published .active], if t.suspends then .pause else .again⟩
  | (.refused f, x) =>
    ⟨{ d with state := .closed, phase := .ended .escalated }, t.abandon expired x, y,
      [.refused f, .published .closed, .reported (d.fatal (renewalFault f))], .rest⟩
  | (.unanswered, x) => ⟨{ d with phase := .awaiting expired }, x, y, [.unanswered], .rest⟩

def take (t : Transport τ) (sink : Sink σ) (d : Delivery) (h : Handle) (x : τ) (y : σ) : Step τ σ :=
  match t.next h x with
  | (.event e, x) =>
    match sink e y with
    | (.done, y) => ⟨d, x, y, [.delivered e], .again⟩
    | (.crashed message, y) => d.escalate t h (crashFault message) [.delivered e] x y
  | (.fault (.expired _), x) => d.expire t h x y
  | (.fault (.failed reason), x) => d.escalate t h (.failed reason) [] x y
  | (.ended, x) => d.escalate t h endFault [] x y
  | (.busy, x) => ⟨d, x, y, [], .pause⟩
  | (.idle, x) => ⟨d, x, y, [], .rest⟩

/-- One step of a delivery. -/
def step (t : Transport τ) (sink : Sink σ) (d : Delivery) (x : τ) (y : σ) : Step τ σ :=
  match d.phase with
  | .watching h => if d.stopAsked then d.stop t h x y else d.take t sink h x y
  | .renewing h => if d.stopAsked then d.stopRenewal t h x y else d.renew t h x y
  | .awaiting h => if d.stopAsked then d.stopRenewal t h x y else ⟨d, x, y, [], .rest⟩
  | .ended _ => ⟨d, x, y, [], .rest⟩

end Delivery

def Act.reports (acts : List Act) : List FatalFault :=
  acts.filterMap (fun
    | .reported f => some f
    | _ => none)

end WatchDispatch.Watch
