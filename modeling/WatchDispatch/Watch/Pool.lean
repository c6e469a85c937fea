import WatchDispatch.Watch.Delivery

/-!
Pools of sessions over one transport and one sink.

Deliveries that have something to do wait in a queue. The first of them takes a step; if it can go
on, it stays in front, if it has to wait for the server, it goes to the end. `settle` lets them run
until the queue is empty. The fuel is a bound computed from the work left in the transport: every
step takes an item, ends a delivery or sends one to rest.

A session is the hold that its owner has on a delivery: it can ask for a stop and wait for the end,
at most once. Dropping a session asks for a stop as well.
-/

namespace WatchDispatch.Watch

/-- Deliveries that share a transport and a sink. -/
structure Pool (τ σ : Type) where
  transport : τ
  sink : σ
  /-- All deliveries ever started, by number. -/
  deliveries : List Delivery
  /-- The numbers of the deliveries that wait for their turn, first come first served. -/
  ready : List Nat
  /-- What happened, latest first, with the numbers of the deliveries. -/
  journal : List (Nat × Act)
  /-- The fatal faults that the supervisor has not taken yet; `none` without a supervisor. -/
  reports : Option (List FatalFault)

/-- The hold on a delivery. -/
structure Session where
  /-- The number of the delivery. -/
  number : Nat
  scope : Scope
  /-- Whether the end of the delivery was waited for. -/
  joined : Bool
deriving Repr, Inhabited

/-- How the opening of a session ends. -/
inductive Opening where
  | opened (s : Session)
  | refused (f : Fault)
  /-- The subscription is never granted, and the opening is given up. -/
  | pending
deriving Repr, Inhabited

/-- How the wait for the end of a session ends. -/
inductive Finish where
  | finished
  | failed (e : WatchError)
  /-- The delivery goes on, and the wait is given up. -/
  | pending
deriving DecidableEq, Repr, Inhabited

namespace Pool

variable {τ σ : Type}

/-- A pool without sessions, under a supervisor. -/
def start (x : τ) (y : σ) : Pool τ σ := ⟨x, y, [], [], [], some []⟩

/-- The queue after the first delivery took a step. -/
def requeue (n : Nat) (others : List Nat) : Turn → List Nat
  | .again => n :: others
  | .pause => others ++ [n]
  | .rest => others

/-- The pool after its delivery `n` took a step. -/
def advance (p : Pool τ σ) (n : Nat) (others : List Nat) (s : Step τ σ) : Pool τ σ where
  transport := s.transport
  sink := s.sink
  deliveries := p.deliveries.set n s.delivery
  ready := requeue n others s.turn
  journal := (s.acts.map (fun act => (n, act))).reverse ++ p.journal
  reports := p.reports.map (· ++ Act.reports s.acts)

/-- Lets the first delivery of the queue take a step. -/
def turn (t : Transport τ) (sink : Sink σ) (p : Pool τ σ) : Pool τ σ :=
  match p.ready with
  | [] => p
  | n :: others =>
    match p.deliveries[n]? with
    | none => { p with ready := others }
    | some d => p.advance n others (d.step t sink p.transport p.sink)

/-- Lets deliveries run until the queue is empty or the fuel is used up. -/
def run (t : Transport τ) (sink : Sink σ) : Nat → Pool τ σ → Pool τ σ
  | 0, p => p
  | fuel + 1, p => if p.ready.isEmpty then p else run t sink fuel (p.turn t sink)

/-- A bound for the steps until the queue is empty. -/
def budget (t : Transport τ) (p : Pool τ σ) : Nat :=
  2 * t.work p.transport + (p.deliveries.filter Delivery.isRenewing).length + p.ready.length

/-- Lets deliveries run until the queue is empty. -/
def settle (t : Transport τ) (sink : Sink σ) (p : Pool τ σ) : Pool τ σ := p.run t sink (p.budget t)

def pick (n : Nat) (p : Pool τ σ) : Pool τ σ := { p with ready := n :: p.ready.erase n }

/-- Lets deliveries take steps in the order of these numbers. -/
def turns (t : Transport τ) (sink : Sink σ) : List Nat → Pool τ σ → Pool τ σ
  | [], p => p
  | n :: later, p => turns t sink later ((p.pick n).turn t sink)

/-- The deliveries that take steps, first come first served, until `stops` says so, the queue is
empty or the fuel is used up. -/
def firstCome (t : Transport τ) (sink : Sink σ) (stops : Pool τ σ → Bool) :
    Nat → Pool τ σ → List Nat
  | 0, _ => []
  | fuel + 1, p =>
    match p.ready with
    | [] => []
    | n :: _ => if stops p then [] else n :: firstCome t sink stops fuel (p.turn t sink)

/-- Puts a delivery into the queue unless it is there. -/
def wake (n : Nat) (p : Pool τ σ) : Pool τ σ :=
  if p.ready.contains n then p else { p with ready := p.ready ++ [n] }

/-- Wakes the deliveries that read the stream of a subscription. -/
def wakeReaders (id : Nat) (p : Pool τ σ) : Pool τ σ :=
  p.deliveries.zipIdx.foldl (fun p entry =>
    match entry.1.phase with
    | .watching h => if h.id = id then p.wake entry.2 else p
    | _ => p) p

def delivery? (p : Pool τ σ) (s : Session) : Option Delivery := p.deliveries[s.number]?

def state (p : Pool τ σ) (s : Session) : SessionState :=
  ((p.delivery? s).map Delivery.state).getD .closed

def isRunning (p : Pool τ σ) : Bool := p.deliveries.any Delivery.isRunning

/-- Starts the delivery of a granted subscription. -/
def spawn (gvkKey : String) (scope : Scope) (h : Handle) (p : Pool τ σ) : Session × Pool τ σ :=
  let n := p.deliveries.length
  (⟨n, scope, false⟩,
    { p with
      deliveries := p.deliveries ++ [⟨gvkKey, scope, false, .active, .watching h⟩]
      ready := p.ready ++ [n]
      journal := (n, .published .active) :: (n, .subscribed h) :: p.journal })

/-- Subscribes and starts a session. Until the answer is there, the others do what `meanwhile`
says. -/
def openWhile (t : Transport τ) (meanwhile : Pool τ σ → Pool τ σ) (gvkKey : String) (scope : Scope)
    (p : Pool τ σ) : Opening × Pool τ σ :=
  let (answer, x) := t.subscribe scope p.transport
  let p := meanwhile { p with transport := x }
  match answer with
  | .granted h =>
    let (session, p) := p.spawn gvkKey scope h
    (.opened session, p)
  | .refused f => (.refused f, p)
  | .unanswered => (.pending, p)

/-- Lets the deliveries that are there go on, if the transport takes its time. -/
def goOn (t : Transport τ) (sink : Sink σ) (p : Pool τ σ) : Pool τ σ :=
  if t.suspends then p.settle t sink else p

/-- An opening that is given up when nothing moves any more. -/
def abandonPending (t : Transport τ) (sink : Sink σ) : Opening × Pool τ σ → Opening × Pool τ σ
  | (.pending, p) => (.pending, p.settle t sink)
  | opened => opened

def openSession (t : Transport τ) (sink : Sink σ) (gvkKey : String) (scope : Scope)
    (p : Pool τ σ) : Opening × Pool τ σ :=
  abandonPending t sink (p.openWhile t (goOn t sink) gvkKey scope)

def modify (n : Nat) (change : Delivery → Delivery) (p : Pool τ σ) : Pool τ σ :=
  { p with deliveries := p.deliveries.modify n change }

/-- Asks the delivery of a session to stop, without waiting. -/
def requestStop (s : Session) (p : Pool τ σ) : Pool τ σ :=
  (p.modify s.number (fun d => { d with stopAsked := true })).wake s.number

/-- Shows a session as closed. -/
def publishClosed (n : Nat) (p : Pool τ σ) : Pool τ σ :=
  { p.modify n (fun d => { d with state := .closed }) with
    journal := (n, .published .closed) :: p.journal }

/-- What the end of a delivery means to the owner of its session. -/
def finishOf (reason : String) (scope : Scope) : Outcome → Finish
  | .stopped | .escalated => .finished
  | .releaseFailed f => .failed (.closing scope f)
  | .aborted => .failed (@WatchError.aborted reason scope)

/-- Waits for the end of a session's delivery. Only the first wait sees how it ended. -/
def finish (t : Transport τ) (sink : Sink σ) (s : Session) (p : Pool τ σ) :
    Finish × Session × Pool τ σ :=
  if s.joined then (.finished, s, p)
  else
    let s := { s with joined := true }
    let p := p.settle t sink
    match (p.delivery? s).map Delivery.phase with
    | some (.ended outcome) =>
      (finishOf (t.breakdown s.number) s.scope outcome, s, p.publishClosed s.number)
    | _ => (.pending, s, p)

/-- Asks for a stop and waits for the end. -/
def close (t : Transport τ) (sink : Sink σ) (s : Session) (p : Pool τ σ) :
    Finish × Session × Pool τ σ := (p.requestStop s).finish t sink s

def takeReports (p : Pool τ σ) : List FatalFault × Pool τ σ :=
  (p.reports.getD [], { p with reports := p.reports.map (fun _ => []) })

/-- Takes the first fatal fault that waits for the supervisor. -/
def takeReport (p : Pool τ σ) : Option FatalFault × Pool τ σ :=
  match p.reports with
  | some (first :: rest) => (some first, { p with reports := some rest })
  | _ => (none, p)

/-- Sends the supervisor away; further fatal faults are lost. -/
def dismissSupervisor (p : Pool τ σ) : Pool τ σ := { p with reports := none }

end Pool

end WatchDispatch.Watch
