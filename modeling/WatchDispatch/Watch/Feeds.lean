import WatchDispatch.Size
import WatchDispatch.Watch.Transport

/-!
A transport in memory: one feed per scope, filled by hand.

A subscription takes the next number and opens a fresh feed for its scope in place of the previous
one. Rules say how a scope answers further subscriptions, modes how it takes them back. All calls
are noted.
-/

namespace WatchDispatch.Watch

/-- The stream of one subscription. -/
structure Feed where
  id : Nat
  /-- What was pushed and not yet taken. -/
  queue : List (Fault ⊕ Event)
  /-- Whether nothing will be pushed any more. -/
  finished : Bool
  /-- Whether nobody reads the stream any more. -/
  abandoned : Bool

/-- How a scope answers subscriptions. -/
inductive SubscribeRule where
  | allow
  | refuse (f : Fault)
  /-- It never answers. -/
  | hang

/-- How a scope takes subscriptions back. -/
inductive ReleaseMode where
  | ok
  | fail
  | expired
  | crash

/-- A transport in memory. -/
structure Feeds where
  feeds : List Feed
  /-- The number of the feed that is filled for a scope. -/
  current : Scope → Option Nat
  rules : Scope → SubscribeRule
  modes : Scope → ReleaseMode
  /-- The number of the next subscription. -/
  nextId : Nat
  /-- The calls of the transport with their scopes, latest first. -/
  calls : List (Scope × String)

inductive Pushed where
  | queued
  /-- The scope has no feed. -/
  | noFeed
  /-- Nobody reads the feed of the scope. -/
  | closed
deriving DecidableEq, Repr, Inhabited

namespace Feeds

def start : Feeds := ⟨[], fun _ => none, fun _ => .allow, fun _ => .ok, 1, []⟩

instance : Inhabited Feeds := ⟨start⟩

def put {α : Type} (f : Scope → α) (scope : Scope) (a : α) : Scope → α :=
  fun s => if s = scope then a else f s

def setRule (scope : Scope) (rule : SubscribeRule) (x : Feeds) : Feeds :=
  { x with rules := put x.rules scope rule }

def setMode (scope : Scope) (mode : ReleaseMode) (x : Feeds) : Feeds :=
  { x with modes := put x.modes scope mode }

def note (scope : Scope) (call : String) (x : Feeds) : Feeds :=
  { x with calls := (scope, call) :: x.calls }

def modify (id : Nat) (change : Feed → Feed) (x : Feeds) : Feeds :=
  { x with feeds := x.feeds.map (fun feed => if feed.id = id then change feed else feed) }

def feed? (id : Nat) (x : Feeds) : Option Feed := x.feeds.find? (fun feed => feed.id = id)

/-- Ends the feed that is filled for a scope and forgets it. -/
def retire (scope : Scope) (x : Feeds) : Feeds :=
  match x.current scope with
  | none => x
  | some id =>
    { x.modify id (fun feed => { feed with finished := true }) with
      current := put x.current scope none }

def subscribe (scope : Scope) (x : Feeds) : Subscribed × Feeds :=
  let x := x.note scope s!"subscribe {scope.label}"
  match x.rules scope with
  | .hang => (.unanswered, x)
  | .refuse f => (.refused f, x)
  | .allow =>
    let id := x.nextId
    let x := x.retire scope
    (.granted ⟨id, scope⟩,
      { x with
        feeds := x.feeds ++ [⟨id, [], false, false⟩]
        current := put x.current scope (some id)
        nextId := id + 1 })

def unsubscribe (h : Handle) (x : Feeds) : Released × Feeds :=
  let x := x.note h.scope s!"unsubscribe {h.label}"
  match x.modes h.scope with
  | .ok => (.released, x)
  | .fail => (.failed (.failed s!"connection reset closing {h.label}"), x)
  | .expired => (.failed (.expired s!"{h.label} already gone"), x)
  | .crash => (.crashed, x)

def next (h : Handle) (x : Feeds) : Item × Feeds :=
  match x.feed? h.id with
  | none => (.ended, x)
  | some feed =>
    match feed.queue with
    | [] => (if feed.finished then .ended else .idle, x)
    | item :: rest =>
      let x := x.modify h.id (fun feed => { feed with queue := rest })
      match item with
      | .inl f => (.fault f, x)
      | .inr e => (.event e, x)

def abandon (h : Handle) (x : Feeds) : Feeds :=
  x.modify h.id (fun feed => { feed with abandoned := true, queue := [] })

/-- How many items wait in all feeds. -/
def work (x : Feeds) : Nat := totalSize (fun feed => feed.queue.length) x.feeds

def push (scope : Scope) (items : List (Fault ⊕ Event)) (x : Feeds) : Pushed × Feeds :=
  if items.isEmpty then (.queued, x)
  else
    match x.current scope with
    | none => (.noFeed, x)
    | some id =>
      match x.feed? id with
      | none => (.noFeed, x)
      | some feed =>
        if feed.abandoned then (.closed, x)
        else (.queued, x.modify id (fun feed => { feed with queue := feed.queue ++ items }))

/-- The calls noted since the last look, oldest first. -/
def takeCalls (x : Feeds) : List (Scope × String) × Feeds :=
  (x.calls.reverse, { x with calls := [] })

def transport : Transport Feeds := ⟨subscribe, unsubscribe, next, abandon, false, work, panicked⟩

end Feeds

end WatchDispatch.Watch
