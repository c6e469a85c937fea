import WatchDispatch.Controller.Registry
import WatchDispatch.Dispatch.Pipeline
import WatchDispatch.Watch.Pool

/-!
Event sources: all watches of one controller.

A source opens one session per scope that its controller targets, in order. If one of them is
refused, those before it are closed again. Closing asks all sessions to stop before it waits for any
of them, and counts those that failed to close. Between these strokes the deliveries that are there
go on: first come first served, or in the order of a schedule.
-/

namespace WatchDispatch.Dispatch

open Watch

/-- The watches of one controller over a transport with states in `τ`. -/
structure Source (τ : Type) where
  config : Configuration
  dispatcher : Dispatcher
  /-- The open sessions, in the order of opening. -/
  sessions : List Session
  pool : Pool τ Stores

inductive Start where
  | started
  | failed (e : WatchError)
  /-- A subscription is never granted, and the start is given up. -/
  | pending
deriving Repr, Inhabited

/-- In which order the deliveries of a source take steps while it is started and closed. -/
structure Schedule (τ : Type) where
  /-- Those that take steps before the next subscription is asked for. -/
  before : Source τ → List Nat
  /-- Those that take steps until it is answered. -/
  meanwhile : Source τ → List Nat
  /-- Those that take steps after all were asked to stop, before the first end is waited for. -/
  closing : Source τ → List Nat

namespace Source

variable {τ : Type}

def make (config : Configuration) (dispatcher : Dispatcher) (x : τ) : Source τ :=
  ⟨config, dispatcher, [], Pool.start x Stores.empty⟩

def forController (r : Registry) (c : ControllerIdentity) (dispatcher : Dispatcher) (x : τ) :
    Except WatchError (Source τ) :=
  match r.getFor? c with
  | some config => .ok (make config dispatcher x)
  | none => .error (.unknownController c.controllerName)

def handle (s : Source τ) : SourceHandle := .ofConfiguration s.config

def sink (s : Source τ) : Sink Stores := pipeline s.config s.dispatcher

/-- Lets its sessions run until nothing moves. -/
def settle (t : Transport τ) (s : Source τ) : Source τ :=
  { s with pool := s.pool.settle t s.sink }

/-- Lets deliveries take steps in the order of these numbers. -/
def turns (t : Transport τ) (s : Source τ) (numbers : List Nat) : Source τ :=
  { s with pool := s.pool.turns t s.sink numbers }

/-- The scopes of the open sessions with the states that they show. -/
def states (s : Source τ) : List (Scope × SessionState) :=
  s.sessions.map (fun session => (session.scope, s.pool.state session))

def requestStops (sessions : List Session) (p : Pool τ Stores) : Pool τ Stores :=
  sessions.foldl (fun p session => p.requestStop session) p

/-- Waits for the end of sessions and counts those that failed to close. -/
def finishAll (t : Transport τ) (sink : Sink Stores) :
    List Session → Pool τ Stores → Nat × Pool τ Stores
  | [], p => (0, p)
  | session :: rest, p =>
    let (result, _, p) := p.finish t sink session
    let (failures, p) := finishAll t sink rest p
    (match result with
      | .failed _ => failures + 1
      | _ => failures, p)

/-- Closes all sessions; how many of them failed to close. Between the requests to stop and the
first wait for an end, the deliveries do what `meanwhile` says. -/
def closeWhile (t : Transport τ) (meanwhile : Pool τ Stores → Pool τ Stores) (s : Source τ) :
    Nat × Source τ :=
  let (failures, pool) := finishAll t s.sink s.sessions (meanwhile (requestStops s.sessions s.pool))
  (failures, { s with sessions := [], pool })

def close (t : Transport τ) (s : Source τ) : Nat × Source τ := s.closeWhile t id

/-- Opens sessions for scopes in order, each as `opens` does; after a refusal `closes` closes them
again. -/
def openEach (opens : Source τ → Scope → Opening × Pool τ Stores)
    (closes : Source τ → Nat × Source τ) :
    List Scope → Source τ → Start × Source τ
  | [], s => (.started, s)
  | scope :: rest, s =>
    match opens s scope with
    | (.opened session, pool) =>
      openEach opens closes rest { s with sessions := s.sessions ++ [session], pool }
    | (.refused f, pool) => (.failed (.subscribing scope f), (closes { s with pool }).2)
    | (.pending, pool) => (.pending, { s with pool })

/-- Opens one session per targeted scope, unless there are sessions already. -/
def startWith (opens : Source τ → Scope → Opening × Pool τ Stores)
    (closes : Source τ → Nat × Source τ) (s : Source τ) : Start × Source τ :=
  if s.sessions.isEmpty then openEach opens closes s.config.target.watchScopes s
  else (.failed .alreadyStarted, s)

def openSession (t : Transport τ) (s : Source τ) (scope : Scope) : Opening × Pool τ Stores :=
  s.pool.openSession t s.sink s.config.gvkKey scope

def openAll (t : Transport τ) (scopes : List Scope) (s : Source τ) : Start × Source τ :=
  openEach (openSession t) (close t) scopes s

def start (t : Transport τ) (s : Source τ) : Start × Source τ :=
  s.startWith (openSession t) (close t)

/-! ## Under a schedule -/

/-- Opens a session while the deliveries take their steps in the order of a schedule. -/
def openAmid (t : Transport τ) (schedule : Schedule τ) (s : Source τ) (scope : Scope) :
    Opening × Pool τ Stores :=
  let s := s.turns t (schedule.before s)
  s.pool.openWhile t (fun pool => pool.turns t s.sink (schedule.meanwhile { s with pool }))
    s.config.gvkKey scope

def closeAmid (t : Transport τ) (schedule : Schedule τ) (s : Source τ) : Nat × Source τ :=
  s.closeWhile t (fun pool => pool.turns t s.sink (schedule.closing { s with pool }))

def openAllAmid (t : Transport τ) (schedule : Schedule τ) (scopes : List Scope) (s : Source τ) :
    Start × Source τ := openEach (openAmid t schedule) (closeAmid t schedule) scopes s

def startAmid (t : Transport τ) (schedule : Schedule τ) (s : Source τ) : Start × Source τ :=
  s.startWith (openAmid t schedule) (closeAmid t schedule)

/-! ## Other deeds -/

/-- Gives the source up: its sessions are dropped. -/
def drop (s : Source τ) : Source τ :=
  { s with sessions := [], pool := requestStops s.sessions s.pool }

/-- Takes an event through the pipeline as a session would. -/
def onEvent (e : Event) (s : Source τ) : Handled × Source τ :=
  let (handled, stores) := s.pool.sink.deliver s.config s.dispatcher e
  (handled, { s with pool := { s.pool with sink := stores } })

def deregister (uid : Uid) (s : Source τ) : Source τ :=
  { s with pool := { s.pool with sink := s.pool.sink.deregister uid } }

end Source

end WatchDispatch.Dispatch
