import WatchDispatch.Cluster.Discovery
import WatchDispatch.Cluster.Transport
import WatchDispatch.Dispatch.Source
import WatchDispatch.Settings
import WatchDispatch.Text.Quoted

/-!
The daemon: one controller that logs what it is told.

It reads its settings from the environment, resolves the watched kind on the server, builds the
configuration of its controller and starts a source. Then it waits for a fatal fault or for an
interrupt, closes the source and ends. What it does is a function of the environment, the server and
the order in which things happen: whose turn it is, when the interrupt comes, when the daemon looks
and what it takes if both are there.
-/

namespace WatchDispatch.Daemon

open Cluster Dispatch Watch

inductive Level where
  | info
  | error
deriving DecidableEq, Repr, Inhabited

/-- A log record with its fields in order. -/
structure Record where
  level : Level
  message : String
  fields : List (String × String)
deriving DecidableEq, Repr, Inhabited

namespace Record

def levelName : Level → String
  | .info => "INFO"
  | .error => "ERROR"

def line (r : Record) : String :=
  Text.join " " (levelName r.level :: r.message ::
    r.fields.map (fun field => s!"{field.1}={field.2}"))

end Record

inductive Network where
  /-- No connection can be made. -/
  | unreachable (e : ClientError)
  /-- A server, and the namespace of the client. -/
  | reachable (server : Server) (defaultNamespace : String)

def noRoute : ClientError :=
  .service "client error (Connect)"
    ["tcp connect error", "Network is unreachable (os error 101)"]

/-- Why the daemon gives up before it watches anything. -/
inductive StartError where
  | missingKey
  | connect (e : ConnectError)
  | configuration (e : ConfigurationError)
  | collision (c : NameCollision)
  | source (e : WatchError)
  | starting (e : WatchError)

/-- The text of an error with those of its causes. A refused subscription has its fault as its
cause. -/
def errorChain : WatchError → String
  | .subscribing scope f => s!"{(WatchError.subscribing scope f).message}: {f.message}"
  | .closing scope f => s!"{(WatchError.closing scope f).message}: {f.message}"
  | e => e.message

def StartError.message : StartError → String
  | missingKey => "WARDEN_GVK is required, e.g. example.com/v1/Widget"
  | connect e => e.chain
  | configuration e => e.message
  | collision c => c.message
  | source e => errorChain e
  | starting e => s!"starting event source: {errorChain e}"

inductive Ending where
  | exit (code : Nat)
  | failed (e : StartError)
  /-- It waits for ever. -/
  | waiting

structure Report where
  ending : Ending
  log : List Record
  /-- The addresses asked for, in order. -/
  requests : List String
  /-- The source as the run leaves it, if one was made. -/
  left : Option (Source ApiState)

def controllerType : String := "warden_app::LoggingController"

def dispatchRecord (c : Call) : Record :=
  ⟨.info, "dispatch", [("controller", c.source.controller), ("action", c.action.label),
    ("ns", c.snapshot.identity.ns.getD "-"), ("name", c.snapshot.identity.name),
    ("uid", c.snapshot.uid.print), ("generation", toString c.snapshot.generation.toNat),
    ("deleting", if c.snapshot.isDeleting then "true" else "false")]⟩

/-- The dispatcher of the daemon never crashes. -/
def dispatcher : Dispatcher := fun _ _ => .done

def nameSet (names : List String) : String :=
  "\x7b" ++ Text.join ", " (names.map Text.quoted) ++ "\x7d"

def runningRecord (gvkKey : String) (r : Registry) : Record :=
  ⟨.info, "wardend running", [("gvk", gvkKey), ("controllers", nameSet r.names)]⟩

def fatalRecord (f : FatalFault) : Record :=
  ⟨.error, "fatal watch fault; exiting so state is rebuilt from a fresh baseline",
    [("fault", f.message)]⟩

def shutdownRecord : Record := ⟨.info, "shutdown requested", []⟩

/-- The record of watches that failed to close, if there are any. -/
def closingRecords (failures : Nat) : List Record :=
  if failures = 0 then []
  else [⟨.error, "some watches failed to close", [("failed", toString failures)]⟩]

def gvkKey? (s : Settings) : Except StartError String :=
  match s.gvk with
  | some key => .ok key
  | none => .error .missingKey

def identity (s : Settings) : ControllerIdentity := ⟨controllerType, some s.controller⟩

def configuration (s : Settings) (gvkKey : String) (r : ApiResource) :
    Except ConfigurationError Configuration :=
  (ConfigurationDraft.start (identity s) (s.crdName.getD r.crdName) gvkKey).applyAll
    [.generationAware s.generationAware, .scope s.target] |>.complete

def prepare (s : Settings) (gvkKey : String) (found : Found) (server : Server) :
    Except StartError (Registry × Source ApiState) :=
  match configuration s gvkKey found.1 with
  | .error e => .error (.configuration e)
  | .ok c =>
    match Registry.empty.register c with
    | .error e => .error (.collision e)
    | .ok r =>
      match Source.forController r (identity s) dispatcher (ApiState.start server) with
      | .error e => .error (.source e)
      | .ok source => .ok (r, source)

def api [UidErrors] (s : Settings) (found : Found) (defaultNamespace : String) : Api :=
  ⟨found.1, found.2, defaultNamespace, ⟨s.watchTimeout.toNat, s.watchBookmarks⟩⟩

/-! ## Waiting

With its source started, the daemon waits for a fatal fault and for the interrupt at once. When it
looks and both are there, it may take either: nothing says which goes first.
The source can report faults for as long as it is there, so the daemon never learns that there are
none to come.
-/

/-- How the wait for the interrupt ends. -/
inductive Interrupt where
  | signal
  /-- The signal cannot be listened for. -/
  | unheard
deriving DecidableEq, Repr, Inhabited

inductive Branch where
  | fault
  | interrupt
deriving DecidableEq, Repr, Inhabited

/-- What happens while the daemon waits. -/
inductive Moment where
  /-- A delivery takes a step. -/
  | turn (n : Nat)
  | interrupt (how : Interrupt)
  /-- The daemon looks; if both are there, it takes the one that is named. -/
  | look (first : Branch)
deriving DecidableEq, Repr, Inhabited

/-- Why the daemon stops waiting. -/
inductive Cause where
  | fault (f : FatalFault)
  | interrupt (how : Interrupt)

namespace Cause

def code : Cause → Nat
  | .fault _ => 1
  | .interrupt _ => 0

def record : Cause → Record
  | .fault f => fatalRecord f
  | .interrupt _ => shutdownRecord

end Cause

/-- What the daemon takes, of a fault and an interrupt that may be there. -/
def choose : Branch → Option FatalFault → Option Interrupt → Option Cause
  | .fault, some f, _ => some (.fault f)
  | .fault, none, how => how.map .interrupt
  | .interrupt, _, some how => some (.interrupt how)
  | .interrupt, f, none => f.map .fault

/-- A daemon that waits with its source. -/
structure Wait where
  source : Source ApiState
  interrupt : Option Interrupt
  /-- What it took, and how many calls were logged by then. -/
  taken : Option (Cause × Nat)

namespace Wait

def start (source : Source ApiState) : Wait := ⟨source, none, none⟩

/-- The daemon takes what is there, unless it has taken something before. -/
def look (first : Branch) (w : Wait) : Wait :=
  match w.taken with
  | some _ => w
  | none =>
    let seen := w.source.pool.sink.calls.length
    let (report, pool) := w.source.pool.takeReport
    match choose first report w.interrupt with
    | none => w
    | some (.fault f) => { w with source := { w.source with pool }, taken := some (.fault f, seen) }
    | some (.interrupt how) => { w with taken := some (.interrupt how, seen) }

def next (t : Transport ApiState) (w : Wait) : Moment → Wait
  | .turn n => { w with source := w.source.turns t [n] }
  | .interrupt how => { w with interrupt := w.interrupt.or (some how) }
  | .look first => w.look first

def run (t : Transport ApiState) (moments : List Moment) (w : Wait) : Wait :=
  moments.foldl (next t) w

end Wait

/-- In which order things happen once the source of the daemon is made. -/
structure Course extends Schedule ApiState where
  /-- What happens once the source is started. -/
  waiting : Source ApiState → List Moment

/-! ## Running -/

/-- The calls of the dispatcher as records, oldest first. -/
def dispatchRecords (source : Source ApiState) : List Record :=
  source.pool.sink.calls.reverse.map dispatchRecord

/-- The addresses that a source asked for, oldest first. -/
def requests (source : Source ApiState) : List String :=
  source.pool.transport.server.requests.reverse

/-- Waits with a started source and closes it. -/
def serve (t : Transport ApiState) (course : Course) (running : Record) (source : Source ApiState) :
    Report :=
  let early := (dispatchRecords source).length
  let w := (Wait.start source).run t (course.waiting source)
  match w.taken with
  | none =>
    let calls := dispatchRecords w.source
    ⟨.waiting, calls.take early ++ running :: calls.drop early, requests w.source, some w.source⟩
  | some (cause, seen) =>
    let (failures, source) := w.source.closeAmid t course.toSchedule
    let calls := dispatchRecords source
    ⟨.exit cause.code,
      calls.take early ++ running :: ((calls.take seen).drop early ++
        cause.record :: (calls.drop seen ++ closingRecords failures)),
      requests source, some source⟩

def watch (t : Transport ApiState) (course : Course) (running : Record) (source : Source ApiState) :
    Report :=
  match source.startAmid t course.toSchedule with
  | (.started, source) => serve t course running source
  | (.failed e, source) =>
    ⟨.failed (.starting e), dispatchRecords source, requests source, some source⟩
  | (.pending, source) => ⟨.waiting, dispatchRecords source, requests source, some source⟩

def conductOn [UidErrors] (s : Settings) (gvkKey : String) (server : Server)
    (defaultNamespace : String) (course : Transport ApiState → Course) : Report :=
  match Discovery.resolve gvkKey server with
  | (.error e, server) => ⟨.failed (.connect e), [], server.requests.reverse, none⟩
  | (.ok found, server) =>
    match prepare s gvkKey found server with
    | .error e => ⟨.failed e, [], server.requests.reverse, none⟩
    | .ok (registry, source) =>
      let t := (api s found defaultNamespace).transport
      watch t (course t) (runningRecord gvkKey registry) source

/-- A run of the daemon in which things happen in this order. -/
def conduct [UidErrors] (env : String → Option String) (network : Network)
    (course : Transport ApiState → Course) : Report :=
  let s := Settings.ofEnvironment env
  match gvkKey? s with
  | .error e => ⟨.failed e, [], [], none⟩
  | .ok gvkKey =>
    match network with
    | .reachable server defaultNamespace => conductOn s gvkKey server defaultNamespace course
    | .unreachable e =>
      match Gvk.parse? gvkKey with
      | none => ⟨.failed (.connect (.invalidKey gvkKey)), [], [], none⟩
      | some _ => ⟨.failed (.connect (.client e)), [], [], none⟩

/-! ## First come, first served -/

/-- Whether the interrupt has come that comes once so many calls were logged, if ever. -/
def interrupted (after : Option Nat) (pool : Pool ApiState Stores) : Bool :=
  match after with
  | some n => decide (n ≤ pool.sink.calls.length)
  | none => false

/-- Whether there is something that the daemon waits for. -/
def stirred (after : Option Nat) (pool : Pool ApiState Stores) : Bool :=
  pool.takeReport.1.isSome || interrupted after pool

/-- Deliveries take their turns first come first served, until something is there or nothing
moves. -/
def firstCome (after : Option Nat) (t : Transport ApiState) : Course where
  before _ := []
  meanwhile s := s.pool.firstCome t s.sink (fun _ => false) (s.pool.budget t)
  closing _ := []
  waiting s :=
    let numbers := s.pool.firstCome t s.sink (stirred after) (s.pool.budget t)
    let come := interrupted after (s.turns t numbers).pool
    numbers.map .turn ++ (if come then [.interrupt .signal] else []) ++ [.look .fault]

/-- A run of the daemon, first come first served. The interrupt comes once `after` calls were
logged, or never. -/
def run [UidErrors] (env : String → Option String) (network : Network) (after : Option Nat) :
    Report :=
  conduct env network (firstCome after)

end WatchDispatch.Daemon
