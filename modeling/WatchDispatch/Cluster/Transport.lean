import WatchDispatch.Cluster.Cursor

/-!
The cluster as a transport.

A subscription makes its first watch request at once, so that a refusal is told by the subscription
and not by its stream. Every subscription takes the next number, a refused one too; only granted
ones are live, and only a live one can be taken back.
-/

namespace WatchDispatch.Cluster

open Watch (Item Subscribed Released Transport)

/-- What is fixed about a transport: the resource that it watches and how. -/
structure Api where
  resource : ApiResource
  /-- Whether the objects belong to namespaces. -/
  namespaced : Bool
  /-- The namespace of the client. -/
  defaultNamespace : String
  params : WatchParams
  [uidErrors : UidErrors]

instance : Inhabited Api := ⟨⟨default, true, default, default⟩⟩

def Api.decoder (a : Api) : Decoder := ⟨a.resource.kind, a.uidErrors.text⟩

structure ApiState where
  server : Server
  /-- All granted subscriptions by number, latest first. -/
  cursors : List (Nat × Cursor)
  /-- The number of the next subscription. -/
  nextId : Nat
  /-- The numbers of the subscriptions that were granted and not taken back. -/
  live : List Nat

namespace ApiState

def start (server : Server) : ApiState := ⟨server, [], 1, []⟩

instance : Inhabited ApiState := ⟨start default⟩

/-- A bound for the items that can still be taken. -/
def work (x : ApiState) : Nat :=
  x.server.work + totalSize (fun entry => entry.2.work) x.cursors

def setCursor (id : Nat) (c : Cursor) (x : ApiState) : ApiState :=
  { x with cursors := x.cursors.map (fun entry => if entry.1 = id then (id, c) else entry) }

end ApiState

namespace Api

/-- The namespace that a scope stands for; none for the whole cluster. -/
def namespaceOf (a : Api) : Scope → Option String
  | .allNamespaces => none
  | .defaultNamespace => if a.namespaced then some a.defaultNamespace else none
  | .named ns => if a.namespaced then some ns else none

def pathOf (a : Api) (scope : Scope) : String := a.resource.path (a.namespaceOf scope)

def subscribe (a : Api) (scope : Scope) (x : ApiState) : Subscribed × ApiState :=
  let id := x.nextId
  let x := { x with nextId := id + 1 }
  let path := a.pathOf scope
  match x.server.watch a.params path baseline with
  | (.unbuilt e, server) => (.refused (ClientError.fault (.request e)), { x with server })
  | (.refused e, server) => (.refused e.fault, { x with server })
  | (.stream lines, server) =>
    (.granted ⟨id, scope⟩,
      { x with
        server
        cursors := (id, ⟨path, baseline, .reading lines⟩) :: x.cursors
        live := id :: x.live })

/-- A subscription whose first request fails is refused with the fault of its error. -/
theorem subscribe_of_error {a : Api} {scope : Scope} {x : ApiState} {e : ClientError}
    (failed : (x.server.watch a.params (a.pathOf scope) baseline).1.error? = some e) :
    a.subscribe scope x = (.refused e.fault,
      { x with
        server := (x.server.watch a.params (a.pathOf scope) baseline).2
        nextId := x.nextId + 1 }) := by
  rcases answer : x.server.watch a.params (a.pathOf scope) baseline with ⟨_ | _ | _, server⟩ <;>
    rw [answer] at failed <;> cases failed
  · simp [subscribe, answer]
  · simp [subscribe, answer]

/-- A subscription whose first request opens a stream is granted with the next number. -/
theorem subscribe_of_stream {a : Api} {scope : Scope} {x : ApiState} {lines : LineStream}
    (opened : (x.server.watch a.params (a.pathOf scope) baseline).1 = .stream lines) :
    a.subscribe scope x = (.granted ⟨x.nextId, scope⟩,
      { server := (x.server.watch a.params (a.pathOf scope) baseline).2
        cursors := (x.nextId, ⟨a.pathOf scope, baseline, .reading lines⟩) :: x.cursors
        nextId := x.nextId + 1
        live := x.nextId :: x.live }) := by
  rcases answer : x.server.watch a.params (a.pathOf scope) baseline with ⟨r, server⟩
  rw [answer] at opened
  cases opened
  simp [subscribe, answer]

def unsubscribe (h : Handle) (x : ApiState) : Released × ApiState :=
  if x.live.contains h.id then (.released, { x with live := x.live.erase h.id })
  else (.failed (.failed s!"{h.label} is not an active subscription"), x)

def next (a : Api) (h : Handle) (x : ApiState) : Item × ApiState :=
  match x.cursors.lookup h.id with
  | none => (.ended, x)
  | some c =>
    let (item, c, server) := c.next a.params a.decoder x.server
    (item, { x.setCursor h.id c with server })

theorem next_of_lookup {a : Api} {h : Handle} {x : ApiState} {c c' : Cursor} {item : Item}
    {server : Server} (found : x.cursors.lookup h.id = some c)
    (taken : c.next a.params a.decoder x.server = (item, c', server)) :
    a.next h x = (item, { x.setCursor h.id c' with server }) := by
  simp [next, found, taken]

/-- A stream that is not there is over. -/
theorem next_of_none {a : Api} {h : Handle} {x : ApiState} (absent : x.cursors.lookup h.id = none) :
    a.next h x = (.ended, x) := by
  simp [next, absent]

/-- Forgets the stream of a subscription. -/
def abandon (h : Handle) (x : ApiState) : ApiState :=
  { x with cursors := x.cursors.filter (fun entry => entry.1 ≠ h.id) }

def transport (a : Api) : Transport ApiState :=
  ⟨a.subscribe, unsubscribe, a.next, abandon, true, ApiState.work, Watch.panicked⟩

end Api

end WatchDispatch.Cluster
