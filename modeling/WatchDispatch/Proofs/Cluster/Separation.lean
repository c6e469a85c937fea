import WatchDispatch.Proofs.Cluster.Collections
import WatchDispatch.Proofs.Cluster.Release
import WatchDispatch.Proofs.Dispatch.Starting
import WatchDispatch.Proofs.Watch.Provenance

/-!
# Sessions that watch apart

Each session of a source is told by its own subscriptions, and they ask for the collection of its
scope. Two sessions have different scopes; of objects that belong to namespaces, no two collections
share one, and a server that keeps to its collections tells no two sessions of one object. Objects
without namespaces are all in one collection, which every session watches.
-/

namespace WatchDispatch.Cluster

open Dispatch Watch

/-- Every subscription asks for the collection of the scope that it was granted for, and told only
what it may for that scope. -/
structure Collected (a : Api) (May : Scope → Event → Prop) (x : Recorded ApiState) : Prop where
  tells : a.Tells May x.state.server
  numbered : Numbered x.state
  granted : ∀ scope h, .subscribe scope (.granted h) ∈ x.calls → h.id < x.state.nextId
  reading : ∀ scope h c, .subscribe scope (.granted h) ∈ x.calls →
    x.state.cursors.lookup h.id = some c → c.Within a May scope
  read : ∀ h e, .next h (.event e) ∈ x.calls → h.id < x.state.nextId ∧
    ∀ scope, .subscribe scope (.granted h) ∈ x.calls →
    Address.Unmarked (a.pathOf scope) → May scope e

variable {a : Api} {May : Scope → Event → Prop} {x : Recorded ApiState}

theorem namesScopes (a : Api) : a.transport.NamesScopes := by
  rintro scope h ⟨x, answer⟩
  rcases subscribe_cases a scope x with ⟨granted, -⟩ | ⟨⟨f, refused⟩, -⟩
  · have same := granted.symm.trans answer
    cases same
    rfl
  · cases refused.symm.trans answer

/-- The server after a subscription was asked for. -/
theorem server_subscribe (a : Api) (scope : Scope) (x : ApiState) :
    (a.subscribe scope x).2.server = (x.server.watch a.params (a.pathOf scope) baseline).2 := by
  cases failed : (x.server.watch a.params (a.pathOf scope) baseline).1.error? with
  | some e => rw [Api.subscribe_of_error failed]
  | none =>
    obtain ⟨lines, opened⟩ := Response.error?_eq_none_iff.mp failed
    rw [Api.subscribe_of_stream opened]

namespace Collected

variable (collected : Collected a May x)

include collected

theorem subscribe (scope : Scope) : Collected a May (a.transport.recorded.subscribe scope x).2 := by
  obtain ⟨answer, next, cursors⟩ := subscribe_eq a scope x.state
  have fresh : ∀ scope' h, .subscribe scope' (.granted h) ∈
      (a.transport.recorded.subscribe scope x).2.calls →
      (scope' = scope ∧ h.id = x.state.nextId) ∨ .subscribe scope' (.granted h) ∈ x.calls := by
    intro scope' h mem
    rcases List.mem_cons.mp mem with new | old
    · obtain ⟨rfl, granted⟩ := TransportCall.subscribe.inj new
      refine .inl ⟨rfl, ?_⟩
      rcases subscribe_cases a scope' x.state with ⟨number, -⟩ | ⟨⟨f, refused⟩, -⟩
      · cases granted.trans number
        rfl
      · cases granted.trans refused
    · exact .inr old
  refine ⟨?_, ?_, ?_, ?_, ?_⟩
  · change a.Tells May (a.subscribe scope x.state).2.server
    rw [server_subscribe]
    exact collected.tells.watch _ _
  · exact ((transport_dwindles a).subscribe scope collected.numbered).1
  · intro scope' h mem
    change h.id < (a.subscribe scope x.state).2.nextId
    rw [next]
    rcases fresh scope' h mem with ⟨-, number⟩ | old
    · omega
    · have := collected.granted scope' h old
      omega
  · intro scope' h c mem found
    rcases cursors h.id c found with ⟨number, lines, opened, rfl⟩ | before
    · rcases fresh scope' h mem with ⟨rfl, -⟩ | old
      · refine ⟨rfl, fun unmarked e told => collected.tells.response unmarked baseline ?_⟩
        rw [opened]
        exact told
      · have := collected.granted scope' h old
        omega
    · rcases fresh scope' h mem with ⟨-, number⟩ | old
      · rw [number, collected.numbered.lookup_eq_none (Nat.le_refl _)] at before
        cases before
      · exact collected.reading scope' h c old before
  · intro h e mem
    have old : .next h (.event e) ∈ x.calls := List.mem_of_ne_of_mem (by simp) mem
    obtain ⟨given, held⟩ := collected.read h e old
    refine ⟨?_, ?_⟩
    · change h.id < (a.subscribe scope x.state).2.nextId
      omega
    · intro scope' granted
      rcases fresh scope' h granted with ⟨-, number⟩ | before
      · omega
      · exact held scope' before

/-- What grants nothing and reads nothing keeps the streams within their collections. -/
theorem become {x' : Recorded ApiState} (tells : a.Tells May x'.state.server)
    (numbered : Numbered x'.state) (later : x.state.nextId ≤ x'.state.nextId)
    (cursors : ∀ id c, x'.state.cursors.lookup id = some c → x.state.cursors.lookup id = some c)
    (grants : ∀ scope h, .subscribe scope (.granted h) ∈ x'.calls →
      .subscribe scope (.granted h) ∈ x.calls)
    (reads : ∀ h e, .next h (.event e) ∈ x'.calls → .next h (.event e) ∈ x.calls) :
    Collected a May x' where
  tells := tells
  numbered := numbered
  granted := fun scope h mem =>
    Nat.lt_of_lt_of_le (collected.granted scope h (grants scope h mem)) later
  reading := fun scope h c mem found =>
    collected.reading scope h c (grants scope h mem) (cursors h.id c found)
  read := fun h e mem => by
    obtain ⟨given, held⟩ := collected.read h e (reads h e mem)
    exact ⟨Nat.lt_of_lt_of_le given later, fun scope granted => held scope (grants scope h granted)⟩

theorem next (h : Handle) : Collected a May (a.transport.recorded.next h x).2 := by
  have older : ∀ scope g, .subscribe scope (.granted g) ∈ (a.transport.recorded.next h x).2.calls →
      .subscribe scope (.granted g) ∈ x.calls := fun _ _ mem => List.mem_of_ne_of_mem (by simp) mem
  have number : (a.transport.recorded.next h x).2.state.nextId = x.state.nextId :=
    (next_cursors a x.state h).1
  have others := (next_cursors a x.state h).2
  have numbered := (next_dwindles a h collected.numbered).1
  cases found : x.state.cursors.lookup h.id with
  | none =>
    -- A stream that was forgotten has ended.
    have ended : a.next h x.state = (.ended, x.state) := Api.next_of_none found
    have state : (a.transport.recorded.next h x).2.state = x.state := congrArg Prod.snd ended
    refine collected.become (state ▸ collected.tells) numbered (Nat.le_of_eq number.symm)
      (fun _ _ there => state ▸ there) older ?_
    intro g e mem
    rcases List.mem_cons.mp mem with new | old
    · cases (TransportCall.next.inj new).2.trans (congrArg Prod.fst ended)
    · exact old
  | some c =>
    rcases taken : c.next a.params a.decoder x.state.server with ⟨item, c', server⟩
    have result : a.next h x.state = (item, { x.state.setCursor h.id c' with server }) :=
      Api.next_of_lookup found taken
    have within : ∀ scope g, .subscribe scope (.granted g) ∈ x.calls → g.id = h.id →
        c'.Within a May scope ∧ ∀ e, item = .event e → Address.Unmarked (a.pathOf scope) →
        May scope e := by
      intro scope g granted same
      exact (collected.reading scope g c granted (same ▸ found)).next collected.tells taken
    refine ⟨?_, numbered, ?_, ?_, ?_⟩
    · change a.Tells May (a.next h x.state).2.server
      rw [result]
      have answered := collected.tells.next c a.decoder
      rwa [taken] at answered
    · exact fun scope g mem => number ▸ collected.granted scope g (older scope g mem)
    · intro scope g c'' mem there
      by_cases same : g.id = h.id
      · change (a.next h x.state).2.cursors.lookup g.id = some c'' at there
        rw [result, same] at there
        obtain rfl : c' = c'' := by simpa [lookup_setCursor, found] using there
        exact (within scope g (older scope g mem) same).1
      · exact collected.reading scope g c'' (older scope g mem)
          ((others g.id same).symm.trans there)
    · intro g e mem
      rcases List.mem_cons.mp mem with new | old
      · obtain ⟨rfl, told⟩ := TransportCall.next.inj new
        refine ⟨?_, fun scope granted => ?_⟩
        · rw [number]
          exact collected.numbered.2 g.id (mem_of_lookup found)
        · exact (within scope g (older scope g granted) rfl).2 e
            ((congrArg Prod.fst result).symm.trans told.symm)
      · obtain ⟨given, held⟩ := collected.read g e old
        exact ⟨number ▸ given, fun scope granted => held scope (older scope g granted)⟩

theorem unsubscribe (h : Handle) : Collected a May (a.transport.recorded.unsubscribe h x).2 := by
  obtain ⟨cursors, next⟩ := unsubscribe_cursors x.state h
  have server : (Api.unsubscribe h x.state).2.server = x.state.server := by
    unfold Api.unsubscribe
    split <;> rfl
  have numbered := ((transport_dwindles a).unsubscribe h collected.numbered).1
  exact collected.become (server ▸ collected.tells) numbered (Nat.le_of_eq next.symm)
    (fun _ _ found => cursors ▸ found) (fun _ _ mem => List.mem_of_ne_of_mem (by simp) mem)
    (fun _ _ mem => List.mem_of_ne_of_mem (by simp) mem)

theorem abandon (h : Handle) : Collected a May (a.transport.recorded.abandon h x) := by
  have numbered := ((transport_dwindles a).abandon h collected.numbered).1
  refine collected.become collected.tells numbered (Nat.le_refl _) ?_ (fun _ _ mem => mem)
    (fun _ _ mem => mem)
  intro id c found
  change (Api.abandon h x.state).cursors.lookup id = some c at found
  rw [lookup_abandon] at found
  split at found
  · cases found
  · exact found

end Collected

/-! ## Sources -/

/-- The server that the surroundings leave behind. -/
def Disturbance.server : Disturbance → Server
  | .serves s | .givenUp s => s

theorem disturb_calls (change : Disturbance) (x : Recorded ApiState) :
    (disturb change x).calls = x.calls := by
  cases change <;> rfl

theorem Collected.disturb (collected : Collected a May x) {change : Disturbance}
    (tells : a.Tells May change.server) : Collected a May (Cluster.disturb change x) := by
  have numbered := collected.numbered
  cases change with
  | serves s =>
    exact collected.become tells numbered (Nat.le_refl _) (fun _ _ found => found)
      (fun _ _ mem => mem)
      (fun _ _ mem => mem)
  | givenUp s =>
    refine collected.become tells ⟨numbered.1, ?_⟩ (Nat.le_succ _) (fun _ _ found => found)
      (fun _ _ mem => mem) (fun _ _ mem => mem)
    exact fun id mem => Nat.lt_succ_of_lt (numbered.2 id mem)

/-- Streams tell what they may as long as every server that there is does. -/
theorem keeps_collected (a : Api) (May : Scope → Event → Prop) :
    Pool.Keeps a.transport
      (fun change : { change : Disturbance // a.Tells May change.server } => disturb change.1)
      (fun _ _ (p : Pool (Recorded ApiState) Stores) => Collected a May p.transport) :=
  Pool.keeps_transport (fun scope _ collected => collected.subscribe scope)
    (fun h _ collected => collected.unsubscribe h) (fun h _ collected => collected.next h)
    (fun h _ collected => collected.abandon h)
      (fun change _ collected => collected.disturb change.2)

theorem collected_start {server : Server} (tells : a.Tells May server) :
    Collected a May ⟨ApiState.start server, []⟩ where
  tells := tells
  numbered := numbered_start server
  granted := fun _ _ mem => by cases mem
  reading := fun _ _ _ mem => by cases mem
  read := fun _ _ mem => by cases mem

/-- What holds of a source for a target: it has open sessions for some of its scopes, what they read
can be traced to their scopes, and every stream asks for its collection and tells what it may. -/
structure Orderly (a : Api) (May : Scope → Event → Prop) (target : TargetScope)
    (s : Source (Recorded ApiState)) : Prop where
  manned : s.pool.Manned s.sessions
  scopes : s.sessions.map Session.scope <+: target.watchScopes
  traced : s.pool.Traced []
  collected : Collected a May s.pool.transport

theorem orderly_deeds {server : Server} (tells : a.Tells May server) (c : Configuration)
    (d : Dispatcher) {run : List (Deed Disturbance)}
    (ways : ∀ change, .tick (.outside change) ∈ run → a.Tells May change.server) :
    Orderly a May c.target ((source c d server).deeds a.transport.recorded disturb run) where
  manned := (Source.governed_deeds a.transport disturb_calls c d _ run).manned
  scopes := (Source.scopes_deeds a.transport.recorded disturb rfl run).2
  traced := by
    have start : (source c d server).Kept (fun _ opening p => p.Traced opening) :=
      ⟨fun _ mem => (by cases mem), fun _ _ _ there => (by cases there),
        fun _ _ mem => (by cases mem)⟩
    exact Source.Kept.deeds (Pool.keeps_traced (namesScopes a) disturb_calls) start run
  collected := by
    have start : (source c d server).Kept (fun _ _ p => Collected a May p.transport) :=
      collected_start tells
    exact Source.Kept.deeds_of (keeps_collected a May) start ways

namespace Orderly

variable {target : TargetScope} {s : Source (Recorded ApiState)} (orderly : Orderly a May target s)

include orderly

theorem mem_watchScopes {session : Session} (mem : session ∈ s.sessions) :
    session.scope ∈ target.watchScopes :=
  orderly.scopes.subset (List.mem_map_of_mem mem)

/-- The stream that a session reads asks for the collection of its scope. -/
theorem path_eq {session : Session} (mem : session ∈ s.sessions) {e : Delivery} {h : Handle}
    {c : Cursor} (there : s.pool.delivery? session = some e) (reads : e.phase = .watching h)
    (found : s.pool.transport.state.cursors.lookup h.id = some c) :
    c.path = a.pathOf session.scope := by
  obtain ⟨-, d, own, scope, -⟩ := orderly.manned.each session mem
  obtain rfl : d = e := Option.some.inj (own.symm.trans there)
  exact scope ▸ (orderly.collected.reading _ h c
    (orderly.traced.reads _ d h there reads) found).path

/-- A session is told what it may for its scope. -/
theorem may {session : Session} (mem : session ∈ s.sessions)
    (unmarked : Address.Unmarked (a.pathOf session.scope)) {e : Event}
    (told : e ∈ handedBy s.pool.journal session.number) : May session.scope e := by
  obtain ⟨-, d, own, scope, -⟩ := orderly.manned.each session mem
  obtain ⟨d', h, there, granted, read⟩ := orderly.traced.delivered _ e (mem_handedBy.mp told)
  obtain rfl : d = d' := Option.some.inj (own.symm.trans there)
  rw [scope] at granted
  exact (orderly.collected.read h e read).2 session.scope granted unmarked

/-- Different sessions have different scopes. -/
theorem scope_ne {one other : Session} (mem : one ∈ s.sessions) (mem' : other ∈ s.sessions)
    (apart : one.number ≠ other.number) : one.scope ≠ other.scope := by
  intro same
  have distinct := target.watchScopes_nodup.sublist orderly.scopes.sublist
  exact apart (congrArg Session.number (List.inj_on_of_nodup_map distinct mem mem' same))

end Orderly

/-- The collections of the scopes of a target are different, and no object is in two of them, if
objects belong to namespaces or there is one scope only. -/
theorem collections_apart {target : TargetScope}
    (several : a.namespaced = true ∨ target.watchScopes.length = 1) {one other : Scope}
    (mem : one ∈ target.watchScopes) (mem' : other ∈ target.watchScopes) (apart : one ≠ other) :
    a.pathOf one ≠ a.pathOf other ∧
      ∀ r r', a.Holds one r → a.Holds other r' → r.ns ≠ r'.ns := by
  rcases several with own | single
  · obtain ⟨name, name', differ, rfl, rfl⟩ := TargetScope.named_of_ne mem mem' apart
    exact Api.collections_ne own differ
  · obtain ⟨scope, alone⟩ := List.length_eq_one_iff.mp single
    rw [alone] at mem mem'
    exact absurd ((List.mem_singleton.mp mem).trans (List.mem_singleton.mp mem').symm) apart

/-- Whatever is done to a source: its sessions are for the first ones of its scopes, and each asks
for the collection of its own scope. If objects belong to namespaces, or if there is one scope, the
collections have different addresses and no object is in two of them. If the server keeps to its
collections all along, each session is told of objects in its own only, unless a part of the address
is cut off, and no two sessions are told of one object. If objects belong to no namespace, each
scope stands for the one collection of them all. -/
theorem sessions_watch_apart (a : Api) (server : Server) (c : Configuration) (d : Dispatcher)
    (run : List (Deed Disturbance)) :
    let s := (source c d server).deeds a.transport.recorded disturb run
    let scopes := c.target.watchScopes
    (s.sessions.map Session.scope <+: scopes) ∧
    (∀ session ∈ s.sessions, ∀ e h cursor, s.pool.delivery? session = some e →
      e.phase = .watching h →
      s.pool.transport.state.cursors.lookup h.id = some cursor →
      cursor.path = a.pathOf session.scope) ∧
    (a.namespaced = true ∨ scopes.length = 1 →
      (scopes.map a.pathOf).Nodup ∧
      ∀ one ∈ scopes, ∀ other ∈ scopes, one ≠ other → ∀ r, ¬ (a.Holds one r ∧ a.Holds other r)) ∧
    (a.Honest server → (∀ change, .tick (.outside change) ∈ run → a.Honest change.server) →
      (∀ session ∈ s.sessions, Address.Unmarked (a.pathOf session.scope) →
        ∀ e ∈ handedBy s.pool.journal session.number, a.Holds session.scope e.snapshot.identity) ∧
      (a.namespaced = true ∨ scopes.length = 1 →
        ∀ one ∈ s.sessions, ∀ other ∈ s.sessions, one.number ≠ other.number →
          Address.Unmarked (a.pathOf one.scope) → Address.Unmarked (a.pathOf other.scope) →
          ∀ e ∈ handedBy s.pool.journal one.number, ∀ e' ∈ handedBy s.pool.journal other.number,
            e.snapshot.identity.ns ≠ e'.snapshot.identity.ns)) ∧
    (a.namespaced = false → ∀ scope, a.pathOf scope = a.resource.path none ∧
      ∀ r, a.Holds scope r) := by
  intro s scopes
  -- Of the addresses nothing depends on what the server tells.
  have asks : Orderly a (fun _ _ => True) c.target s :=
    orderly_deeds (fun _ _ _ _ _ _ _ => trivial) c d fun _ _ _ _ _ _ _ _ _ => trivial
  refine ⟨asks.scopes, fun _ mem _ _ _ there reads found => asks.path_eq mem there reads found,
    fun several => ⟨?_, ?_⟩, fun honest ways => ?_, Api.one_collection⟩
  · refine List.Nodup.map_on ?_ c.target.watchScopes_nodup
    intro one mem other mem' same
    exact not_ne_iff.mp fun apart => (collections_apart several mem mem' apart).1 same
  · rintro one mem other mem' apart r ⟨here, there⟩
    exact (collections_apart several mem mem' apart).2 r r here there rfl
  · have orderly := orderly_deeds honest c d ways
    refine ⟨fun _ mem unmarked _ told => orderly.may mem unmarked told, ?_⟩
    intro several one mem other mem' apart unmarked unmarked' e told e' told'
    have differ := orderly.scope_ne mem mem' apart
    have distinct := (collections_apart several (orderly.mem_watchScopes mem)
      (orderly.mem_watchScopes mem') differ).2
    exact distinct _ _ (orderly.may mem unmarked told) (orderly.may mem' unmarked' told')

/-! ## Two names -/

/-- A server keeps to its collections if it lays out replies for one namespace which tell of its
objects. -/
theorem Api.Honest.insert {a : Api} {routes : Table String (List Reply)} {requests : List String}
    (honest : a.Honest ⟨routes, requests⟩) {ns : String} {replies : List Reply}
    (tell : ∀ reply ∈ replies, ∀ e, .event e ∈
      Cluster.told a.decoder (Response.ofReply reply).news →
      e.snapshot.identity.ns = some ns) :
    a.Honest ⟨routes.insert (a.resource.path (some ns)) replies, requests⟩ := by
  intro scope laid found reply mem e told ns' stands
  rw [Table.get?_insert] at found
  split at found
  next same =>
    cases found
    rw [Api.pathOf, stands] at same
    rw [ApiResource.path_injective same]
    exact tell reply mem e told
  next => exact honest scope laid found reply mem e told ns' stands

namespace Sample

def pods : Api := ⟨⟨"", "v1", "v1", "Pod", "pods"⟩, true, "default", ⟨290, true⟩⟩

def nodes : Api := ⟨⟨"", "v1", "v1", "Node", "nodes"⟩, false, "default", ⟨290, true⟩⟩

def podLine : String :=
  "\x7b\"type\":\"ADDED\",\"object\":\x7b\"metadata\":\x7b\"name\":\"p\",\"namespace\":\"a\"," ++
    "\"uid\":\"00000001-0000-4000-8000-000000000001\"\x7d\x7d\x7d\n"

def nodeLine : String :=
  "\x7b\"type\":\"ADDED\",\"object\":\x7b\"metadata\":\x7b\"name\":\"n\"," ++
    "\"uid\":\"00000001-0000-4000-8000-000000000001\"\x7d\x7d\x7d\n"

/-- A server with one pod in the namespace `a` and none in `b`. -/
def podServer : Server :=
  ⟨(Table.empty.insert (pods.resource.path (some "b")) [.answer ⟨200, "", .hangs⟩]).insert
    (pods.resource.path (some "a")) [.answer ⟨200, podLine, .hangs⟩], []⟩

/-- A server with one node, of which it tells everyone who asks. -/
def nodeServer : Server :=
  ⟨Table.empty.insert (nodes.resource.path none)
    [.answer ⟨200, nodeLine, .hangs⟩, .answer ⟨200, nodeLine, .hangs⟩], []⟩

def twoNames (key : String) : Configuration :=
  ⟨"controller", "objects", key, "objects/finalizer", false, .ofNames ["a", "b"], default⟩

/-- What happens to a source that is started and then left alone until nothing moves. -/
def starting : List (Deed Disturbance) := [.tick .settle, .start]

def started (a : Api) (key : String) (server : Server) : Source (Recorded ApiState) :=
  (source (twoNames key) (fun _ _ => .done) server).deeds a.transport.recorded disturb starting

/-- The scopes of the open sessions, each with the names of the objects that its session was told
of. -/
def toldOf (s : Source (Recorded ApiState)) : List (Scope × List String) :=
  s.sessions.map (fun session =>
    (session.scope, (handedBy s.pool.journal session.number).map
      (fun e => e.snapshot.identity.name)))

def inNamespace (ns : String) : Item → Bool
  | .event e => e.snapshot.identity.ns = some ns
  | _ => true

theorem honest_podServer : pods.Honest podServer := by
  have nothing : pods.Honest ⟨Table.empty, []⟩ := by
    intro scope replies found
    simp at found
  have pod :
    (Cluster.told pods.decoder (Response.ofReply (.answer ⟨200, podLine, .hangs⟩)).news).all
      (inNamespace "a") = true := by decide +kernel
  refine (nothing.insert ?_).insert ?_
  · intro reply mem e told
    obtain rfl := List.mem_singleton.mp mem
    have silent : Cluster.told pods.decoder (Response.ofReply (.answer ⟨200, "", .hangs⟩)).news =
        [] := by
      decide +kernel
    rw [silent] at told
    cases told
  · intro reply mem e told
    obtain rfl := List.mem_singleton.mp mem
    simpa [inNamespace] using List.all_eq_true.mp pod _ told

end Sample

/-- Each of two sessions is told of the pods of its own namespace. -/
theorem pods_watched_apart :
    let s := Sample.started Sample.pods "v1/Pod" Sample.podServer
    Sample.pods.Honest Sample.podServer ∧
    Sample.toldOf s = [(.named "a", ["p"]), (.named "b", [])] ∧
    ([.named "a", .named "b"].map Sample.pods.pathOf).Nodup ∧
    ∀ session ∈ s.sessions, ∀ e ∈ handedBy s.pool.journal session.number,
      Sample.pods.Holds session.scope e.snapshot.identity := by
  intro s
  have scopes : (Sample.twoNames "v1/Pod").target.watchScopes = [.named "a", .named "b"] := by
    decide +kernel
  obtain ⟨opened, -, apart, told, -⟩ := sessions_watch_apart Sample.pods Sample.podServer
    (Sample.twoNames "v1/Pod") (fun _ _ => .done) Sample.starting
  rw [scopes] at opened apart
  refine ⟨Sample.honest_podServer, by decide +kernel, (apart (.inl rfl)).1, ?_⟩
  intro session mem
  apply (told Sample.honest_podServer (by simp [Sample.starting])).1 session mem
  have unmarked : ∀ scope ∈ [Scope.named "a", .named "b"],
      Address.Unmarked (Sample.pods.pathOf scope) := by
    decide +kernel
  exact unmarked _ (opened.subset (List.mem_map_of_mem mem))

/-- Nodes belong to no namespace: the sessions for two names are told of the same node. A name that
holds a question mark is cut off there, so that its pods are asked for where those of another
namespace are. -/
theorem one_node_told_twice :
    Sample.nodes.Honest Sample.nodeServer ∧
    Sample.toldOf (Sample.started Sample.nodes "v1/Node" Sample.nodeServer) =
      [(.named "a", ["n"]), (.named "b", ["n"])] ∧
    Sample.nodes.pathOf (.named "a") = Sample.nodes.pathOf (.named "b") ∧
    (∀ r, Sample.nodes.Holds (.named "a") r ∧ Sample.nodes.Holds (.named "b") r) ∧
    (watchRequest Sample.pods.params (Sample.pods.pathOf (.named "a/pods?")) baseline).toOption.map
      Address.path = some (Sample.pods.pathOf (.named "a")) := by
  have whole := @Api.one_collection Sample.nodes rfl
  refine ⟨fun scope _ _ _ _ _ _ => (whole scope).2 _, by decide +kernel, rfl, ?_, by decide +kernel⟩
  exact fun r => ⟨(whole _).2 r, (whole _).2 r⟩

end WatchDispatch.Cluster
