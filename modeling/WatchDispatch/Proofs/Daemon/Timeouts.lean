import WatchDispatch.Proofs.Cluster.Queries
import WatchDispatch.Proofs.Daemon.Endings
import WatchDispatch.Proofs.Text.Numerals

/-!
# How long watches may last

The environment says in seconds how long a watch request may last. A number that takes more than 32
bits is not read, and what stands in its place is the cap that it would have had anyway; so the size
of a number does not matter, and every text comes to a time that the client takes. This is the time
that all watch requests of the daemon ask for, those that go on after an answer or begin anew after
an expiry included.
-/

namespace WatchDispatch

open Cluster Dispatch Watch

namespace Settings

theorem readTimeout_bounds (value : Option String) :
    1 ≤ readTimeout value ∧ readTimeout value ≤ 290 := by
  unfold readTimeout
  cases value.bind Text.nat32? with
  | none => exact ⟨by decide, Nat.le_refl _⟩
  | some n =>
    dsimp only [longestTimeout]
    split <;> omega

/-- The size of a number does not matter: one with more than 32 bits is too long anyway. -/
theorem readTimeout_of_numeral {text : String} {n : Nat} (numeral : Text.Numeral text n)
    (positive : 0 < n) : readTimeout (some text) = min n 290 := by
  unfold readTimeout
  rw [Option.bind_some]
  cases read : Text.nat32? text with
  | some m =>
    obtain rfl := numeral.unique (Text.nat32?_eq_some_iff.mp read).1
    exact if_neg (Nat.ne_of_gt positive)
  | none =>
    -- The text is a numeral, so only its size can keep it from being read.
    have large : ¬ n < UInt32.size := by
      intro fits
      rw [Text.nat32?_eq_some_iff.mpr ⟨numeral, fits⟩] at read
      cases read
    have long : 290 ≤ n := Nat.le_trans (by decide) (Nat.le_of_not_lt large)
    exact (Nat.min_eq_right long).symm

/-- What is missing, no number, or zero counts as the longest time. -/
theorem readTimeout_of_other {value : Option String}
    (other : ∀ text n, value = some text → Text.Numeral text n → n = 0) :
    readTimeout value = 290 := by
  unfold readTimeout
  cases read : value.bind Text.nat32? with
  | none => rfl
  | some n =>
    obtain ⟨text, given, number⟩ := Option.bind_eq_some_iff.mp read
    exact if_pos (other text n given (Text.nat32?_eq_some_iff.mp number).1)

theorem toNat_watchTimeout (env : String → Option String) :
    (ofEnvironment env).watchTimeout.toNat = readTimeout (env "WARDEN_WATCH_TIMEOUT_SECS") := by
  have below := (readTimeout_bounds (env "WARDEN_WATCH_TIMEOUT_SECS")).2
  exact UInt32.toNat_ofNat_of_lt' (Nat.lt_of_le_of_lt below (by decide))

end Settings

namespace Daemon

/-! ## What the daemon keeps -/

section Within

variable {Targeted : Scope → Prop} {P : ApiState → Prop} {t : Transport ApiState}
  {source : Source ApiState} (keeps : t.KeepsFor Targeted P)

include keeps

/-- While it waits, the daemon does nothing to its deliveries but to let them take their turns. -/
theorem Wait.run_within {w : Wait} (within : w.source.pool.Within Targeted P)
    (moments : List Moment) : (w.run t moments).source.pool.Within Targeted P := by
  induction moments generalizing w with
  | nil => exact within
  | cons moment moments ih =>
    refine ih ?_
    cases moment with
    | turn n => exact Pool.Within.turns keeps within [n]
    | interrupt how => exact within
    | look first =>
      obtain ⟨reports, same⟩ := look_source w first
      change (w.look first).source.pool.Within Targeted P
      rw [same]
      exact ⟨within.scopes, within.transport⟩

theorem serve_within (course : Course) (running : Record) (within : source.pool.Within Targeted P) :
    ∃ x, P x ∧ (serve t course running source).requests = x.server.requests.reverse := by
  have waited := Wait.run_within keeps (w := Wait.start source) within (course.waiting source)
  unfold serve
  dsimp only
  split
  · exact ⟨_, waited.transport, rfl⟩
  · exact ⟨_, (Source.closeAmid_within keeps course.toSchedule waited).transport, rfl⟩

/-- All that the daemon does to its source is to start it, to wait and to close it. -/
theorem watch_within (course : Course) (running : Record)
    (targeted : ∀ scope ∈ source.config.target.watchScopes, Targeted scope)
    (within : source.pool.Within Targeted P) :
    ∃ x, P x ∧ (watch t course running source).requests = x.server.requests.reverse := by
  have started : (source.startAmid t course.toSchedule).2.pool.Within Targeted P := by
    unfold Source.startAmid Source.startWith
    split
    · exact Source.openAllAmid_within keeps course.toSchedule targeted within
    · exact within
  unfold watch
  rcases answer : source.startAmid t course.toSchedule with ⟨_ | e | _, opened⟩
    <;> rw [answer] at started
  · exact serve_within keeps course running started
  · exact ⟨_, started.transport, rfl⟩
  · exact ⟨_, started.transport, rfl⟩

end Within

/-! ## The requests of the daemon -/

theorem Named.eq_completed {s : Settings} (named : Named s) {gvkKey : String} {r : ApiResource}
    {c : Configuration} (built : configuration s gvkKey r = .ok c) : c = completed s gvkKey r := by
  obtain ⟨-, rfl⟩ := ConfigurationDraft.complete_eq_ok_iff.mp built
  rw [completed, ← named.controllerName_eq]
  rfl

section Requests

variable [UidErrors] {env : String → Option String} {server : Server} {ns : String} {a : Api}
    {source : Source ApiState}

def restock (routes : Table String (List Reply)) (x : ApiState) : ApiState :=
  { x with server := { x.server with routes } }

/-- The source of the daemon watches its own scopes and has asked for none of them yet. -/
theorem Makes.within (makes : Makes env server ns a source) :
    let aims := fun scope => scope ∈ (Settings.ofEnvironment env).target.watchScopes
    source.pool.Within aims (Asking a aims source.pool.transport.server.requests) ∧
      source.config.target = (Settings.ofEnvironment env).target ∧ source.sessions = [] ∧
      a.params.timeout = (Settings.ofEnvironment env).watchTimeout.toNat := by
  cases makes
  exact ⟨⟨fun _ _ there => (by cases there), asking_start _ _ _⟩, rfl, rfl, rfl⟩

/-- Whatever is done to the source of the daemon, it asks for watches of its own scopes, and for
nothing else. -/
theorem Makes.asked (makes : Makes env server ns a source)
    (run : List (Deed (Table String (List Reply)))) :
    a.Asked (Settings.ofEnvironment env).watchTimeout.toNat
      (· ∈ (Settings.ofEnvironment env).target.watchScopes) source.pool.transport.server.requests
      (source.deeds a.transport restock run).pool.transport.server := by
  obtain ⟨within, target, none, timeout⟩ := makes.within
  -- Other replies change neither what was asked for nor which collections the cursors read.
  have outside : ∀ routes x, Asking a (· ∈ (Settings.ofEnvironment env).target.watchScopes)
      source.pool.transport.server.requests x →
      Asking a (· ∈ (Settings.ofEnvironment env).target.watchScopes)
        source.pool.transport.server.requests (restock routes x) :=
    fun _ _ asking => ⟨asking.asked, asking.paths⟩
  rw [← timeout]
  exact (Source.deeds_within (keeps_asking a _ _) outside (fun _ mem => target ▸ mem) none within
    run).transport.asked

/-- The addresses that the daemon asks for to find the watched kind. -/
def lookups (env : String → Option String) (server : Server) : List String :=
  match Settings.visible? (env "WARDEN_GVK") with
  | some key => (Discovery.resolve key server).2.requests.reverse
  | none => []

/-- A daemon asks for the watched kind, and then for watches of its own scopes. -/
theorem conduct_requests (env : String → Option String) (server : Server) (ns : String)
    (course : Transport ApiState → Course) :
    ∃ sent, (conduct env (.reachable server ns) course).requests = lookups env server ++ sent ∧
      ∀ uri ∈ sent, ∃ a source, Makes env server ns a source ∧
        ∃ scope ∈ (Settings.ofEnvironment env).target.watchScopes,
          a.Asks (Settings.ofEnvironment env).watchTimeout.toNat scope uri := by
  have only : ∀ {requests}, requests = lookups env server →
    ∃ sent, requests = lookups env server ++ sent ∧
      ∀ uri ∈ sent, ∃ a source, Makes env server ns a source ∧
        ∃ scope ∈ (Settings.ofEnvironment env).target.watchScopes,
          a.Asks (Settings.ofEnvironment env).watchTimeout.toNat scope uri :=
    fun same => ⟨[], by rw [same, List.append_nil], nofun⟩
  cases set : Settings.visible? (env "WARDEN_GVK") with
  | none =>
    rw [conduct_of_unset course (Settings.visible?_eq_none_iff.mp set)]
    exact only (by rw [lookups, set])
  | some key =>
    have names : Names env key := Settings.visible?_eq_some_iff.mp set
    have looked : (Discovery.resolve key server).2.requests.reverse = lookups env server := by
      rw [lookups, set]
    rw [conduct_of_names course names, conductOn]
    rcases resolved : Discovery.resolve key server with ⟨e | found, later⟩
      <;> rw [resolved] at looked <;>
      dsimp only
    · exact only looked
    · have named := named_ofEnvironment env
      cases built : configuration (Settings.ofEnvironment env) key found.1 with
      | error e =>
        -- Without a configuration there is no source, so nothing is asked for after the lookup.
        simp only [prepare, built]
        exact only looked
      | ok c =>
        obtain rfl := named.eq_completed built
        simp only [prepare, built, Registry.register_empty, Source.forController, named.getFor?_eq]
        have makes : Makes env server ns _ _ := .intro names resolved
        obtain ⟨within, -, -, timeout⟩ := makes.within
        obtain ⟨x, asking, requests⟩ := watch_within
          (keeps_asking _ (· ∈ (Settings.ofEnvironment env).target.watchScopes) _)
          (course (api (Settings.ofEnvironment env) found ns).transport) _ (fun _ mem => mem) within
        obtain ⟨sent, grown, each⟩ := asking.asked
        refine ⟨sent.reverse, ?_, fun uri mem => ?_⟩
        · rw [requests, grown, List.reverse_append]
          exact congrArg (· ++ sent.reverse) looked
        · obtain ⟨scope, targeted, asks⟩ := each uri (List.mem_reverse.mp mem)
          exact ⟨_, _, makes, scope, targeted, timeout ▸ asks⟩

end Requests

/-- Whatever the environment says, watches may last between 1 and 290 seconds, which the client
takes: a number above zero counts up to 290, whatever its size, and every other text, or none,
stands for 290. To look at the size after every digit comes to the same.

So no watch request is refused for its timeout. Once it has looked for the watched kind, the daemon
asks for nothing but watches for its scopes that name this time, in whatever order things happen.
The same holds of its source, however that is opened, polled and closed, and whatever the server
replies in between. -/
theorem watches_ask_below_limit [UidErrors] (env : String → Option String) (server : Server)
    (ns : String) :
    let s := Settings.ofEnvironment env
    let value := env "WARDEN_WATCH_TIMEOUT_SECS"
    let seconds := s.watchTimeout.toNat
    1 ≤ seconds ∧ seconds ≤ 290 ∧ seconds < timeoutLimit ∧
    (∀ text n, value = some text → Text.Numeral text n → 0 < n → seconds = min n 290) ∧
    ((∀ text n, value = some text → Text.Numeral text n → n = 0) → seconds = 290) ∧
    (∀ text, Text.nat32? text = (Text.digits? text).bind (fun ds => ds.foldlM Text.push32? 0)) ∧
    (∀ found path version, let a := api s found ns
      watchRequest a.params path version =
        (Address.ofText (watchText a.params path version)).mapError .address ∧
      ∀ uri, watchRequest a.params path version = .ok uri → Address.Unmarked path →
        Address.values "timeoutSeconds" uri = [toString seconds]) ∧
    (∀ a source, Makes env server ns a source → ∀ run : List (Deed (Table String (List Reply))),
      a.Asked seconds (· ∈ s.target.watchScopes) source.pool.transport.server.requests
        (source.deeds a.transport restock run).pool.transport.server) ∧
    ∀ course, ∃ sent, (conduct env (.reachable server ns) course).requests =
    lookups env server ++ sent ∧
      ∀ uri ∈ sent, ∃ a source, Makes env server ns a source ∧
        ∃ scope ∈ s.target.watchScopes, a.Asks seconds scope uri := by
  intro s value seconds
  have read : seconds = Settings.readTimeout value := Settings.toNat_watchTimeout env
  obtain ⟨least, most⟩ := Settings.readTimeout_bounds value
  rw [← read] at least most
  have below : seconds < timeoutLimit := Nat.lt_of_le_of_lt most (by decide)
  refine ⟨least, most, below, ?_, fun other => read.trans (Settings.readTimeout_of_other other),
    Text.nat32?_eq_foldlM, ?_, fun a source makes run =>
    makes.asked run, conduct_requests env server ns⟩
  · intro text n given numeral positive
    rw [read, given]
    exact Settings.readTimeout_of_numeral numeral positive
  · intro found path version a
    exact ⟨watchRequest_of_lt below,
      fun uri request unmarked => values_watchRequest unmarked request⟩

namespace Sample

/-- An environment that asks for widgets, with a text for the timeout of watches. -/
def timed (text : String) (name : String) : Option String :=
  if name = "WARDEN_WATCH_TIMEOUT_SECS" then some text else widgets name

end Sample

/-- A minute is asked for as such, and a number with 33 bits comes to the longest time. -/
theorem minute_asked_for :
    let env := Sample.timed "+0060"
    Text.Numeral "+0060" 60 ∧ (Settings.ofEnvironment env).watchTimeout.toNat = 60 ∧
    (∃ uri, (run env (.reachable Sample.forbidding "default") none).requests =
        lookups env Sample.forbidding ++ [uri] ∧ Address.values "timeoutSeconds" uri = ["60"]) ∧
    Text.Numeral "4294967297" 4294967297 ∧
    (Settings.ofEnvironment (Sample.timed "4294967297")).watchTimeout.toNat = 290 := by
  intro env
  have minute : Text.Numeral "+0060" 60 :=
    Text.numeral_iff.mpr ⟨['0', '0', '6', '0'], by decide, by decide⟩
  have large : Text.Numeral "4294967297" 4294967297 :=
    Text.numeral_iff.mpr ⟨"4294967297".toList, by decide, by decide⟩
  obtain ⟨-, -, -, number, -, -, -, -, asked⟩ :=
    watches_ask_below_limit env Sample.forbidding "default"
  have seconds : (Settings.ofEnvironment env).watchTimeout.toNat = 60 :=
    number _ _ rfl minute (by decide)
  obtain ⟨sent, all, each⟩ := asked (firstCome none)
  have ran : (run env (.reachable Sample.forbidding "default") none).requests =
      lookups env Sample.forbidding ++
        ["/apis/example.com/v1/widgets?&watch=true&timeoutSeconds=60" ++
          "&allowWatchBookmarks=true&resourceVersion=0"] := by
    decide +kernel
  obtain rfl := List.append_cancel_left (all.symm.trans ran)
  obtain ⟨a, source, makes, scope, targeted, asks⟩ := each _ List.mem_cons_self
  obtain @⟨key, found, later, names, resolved⟩ := makes
  have unmarked :
      Address.Unmarked ((api (Settings.ofEnvironment env) found "default").pathOf scope) := by
    obtain rfl : "example.com/v1/Widget" = key := Option.some.inj names.1
    have path : (Discovery.resolve "example.com/v1/Widget" Sample.forbidding).1.toOption.map
      (fun found =>
        (api (Settings.ofEnvironment env) found "default").pathOf .allNamespaces) =
          some "/apis/example.com/v1/widgets" := by decide +kernel
    rw [resolved] at path
    obtain rfl : scope = .allNamespaces := List.mem_singleton.mp targeted
    have widgets : (api (Settings.ofEnvironment env) found "default").pathOf .allNamespaces =
        "/apis/example.com/v1/widgets" := Option.some.inj path
    rw [widgets]
    decide
  have named := (asks.query unmarked).2
  rw [seconds] at named
  exact ⟨minute, seconds, ⟨_, ran, named⟩, large,
    (watches_ask_below_limit (Sample.timed "4294967297") Sample.forbidding "default").2.2.2.1
      _ _ rfl large (by decide)⟩

end Daemon

end WatchDispatch
