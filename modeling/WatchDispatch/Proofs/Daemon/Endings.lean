import WatchDispatch.Proofs.Cluster.Refusal
import WatchDispatch.Proofs.Daemon.Preparing
import WatchDispatch.Proofs.Daemon.Serving

/-!
# How the daemon ends

A daemon whose server can be reached either gives up, for one of five reasons, or starts its source
and serves it. Making the configuration, registering it and looking it up again are none of the
reasons. Once the daemon has returned, whatever the reason and in whatever order things happened,
every subscription that it obtained was given back.
-/

namespace WatchDispatch

open Cluster Dispatch Watch

namespace Daemon

section Runs

variable [UidErrors] (env : String → Option String) (server : Server) (ns : String)
  (course : Transport ApiState → Course)

def Names (key : String) : Prop := env "WARDEN_GVK" = some key ∧ Text.allBlank key = false

/-- The source that the daemon makes once the server has told it of the kind, and how it watches. -/
inductive Makes : Api → Source ApiState → Prop
  | intro {key found later} : Names env key → Discovery.resolve key server = (.ok found, later) →
      Makes (api (Settings.ofEnvironment env) found ns)
        (Source.make (completed (Settings.ofEnvironment env) key found.1) dispatcher
          (ApiState.start later))

inductive GivesUp : StartError → Prop
  /-- The key of the watched kind is missing or blank. -/
  | unset : (∀ text, env "WARDEN_GVK" = some text → Text.allBlank text = true) → GivesUp .missingKey
  /-- The key names no kind. -/
  | unreadable {key} : Names env key → Gvk.parse? key = none → GivesUp (.connect (.invalidKey key))
  /-- The lists of the server cannot be read. -/
  | undiscovered {key g e} : Names env key → Gvk.parse? key = some g →
      (Discovery.readAll server).1 = .error e → GivesUp (.connect (.client e))
  /-- The server does not offer the kind. -/
  | unknown {key g groups} : Names env key → Gvk.parse? key = some g →
      (Discovery.readAll server).1 = .ok groups → Discovery.find? g groups = none →
      GivesUp (.connect (.notFound g))
  /-- The subscription to a scope is refused after those before it were granted. -/
  | refused {a source earlier scope rest opened f} : Makes env server ns a source →
      source.config.target.watchScopes = earlier ++ scope :: rest →
      Source.openAllAmid a.transport (course a.transport).toSchedule earlier source =
      (.started, opened) →
      (a.subscribe scope
        (opened.turns a.transport ((course a.transport).before opened)).pool.transport).1 =
          .refused f →
      GivesUp (.starting (.subscribing scope f))

def Serves (a : Api) (started : Source ApiState) : Prop :=
  ∃ source, Makes env server ns a source ∧
    source.startAmid a.transport (course a.transport).toSchedule = (.started, started)

variable {env server ns course} {a : Api} {source started : Source ApiState}

theorem conduct_of_names (course : Transport ApiState → Course) {key : String}
    (names : Names env key) :
    conduct env (.reachable server ns) course =
      conductOn (Settings.ofEnvironment env) key server ns course := by
  have gvk : (Settings.ofEnvironment env).gvk = some key := Settings.visible?_eq_some_iff.mpr names
  simp [conduct, gvkKey?, gvk]

def PluralNamed (env : String → Option String) (server : Server) : Prop :=
  ∀ key found, env "WARDEN_GVK" = some key → (Discovery.resolve key server).1 = .ok found →
    Text.allBlank found.1.plural = false

/-- Once the kind was found, nothing keeps the daemon from starting its source. -/
theorem conduct_of_makes (course : Transport ApiState → Course) (plural : PluralNamed env server)
    (makes : Makes env server ns a source) :
    ∃ running : Record, ¬ running.Complains ∧ conduct env (.reachable server ns) course =
      watch a.transport (course a.transport) running source := by
  obtain @⟨key, found, later, names, resolved⟩ := makes
  have visible := plural key found names.1 (congrArg Prod.fst resolved)
  refine ⟨runningRecord key
    (Registry.empty.replace (completed (Settings.ofEnvironment env) key found.1)), ?_, ?_⟩
  · simp [Record.Complains, runningRecord]
  · rw [conduct_of_names course names]
    simp only [conductOn, resolved, (named_ofEnvironment env).prepare_eq key visible]

/-! ## Starting -/

theorem Makes.accountable (makes : Makes env server ns a source) : Accountable source := by
  cases makes
  exact accountable_make _ _ _

theorem Makes.idle (makes : Makes env server ns a source) : source.pool.isRunning = false := by
  cases makes
  rfl

theorem Makes.startAmid_eq (makes : Makes env server ns a source) (schedule : Schedule ApiState) :
    source.startAmid a.transport schedule =
      Source.openAllAmid a.transport schedule source.config.target.watchScopes source := by
  cases makes
  rfl

/-- A started source has a session for each scope, of which there is at least one. -/
theorem Serves.opened (serves : Serves env server ns course a started) :
    Accountable started ∧ started.sessions ≠ [] := by
  obtain ⟨source, makes, starts⟩ := serves
  rw [makes.startAmid_eq] at starts
  have accountable := makes.accountable.openAllAmid a (course a.transport).toSchedule
    source.config.target.watchScopes
  rw [starts] at accountable
  refine ⟨accountable, ?_⟩
  have count := Source.openEach_sessions starts
  have some := List.length_pos_of_ne_nil source.config.target.watchScopes_ne_nil
  exact List.ne_nil_of_length_pos (by omega)

/-- The start grants every scope, or there is a first one that is refused. -/
theorem Makes.start_cases (makes : Makes env server ns a source)
    (course : Transport ApiState → Course) :
    (∃ started, Serves env server ns course a started) ∨ ∃ e, GivesUp env server ns course e := by
  rcases Source.openEach_cases (openAmid_ne_pending a (course a.transport).toSchedule)
    (Source.closeAmid a.transport (course a.transport).toSchedule)
      source.config.target.watchScopes source with
    ⟨started, starts⟩ | ⟨earlier, scope, rest, opened, f, scopes, before, refused⟩
  · exact .inl ⟨started, source, makes, (makes.startAmid_eq _).trans starts⟩
  · exact .inr ⟨_, .refused makes scopes before (Pool.openWhile_refused_iff.mp refused)⟩

theorem watch_of_refused (makes : Makes env server ns a source) {earlier rest : List Scope}
    {scope : Scope}
    {opened : Source ApiState} {f : Fault} (course : Course)
    (scopes : source.config.target.watchScopes = earlier ++ scope :: rest)
    (before : Source.openAllAmid a.transport course.toSchedule earlier source = (.started, opened))
    (refused :
      (a.subscribe scope (opened.turns a.transport (course.before opened)).pool.transport).1 =
      .refused f) (running : Record) :
    let report := watch a.transport course running source
    report.ending = .failed (.starting (.subscribing scope f)) ∧ report.left.isSome = true ∧
    Tidy report := by
  intro report
  obtain ⟨failed, returned⟩ :=
    makes.accountable.openAllAmid_refused a course.toSchedule makes.idle rest
    before (Pool.openWhile_refused_iff.mpr refused)
  rw [← scopes, ← makes.startAmid_eq] at failed returned
  rcases starts : source.startAmid a.transport course.toSchedule with ⟨result, left⟩
  rw [starts] at failed returned
  obtain rfl : result = .failed (.subscribing scope f) := failed
  simp only [report, watch, starts]
  exact ⟨trivial, rfl,
    ⟨fun _ same => Option.some.inj same ▸ returned, fun _ mem => dispatchRecords_silent mem⟩⟩

/-! ## Running -/

/-- The daemon gives up, or it starts its source. -/
theorem givesUp_or_serves (env : String → Option String) (server : Server) (ns : String)
    (course : Transport ApiState → Course) :
    (∃ e, GivesUp env server ns course e) ∨ ∃ a started, Serves env server ns course a started := by
  cases set : Settings.visible? (env "WARDEN_GVK") with
  | none => exact .inl ⟨_, .unset (Settings.visible?_eq_none_iff.mp set)⟩
  | some key =>
    have names : Names env key := Settings.visible?_eq_some_iff.mp set
    rcases resolved : Discovery.resolve key server with ⟨e | found, later⟩
    · left
      unfold Discovery.resolve at resolved
      split at resolved
      next parsed => exact ⟨_, .unreadable names parsed⟩
      next g parsed =>
        split at resolved
        next failed => exact ⟨_, .undiscovered names parsed (congrArg Prod.fst failed)⟩
        next groups _ read =>
          split at resolved
          · cases resolved
          next missing => exact ⟨_, .unknown names parsed (congrArg Prod.fst read) missing⟩
    · have makes : Makes env server ns _ _ := .intro names resolved
      exact (makes.start_cases course).symm.imp_right fun ⟨started, serves⟩ => ⟨_, started, serves⟩

/-- A daemon that made no source has logged nothing and left nothing. -/
theorem conduct_of_unset (course : Transport ApiState → Course)
    (unset : ∀ text, env "WARDEN_GVK" = some text → Text.allBlank text = true) :
    conduct env (.reachable server ns) course = ⟨.failed .missingKey, [], [], none⟩ := by
  have gvk : (Settings.ofEnvironment env).gvk = none := Settings.visible?_eq_none_iff.mpr unset
  simp [conduct, gvkKey?, gvk]

theorem conduct_of_unresolved (ns : String) (course : Transport ApiState → Course) {key : String}
    {e : ConnectError} (names : Names env key)
    (failed : (Discovery.resolve key server).1 = .error e) :
    ∃ requests, conduct env (.reachable server ns) course =
    ⟨.failed (.connect e), [], requests, none⟩ := by
  rcases resolved : Discovery.resolve key server with ⟨_ | found, later⟩
    <;> rw [resolved] at failed <;>
    cases failed
  rw [conduct_of_names course names]
  exact ⟨_, by simp only [conductOn, resolved]; rfl⟩

/-- A daemon that gives up says why. -/
theorem conduct_of_givesUp (plural : PluralNamed env server) {e : StartError}
    (givesUp : GivesUp env server ns course e) :
    let report := conduct env (.reachable server ns) course
    report.ending = .failed e ∧ Tidy report := by
  intro report
  have early : ∀ {e requests}, report = ⟨.failed e, [], requests, none⟩ →
      report.ending = .failed e ∧ Tidy report := by
    intro e requests same
    rw [same]
    exact ⟨rfl, ⟨fun _ made => (by cases made), fun _ mem => (by cases mem)⟩⟩
  have unresolved : ∀ {key e}, Names env key → (Discovery.resolve key server).1 = .error e →
      report.ending = .failed (.connect e) ∧ Tidy report := by
    intro key e names failed
    obtain ⟨requests, same⟩ := conduct_of_unresolved ns course names failed
    exact early same
  cases givesUp with
  | unset unset => exact early (conduct_of_unset course unset)
  | unreadable names parsed => exact unresolved names (by simp [Discovery.resolve, parsed])
  | @undiscovered key g e names parsed failed =>
    refine unresolved names ?_
    rcases read : Discovery.readAll server with ⟨_ | groups, later⟩ <;> rw [read] at failed
      <;> cases failed
    simp [Discovery.resolve, parsed, read]
  | @unknown key g groups names parsed offered missing =>
    refine unresolved names ?_
    rcases read : Discovery.readAll server with ⟨_ | _, later⟩ <;> rw [read] at offered
      <;> cases offered
    simp [Discovery.resolve, parsed, read, missing]
  | refused makes scopes before refused =>
    obtain ⟨running, -, same⟩ := conduct_of_makes course plural makes
    obtain ⟨ending, -, tidy⟩ := watch_of_refused makes _ scopes before refused running
    rw [← same] at ending tidy
    exact ⟨ending, tidy⟩

/-- A daemon that has started its source ends as the moments decide that follow. -/
theorem conduct_of_serves (plural : PluralNamed env server)
    (serves : Serves env server ns course a started) :
    let report := conduct env (.reachable server ns) course
    let moments := (course a.transport).waiting started
    report.left.isSome = true ∧
    ((∃ cause, Decides a.transport started moments cause ∧ report.ending = .exit cause.code ∧
      Tidy report) ∨
      (∀ cause, ¬ Decides a.transport started moments cause) ∧ report.ending = .waiting ∧
        report.left = some (served a.transport started moments)) := by
  intro report moments
  obtain ⟨accountable, opened⟩ := serves.opened
  obtain ⟨source, makes, starts⟩ := serves
  obtain ⟨running, quiet, same⟩ := conduct_of_makes course plural makes
  have served : report = serve a.transport (course a.transport) running started := by
    simp only [report, same, watch, starts]
  rw [served]
  exact serve_ends accountable opened quiet (course a.transport)

end Runs

namespace Sample

def offer : Catalog :=
  ⟨[⟨"example.com", some "v1", [⟨"v1", [⟨"widgets", "Widget", true, none, none⟩]⟩]⟩], [⟨"v1", []⟩]⟩

/-- A server that offers widgets and forbids the first watch of them. -/
def forbidding : Server :=
  Server.start (Table.empty.insert "/apis/example.com/v1/widgets"
    [.answer ⟨403, Cluster.Sample.forbidden, .closes⟩]) offer

def widgets (name : String) : Option String :=
  if name = "WARDEN_GVK" then some "example.com/v1/Widget" else none

end Sample

end Daemon

end WatchDispatch
