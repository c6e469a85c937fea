import WatchDispatch.Proofs.Cluster.Recovery
import WatchDispatch.Proofs.Cluster.Release

/-!
# Refused watches

A watch request that fails is told by the subscription: nothing is opened, a start closes what it
has opened before, and a session that subscribes again is over. An answer is no failure, whatever
its status is: the subscription is granted, and an error in the body is the first item of its
stream.
-/

namespace WatchDispatch.Cluster

open Dispatch Watch

/-- A cursor whose news begin with an error tells that error first. -/
theorem Cursor.next_of_failure {params : WatchParams} {decoder : Decoder} {c : Cursor} {s : Server}
    {e : ClientError} {rest : List WatchLine} (news : c.stage.news = .failure e :: rest) :
    (c.next params decoder s).1 = .fault e.fault := by
  have telling : (WatchLine.failure e).telling decoder = some (.inl (.error e)) := rfl
  obtain ⟨alone, -⟩ := told_cons_of_trouble rest telling
  rw [← news] at alone
  have looks := look_looks decoder c
  unfold Cursor.next
  rcases found : c.look decoder with ⟨item, c'⟩
  rw [found] at looks
  have apart : ∀ {shown : List Item}, c.Passes decoder shown c' →
    shown ++ told decoder c'.stage.news =
      [.fault e.fault] := fun passes => passes.told.symm.trans alone
  have silent : ∀ finale, finale ≠ .resets → c'.stage = .reading ⟨[], finale⟩ →
      c'.stage.news = [] := by
    intro finale quiet stage
    cases finale <;> simp_all [CursorStage.news, LineStream.news, Finale.news]
  -- Any other item would be told before the fault, or in its place.
  cases looks with
  | event passes stage => simpa using apart passes
  | idle passes stage => simpa [silent .hangs (by simp) stage] using apart passes
  | asks passes stage => simpa [silent .ends (by simp) stage] using apart passes
  | trouble told =>
    rw [alone] at told
    obtain ⟨same, -⟩ := List.cons.inj told
    exact same.symm
  | ended stage => simp [stage, CursorStage.news] at news

/-- An answer opens a stream, whatever its status. -/
theorem watch_of_answer {params : WatchParams} {path version uri : String} {s : Server}
    {answer : Answer} (request : watchRequest params path version = .ok uri)
    (answered : (s.ask uri).1 = .answer answer) :
    (s.watch params path version).1 = .stream answer.stream := by
  simp [Server.watch, request, answered, Response.ofReply]

/-- A request that fails refuses the subscription. -/
theorem subscribe_refused {a : Api} {scope : Scope} {x : ApiState} {e : ClientError}
    (failed : (x.server.watch a.params (a.pathOf scope) baseline).1.error? = some e) :
    (a.subscribe scope x).1 = .refused e.fault ∧ (a.subscribe scope x).2.live = x.live ∧
      (a.subscribe scope x).2.cursors = x.cursors := by
  rw [Api.subscribe_of_error failed]
  exact ⟨rfl, rfl, rfl⟩

/-- A subscription whose first response is a stream is granted, and an error at its beginning is the
first item. -/
theorem subscribe_granted {a : Api} {scope : Scope} {x : ApiState} {l : LineStream}
    (opened : (x.server.watch a.params (a.pathOf scope) baseline).1 = .stream l) :
    (a.subscribe scope x).1 = .granted ⟨x.nextId, scope⟩ ∧
      (a.subscribe scope x).2.live = x.nextId :: x.live ∧ ∀ e rest, l.news = .failure e :: rest →
        (a.next ⟨x.nextId, scope⟩ (a.subscribe scope x).2).1 = .fault e.fault := by
  have granted := Api.subscribe_of_stream opened
  refine ⟨by rw [granted], by rw [granted], ?_⟩
  intro e rest news
  have here : (a.subscribe scope x).2.cursors.lookup x.nextId =
      some ⟨a.pathOf scope, baseline, .reading l⟩ := by
    rw [granted]
    simp
  have first : (Cursor.next a.params a.decoder ⟨a.pathOf scope, baseline, .reading l⟩
      (a.subscribe scope x).2.server).1 = .fault e.fault := Cursor.next_of_failure news
  rcases taken : Cursor.next a.params a.decoder ⟨a.pathOf scope, baseline, .reading l⟩
    (a.subscribe scope x).2.server with ⟨item, c', server⟩
  rw [taken] at first
  rw [Api.next_of_lookup here taken]
  exact first

/-- A start whose subscription to a scope is refused fails with the fault and closes what it
opened. -/
theorem start_refused {a : Api} {s s' : Source (Recorded ApiState)} (order : s.InOrder Books)
    (closed : s.sessions = []) {earlier rest : List Scope} {scope : Scope}
    (scopes : s.config.target.watchScopes = earlier ++ scope :: rest)
    (opened : Source.openAll a.transport.recorded earlier s = (.started, s')) {e : ClientError}
    (failed : (s'.pool.transport.state.server.watch a.params (a.pathOf scope) baseline).1.error? =
      some e) :
    let after := s.start a.transport.recorded
    after.1 = .failed (.subscribing scope e.fault) ∧ after.2.sessions = [] ∧
      (earlier ≠ [] ∨ s.pool.isRunning = false →
        after.2.pool.isRunning = false ∧ after.2.pool.transport.state.live = []) := by
  intro after
  have refused : a.transport.recorded.subscribe scope s'.pool.transport =
      (.refused e.fault, (a.transport.recorded.subscribe scope s'.pool.transport).2) :=
    Prod.ext (subscribe_refused failed).1 rfl
  have starts : after = Source.openAll a.transport.recorded (earlier ++ scope :: rest) s := by
    simp [after, Source.start_eq, closed, scopes]
  obtain ⟨answer, none, kept, finished⟩ :=
    (Source.orderly (lends a)).openEach_refused order rest opened
    (Pool.openSession_of_refused refused).1
  rw [starts]
  refine ⟨answer, none, ?_⟩
  intro quiet
  have idle : s.pool.isRunning = false → s.pool.Over := by
    intro still d mem
    simpa using List.any_eq_false.mp still d mem
  have allEnded := finished (quiet.imp_right idle)
  have ended : (Source.openAll a.transport.recorded (earlier ++ scope :: rest) s).2.pool.isRunning =
      false := by
    refine List.any_eq_false.mpr ?_
    intro d mem
    simp [allEnded d mem]
  exact ⟨ended, List.nil_perm.mp (kept.owes_of_over ended).out⟩

/-- A watch request that the client refuses surfaces at the subscription: the subscription returns
the fault of the error and nothing is live; the start of a source, whatever was done to it before,
fails for that scope with what it had opened closed again; and a session that subscribes again after
an expiry reports that once and is over, whatever the error. An answer does not refuse a
subscription, be its status what it may: an error at the beginning of the body is told as the first
item. -/
theorem refusal_surfaces (a : Api) :
    (∀ scope x e, (x.server.watch a.params (a.pathOf scope) baseline).1.error? = some e →
      (a.subscribe scope x).1 = .refused e.fault ∧ (a.subscribe scope x).2.live = x.live ∧
        (a.subscribe scope x).2.cursors = x.cursors) ∧
    (∀ c d server run, let t := a.transport.recorded
      let s := (source c d server).deeds t disturb run
      s.sessions = [] → ∀ earlier scope rest, s.config.target.watchScopes =
      earlier ++ scope :: rest →
      ∀ s', Source.openAll t earlier s = (.started, s') →
      ∀ e, (s'.pool.transport.state.server.watch a.params (a.pathOf scope) baseline).1.error? =
      some e →
        (s.start t).1 = .failed (.subscribing scope e.fault) ∧ (s.start t).2.sessions = [] ∧
        (earlier ≠ [] ∨ s.pool.isRunning = false → (s.start t).2.pool.isRunning = false ∧
          (s.start t).2.pool.transport.state.live = [])) ∧
    (∀ (σ : Type) (sink : Sink σ) gvkKey scope server before y o,
      Owner.open? a.wire sink.noted gvkKey scope (Wire.joined a server before) ⟨y, []⟩ = some o →
      ∀ run, let now := o.served a sink run
      ∀ later s f asked earlier, now.wire.log =
      later ++ ⟨.subscribe s (.refused f), asked⟩ :: earlier →
        later = [] ∧ now.isRunning = false ∧ now.state = .closed ∧
        now.pool.reports = some [⟨gvkKey, scope, renewalFault f⟩] ∧
        ∃ id r e, asked = some ⟨id, a.pathOf s, "0", r⟩ ∧ r.error? = some e ∧ f = e.fault) ∧
    ∀ scope x uri answer, watchRequest a.params (a.pathOf scope) baseline = .ok uri →
      (x.server.ask uri).1 = .answer answer → let after := (a.subscribe scope x).2
      (a.subscribe scope x).1 = .granted ⟨x.nextId, scope⟩ ∧ after.live = x.nextId :: x.live ∧
      ∀ e rest, answer.stream.news = .failure e :: rest →
        (a.next ⟨x.nextId, scope⟩ after).1 = .fault e.fault := by
  refine ⟨fun scope x e failed => subscribe_refused failed, ?_, ?_, ?_⟩
  · intro c d server run t s closed earlier scope rest scopes s' opened e failed
    have order : s.InOrder Books := (source_inOrder c d server).deeds (lends a) disturb_harmless run
    exact start_refused order closed scopes opened failed
  · intro σ sink gvkKey scope server before y o opened run now later s f asked earlier split
    obtain ⟨v, shows, onWire, -⟩ := Owner.served_onWire opened run
    change (o.served a sink run).pool.transport.state.log = _ at split
    obtain ⟨rfl, ended, closed, reported⟩ := onWire.refused split
    have fits := onWire.fitting
    rw [split] at fits
    obtain ⟨id, r, note, answer, -⟩ := fits.1.eq_of_subscribe rfl
    refine ⟨rfl, ?_, ?_, ?_, id, r, ?_⟩
    · rw [shows.isRunning_eq, ended]
    · rw [shows.state_eq, closed]
    · rw [shows.reports_eq, reported]
    · have asked' : asked = some ⟨id, a.pathOf s, baseline, r⟩ := congrArg Note.exchange note
      unfold Response.answer at answer
      split at answer
      · cases answer
      next e failed => exact ⟨e, asked', failed, Subscribed.refused.inj answer⟩
  · intro scope x uri answer request answered after
    exact subscribe_granted (watch_of_answer request answered)

def fault? : Item → Option Fault
  | .fault f => some f
  | _ => none

theorem eq_fault_of_fault? {item : Item} {f : Fault} (told : fault? item = some f) :
    item = .fault f := by
  cases item with
  | fault g => exact congrArg Item.fault (Option.some.inj told)
  | _ => cases told

namespace Sample

def widgets : Api :=
  ⟨⟨"example.com", "v1", "example.com/v1", "Widget", "widgets"⟩, true, "default", ⟨290, true⟩⟩

def forbidden : String :=
  "\x7b\"code\":403,\"message\":\"msg\",\"reason\":\"Why\",\"status\":\"Failure\"\x7d"

def forbidding : Server :=
  ⟨Table.empty.insert "/apis/example.com/v1/widgets" [.answer ⟨403, forbidden, .closes⟩], []⟩

end Sample

/-- A subscription that the server forbids by status and body is granted, and the error is the first
item of its stream. -/
theorem forbidden_watch_granted :
    let subscribed := Sample.widgets.subscribe .allNamespaces (ApiState.start Sample.forbidding)
    subscribed.1 = .granted ⟨1, .allNamespaces⟩ ∧ subscribed.2.live = [1] ∧
      (Sample.widgets.next ⟨1, .allNamespaces⟩ subscribed.2).1 =
        .fault (.failed "watch error 403: msg (Why)") := by
  have answered : ((ApiState.start Sample.forbidding).server.watch Sample.widgets.params
      (Sample.widgets.pathOf .allNamespaces) baseline).1.error? = none := by decide +kernel
  obtain ⟨lines, opened⟩ := Response.error?_eq_none_iff.mp answered
  obtain ⟨granted, live, -⟩ := subscribe_granted opened
  have told : fault? (Sample.widgets.next ⟨1, .allNamespaces⟩
      (Sample.widgets.subscribe .allNamespaces (ApiState.start Sample.forbidding)).2).1 =
        some (.failed "watch error 403: msg (Why)") := by decide +kernel
  exact ⟨granted, live, eq_fault_of_fault? told⟩

end WatchDispatch.Cluster
