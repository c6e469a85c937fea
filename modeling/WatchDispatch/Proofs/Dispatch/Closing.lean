import WatchDispatch.Proofs.Dispatch.SourceInvariants
import WatchDispatch.Proofs.Watch.StoppedPools

/-!
# Closing a source

Closing asks all sessions to stop before it waits for any of them. So the first wait already sees
all deliveries wind down, and the others only look at how theirs ended: what is counted is decided
by where each session stood when it was asked to stop, and by what the transport made of its last
release.
-/

namespace WatchDispatch

open Watch

variable {τ σ ε : Type}

namespace Watch

def Phase.failed : Phase → Bool
  | .ended (.releaseFailed _) | .ended .aborted => true
  | _ => false

/-- Whether the act is a release that failed or crashed. -/
def Act.failsRelease : Act → Bool
  | .released _ .released => false
  | .released _ _ => true
  | _ => false

def Act.crashesRelease : Act → Bool
  | .released _ .crashed => true
  | _ => false

/-- Of the deliveries that nobody asked to stop before, those fail that hold a subscription and fail
to give it back, and those that had crashed already. -/
theorem Phase.WindsDown.failed_eq {phase phase' : Phase} {since : List Act}
    (winds : phase.WindsDown phase' since) (ended : ∃ outcome, phase' = .ended outcome)
    (unasked : ∀ outcome, phase = .ended outcome → outcome = .escalated ∨ outcome = .aborted) :
    (phase'.failed && phase.held.isSome) = (phase.held.isSome && since.any Act.failsRelease) ∧
      (phase'.failed && !phase.held.isSome) = decide (phase = .ended .aborted) := by
  cases winds with
  | still =>
    obtain ⟨outcome, rfl⟩ := ended
    rcases unasked outcome rfl with rfl | rfl <;> exact ⟨rfl, rfl⟩
  | @release h result here =>
    subst here
    cases result <;> exact ⟨rfl, rfl⟩
  | giveUp here => rcases here with rfl | rfl <;> exact ⟨rfl, rfl⟩

namespace Pool

def failed (p : Pool τ σ) (s : Session) : Bool := (p.delivery? s).any (fun d => d.phase.failed)

/-- Whether a session holds a subscription in a delivery that goes on. -/
def holds (p : Pool τ σ) (s : Session) : Bool := (p.delivery? s).any (fun d => d.phase.held.isSome)

/-- Who waits for the end of a session first lets all deliveries run. -/
theorem finish_settle {t : Transport τ} {sink : Sink σ} {s : Session} {p : Pool τ σ}
    (waiting : s.joined = false) (idle : (p.settle t sink).ready = []) :
    p.finish t sink s = (p.settle t sink).finish t sink s := by
  simp [finish, waiting, settle_of_idle t sink idle]

theorem phase_modify (p : Pool τ σ) (n : Nat) {change : Delivery → Delivery}
    (phase : ∀ d, (change d).phase = d.phase) :
    (p.modify n change).deliveries.map Delivery.phase = p.deliveries.map Delivery.phase := by
  refine List.ext_getElem? ?_
  intro m
  simp only [modify, List.getElem?_map, List.getElem?_modify]
  cases p.deliveries[m]? with
  | none => rfl
  | some d => by_cases same : n = m <;> simp [same, phase]

/-- What is read off the phases of two pools is the same if the phases are. -/
theorem any_phase_eq {p q : Pool τ σ}
    (same : q.deliveries.map Delivery.phase = p.deliveries.map Delivery.phase) (f : Phase → Bool)
    (s : Session) :
    (q.delivery? s).any (fun d => f d.phase) = (p.delivery? s).any (fun d => f d.phase) := by
  have here := congrArg (fun phases => phases[s.number]?.any f) same
  simpa [delivery?, List.getElem?_map, Option.any_map] using here

end Pool

end Watch

namespace Dispatch

namespace Source

/-! ## Asking for the stops -/

theorem requestStop_same (session : Session) (p : Pool (Recorded τ) Stores) :
    let q := p.requestStop session
    q.transport = p.transport ∧ q.journal = p.journal ∧ q.reports = p.reports ∧
      q.deliveries.map Delivery.phase = p.deliveries.map Delivery.phase := by
  obtain ⟨ready, woken, -, -⟩ :=
    Pool.wake_eq session.number (p.modify session.number fun d => { d with stopAsked := true })
  rw [Pool.requestStop, woken]
  exact ⟨rfl, rfl, rfl, p.phase_modify session.number fun _ => rfl⟩

/-- Stops that are asked for change nothing that can be seen from outside. -/
theorem requestStops_same (sessions : List Session) (p : Pool (Recorded τ) Stores) :
    let q := requestStops sessions p
    q.transport = p.transport ∧ q.journal = p.journal ∧ q.reports = p.reports ∧
      q.deliveries.map Delivery.phase = p.deliveries.map Delivery.phase := by
  induction sessions generalizing p with
  | nil => exact ⟨rfl, rfl, rfl, rfl⟩
  | cons session more ih =>
    obtain ⟨transport, journal, reports, phases⟩ := ih (p.requestStop session)
    obtain ⟨transport', journal', reports', phases'⟩ := requestStop_same session p
    exact ⟨transport.trans transport', journal.trans journal', reports.trans reports',
      phases.trans phases'⟩

/-! ## Waiting for the ends -/

/-- Shows sessions as closed, one after the other. -/
def showClosed (sessions : List Session) (p : Pool (Recorded τ) Stores) :
    Pool (Recorded τ) Stores :=
  sessions.foldl (fun p session => p.publishClosed session.number) p

theorem showClosed_same (sessions : List Session) (p : Pool (Recorded τ) Stores) :
    let q := showClosed sessions p
    q.transport = p.transport ∧ q.reports = p.reports ∧
      q.journal = sessions.reverse.map (fun session => (session.number, .published .closed)) ++
      p.journal ∧
      q.deliveries.map Delivery.phase = p.deliveries.map Delivery.phase := by
  induction sessions generalizing p with
  | nil => exact ⟨rfl, rfl, rfl, rfl⟩
  | cons session more ih =>
    obtain ⟨transport, reports, journal, phases⟩ := ih (p.publishClosed session.number)
    refine ⟨transport, reports, ?_, phases.trans (p.phase_modify session.number fun _ => rfl)⟩
    rw [List.reverse_cons, List.map_append, List.append_assoc]
    exact journal

theorem showClosed_state {sessions : List Session} {p : Pool (Recorded τ) Stores}
    {session : Session} (shown : session ∈ sessions ∨ p.state session = .closed) :
    (showClosed sessions p).state session = .closed := by
  induction sessions generalizing p with
  | nil => exact shown.resolve_left List.not_mem_nil
  | cons first more ih =>
    refine ih ?_
    by_cases same : session.number = first.number
    · refine .inr ?_
      rw [Pool.state, Pool.delivery?, same]
      cases there : p.deliveries[first.number]? with
      | none => simp [Pool.publishClosed, Pool.modify, there]
      | some d => simp [Pool.publishClosed, Pool.modify, there]
    · have kept : (p.publishClosed first.number).state session = p.state session := by
        rw [Pool.state, Pool.state, Pool.delivery?, Pool.delivery?]
        exact congrArg (fun d => (d.map Delivery.state).getD .closed)
          (Pool.getElem?_modify_of_ne same)
      rw [kept]
      refine shown.imp_left fun mem => (List.mem_cons.mp mem).resolve_left ?_
      rintro rfl
      exact same rfl

/-- In a pool that is at rest with all these deliveries ended, waiting only looks at how they
ended. -/
theorem finishAll_of_idle (t : Transport τ) (sink : Sink Stores) {sessions : List Session}
    {p : Pool (Recorded τ) Stores} (idle : p.ready = [])
    (waiting : ∀ session ∈ sessions, session.joined = false ∧
      ∃ d, p.deliveries[session.number]? = some d ∧ d.isRunning = false) :
    finishAll t.recorded sink sessions p = (sessions.countP p.failed, showClosed sessions p) := by
  induction sessions generalizing p with
  | nil => rfl
  | cons session more ih =>
    obtain ⟨first, d, there, ended⟩ := waiting session List.mem_cons_self
    have settled : p.settle t.recorded sink = p := Pool.settle_of_idle t.recorded sink idle
    obtain ⟨outcome, phase⟩ := d.phase_of_ended ended
    have finish := Pool.finish_of_ended t.recorded sink first (settled.symm ▸ there) phase
    rw [settled] at finish
    have phases : (p.publishClosed session.number).deliveries.map Delivery.phase =
        p.deliveries.map Delivery.phase := p.phase_modify session.number fun _ => rfl
    have same : (p.publishClosed session.number).failed = p.failed :=
      funext (Pool.any_phase_eq phases Phase.failed)
    have onward := ih (p := p.publishClosed session.number) idle fun other mem => by
      obtain ⟨waits, e, found, rests⟩ := waiting other (List.mem_cons_of_mem _ mem)
      refine ⟨waits, ?_⟩
      by_cases same : other.number = session.number
      · refine ⟨{ d with state := .closed }, ?_, ended⟩
        rw [same]
        exact Pool.getElem?_modify_self there
      · exact ⟨e, (Pool.getElem?_modify_of_ne same).trans found, rests⟩
    have here : p.failed session = (Phase.ended outcome).failed := by
      simp [Pool.failed, Pool.delivery?, there, phase]
    simp only [finishAll, finish, onward, same, List.countP_cons, here]
    cases outcome <;> rfl

/-- Once all deliveries that go on were asked to stop, waiting begins with a pool at rest. -/
theorem finishAll_settle (t : Transport τ) (sink : Sink Stores) {sessions : List Session}
    {p : Pool (Recorded τ) Stores} (attended : p.Attended []) (some : sessions ≠ [])
    (waiting : ∀ session ∈ sessions, session.joined = false) :
    finishAll t.recorded sink sessions p =
    finishAll t.recorded sink sessions (p.settle t.recorded sink) := by
  cases sessions with
  | nil => exact absurd rfl some
  | cons session more =>
    unfold finishAll
    rw [Pool.finish_settle (waiting session List.mem_cons_self) (attended.settle_idle t sink)]

theorem finishAll_of_attended (t : Transport τ) (sink : Sink Stores) {sessions : List Session}
    {p : Pool (Recorded τ) Stores} (attended : p.Attended []) (some : sessions ≠ [])
    (waiting : ∀ session ∈ sessions, session.joined = false ∧
      session.number < p.deliveries.length) :
    let q := p.settle t.recorded sink
    finishAll t.recorded sink sessions p = (sessions.countP q.failed, showClosed sessions q) := by
  intro q
  have isOver : q.Over := attended.settle_over t sink
  rw [finishAll_settle t sink attended some fun session mem => (waiting session mem).1]
  refine finishAll_of_idle t sink (attended.settle_idle t sink) ?_
  intro session mem
  obtain ⟨waits, inside⟩ := waiting session mem
  rw [← Pool.settle_length t.recorded sink p] at inside
  exact ⟨waits, _, List.getElem?_eq_getElem inside, isOver _ (List.getElem_mem inside)⟩

/-! ## The whole closing -/

variable {t : Transport τ} {s : Source (Recorded τ)} {env : ε → Recorded τ → Recorded τ}

/-- The pool of a source in which all sessions were asked to stop and nothing moves any more. -/
def wound (t : Transport τ) (s : Source (Recorded τ)) : Pool (Recorded τ) Stores :=
  (requestStops s.sessions s.pool).settle t.recorded s.sink

theorem Kept.wound {Holds : List Session → List Handle → Pool (Recorded τ) Stores → Prop}
    (keeps : Pool.Keeps t env Holds) (kept : s.Kept Holds) : Holds [] [] (s.wound t) :=
  keeps.settle s.sink (Kept.stopped keeps kept)

/-- What holds of every source; it is enough to tell how the source is closed. -/
def Governed (s : Source (Recorded τ)) : Prop := s.pool.Governed s.sessions []

theorem close_eq (t : Transport τ) (governed : s.Governed) (some : s.sessions ≠ []) :
    s.close t.recorded = (s.sessions.countP (s.wound t).failed,
      { s with sessions := [], pool := showClosed s.sessions (s.wound t) }) := by
  have stopped := Kept.stopped (Pool.keeps_attended t (fun (_ : Unit) x => x)) governed.attended
  have same := (requestStops_same s.sessions s.pool).2.2.2
  have waits := finishAll_of_attended t s.sink stopped some fun session mem => by
    obtain ⟨waiting, d, there, -⟩ := governed.manned.each session mem
    have inside := (List.getElem?_eq_some_iff.mp there).1
    have length := congrArg List.length same
    simp only [List.length_map] at length
    exact ⟨waiting, length ▸ inside⟩
  simp only [close, closeWhile, id, waits]
  rfl

/-- The deliveries of a source that is closed wind down, and all of them end. -/
theorem Governed.winds (t : Transport τ) (governed : s.Governed) :
    s.pool.WindsDown (s.wound t) ∧ (s.wound t).Over := by
  have stopped := Kept.stopped (Pool.keeps_attended t (fun (_ : Unit) x => x)) governed.attended
  obtain ⟨transport, journal, reports, phases⟩ := requestStops_same s.sessions s.pool
  obtain ⟨length, each, calls, notes, silent⟩ := stopped.settle_winds t s.sink
  refine ⟨⟨?_, ?_, ?_, ?_, silent.trans reports⟩, stopped.settle_over t s.sink⟩
  · have same := congrArg List.length phases
    simp only [List.length_map] at same
    exact length.trans same
  · intro n e found
    obtain ⟨d, since, there, winds, told⟩ := each n e found
    have before := congrArg (fun phases => phases[n]?) phases
    simp only [List.getElem?_map, there] at before
    obtain ⟨d', there', same⟩ := Option.map_eq_some_iff.mp before.symm
    exact ⟨d', since, there', same ▸ winds, journal ▸ told⟩
  · exact transport ▸ calls
  · exact journal ▸ notes

/-- Each session that is closed has a delivery, which ends. -/
theorem Governed.wound_of_mem (t : Transport τ) (governed : s.Governed) {session : Session}
    (mem : session ∈ s.sessions) :
    ∃ d e, s.pool.deliveries[session.number]? = some d ∧ d.stopAsked = false ∧
      (s.wound t).deliveries[session.number]? = some e ∧ e.isRunning = false := by
  obtain ⟨winds, isOver⟩ := governed.winds t
  obtain ⟨-, d, there, -, unasked⟩ := governed.manned.each session mem
  have inside := winds.length ▸ (List.getElem?_eq_some_iff.mp there).1
  exact ⟨d, _, there, unasked, List.getElem?_eq_getElem inside, isOver _ (List.getElem_mem inside)⟩

theorem wound_recalls (t : Transport τ) (s : Source (Recorded τ)) : (s.wound t).Recalls s.pool := by
  have keeps := Pool.keeps_recalls t Recorded.become_calls s.pool
  have kept : s.Kept (fun _ _ p => p.Recalls s.pool) := ⟨⟨[], rfl⟩, ⟨[], rfl⟩⟩
  exact Kept.wound keeps kept

/-- The sessions that fail to close are those that hold a subscription and fail to give it back, and
those whose delivery had crashed at a release before. -/
theorem Governed.count (t : Transport τ) (governed : s.Governed) {since : List (Nat × Act)}
    (split : (s.wound t).journal = since ++ s.pool.journal) :
    s.sessions.countP (s.wound t).failed =
      s.sessions.countP (fun session =>
        s.pool.holds session && (diary since session.number).any Act.failsRelease) +
      s.sessions.countP (fun session =>
        (diary s.pool.journal session.number).any Act.crashesRelease) := by
  have each : ∀ session ∈ s.sessions,
      ((s.wound t).failed session && s.pool.holds session) =
        (s.pool.holds session && (diary since session.number).any Act.failsRelease) ∧
      ((s.wound t).failed session && !s.pool.holds session) =
        (diary s.pool.journal session.number).any Act.crashesRelease := by
    intro session mem
    obtain ⟨d, e, there, unasked, found, ended⟩ := governed.wound_of_mem t mem
    have faithful := governed.faithful.each session.number d there
    obtain ⟨d', told, there', winds, split'⟩ := (governed.winds t).1.each session.number e found
    obtain rfl : d = d' := Option.some.inj (there.symm.trans there')
    obtain rfl : told = diary since session.number := by
      rw [split, diary_append] at split'
      exact (List.append_cancel_right split').symm
    obtain ⟨holding, dead⟩ := winds.failed_eq (e.phase_of_ended ended) (faithful.unasked unasked)
    have failed : (s.wound t).failed session = e.phase.failed := by
      simp [Pool.failed, Pool.delivery?, found]
    have holds : s.pool.holds session = d.phase.held.isSome := by
      simp [Pool.holds, Pool.delivery?, there]
    rw [failed, holds]
    refine ⟨holding, dead.trans ?_⟩
    rw [Bool.eq_iff_iff, decide_eq_true_eq, faithful.crashed, List.any_eq_true]
    constructor
    · rintro ⟨h, mem⟩
      exact ⟨_, mem, rfl⟩
    · rintro ⟨act, mem, crashes⟩
      cases act with
      | released h result => cases result <;> first | exact ⟨h, mem⟩ | cases crashes
      | _ => cases crashes
  rw [List.countP_eq_countP_filter_add _ _ s.pool.holds, List.countP_filter, List.countP_filter]
  congr 1
  · exact List.countP_congr fun session mem => by rw [(each session mem).1]
  · exact List.countP_congr fun session mem => by rw [(each session mem).2]

/-- What is noted when sessions are shown as closed is no release. -/
theorem any_failsRelease_closings (sessions : List Session) (since : List (Nat × Act)) (n : Nat) :
    (diary (sessions.map (fun session => (session.number, .published .closed)) ++ since) n).any
      Act.failsRelease = (diary since n).any Act.failsRelease := by
  rw [diary_append, List.any_append, Bool.or_eq_right_iff_imp]
  intro fails
  obtain ⟨act, mem, fails⟩ := List.any_eq_true.mp fails
  simp only [diary, List.mem_map, List.mem_filter] at mem
  obtain ⟨entry, ⟨⟨session, _, rfl⟩, _⟩, rfl⟩ := mem
  cases fails

theorem Governed.close_count (t : Transport τ) (governed : s.Governed) :
    ∃ since, (s.close t.recorded).2.pool.journal = since ++ s.pool.journal ∧
      (s.close t.recorded).1 =
        s.sessions.countP (fun session =>
          s.pool.holds session && (diary since session.number).any Act.failsRelease) +
        s.sessions.countP (fun session =>
          (diary s.pool.journal session.number).any Act.crashesRelease) := by
  by_cases none : s.sessions = []
  · exact ⟨[], by simp [close, closeWhile, none, requestStops, finishAll], by simp [close,
      closeWhile, none, finishAll]⟩
  · obtain ⟨since, split⟩ := (s.wound_recalls t).journal
    rw [close_eq t governed none]
    refine ⟨s.sessions.reverse.map (fun session => (session.number, .published .closed)) ++
      since, ?_, ?_⟩
    · rw [List.append_assoc, ← split]
      exact (showClosed_same s.sessions (s.wound t)).2.2.1
    · simp only [any_failsRelease_closings]
      exact governed.count t split

/-- A session that is closed has ended. -/
theorem Governed.close_session (t : Transport τ) (governed : s.Governed) {session : Session}
    (mem : session ∈ s.sessions) :
    (s.close t.recorded).2.pool.state session = .closed ∧
      ∃ e, (s.close t.recorded).2.pool.delivery? session = some e ∧ e.isRunning = false := by
  rw [close_eq t governed (List.ne_nil_of_mem mem)]
  refine ⟨showClosed_state (.inl mem), ?_⟩
  obtain ⟨-, e, -, -, found, ended⟩ := governed.wound_of_mem t mem
  have phases :=
    congrArg (fun phases => phases[session.number]?) (showClosed_same s.sessions (s.wound t)).2.2.2
  simp only [List.getElem?_map, found] at phases
  obtain ⟨e', there, same⟩ := Option.map_eq_some_iff.mp phases
  exact ⟨e', there, by simpa [Delivery.isRunning, same] using ended⟩

/-- Whatever is done to a source, it is governed. -/
theorem governed_deeds (t : Transport τ) {env : ε → Recorded τ → Recorded τ}
    (notes : ∀ change x, (env change x).calls = x.calls) (c : Configuration) (d : Dispatcher)
    (x : τ) (run : List (Deed ε)) :
    ((Source.make c d ⟨x, []⟩).deeds t.recorded env run).Governed := by
  have start : (Source.make c d (⟨x, []⟩ : Recorded τ)).Kept Pool.Governed :=
    ⟨⟨fun _ _ there => (by cases there), fun _ _ there => (by cases there)⟩,
      ⟨List.nodup_nil, fun _ mem => (by cases mem)⟩,
      ⟨fun _ _ there => (by cases there), fun _ mem => (by cases mem)⟩, ⟨.refl _, rfl⟩⟩
  exact Kept.deeds (Pool.keeps_governed t notes) start run

end Source

/-- Closing a source that anything was done to leaves no session open. All of its sessions show
themselves closed, their deliveries have ended, and each has given back what it obtained,
subscription by subscription, of which the transport has seen every one. Those sessions are counted
that held a subscription in a delivery that went on and did not get it back, and those whose
delivery had crashed at a release before. A second closing does nothing. -/
theorem close_exact {τ : Type} (t : Transport τ) (c : Configuration) (d : Dispatcher) (x : τ)
    (run : List (Deed τ)) :
    let s := (Source.make c d ⟨x, []⟩).deeds t.recorded Recorded.become run
    let failures := (s.close t.recorded).1
    let closed := (s.close t.recorded).2
    closed.sessions = [] ∧
    (∀ session ∈ s.sessions, closed.pool.state session = .closed ∧
      (∃ e, closed.pool.delivery? session = some e ∧ e.isRunning = false) ∧
      obtained (diary closed.pool.journal session.number) =
        (releases (diary closed.pool.journal session.number)).map Prod.fst) ∧
    (granted closed.pool.transport.calls).Perm (obtained (closed.pool.journal.map Prod.snd)) ∧
    unsubscribes closed.pool.transport.calls = releases (closed.pool.journal.map Prod.snd) ∧
    (∃ since, closed.pool.journal = since ++ s.pool.journal ∧
      failures =
        s.sessions.countP (fun session =>
          s.pool.holds session && (diary since session.number).any Act.failsRelease) +
        s.sessions.countP (fun session =>
          (diary s.pool.journal session.number).any Act.crashesRelease)) ∧
    closed.close t.recorded = (0, closed) := by
  intro s failures closed
  have governed : s.Governed := Source.governed_deeds t Recorded.become_calls c d x run
  have after : closed.Governed :=
    Source.governed_deeds t Recorded.become_calls c d x (.close :: run)
  refine ⟨rfl, ?_, after.booked.grants, after.booked.released, governed.close_count t, rfl⟩
  intro session mem
  obtain ⟨state, e, there, ended⟩ := governed.close_session t mem
  have account := (after.faithful.each session.number e there).obtained
  rw [e.held_of_ended ended] at account
  exact ⟨state, ⟨e, there, ended⟩, account⟩

end Dispatch

end WatchDispatch
