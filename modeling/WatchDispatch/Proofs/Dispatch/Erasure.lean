import WatchDispatch.Proofs.Dispatch.SourceRun

/-!
# Forgetting the notes

A transport that notes its calls answers as it would without the notes, so a pool or a source over
it does the same as one over the transport itself. What is proved with notes therefore holds without
them.
-/

namespace WatchDispatch

open Watch

variable {τ σ : Type}

namespace Watch

section Calls

variable (t : Transport τ) (h : Handle) (x : Recorded τ)

theorem Transport.subscribe_recorded (scope : Scope) : t.recorded.subscribe scope x =
    ((t.subscribe scope x.state).1,
      ⟨(t.subscribe scope x.state).2, .subscribe scope (t.subscribe scope x.state).1 :: x.calls⟩) :=
        rfl

theorem Transport.unsubscribe_recorded : t.recorded.unsubscribe h x =
    ((t.unsubscribe h x.state).1,
      ⟨(t.unsubscribe h x.state).2, .unsubscribe h (t.unsubscribe h x.state).1 :: x.calls⟩) := rfl

theorem Transport.next_recorded : t.recorded.next h x =
    ((t.next h x.state).1, ⟨(t.next h x.state).2, .next h (t.next h x.state).1 :: x.calls⟩) := rfl

end Calls

def Step.erase (s : Step (Recorded τ) σ) : Step τ σ :=
  ⟨s.delivery, s.transport.state, s.sink, s.acts, s.turn⟩

def Pool.erase (p : Pool (Recorded τ) σ) : Pool τ σ :=
  ⟨p.transport.state, p.sink, p.deliveries, p.ready, p.journal, p.reports⟩

namespace Delivery

variable (t : Transport τ) (sink : Sink σ) (d : Delivery) (h : Handle) (x : Recorded τ) (y : σ)

theorem escalate_erase (f : Fault) (before : List Act) :
    (d.escalate t.recorded h f before x y).erase = d.escalate t h f before x.state y := by
  unfold escalate
  rw [Transport.unsubscribe_recorded]
  rcases t.unsubscribe h x.state with ⟨_ | _ | _, state⟩ <;> rfl

theorem expire_erase : (d.expire t.recorded h x y).erase = d.expire t h x.state y := by
  unfold expire
  rw [Transport.unsubscribe_recorded]
  rcases t.unsubscribe h x.state with ⟨_ | _ | _, state⟩ <;> rfl

theorem renew_erase : (d.renew t.recorded h x y).erase = d.renew t h x.state y := by
  unfold renew
  rw [Transport.subscribe_recorded]
  rcases t.subscribe d.scope x.state with ⟨_ | _ | _, state⟩ <;> rfl

theorem take_erase : (d.take t.recorded sink h x y).erase = d.take t sink h x.state y := by
  unfold take
  rw [Transport.next_recorded]
  rcases t.next h x.state with ⟨e | ⟨reason | reason⟩ | _ | _ | _, state⟩
  · rcases handled : sink e y with ⟨_ | message, y'⟩
    · simp [handled, Step.erase]
    · simpa [handled] using d.escalate_erase t h _ y' (crashFault message) [.delivered e]
  · exact d.expire_erase t h _ y
  · exact d.escalate_erase t h _ y (.failed reason) []
  · exact d.escalate_erase t h _ y endFault []
  · rfl
  · rfl

/-- A step does the same with and without the notes. -/
theorem step_erase : (d.step t.recorded sink x y).erase = d.step t sink x.state y := by
  unfold step
  cases d.phase with
  | watching h =>
    dsimp only
    split
    · rfl
    · exact d.take_erase t sink h x y
  | renewing h =>
    dsimp only
    split
    · rfl
    · exact d.renew_erase t h x y
  | awaiting h =>
    dsimp only
    split <;> rfl
  | ended outcome => rfl

end Delivery

namespace Pool

variable (t : Transport τ) (sink : Sink σ) (p : Pool (Recorded τ) σ)

theorem turn_erase : (p.turn t.recorded sink).erase = p.erase.turn t sink := by
  have queue : p.erase.ready = p.ready := rfl
  have deliveries : p.erase.deliveries = p.deliveries := rfl
  unfold turn
  rw [queue, deliveries]
  cases p.ready with
  | nil => rfl
  | cons n others =>
    cases there : p.deliveries[n]? with
    | none => simp [there, erase]
    | some d =>
      have step := d.step_erase t sink p.transport p.sink
      have own : d.step t sink p.erase.transport p.erase.sink =
        d.step t sink p.transport.state p.sink := rfl
      simp only [there]
      rw [own, ← step]
      rfl

theorem run_erase (fuel : Nat) : (p.run t.recorded sink fuel).erase = p.erase.run t sink fuel := by
  induction fuel generalizing p with
  | zero => rfl
  | succ fuel ih =>
    unfold run
    change _ = if p.ready.isEmpty then _ else _
    split
    · rfl
    · rw [ih, turn_erase]

theorem settle_erase : (p.settle t.recorded sink).erase = p.erase.settle t sink :=
  run_erase t sink p (p.budget t.recorded)

theorem turns_erase (numbers : List Nat) :
    (p.turns t.recorded sink numbers).erase = p.erase.turns t sink numbers := by
  induction numbers generalizing p with
  | nil => rfl
  | cons n later ih =>
      exact (ih _).trans (congrArg (turns t sink later) ((p.pick n).turn_erase t sink))

/-- A session is opened alike if the others do alike meanwhile. -/
theorem openWhile_erase {meanwhile : Pool (Recorded τ) σ → Pool (Recorded τ) σ}
    {meanwhile' : Pool τ σ → Pool τ σ} (alike : ∀ q, meanwhile' q.erase = (meanwhile q).erase)
    (gvkKey : String) (scope : Scope) :
    p.erase.openWhile t meanwhile' gvkKey scope =
      ((p.openWhile t.recorded meanwhile gvkKey scope).1,
        (p.openWhile t.recorded meanwhile gvkKey scope).2.erase) := by
  unfold openWhile
  rw [Transport.subscribe_recorded]
  have here : t.subscribe scope p.erase.transport = t.subscribe scope p.transport.state := rfl
  rw [here]
  rcases t.subscribe scope p.transport.state with ⟨answer, state⟩
  have asked := alike { p with transport := ⟨state, .subscribe scope answer :: p.transport.calls⟩ }
  cases answer with
  | granted h =>
    exact congrArg (fun q => (Opening.opened (q.spawn gvkKey scope h).1,
      (q.spawn gvkKey scope h).2)) asked
  | refused f => exact congrArg (Prod.mk (Opening.refused f)) asked
  | unanswered => exact congrArg (Prod.mk Opening.pending) asked

theorem wake_erase (n : Nat) : (p.wake n).erase = p.erase.wake n := by
  unfold wake
  change _ = if p.ready.contains n then _ else _
  split <;> rfl

theorem requestStop_erase (s : Session) : (p.requestStop s).erase = p.erase.requestStop s :=
  wake_erase _ s.number

theorem finish_erase (s : Session) :
    p.erase.finish t sink s = ((p.finish t.recorded sink s).1, (p.finish t.recorded sink s).2.1,
      (p.finish t.recorded sink s).2.2.erase) := by
  unfold finish
  split
  · rfl
  · have shown : ∀ session : Session, (p.settle t.recorded sink).erase.delivery? session =
        (p.settle t.recorded sink).delivery? session := fun _ => rfl
    rw [← settle_erase]
    simp only [shown]
    rcases ((p.settle t.recorded sink).delivery? { s with joined := true }).map Delivery.phase with
      _ | _ | _ | _ | outcome <;> rfl

end Pool

end Watch

namespace Dispatch

def Source.erase (s : Source (Recorded τ)) : Source τ :=
  ⟨s.config, s.dispatcher, s.sessions, s.pool.erase⟩

/-- A schedule goes by what can be seen without the notes. -/
def Schedule.recorded (schedule : Schedule τ) : Schedule (Recorded τ) where
  before s := schedule.before s.erase
  meanwhile s := schedule.meanwhile s.erase
  closing s := schedule.closing s.erase

namespace Source

variable (t : Transport τ) (s : Source (Recorded τ))

theorem requestStops_erase (sessions : List Session) (p : Pool (Recorded τ) Stores) :
    (requestStops sessions p).erase = requestStops sessions p.erase := by
  induction sessions generalizing p with
  | nil => rfl
  | cons session more ih =>
      exact (ih _).trans (congrArg (requestStops more) (p.requestStop_erase session))

theorem finishAll_erase (sink : Sink Stores) (sessions : List Session)
    (p : Pool (Recorded τ) Stores) :
    finishAll t sink sessions p.erase =
      ((finishAll t.recorded sink sessions p).1,
        (finishAll t.recorded sink sessions p).2.erase) := by
  induction sessions generalizing p with
  | nil => rfl
  | cons session more ih =>
    unfold finishAll
    rw [p.finish_erase t sink session]
    rcases p.finish t.recorded sink session with ⟨result, joined, q⟩
    simp only [ih q]

/-- A source is closed alike if its deliveries do alike meanwhile. -/
theorem closeWhile_erase {meanwhile : Pool (Recorded τ) Stores → Pool (Recorded τ) Stores}
    {meanwhile' : Pool τ Stores → Pool τ Stores}
    (alike : ∀ q, meanwhile' q.erase = (meanwhile q).erase) :
    s.erase.closeWhile t meanwhile' =
      ((s.closeWhile t.recorded meanwhile).1, (s.closeWhile t.recorded meanwhile).2.erase) := by
  have stopped := (alike _).symm.trans (congrArg meanwhile' (requestStops_erase s.sessions s.pool))
  have finished := finishAll_erase t s.sink s.sessions (meanwhile (requestStops s.sessions s.pool))
  rw [stopped] at finished
  unfold closeWhile
  have own : finishAll t s.erase.sink s.erase.sessions
      (meanwhile' (requestStops s.erase.sessions s.erase.pool)) =
        finishAll t s.sink s.sessions (meanwhile' (requestStops s.sessions s.pool.erase)) := rfl
  rw [own, finished]
  rfl

theorem closeAmid_erase (schedule : Schedule τ) :
    s.erase.closeAmid t schedule = ((s.closeAmid t.recorded schedule.recorded).1,
      (s.closeAmid t.recorded schedule.recorded).2.erase) :=
  closeWhile_erase t s fun q => (q.turns_erase t s.sink _).symm

theorem turns_erase (numbers : List Nat) :
    (s.turns t.recorded numbers).erase = s.erase.turns t numbers :=
  congrArg (fun pool => { s.erase with pool }) (s.pool.turns_erase t s.sink numbers)

theorem openAmid_erase (schedule : Schedule τ) (scope : Scope) :
    s.erase.openAmid t schedule scope = ((s.openAmid t.recorded schedule.recorded scope).1,
      (s.openAmid t.recorded schedule.recorded scope).2.erase) := by
  unfold openAmid
  dsimp only
  rw [← turns_erase]
  exact Pool.openWhile_erase t _ (fun q => (q.turns_erase t s.sink _).symm) s.config.gvkKey scope

theorem openEach_erase {opens : Source (Recorded τ) → Scope → Opening × Pool (Recorded τ) Stores}
    {opens' : Source τ → Scope → Opening × Pool τ Stores}
    {closes : Source (Recorded τ) → Nat × Source (Recorded τ)} {closes' : Source τ → Nat × Source τ}
    (opened : ∀ s scope, opens' s.erase scope = ((opens s scope).1, (opens s scope).2.erase))
    (closed : ∀ s, closes' s.erase = ((closes s).1, (closes s).2.erase)) (scopes : List Scope) :
    openEach opens' closes' scopes s.erase =
      ((openEach opens closes scopes s).1, (openEach opens closes scopes s).2.erase) := by
  induction scopes generalizing s with
  | nil => rfl
  | cons scope more ih =>
    have opening := opened s scope
    unfold openEach
    rw [opening]
    rcases opens s scope with ⟨session | f | _, pool⟩
    · exact ih { s with sessions := s.sessions ++ [session], pool }
    · exact congrArg (fun after => (Start.failed (.subscribing scope f), after.2))
        (closed { s with pool })
    · rfl

theorem openAllAmid_erase (schedule : Schedule τ) (scopes : List Scope) :
    openAllAmid t schedule scopes s.erase =
      ((openAllAmid t.recorded schedule.recorded scopes s).1,
        (openAllAmid t.recorded schedule.recorded scopes s).2.erase) :=
  openEach_erase s (fun s scope => s.openAmid_erase t schedule scope)
    (fun s => s.closeAmid_erase t schedule) scopes

end Source

end Dispatch

end WatchDispatch
