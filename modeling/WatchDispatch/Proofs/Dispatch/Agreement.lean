import WatchDispatch.Proofs.Dispatch.Closing
import WatchDispatch.Proofs.Dispatch.History
import WatchDispatch.Proofs.Dispatch.Rounds
import WatchDispatch.Proofs.Watch.LifeCycle
import WatchDispatch.Proofs.Watch.Waiting

/-!
# Two ways to deliver

Events reach the stores through the stream of a session or from the hand of the owner. Both ways
lead to the same stores: all events are taken, or those up to the first whose dispatch crashes,
which is cached and whose call is noted, but which leaves no mark. Such a crash ends the session,
while the owner may go on.
-/

namespace WatchDispatch

open Watch

variable {τ σ ε : Type}

namespace Watch

/-! ## Active sessions -/

/-- A delivery shows the state that fits where it stands. If it has ended, it shows itself closed
unless the transport crashed when it gave a subscription back. -/
structure Delivery.Seemly (d : Delivery) (diary : List Act) : Prop where
  fitting : d.phase.Fitting d.state
  closed : d.isRunning = false → d.state = .closed ∨ ∃ h, .released h .crashed ∈ diary

theorem habit_seemly : Habit Delivery.Seemly where
  opened := fun _ _ _ => ⟨rfl, nofun⟩
  move := fun move seemly => by
    refine ⟨(move.states_eq seemly.fitting).1, fun ended => ?_⟩
    rcases move.gone_of_ended ended with rfl | closed | crashed
    · exact (seemly.closed ended).imp_right fun ⟨h, mem⟩ => ⟨h, List.mem_append_right _ mem⟩
    · exact .inl closed
    · obtain ⟨h, mem⟩ := (Tells.crashed_iff move.filter_isCall).mpr crashed
      exact .inr ⟨h, List.mem_append_left _ mem⟩
  ask := fun seemly => ⟨seemly.fitting, seemly.closed⟩
  close := fun phase _ => by
    refine ⟨?_, fun _ => .inl rfl⟩
    rw [phase]
    trivial

/-- A delivery that shows itself active reads its stream, unless the transport has crashed. -/
theorem Delivery.Seemly.watching {d : Delivery} {diary : List Act} (seemly : d.Seemly diary)
    (active : d.state = .active) (whole : ∀ h, .released h .crashed ∉ diary) :
    ∃ h, d.phase = .watching h := by
  have fitting := seemly.fitting
  rw [active] at fitting
  cases phase : d.phase with
  | watching h => exact ⟨h, rfl⟩
  | renewing h =>
    rw [phase] at fitting
    cases fitting
  | awaiting h =>
    rw [phase] at fitting
    cases fitting
  | ended outcome =>
    rcases seemly.closed (by simp [Delivery.isRunning, phase]) with closed | ⟨h, crashed⟩
    · rw [active] at closed
      cases closed
    · exact absurd crashed (whole h)

/-! ## Ended sessions -/

/-- Delivery `n` has ended, and these are the events that it has handed on, latest first. -/
structure Pool.Done (n : Nat) (events : List Event) (p : Pool τ σ) : Prop where
  ended : ∃ d, p.deliveries[n]? = some d ∧ d.isRunning = false
  handed : (diary p.journal n).filterMap Act.event? = events

theorem Pool.keeps_done (t : Transport τ) (env : ε → Recorded τ → Recorded τ) (n : Nat)
    (events : List Event) : Keeps t env (fun _ _ (p : Pool (Recorded τ) σ) => p.Done n events) where
  advance := fun {_ _ p m others d} sink _ there done => by
    obtain ⟨⟨e, found, ended⟩, handed⟩ := done
    by_cases same : n = m
    · subst same
      obtain rfl : d = e := Option.some.inj (there.symm.trans found)
      rw [Delivery.step_of_ended t.recorded sink p.transport p.sink ended]
      refine ⟨⟨d, getElem?_advance_self there, ended⟩, ?_⟩
      rw [diary_advance, if_pos rfl]
      exact handed
    · refine ⟨⟨e, (getElem?_advance_of_ne same).trans found, ended⟩, ?_⟩
      rw [diary_advance, if_neg same]
      exact handed
  skip := fun _ _ done => ⟨done.ended, done.handed⟩
  asks := fun _ done => ⟨done.ended, done.handed⟩
  spawn := fun {_ p h} gvkKey scope _ done => by
    obtain ⟨⟨e, found, ended⟩, handed⟩ := done
    have inside : n < p.deliveries.length := (List.getElem?_eq_some_iff.mp found).1
    refine ⟨⟨e, ?_, ended⟩, ?_⟩
    · rw [spawn, List.getElem?_append_left inside]
      exact found
    · rw [diary_spawn, if_neg (Nat.ne_of_lt inside)]
      exact handed
  stop := fun {session _ _ p _} _ _ done => by
    obtain ⟨⟨e, found, ended⟩, handed⟩ := done
    by_cases same : n = session.number
    · subst same
      exact ⟨⟨_, getElem?_modify_self found, ended⟩, handed⟩
    · exact ⟨⟨e, (getElem?_modify_of_ne same).trans found, ended⟩, handed⟩
  close := fun {_ _ p m _ _} _ _ done => by
    obtain ⟨⟨e, found, ended⟩, handed⟩ := done
    by_cases same : n = m
    · subst same
      refine ⟨⟨_, getElem?_modify_self found, ended⟩, ?_⟩
      rw [diary_publishClosed, if_pos rfl]
      exact handed
    · refine ⟨⟨e, (getElem?_modify_of_ne same).trans found, ended⟩, ?_⟩
      rw [diary_publishClosed, if_neg same]
      exact handed
  queue := fun _ done => ⟨done.ended, done.handed⟩
  sink := fun _ done => ⟨done.ended, done.handed⟩
  outside := fun _ done => ⟨done.ended, done.handed⟩

end Watch

namespace Dispatch

/-! ## Stores after a crash -/

theorem Stores.passes_of_crash {c : Configuration} {d : Dispatcher} {e : Event} {s : Stores}
    {message : Option String} (crash : (s.deliver c d e).1 = .crashed message) :
    s.passes c e = true := by
  cases passes : s.passes c e with
  | true => rfl
  | false =>
    rw [s.deliver_of_not_passes c d e passes] at crash
    cases crash

namespace Source

def handIn (s : Source τ) (events : List Event) : Source τ :=
  events.foldl (fun s e => (s.onEvent e).2) s

theorem handIn_eq (s : Source τ) (events : List Event) :
    s.handIn events =
    { s with pool := { s.pool with sink := s.sink.takeAll events s.pool.sink } } := by
  induction events generalizing s with
  | nil => rfl
  | cons e later ih => exact ih (s.onEvent e).2

theorem handIn_concat (s : Source τ) (before : List Event) (e : Event) :
    s.handIn (before ++ [e]) = ((s.handIn before).onEvent e).2 := List.foldl_append

/-- What a source does with an event depends on its controller, its dispatcher and its stores
alone. -/
theorem onEvent_congr {s s' : Source τ} (sink : s'.sink = s.sink)
    (stores : s'.pool.sink = s.pool.sink) (e : Event) : (s'.onEvent e).1 = (s.onEvent e).1 ∧
    (s'.onEvent e).2.pool.sink = (s.onEvent e).2.pool.sink := by
  change (s'.sink e s'.pool.sink).1 = (s.sink e s.pool.sink).1 ∧
    (s'.sink e s'.pool.sink).2 = (s.sink e s.pool.sink).2
  rw [sink, stores]
  exact ⟨rfl, rfl⟩

/-- So many turns of the delivery with this number, latest tick first. -/
def turnsOf (n : Nat) : Nat → List (Tick ε)
  | 0 => []
  | k + 1 => .turn :: .pick n :: turnsOf n k

theorem ticks_turnsOf (t : Transport τ) (env : ε → τ → τ) (s : Source τ) (n k : Nat) :
    s.ticks t env (turnsOf n k) = { s with pool := (Pool.round t s.sink n)^[k] s.pool } := by
  induction k with
  | zero => rfl
  | succ k ih =>
    rw [Function.iterate_succ_apply', turnsOf, ticks, ticks, ih]
    rfl

/-- The source after its transport was put into another state and the delivery of a session had its
turns. If nobody else had anything to do, it is what comes of the source when nothing moves any
more. -/
structure Runs (t : Transport τ) (session : Session) (x : τ) (s s' : Source (Recorded τ)) :
    Prop where
  turns : ∃ k, s' = (s.tick t.recorded Recorded.become (.outside x)).ticks t.recorded
    Recorded.become (turnsOf session.number k)
  settled : s.pool.ready.erase session.number = [] → ∀ q, Pool.Settles t.recorded s.sink
    (s.ticks t.recorded Recorded.become [.pick session.number, .outside x]).pool q → q = s'.pool

/-- A session of `s` that read the subscription `h` handed on the events before `e` and crashed at
`e`. -/
structure CutShort (t : Transport τ) (session : Session) (h : Handle) (before : List Event)
    (e : Event) (s s' : Source (Recorded τ)) : Prop where
  stores : s'.pool.sink = (s.handIn (before ++ [e])).pool.sink
  cached : s'.cache.get? e.snapshot.uid = some e.snapshot
  called : s'.calls = (s.handIn before).callFor e :: (s.handIn before).calls
  unmarked : s'.gate = (s.handIn before).gate
  /-- Its subscription was given back last. Only if the transport crashed at that, it does not show
  itself closed. -/
  ended : ∃ result older, s'.pool.transport.calls = .unsubscribe h result :: older ∧
    s'.pool.state session = if result = .crashed then .active else .closed
  /-- Whatever is done to the source, the session hands nothing on any more. -/
  silent : ∀ later : List (Deed τ),
    (diary (s'.deeds t.recorded Recorded.become later).pool.journal session.number).filterMap
      Act.event? =
      (diary s'.pool.journal session.number).filterMap Act.event?
  /-- The owner can go on handing events in. -/
  goesOn : ∀ e', (s'.onEvent e').1 = ((s.handIn (before ++ [e])).onEvent e').1 ∧
    (s'.onEvent e').2.pool.sink = ((s.handIn (before ++ [e])).onEvent e').2.pool.sink

/-- What a crash leaves in the stores. -/
theorem stores_of_crash {s s' : Source τ} {before : List Event} {e : Event}
    {message : Option String} (crash : ((s.handIn before).onEvent e).1 = .crashed message)
    (stores : s'.pool.sink = (s.handIn (before ++ [e])).pool.sink) :
    s'.cache.get? e.snapshot.uid = some e.snapshot ∧
      s'.calls = (s.handIn before).callFor e :: (s.handIn before).calls ∧
      s'.gate = (s.handIn before).gate := by
  rw [handIn_concat] at stores
  have passes := Stores.passes_of_crash crash
  refine ⟨?_, ?_, ?_⟩
  · rw [cache, stores]
    exact ((s.handIn before).onEvent_cache e e.snapshot.uid).trans (if_pos rfl)
  · rw [calls, stores]
    have due := (passes_iff_due _ e (s.handIn before).pool.sink).mp passes
    exact ((s.handIn before).onEvent_calls e).trans (by rw [gate, if_pos due]; rfl)
  · rw [gate, stores]
    refine ((s.handIn before).pool.sink.deliver_gate _ _ e).trans (if_neg ?_)
    rintro ⟨done, -⟩
    rw [show ((s.handIn before).pool.sink.deliver _ _ e).1 = _ from crash] at done
    cases done

section Served

variable {t : Transport τ} {s s' : Source (Recorded τ)} {session : Session} {d : Delivery}
    {h : Handle}
  {x : τ} {events : List Event}

/-- A source whose dispatcher takes all events goes on. -/
theorem served_of_calm (sessions : s'.sessions = s.sessions)
    (served : Pool.Served t s.sink session.number d h events
      (s.tick t.recorded Recorded.become (.outside x)).pool s'.pool)
    (calm : s.sink.Calm events s.pool.sink) :
    s'.pool.sink = (s.handIn events).pool.sink ∧ s'.states = s.states := by
  have all := Sink.takeUntilCrash_of_calm calm
  obtain ⟨took, left, -⟩ := served
  change s'.pool.sink = (s.sink.takeUntilCrash events s.pool.sink).2 at took
  change Pool.Left _ _ _ _ _ (s.sink.takeUntilCrash events s.pool.sink).1 at left
  rw [all] at took left
  cases left with
  | goesOn deliveries =>
    refine ⟨by rw [took, handIn_eq], ?_⟩
    simp only [states, sessions, Pool.state, Pool.delivery?, deliveries]
    rfl

/-- A source whose dispatcher crashes at an event has one session less that goes on. -/
theorem served_of_crash {before after : List Event} {e : Event} {message : Option String}
    (sink : s'.sink = s.sink) (there : s.pool.deliveries[session.number]? = some d)
    (active : d.state = .active)
    (served : Pool.Served t s.sink session.number d h (before ++ e :: after)
      (s.tick t.recorded Recorded.become (.outside x)).pool s'.pool)
    (calm : s.sink.Calm before s.pool.sink)
    (crash : ((s.handIn before).onEvent e).1 = .crashed message) :
    CutShort t session h before e s s' := by
  have crashes : (s.sink e (s.sink.takeAll before s.pool.sink)).1 = .crashed message := by
    rw [handIn_eq] at crash
    exact crash
  have part := Sink.takeUntilCrash_of_crash calm crashes after
  obtain ⟨took, left, -⟩ := served
  change s'.pool.sink = (s.sink.takeUntilCrash _ s.pool.sink).2 at took
  change Pool.Left _ _ _ _ _ (s.sink.takeUntilCrash _ s.pool.sink).1 at left
  rw [part] at took left
  have stores : s'.pool.sink = (s.handIn (before ++ [e])).pool.sink := by rw [took, handIn_eq]
  obtain ⟨cached, called, unmarked⟩ := stores_of_crash crash stores
  cases left with
  | cutOff result deliveries calls =>
    have cut : s'.pool.deliveries[session.number]? = some (d.cutOff result) := by
      rw [deliveries]
      exact List.getElem?_set_self (List.getElem?_eq_some_iff.mp there).1
    refine ⟨stores, cached, called, unmarked, ⟨result, _, calls, ?_⟩, fun later => ?_, ?_⟩
    · rw [Pool.state, Pool.delivery?, cut, ← active]
      exact d.cutOff_state result
    · have done : s'.Kept fun _ _ p => p.Done session.number
          ((diary s'.pool.journal session.number).filterMap Act.event?) :=
        ⟨⟨_, cut, d.cutOff_ended result⟩, rfl⟩
      exact (Kept.deeds (Pool.keeps_done t Recorded.become _ _) done later).handed
    · refine onEvent_congr ?_ stores
      rw [handIn_eq]
      exact sink

end Served

end Source

open Source

/-- An active session is handed events through its stream, and nothing comes after them for now.
Unless the transport crashed before when the session gave a subscription back, it reads this stream.
If the session has its turns, it leads to the same stores as when the owner hands the events in: to
the same cache, gate and calls of the dispatcher. It goes on if no dispatch crashes. If one does,
the session has handed on the events up to that one, which is cached and whose call is noted but
which leaves no mark; it hands on nothing any more, and is closed unless the transport crashes when
the subscription is given back. The owner can go on with the stores as they are. -/
theorem sessions_agree_with_owner (t : Transport τ) (c : Configuration) (d : Dispatcher) (x : τ)
    (run : List (Deed τ)) :
    let s := (Source.make c d (⟨x, []⟩ : Recorded τ)).deeds t.recorded Recorded.become run
    ∀ session ∈ s.sessions, s.pool.state session = .active →
      (∀ h, .released h .crashed ∉ diary s.pool.journal session.number) →
      ∃ h, (s.pool.delivery? session).map Delivery.phase = some (.watching h) ∧
        ∀ x' events, t.Queues h x' events → ∃ s', s.Runs t session x' s' ∧
          (s.sink.Calm events s.pool.sink →
            s'.pool.sink = (s.handIn events).pool.sink ∧ s'.states = s.states) ∧
          ∀ before e after message, events = before ++ e :: after → s.sink.Calm before s.pool.sink →
            ((s.handIn before).onEvent e).1 = .crashed message →
            s.CutShort t session h before e s' := by
  intro s session mem active whole
  have governed : s.Governed := governed_deeds t Recorded.become_calls c d x run
  have seemly : s.pool.Writes Delivery.Seemly := by
    refine Kept.deeds (habit_seemly.keeps t Recorded.become)
      (s := Source.make c d ⟨x, []⟩) ⟨?_, ?_⟩ run
    · intro _ _ there
      cases there
    · intro _ mem
      cases mem
  -- An open session was not asked to stop, so an active one that has not crashed reads its stream.
  obtain ⟨-, e, there, -, unasked⟩ := governed.manned.each session mem
  have shown : s.pool.state session = e.state := by simp [Pool.state, Pool.delivery?, there]
  obtain ⟨h, phase⟩ := (seemly.each _ e there).watching (shown.symm.trans active) whole
  refine ⟨h, by simp [Pool.delivery?, there, phase], fun x' events queues => ?_⟩
  let pushed := s.tick t.recorded Recorded.become (.outside x')
  obtain ⟨k, served⟩ := Pool.rounds_serve s.sink (p := pushed.pool) queues rfl there phase unasked
  have turned := ticks_turnsOf t.recorded Recorded.become pushed session.number k
  refine ⟨pushed.ticks t.recorded Recorded.become (turnsOf session.number k),
    ⟨⟨k, rfl⟩, ?_⟩, ?_, ?_⟩
  · intro alone q settles
    rw [turned]
    exact settles.unique (served.settles alone)
  · intro calm
    rw [turned]
    exact served_of_calm rfl served calm
  · rintro before e' after message rfl calm crash
    rw [turned]
    exact served_of_crash rfl there (shown.symm.trans active) served calm crash

namespace Sample

/-- A source with one session over feeds in which subscriptions are taken back like this. Its
dispatcher crashes at the second generation. -/
def brittle (mode : ReleaseMode) : Source (Recorded Feeds) :=
  (Source.make configuration
    (fun _ call => if call.snapshot.generation = 2 then .crashed (some "second") else .done)
    (⟨Feeds.start.setMode .allNamespaces mode, []⟩ : Recorded Feeds)).deeds
    Feeds.transport.recorded Recorded.become [.start]

def ofGeneration (generation : UInt64) : Event := ⟨.modified, snapshot generation false⟩

/-- The feeds of the brittle source after the events of these generations were pushed. -/
def pushed (mode : ReleaseMode) (generations : List UInt64) : Feeds :=
  ((brittle mode).pool.transport.state.push .allNamespaces
    ((generations.map ofGeneration).map .inr)).2

def session : Session := ⟨0, .allNamespaces, false⟩

theorem queues_pushed (mode : ReleaseMode) (generations : List UInt64) :
    Feeds.transport.Queues ⟨1, .allNamespaces⟩ (pushed mode generations)
      (generations.map ofGeneration) := by
  have there : (brittle mode).pool.transport.state.feed? 1 = some ⟨1, [], false, false⟩ := rfl
  exact Feeds.queues_push (h := ⟨1, .allNamespaces⟩) rfl there rfl rfl rfl _

end Sample

open Sample in
/-- Three generations are pushed. The session hands two of them on, and only the first one leaves a
mark. -/
theorem agrees_until_crash :
    ∃ s', (brittle .ok).Runs Feeds.transport session (pushed .ok [1, 2, 3]) s' ∧
      s'.calls.map (fun call => call.snapshot.generation) = [2, 1] ∧ s'.gate.get? default = some 1 ∧
      (s'.onEvent (ofGeneration 4)).1 = .done := by
  have whole : ∀ h, .released h .crashed ∉ diary (brittle .ok).pool.journal session.number := by
    intro h mem
    rw [show diary (brittle .ok).pool.journal session.number =
      [.published .active, .subscribed ⟨1, .allNamespaces⟩] from rfl] at mem
    simp at mem
  obtain ⟨h, phase, serves⟩ := sessions_agree_with_owner Feeds.transport configuration
    (fun _ call => if call.snapshot.generation = 2 then .crashed (some "second") else .done)
    (Feeds.start.setMode .allNamespaces .ok) [.start] session List.mem_cons_self rfl whole
  obtain rfl : h = ⟨1, .allNamespaces⟩ := by
    cases phase
    rfl
  obtain ⟨s', runs, -, crash⟩ := serves _ _ (queues_pushed .ok [1, 2, 3])
  have short :=
    crash [ofGeneration 1] (ofGeneration 2) [ofGeneration 3] (some "second") rfl ⟨rfl, trivial⟩ rfl
  refine ⟨s', runs, ?_, ?_, ?_⟩
  · rw [short.called]
    rfl
  · rw [short.unmarked]
    decide
  · rw [(short.goesOn (ofGeneration 4)).1]
    decide

open Sample in
/-- The dispatcher crashes, and so does the transport when the subscription is given back. The
delivery has ended, but its session goes on to show itself active. -/
theorem active_after_two_crashes :
    (brittle .crash).states = [(.allNamespaces, .active)] ∧
      Feeds.transport.Queues ⟨1, .allNamespaces⟩ (brittle .crash).pool.transport.state [] ∧
      Feeds.transport.Queues ⟨1, .allNamespaces⟩ (pushed .crash [2]) [ofGeneration 2] ∧
      ((brittle .crash).onEvent (ofGeneration 2)).1 = .crashed (some "second") ∧
      ∃ s', (brittle .crash).Runs Feeds.transport session (pushed .crash [2]) s' ∧
        s'.pool.isRunning = false ∧ s'.states = [(.allNamespaces, .active)] := by
  have runs : (brittle .crash).Runs Feeds.transport session (pushed .crash [2]) _ := ⟨⟨1, rfl⟩, ?_⟩
  · exact ⟨rfl, queues_pushed .crash [], queues_pushed .crash [2], rfl, _, runs, rfl, rfl⟩
  · intro _ q settles
    exact settles.unique (.turn _ _ (Pool.pick_ne_nil 0 _) (.rest _ rfl))

end Dispatch

end WatchDispatch
