import Mathlib.Logic.Function.Iterate
import WatchDispatch.Proofs.Dispatch.SourceRun
import WatchDispatch.Proofs.Watch.FeedsAtScope
import WatchDispatch.Proofs.Watch.Settling
import WatchDispatch.Proofs.Watch.Undisturbed

/-!
# Rounds of one delivery

A delivery that has its turn again and again reads on until its stream offers nothing. If the stream
offers events, the sink gets them in order. Either it takes all of them, and nothing else has
changed, or it crashes at one of them; then it gets no other, and the delivery gives its
subscription back and ends.
-/

namespace WatchDispatch.Watch

variable {τ σ : Type}

namespace Sink

/-- A sink is handed events in order, up to the first at which it crashes. -/
def takeUntilCrash (sink : Sink σ) : List Event → σ → Handled × σ
  | [], y => (.done, y)
  | e :: later, y =>
    match sink e y with
    | (.done, y) => sink.takeUntilCrash later y
    | (.crashed message, y) => (.crashed message, y)

/-- A sink that is handed these events in order takes all of them. -/
def Calm (sink : Sink σ) : List Event → σ → Prop
  | [], _ => True
  | e :: later, y => (sink e y).1 = .done ∧ sink.Calm later (sink e y).2

theorem takeUntilCrash_append {sink : Sink σ} {before : List Event} {y : σ}
    (calm : sink.Calm before y) (later : List Event) :
    sink.takeUntilCrash (before ++ later) y =
    sink.takeUntilCrash later (sink.takeAll before y) := by
  induction before generalizing y with
  | nil => rfl
  | cons e before ih =>
    obtain ⟨done, calm⟩ := calm
    rcases handled : sink e y with ⟨first, y'⟩
    rw [handled] at done calm
    obtain rfl : first = .done := done
    simp only [List.cons_append, takeUntilCrash, handled, ih calm, takeAll, List.foldl_cons]

theorem takeUntilCrash_of_calm {sink : Sink σ} {events : List Event} {y : σ}
    (calm : sink.Calm events y) :
    sink.takeUntilCrash events y = (.done, sink.takeAll events y) := by
  have whole := takeUntilCrash_append calm []
  rwa [List.append_nil] at whole

theorem takeUntilCrash_of_crash {sink : Sink σ} {before : List Event} {e : Event} {y : σ}
    {message : Option String} (calm : sink.Calm before y)
    (crash : (sink e (sink.takeAll before y)).1 = .crashed message) (after : List Event) :
    sink.takeUntilCrash (before ++ e :: after) y =
    (.crashed message, sink.takeAll (before ++ [e]) y) := by
  rw [takeUntilCrash_append calm, takeAll_append]
  generalize sink.takeAll before y = y at crash ⊢
  rcases handled : sink e y with ⟨first, y'⟩
  rw [handled] at crash
  obtain rfl : first = .crashed message := crash
  simp only [takeUntilCrash, handled, takeAll, List.foldl_cons, List.foldl_nil]

end Sink

/-- The stream of a subscription offers these events and then nothing. In between it may ask for
patience. -/
inductive Transport.Queues (t : Transport τ) (h : Handle) : τ → List Event → Prop
  | nothing {x x'} : t.next h x = (.idle, x') → Queues t h x []
  | event {x x' e later} : t.next h x = (.event e, x') → Queues t h x' later →
      Queues t h x (e :: later)
  | busy {x x' events} : t.next h x = (.busy, x') → Queues t h x' events → Queues t h x events

/-- What is left of a delivery with a crashed sink when its subscription was given back with this
result. -/
def Delivery.cutOff (d : Delivery) : Released → Delivery
  | .crashed => { d with phase := .ended .aborted }
  | _ => { d with state := .closed, phase := .ended .escalated }

theorem Delivery.cutOff_ended (d : Delivery) (result : Released) :
    (d.cutOff result).isRunning = false := by
  cases result <;> rfl

theorem Delivery.cutOff_state (d : Delivery) (result : Released) :
    (d.cutOff result).state = if result = .crashed then d.state else .closed := by
  cases result <;> rfl

/-- A step with which a delivery is cut off, once its sink is in state `y`. -/
structure Step.CutsOff (d : Delivery) (h : Handle) (y : σ) (result : Released)
    (s : Step (Recorded τ) σ) : Prop where
  delivery : s.delivery = d.cutOff result
  called : ∃ older, s.transport.calls = .unsubscribe h result :: older
  sink : s.sink = y
  turn : s.turn = .rest

theorem Delivery.escalate_cutsOff (t : Transport τ) (d : Delivery) (h : Handle) (f : Fault)
    (before : List Act) (x : Recorded τ) (y : σ) :
    ∃ result, (d.escalate t.recorded h f before x y).CutsOff d h y result := by
  refine ⟨(t.unsubscribe h x.state).1, ?_⟩
  rcases released : t.unsubscribe h x.state with ⟨_ | f | _, state⟩ <;>
    simp only [escalate, Transport.recorded, released] <;> exact ⟨rfl, ⟨_, rfl⟩, rfl, rfl⟩

namespace Pool

/-- A delivery is put first and takes a step. -/
def round (t : Transport τ) (sink : Sink σ) (n : Nat) (p : Pool τ σ) : Pool τ σ :=
  (p.pick n).turn t sink

theorem round_eq {t : Transport τ} {sink : Sink σ} {n : Nat} {p : Pool τ σ} {d : Delivery}
    (there : p.deliveries[n]? = some d) :
    p.round t sink n = p.advance n (p.ready.erase n) (d.step t sink p.transport p.sink) := by
  simp only [round, turn, pick, there]
  rfl

/-- A step that leaves its delivery as it was leaves all of them as they were. -/
theorem deliveries_advance_of_same {n : Nat} {others : List Nat} {p : Pool τ σ} {s : Step τ σ}
    (there : p.deliveries[n]? = some s.delivery) :
    (p.advance n others s).deliveries = p.deliveries := by
  obtain ⟨inside, here⟩ := List.getElem?_eq_some_iff.mp there
  rw [advance, ← here, List.set_getElem_self]

/-- How delivery `n`, which was `d` and read the subscription `h`, is left after its sink was handed
events. -/
inductive Left (n : Nat) (d : Delivery) (h : Handle) (p q : Pool (Recorded τ) σ) : Handled → Prop
  | goesOn : q.deliveries = p.deliveries → Left n d h p q .done
  | cutOff {message older} (result : Released) : q.deliveries =
      p.deliveries.set n (d.cutOff result) →
      q.transport.calls = .unsubscribe h result :: older → Left n d h p q (.crashed message)

/-- The pool `q` is what `p` becomes while delivery `n` hands on the events of its stream. If nobody
else has anything to do, this is all that becomes of it. -/
structure Served (t : Transport τ) (sink : Sink σ) (n : Nat) (d : Delivery) (h : Handle)
    (events : List Event) (p q : Pool (Recorded τ) σ) : Prop where
  took : q.sink = (sink.takeUntilCrash events p.sink).2
  left : Left n d h p q (sink.takeUntilCrash events p.sink).1
  settles : p.ready.erase n = [] → Settles t.recorded sink (p.pick n) q

theorem pick_ne_nil (n : Nat) (p : Pool τ σ) : (p.pick n).ready ≠ [] := List.cons_ne_nil _ _

/-- Who alone waits is first. -/
theorem pick_of_alone {n : Nat} {p : Pool τ σ} (alone : p.ready = [n]) : p.pick n = p := by
  obtain ⟨x, y, deliveries, ready, journal, reports⟩ := p
  obtain rfl : ready = [n] := alone
  simp [pick]

theorem Settles.unique {t : Transport τ} {sink : Sink σ} {p q q' : Pool τ σ}
    (settles : Settles t sink p q) (settles' : Settles t sink p q') : q = q' := by
  induction settles with
  | rest p idle =>
    cases settles' with
    | rest => rfl
    | turn _ _ busy => exact absurd idle busy
  | turn p q busy _ ih =>
    cases settles' with
    | rest _ idle => exact absurd idle busy
    | turn _ _ _ onward => exact ih onward

section Rounds

variable {t : Transport τ} {sink : Sink σ} {n : Nat} {d : Delivery} {h : Handle}
    {events : List Event}
  {p q : Pool (Recorded τ) σ}

/-- The delivery goes on after its step and serves the rest. -/
theorem Served.round {turn : Turn} {acts : List Act} {x : Recorded τ} {y : σ} {rest : List Event}
    (there : p.deliveries[n]? = some d) (goes : turn ≠ .rest)
    (step : d.step t.recorded sink p.transport p.sink = ⟨d, x, y, acts, turn⟩)
    (same : sink.takeUntilCrash events p.sink = sink.takeUntilCrash rest y)
    (served : Served t sink n d h rest (p.round t.recorded sink n) q) :
    Served t sink n d h events p q := by
  have moved : p.round t.recorded sink n = p.advance n (p.ready.erase n) ⟨d, x, y, acts, turn⟩ := by
    rw [round_eq there, step]
  have deliveries : (p.round t.recorded sink n).deliveries = p.deliveries := by
    rw [moved]
    exact deliveries_advance_of_same there
  have state : (p.round t.recorded sink n).sink = y := by rw [moved, advance]
  obtain ⟨took, left, settles⟩ := served
  rw [state, ← same] at took left
  refine ⟨took, ?_, fun alone => ?_⟩
  · generalize (sink.takeUntilCrash events p.sink).1 = handled at left
    cases left with
    | goesOn kept => exact .goesOn (kept.trans deliveries)
    | cutOff result cut called => exact .cutOff result (deliveries ▸ cut) called
  · have ready : (p.round t.recorded sink n).ready = [n] := by
      rw [moved, advance, alone]
      cases turn with
      | again => rfl
      | pause => rfl
      | rest => exact absurd rfl goes
    have onward := settles (by rw [ready, List.erase_cons_head])
    rw [pick_of_alone ready] at onward
    exact .turn _ _ (pick_ne_nil n p) onward

/-- The delivery leaves the queue after its step. -/
theorem Served.last (there : p.deliveries[n]? = some d)
    (took : (d.step t.recorded sink p.transport p.sink).sink =
      (sink.takeUntilCrash events p.sink).2)
    (turn : (d.step t.recorded sink p.transport p.sink).turn = .rest)
    (left : Left n d h p (p.round t.recorded sink n) (sink.takeUntilCrash events p.sink).1) :
    Served t sink n d h events p (p.round t.recorded sink n) := by
  have moved : p.round t.recorded sink n =
      p.advance n (p.ready.erase n) (d.step t.recorded sink p.transport p.sink) := round_eq there
  refine ⟨by rw [moved, ← took, advance], left, fun alone => ?_⟩
  refine .turn _ _ (pick_ne_nil n p) (.rest _ ?_)
  change (p.round t.recorded sink n).ready = []
  rw [moved, advance, turn]
  exact alone

/-- A delivery that has its turn often enough serves all that its stream offers. -/
theorem rounds_serve (sink : Sink σ) {x : τ} (queues : t.Queues h x events)
    (here : p.transport.state = x) (there : p.deliveries[n]? = some d)
    (phase : d.phase = .watching h) (unasked : d.stopAsked = false) :
    ∃ k, Served t sink n d h events p ((Pool.round t.recorded sink n)^[k] p) := by
  -- The induction is on what the stream offers. The pool changes from item to item, its deliveries
  -- do not.
  have goesOn : ∀ {p : Pool (Recorded τ) σ} {turn acts x y}, p.deliveries[n]? = some d →
      d.step t.recorded sink p.transport p.sink = ⟨d, x, y, acts, turn⟩ →
      (p.round t.recorded sink n).transport = x ∧
      (p.round t.recorded sink n).deliveries[n]? = some d := by
    intro p turn acts x y there step
    rw [round_eq there, step, deliveries_advance_of_same there]
    exact ⟨rfl, there⟩
  induction queues generalizing p with
  | @nothing x x' next =>
    have step : d.step t.recorded sink p.transport p.sink =
        ⟨d, ⟨x', .next h .idle :: p.transport.calls⟩, p.sink, [], .rest⟩ := by
      simp [Delivery.step, phase, unasked, Delivery.take, Transport.recorded, here, next]
    refine ⟨1, .last there (by rw [step]; rfl) (by rw [step]) (.goesOn ?_)⟩
    rw [round_eq there, step]
    exact deliveries_advance_of_same there
  | @event x x' e later next _ ih =>
    rcases handled : sink e p.sink with ⟨_ | message, y⟩
    · have step : d.step t.recorded sink p.transport p.sink =
          ⟨d, ⟨x', .next h (.event e) :: p.transport.calls⟩, y, [.delivered e], .again⟩ := by
        simp [Delivery.step, phase, unasked, Delivery.take, Transport.recorded, here, next, handled]
      obtain ⟨transport, still⟩ := goesOn there step
      obtain ⟨k, served⟩ := ih (by rw [transport]) still
      refine ⟨k + 1, served.round there (by simp) step ?_⟩
      rw [Sink.takeUntilCrash, handled]
    · obtain ⟨result, cut⟩ := Delivery.escalate_cutsOff t d h (crashFault message) [.delivered e]
        ⟨x', .next h (.event e) :: p.transport.calls⟩ y
      have step : d.step t.recorded sink p.transport p.sink =
        d.escalate t.recorded h (crashFault message)
          [.delivered e] ⟨x', .next h (.event e) :: p.transport.calls⟩ y := by
        simp [Delivery.step, phase, unasked, Delivery.take, Transport.recorded, here, next, handled]
      rw [← step] at cut
      have took : sink.takeUntilCrash (e :: later) p.sink = (.crashed message, y) := by
        rw [Sink.takeUntilCrash, handled]
      refine ⟨1, .last there (by rw [cut.sink, took]) cut.turn ?_⟩
      obtain ⟨older, called⟩ := cut.called
      rw [took, round_eq there]
      exact .cutOff result (by rw [advance, cut.delivery]) called
  | @busy x x' events next _ ih =>
    have step : d.step t.recorded sink p.transport p.sink =
        ⟨d, ⟨x', .next h .busy :: p.transport.calls⟩, p.sink, [], .pause⟩ := by
      simp [Delivery.step, phase, unasked, Delivery.take, Transport.recorded, here, next]
    obtain ⟨transport, still⟩ := goesOn there step
    obtain ⟨k, served⟩ := ih (by rw [transport]) still
    exact ⟨k + 1, served.round there (by simp) step rfl⟩

end Rounds

end Pool

namespace Feeds

variable {x : Feeds} {h : Handle} {feed : Feed} {events : List Event}

theorem feed?_modify_self (change : Feed → Feed) (keeps : ∀ feed, (change feed).id = feed.id)
    {i : Nat} (there : x.feed? i = some feed) :
    (x.modify i change).feed? i = some (change feed) := by
  rw [feed?_modify keeps, if_pos rfl, there]
  rfl

/-- An open feed offers the events that wait in it. -/
theorem queues_feed (there : x.feed? h.id = some feed) (goesOn : feed.finished = false)
    (waiting : feed.queue = events.map .inr) : transport.Queues h x events := by
  induction events generalizing x feed with
  | nil =>
    have rests : x.next h = (.idle, x) := by
      rw [next_of_nil there waiting, goesOn]
      rfl
    exact .nothing rests
  | cons e later ih =>
    have taken := next_of_cons there waiting
    have still :=
      feed?_modify_self (fun feed => { feed with queue := later.map .inr }) (fun _ => rfl) there
    exact .event taken (ih still goesOn rfl)

/-- Events that are pushed into an empty feed that is read are offered. -/
theorem queues_push {scope : Scope} (current : x.current scope = some h.id)
    (there : x.feed? h.id = some feed) (goesOn : feed.finished = false)
    (read : feed.abandoned = false) (nothing : feed.queue = []) (events : List Event) :
    transport.Queues h (x.push scope (events.map .inr)).2 events := by
  cases events with
  | nil => exact queues_feed there goesOn nothing
  | cons e later =>
    let change (feed : Feed) : Feed := { feed with queue := feed.queue ++ (e :: later).map .inr }
    have pushed : (x.push scope ((e :: later).map .inr)).2 = x.modify h.id change := by
      simp [push, current, there, read, change]
    rw [pushed]
    exact queues_feed (feed?_modify_self change (fun _ => rfl) there) goesOn
      (by simp [change, nothing])

end Feeds

end WatchDispatch.Watch
