import WatchDispatch.Proofs.Dispatch.History
import WatchDispatch.Proofs.Dispatch.SourceRun
import WatchDispatch.Proofs.Watch.Exactness
import WatchDispatch.Proofs.Watch.Undisturbed

/-!
# Expiry and replay

A watch that expires is renewed, and the new subscription may tell once more what was told before,
in any order and as often as it likes. The gate holds a generation at least as high for every
resource that was told, so the dispatcher never sees the replay: a run with any number of
interruptions leads to the same calls and the same gate as the run without them.
-/

namespace WatchDispatch.Dispatch

open Watch

/-- A change that the policy decides by its generation alone. -/
structure Ordinary (c : Configuration) (e : Event) : Prop where
  action : e.action ≠ .error
  finalizer : e.snapshot.hasFinalizer c.finalizer = true
  staying : e.snapshot.isDeleting = false

instance (c : Configuration) (e : Event) : Decidable (Ordinary c e) :=
  decidable_of_iff
    (e.action ≠ .error ∧ e.snapshot.hasFinalizer c.finalizer = true ∧ e.snapshot.isDeleting = false)
    ⟨fun h => ⟨h.1, h.2.1, h.2.2⟩, fun h => ⟨h.action, h.finalizer, h.staying⟩⟩

/-- The gate holds a generation of the resource that is not below the snapshot's. -/
def Gate.Covers (g : Gate) (r : Snapshot) : Prop :=
  ∃ last, g.get? r.uid = some last ∧ r.generation ≤ last

/-- The stores agree in what the dispatcher and the policy see of them. -/
structure Stores.Alike (s s' : Stores) : Prop where
  gate : s.gate = s'.gate
  calls : s.calls = s'.calls

namespace Stores

variable {c : Configuration} {d : Dispatcher} {s s' : Stores} {e : Event}

theorem Alike.trans {s'' : Stores} (alike : s.Alike s') (also : s'.Alike s'') : s.Alike s'' :=
  ⟨alike.gate.trans also.gate, alike.calls.trans also.calls⟩

theorem deliver_done (calm : ∀ calls call, d calls call = .done) (e : Event) (s : Stores) :
    (s.deliver c d e).1 = .done := by
  cases passes : s.passes c e with
  | true => simp [deliver_of_passes c d e s passes, dispatch, calm]
  | false => simp [deliver_of_not_passes c d e s passes]

theorem deliver_gate_of_calm (calm : ∀ calls call, d calls call = .done) :
    (s.deliver c d e).2.gate =
      if Due c (s.gate.get? e.snapshot.uid) e then
        s.gate.mark e.snapshot c.generationAware c.finalizer
      else s.gate := by
  rw [deliver_gate]
  simp only [deliver_done calm, passes_iff_due, true_and]

/-- The cache has no say in what becomes of an event. -/
theorem Alike.deliver (calm : ∀ calls call, d calls call = .done) (alike : s.Alike s') (e : Event) :
    (s.deliver c d e).2.Alike (s'.deliver c d e).2 := by
  constructor
  · rw [deliver_gate_of_calm calm, deliver_gate_of_calm calm, alike.gate]
  · rw [deliver_calls_of_due, deliver_calls_of_due, alike.gate, alike.calls]

/-- What is covered is passed over. -/
theorem not_due_of_covers (aware : c.generationAware = true) {r : Snapshot}
    (covers : Gate.Covers s.gate r) (staying : r.isDeleting = false) (action : Action) :
    ¬ Due c (s.gate.get? r.uid) ⟨action, r⟩ := by
  obtain ⟨last, mark, low⟩ := covers
  rintro ⟨_, unaware | deleting | newer⟩
  · rw [aware] at unaware
    cases unaware
  · rw [staying] at deleting
    cases deleting
  · exact absurd (newer last mark) (UInt64.not_lt.mpr low)

theorem deliver_of_covers (calm : ∀ calls call, d calls call = .done)
    (aware : c.generationAware = true) {r : Snapshot} (covers : Gate.Covers s.gate r)
    (staying : r.isDeleting = false) (action : Action) : (s.deliver c d ⟨action, r⟩).2.Alike s := by
  have passed := not_due_of_covers aware covers staying action
  constructor
  · rw [deliver_gate_of_calm calm, if_neg passed]
  · rw [deliver_calls_of_due, if_neg passed, List.nil_append]

/-- Whatever is delivered, no mark of an ordinary run is lowered. -/
theorem deliver_covers (calm : ∀ calls call, d calls call = .done)
    (aware : c.generationAware = true) (ordinary : Ordinary c e) {r : Snapshot}
    (covers : Gate.Covers s.gate r) : Gate.Covers (s.deliver c d e).2.gate r := by
  obtain ⟨last, mark, low⟩ := covers
  rw [deliver_gate_of_calm calm]
  split
  next due =>
    obtain ⟨_, unaware | deleting | newer⟩ := due
    · rw [aware] at unaware
      cases unaware
    · rw [ordinary.staying] at deleting
      cases deleting
    · -- A mark is only overwritten by one of the same resource, and the new one is higher.
      by_cases same : r.uid = e.snapshot.uid
      · refine ⟨e.snapshot.generation, ?_, ?_⟩
        · rw [Gate.get?_mark, aware, ordinary.finalizer, if_pos ⟨rfl, same⟩]
        · exact UInt64.le_of_lt (UInt64.lt_of_le_of_lt low (newer last (same ▸ mark)))
      · refine ⟨last, ?_, low⟩
        rw [Gate.get?_mark, if_neg (fun both => same both.2), mark]
  next => exact ⟨last, mark, low⟩

/-- An ordinary event is covered once it was delivered. -/
theorem deliver_covers_self (calm : ∀ calls call, d calls call = .done)
    (aware : c.generationAware = true) (ordinary : Ordinary c e) :
    Gate.Covers (s.deliver c d e).2.gate e.snapshot := by
  rw [deliver_gate_of_calm calm]
  split
  next =>
    refine ⟨e.snapshot.generation, ?_, UInt64.le_refl _⟩
    rw [Gate.get?_mark, aware, ordinary.finalizer, if_pos ⟨rfl, rfl⟩]
  next passed =>
    -- An ordinary event is passed over only for its generation.
    by_contra uncovered
    refine passed ⟨ordinary.action, .inr (.inr ?_)⟩
    intro g mark
    exact UInt64.not_le.mp (fun low => uncovered ⟨g, mark, low⟩)

end Stores

/-! ## Many events -/

section Runs

variable {c : Configuration} {d : Dispatcher} (calm : ∀ calls call, d calls call = .done)

include calm

theorem Stores.Alike.takeAll {s s' : Stores} (alike : s.Alike s') (events : List Event) :
    ((pipeline c d).takeAll events s).Alike ((pipeline c d).takeAll events s') := by
  induction events generalizing s s' with
  | nil => exact alike
  | cons e events ih => exact ih (alike.deliver calm e)

variable (aware : c.generationAware = true)

include aware

/-- Ordinary events leave everything covered that was covered or is among them. -/
theorem takeAll_covers {events : List Event} {s : Stores} (ordinary : ∀ e ∈ events, Ordinary c e)
    {r : Snapshot} (seen : Gate.Covers s.gate r ∨ r ∈ events.map Event.snapshot) :
    Gate.Covers ((pipeline c d).takeAll events s).gate r := by
  induction events generalizing s with
  | nil => exact seen.resolve_right (by simp)
  | cons e events ih =>
    have here := ordinary e List.mem_cons_self
    refine ih (fun e mem => ordinary e (List.mem_cons_of_mem _ mem)) ?_
    rcases seen with covers | mem
    · exact .inl (Stores.deliver_covers calm aware here covers)
    · rcases List.mem_cons.mp mem with rfl | later
      · exact .inl (Stores.deliver_covers_self calm aware here)
      · exact .inr later

/-- A replay of what is covered changes nothing but the cache. -/
theorem takeAll_replayed {replayed : List Snapshot} {s : Stores}
    (covered : ∀ r ∈ replayed, Gate.Covers s.gate r ∧ r.isDeleting = false) :
    ((pipeline c d).takeAll (replayed.map (Event.mk .added)) s).Alike s := by
  induction replayed generalizing s with
  | nil => exact ⟨rfl, rfl⟩
  | cons r replayed ih =>
    have here := covered r List.mem_cons_self
    have first := Stores.deliver_of_covers calm aware here.1 here.2 .added
    have others : ∀ r' ∈ replayed,
        Gate.Covers (s.deliver c d ⟨.added, r⟩).2.gate r' ∧ r'.isDeleting = false := by
      intro r' mem
      rw [first.gate]
      exact covered r' (List.mem_cons_of_mem _ mem)
    exact (ih others).trans first

end Runs

/-! ## Interruptions -/

/-- A watch expires, and the new subscription tells what was told before and then what is new. -/
structure Interruption where
  reason : String
  replayed : List Snapshot
  news : List Event

/-- What the interruptions bring that was not told before. -/
def allNews (rounds : List Interruption) : List Event := rounds.flatMap Interruption.news

/-- Every replay consists of what was told before it. -/
def Replays (told : List Snapshot) : List Interruption → Prop
  | [] => True
  | round :: rest =>
    (∀ r ∈ round.replayed, r ∈ told) ∧ Replays (told ++ round.news.map Event.snapshot) rest

/-- The streams that expire, with the events of the first one. -/
def expiring (events : List Event) : List Interruption → List (List Item)
  | [] => []
  | round :: rest =>
    (events.map .event ++ [.fault (.expired round.reason)]) ::
      expiring (round.replayed.map (Event.mk .added) ++ round.news) rest

/-- The events of the last stream. -/
def lasting (events : List Event) : List Interruption → List Event
  | [] => events
  | round :: rest => lasting (round.replayed.map (Event.mk .added) ++ round.news) rest

def interrupted (events : List Event) (rounds : List Interruption) : List (List Item) :=
  expiring events rounds ++ [(lasting events rounds).map .event]

theorem flatMap_lead_expiring (events : List Event) (round : Interruption)
    (rest : List Interruption) :
    (expiring events (round :: rest)).flatMap lead =
      events ++
        (expiring (round.replayed.map (Event.mk .added) ++ round.news) rest).flatMap lead := by
  have none : lead [.fault (.expired round.reason)] = [] := rfl
  rw [expiring, List.flatMap_cons, lead_append, none, List.append_nil]

/-- Interruptions leave the stores as if there had been none, whatever was replayed. -/
theorem takeAll_interrupted {c : Configuration} {d : Dispatcher}
    (calm : ∀ calls call, d calls call = .done) (aware : c.generationAware = true)
    {rounds : List Interruption} {events : List Event} {replayed told : List Snapshot}
    {s s' : Stores} (alike : s.Alike s')
    (covered : ∀ r ∈ told, Gate.Covers s.gate r ∧ r.isDeleting = false)
    (again : ∀ r ∈ replayed, r ∈ told) (ordinary : ∀ e ∈ events ++ allNews rounds, Ordinary c e)
    (replays : Replays (told ++ events.map Event.snapshot) rounds) :
    let first := replayed.map (Event.mk .added) ++ events
    ((pipeline c d).takeAll ((expiring first rounds).flatMap lead ++ lasting first rounds) s).Alike
      ((pipeline c d).takeAll (events ++ allNews rounds) s') := by
  -- One round at a time. All that was told so far is covered, so the replay at the head of the next
  -- stream is absorbed, and the news behind it are covered in their turn.
  induction rounds generalizing events replayed told s s' with
  | nil =>
    have absorbed := takeAll_replayed calm aware (fun r mem => covered r (again r mem))
    simp only [expiring, lasting, allNews, List.flatMap_nil, List.nil_append, List.append_nil,
      Sink.takeAll_append]
    exact (absorbed.trans alike).takeAll calm events
  | cons round rest ih =>
    have absorbed := takeAll_replayed calm aware (fun r mem => covered r (again r mem))
    have here : ∀ e ∈ events, Ordinary c e := fun e mem => ordinary e (List.mem_append_left _ mem)
    have onward : ∀ e ∈ round.news ++ allNews rest, Ordinary c e :=
      fun e mem => ordinary e (List.mem_append_right _ (by simpa [allNews] using mem))
    obtain ⟨before, later⟩ := replays
    have next := absorbed.trans alike |>.takeAll (c := c) calm events
    have told' : ∀ r ∈ told ++ events.map Event.snapshot,
        Gate.Covers ((pipeline c d).takeAll (replayed.map (Event.mk .added) ++ events) s).gate r ∧
          r.isDeleting = false := by
      intro r mem
      rw [Sink.takeAll_append]
      rcases List.mem_append.mp mem with old | new
      · refine ⟨takeAll_covers calm aware here (.inl ?_), (covered r old).2⟩
        rw [absorbed.gate]
        exact (covered r old).1
      · obtain ⟨e, there, rfl⟩ := List.mem_map.mp new
        exact ⟨takeAll_covers calm aware here (.inr new), (here e there).staying⟩
    have rounds := ih (Sink.takeAll_append _ _ _ s ▸ next) told' before onward later
    have news : allNews (round :: rest) = round.news ++ allNews rest := List.flatMap_cons
    simp only [← Sink.takeAll_append, ← List.append_assoc] at rounds
    simp only [flatMap_lead_expiring, lasting, news, ← List.append_assoc]
    exact rounds

namespace Source

variable {τ : Type}

/-- The only session of the source is active and reads this subscription; its other deliveries have
ended. -/
structure Watches (s : Source τ) (session : Session) (h : Handle) : Prop where
  sessions : s.sessions = [session]
  delivery : ∃ d, s.pool.deliveries[session.number]? = some d ∧ d.phase = .watching h ∧
    d.state = .active ∧ d.stopAsked = false
  alone : ∀ m d, m ≠ session.number → s.pool.deliveries[m]? = some d → d.isRunning = false

/-- The session has come to rest over these streams: the first one is that of the subscription at
hand, and the subscriptions to all others were granted. -/
structure RestsOver (s : Source (Recorded τ)) (session : Session) (h : Handle)
    (streams : List (List Item)) : Prop where
  offered : Offered streams [⟨h, []⟩] s.pool.transport.calls
  renewed : (granted s.pool.transport.calls).length + 1 = streams.length
  called : s.pool.transport.calls ≠ []
  rests : session.number ∉ s.pool.ready

def reported (s : Source τ) (session : Session) : List FatalFault :=
  Act.reports ((s.pool.journal.filter (fun entry => entry.1 = session.number)).map Prod.snd)

/-- A session that rests over streams of which the last one offers nothing but events. -/
theorem Watches.of_restsOver {t : Transport τ} {s : Source τ} {session : Session} {h : Handle}
    (watches : s.Watches session h) (calm : ∀ calls call, s.dispatcher calls call = .done)
    {older : List (List Item)} {events : List Event} {run : List (Tick τ)}
    (finished : (s.leftAlone t run).RestsOver session h (older ++ [events.map .event])) :
    let s' := s.leftAlone t run
    s'.pool.sink = s.sink.takeAll (older.flatMap lead ++ events) s.pool.sink ∧
      s'.states = [(session.scope, .active)] ∧ s'.pool.reports = s.pool.reports ∧
      s'.reported session = s.reported session := by
  intro s'
  obtain ⟨d, there, phase, active, unasked⟩ := watches.delivery
  let acts := (s.pool.journal.filter (fun entry => entry.1 = session.number)).map Prod.snd
  let start : View Stores := ⟨d, [], s.pool.sink, acts, s.pool.reports, false⟩
  have shows : s.recorded.pool.Shows session.number start :=
    ⟨there, watches.alone, rfl, rfl, rfl, rfl, by simp [start]⟩
  have first : start.Undisturbed s.sink ⟨h, []⟩ start := by
    refine ⟨?_, rfl, ?_, fun _ _ => active, fun _ => ⟨rfl, rfl⟩, fun _ _ => .inl rfl⟩
    · rw [phase]
      exact @Reads.watching h [] [] (by simp)
    · intro ended
      simp [Delivery.isRunning, start, phase] at ended
  obtain ⟨v, shown, course, asked⟩ := ticks_course shows t run
  have crashless : ∀ e y, (s.sink e y).1 = .done := fun e y => Stores.deliver_done calm e y
  have undisturbed := first.course crashless (asked.trans unasked) course
  obtain ⟨offered, renewed, called, rests⟩ := finished
  have calls : s'.pool.transport.calls = v.calls := shown.calls
  rw [calls] at offered renewed called
  have unqueued : v.queued = false := by
    cases queued : v.queued with
    | false => rfl
    | true => exact absurd (shown.queued queued) rests
  have made : (readings [⟨h, []⟩] v.calls).length = older.length + 1 := by
    rw [length_readings, List.length_singleton]
    simpa using renewed
  obtain ⟨sink, state, reports, silent⟩ := undisturbed.at_rest offered made called unqueued
  have sessions : s'.sessions = [session] :=
    (ticks_own t.recorded Recorded.become s.recorded run).1.trans watches.sessions
  refine ⟨shown.sink.trans sink, ?_, shown.reports.trans reports, ?_⟩
  · have shows : s'.pool.deliveries[session.number]? = some v.delivery := shown.here
    simp [states, sessions, Pool.state, Pool.delivery?, shows, state]
  · have acts : (s'.pool.journal.filter (fun entry => entry.1 = session.number)).map Prod.snd =
        v.acts :=
      shown.acts
    rw [reported, acts, silent]
    rfl

end Source

/-- A source that looks at generations reads ordinary events twice: once in one stream, and once
with any number of interruptions, each of which replays what was told before. The dispatcher gets
the same calls, the gate ends up the same, nothing is reported and the session is active. -/
theorem replay_absorbed {τ : Type} {t : Transport τ} {s : Source τ} {session : Session} {h : Handle}
    (watches : s.Watches session h) (aware : s.config.generationAware = true)
    (calm : ∀ calls call, s.dispatcher calls call = .done) {events : List Event}
    {rounds : List Interruption} (ordinary : ∀ e ∈ events ++ allNews rounds, Ordinary s.config e)
    (replays : Replays (events.map Event.snapshot) rounds) {run run' : List (Tick τ)}
    (whole : (s.leftAlone t run).RestsOver session h [(events ++ allNews rounds).map .event])
    (broken : (s.leftAlone t run').RestsOver session h (interrupted events rounds)) :
    (s.leftAlone t run').calls = (s.leftAlone t run).calls ∧
      (s.leftAlone t run').gate = (s.leftAlone t run).gate ∧
      (s.leftAlone t run').states = [(session.scope, .active)] ∧
      (s.leftAlone t run').pool.reports = s.pool.reports ∧
      (s.leftAlone t run').reported session = s.reported session := by
  obtain ⟨sink, -, -, -⟩ := @Source.Watches.of_restsOver _ _ _ _ _ watches calm [] _ _ whole
  obtain ⟨sink', states, reports, reported⟩ := watches.of_restsOver calm broken
  have alike : Stores.Alike s.pool.sink s.pool.sink := ⟨rfl, rfl⟩
  have same := @takeAll_interrupted _ _ calm aware rounds events [] [] _ _ alike (by simp) (by simp)
    ordinary replays
  refine ⟨?_, ?_, states, reports, reported⟩
  · rw [Source.calls, Source.calls, sink, sink']
    exact same.calls
  · rw [Source.gate, Source.gate, sink, sink']
    exact same.gate

namespace Sample

/-- The sample source, started over streams that are yet to come. -/
def started : Source (Nat × List (List Item)) :=
  (Source.start Watch.Sample.numbered (Source.make configuration (fun _ _ => .done) (0, []))).2

def changes : List Event := [⟨.added, snapshot 1 false⟩, ⟨.modified, snapshot 2 false⟩]

/-- Both generations are replayed, the first one twice, before the third one comes. -/
def interruption : Interruption :=
  ⟨"gone", [snapshot 2 false, snapshot 1 false, snapshot 1 false], [⟨.modified, snapshot 3 false⟩]⟩

/-- A source that is left alone with these streams until nothing moves. -/
def fed (streams : List (List Item)) : List (Tick (Nat × List (List Item))) :=
  [.settle, .outside (1, streams)]

end Sample

/-- The replay of two generations is absorbed. -/
theorem replay_absorbed_after_two_changes :
    let rounds := [Sample.interruption]
    let whole := Sample.started.leftAlone Watch.Sample.numbered
      (Sample.fed [(Sample.changes ++ allNews rounds).map .event])
    let broken := Sample.started.leftAlone Watch.Sample.numbered
      (Sample.fed (interrupted Sample.changes rounds))
    broken.calls.map (fun call => call.snapshot.generation) = [3, 2, 1] ∧
      broken.calls = whole.calls ∧ broken.gate = whole.gate ∧
      broken.states = [(.allNamespaces, .active)] := by
  have watches : Sample.started.Watches ⟨0, .allNamespaces, false⟩ ⟨0, .allNamespaces⟩ := by
    refine ⟨rfl, ⟨_, rfl, rfl, rfl, rfl⟩, ?_⟩
    intro m d other there
    cases m with
    | zero => exact absurd rfl other
    | succ m => cases there
  have ordinary : ∀ e ∈ Sample.changes ++ allNews [Sample.interruption],
      Ordinary Sample.started.config e := by decide
  have replays : Replays (Sample.changes.map Event.snapshot) [Sample.interruption] :=
    ⟨by simp [Sample.interruption, Sample.changes], trivial⟩
  have whole : (Sample.started.leftAlone Watch.Sample.numbered
      (Sample.fed [(Sample.changes ++ allNews [Sample.interruption]).map .event])).RestsOver
      ⟨0, .allNamespaces, false⟩ ⟨0, .allNamespaces⟩
        [(Sample.changes ++ allNews [Sample.interruption]).map .event] :=
    ⟨⟨.cons ⟨[], rfl⟩ .nil, fun _ _ => rfl⟩, rfl, List.cons_ne_nil _ _, by decide⟩
  have broken : (Sample.started.leftAlone Watch.Sample.numbered
      (Sample.fed (interrupted Sample.changes [Sample.interruption]))).RestsOver
      ⟨0, .allNamespaces, false⟩ ⟨0, .allNamespaces⟩
        (interrupted Sample.changes [Sample.interruption]) :=
    ⟨⟨.cons ⟨[], rfl⟩ (.cons ⟨[], rfl⟩ .nil), fun _ _ => rfl⟩, rfl, List.cons_ne_nil _ _, by decide⟩
  obtain ⟨calls, gate, states, -, -⟩ :=
    replay_absorbed watches rfl (fun _ _ => rfl) ordinary replays whole broken
  exact ⟨by decide, calls, gate, states⟩

end WatchDispatch.Dispatch
