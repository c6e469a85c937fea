import WatchDispatch.Proofs.Dispatch.Replay
import WatchDispatch.Proofs.Dispatch.Rounds

/-!
# Streams that are told

A source is started over feeds in memory, and its session is told one stream after the other: the
stream is pushed to the feed of the scope, and then the session runs until nothing moves. An expiry
makes it subscribe again, so that the next stream goes to a fresh feed. Whatever the streams are,
the session reads each of them to its end and then rests.
-/

namespace WatchDispatch.Watch

variable {τ σ : Type}

namespace Feeds

/-- The subscription reads an open feed of its scope in which these items wait. A further
subscription to the scope is granted, and giving one back breaks nothing. -/
structure Offers (x : Feeds) (h : Handle) (items : List (Fault ⊕ Event)) : Prop where
  numbered : x.Numbered
  current : x.current h.scope = some h.id
  feed : ∃ feed, x.feed? h.id = some feed ∧ feed.finished = false ∧ feed.abandoned = false ∧
    feed.queue = items
  granted : x.rules h.scope = .allow
  sound : x.modes h.scope ≠ .crash

namespace Offers

variable {x : Feeds} {h : Handle} {item : Fault ⊕ Event} {items rest : List (Fault ⊕ Event)}

theorem modify (offers : x.Offers h items) {change : Feed → Feed}
    (keeps : ∀ feed, (change feed).id = feed.id)
    (lies : ∀ feed, (change feed).finished = feed.finished ∧
      (change feed).abandoned = feed.abandoned)
    (queue : ∀ feed : Feed, feed.queue = items → (change feed).queue = rest) :
    (x.modify h.id change).Offers h rest := by
  obtain ⟨feed, there, goesOn, read, waiting⟩ := offers.feed
  refine ⟨offers.numbered.modify keeps h.id, offers.current, ?_, offers.granted, offers.sound⟩
  refine ⟨change feed, feed?_modify_self change keeps there, ?_, ?_, queue feed waiting⟩
  · exact (lies feed).1.trans goesOn
  · exact (lies feed).2.trans read

theorem idle (offers : x.Offers h []) : transport.next h x = (.idle, x) := by
  obtain ⟨feed, there, goesOn, -, nothing⟩ := offers.feed
  change x.next h = _
  rw [next_of_nil there nothing, goesOn]
  rfl

theorem next (offers : x.Offers h (item :: rest)) :
    ∃ x', transport.next h x = (itemOf item, x') ∧ x'.Offers h rest := by
  obtain ⟨feed, there, -, -, waiting⟩ := offers.feed
  refine ⟨_, next_of_cons there waiting, ?_⟩
  exact offers.modify (fun _ => rfl) (fun _ => ⟨rfl, rfl⟩) (fun _ _ => rfl)

/-- What is pushed waits in the feed. -/
theorem push (offers : x.Offers h []) (items : List (Fault ⊕ Event)) :
    (x.push h.scope items).2.Offers h items := by
  obtain ⟨feed, there, -, read, -⟩ := offers.feed
  cases items with
  | nil => exact offers
  | cons item rest =>
    have pushed : (x.push h.scope (item :: rest)).2 =
        x.modify h.id (fun feed => { feed with queue := feed.queue ++ item :: rest }) := by
      simp [Feeds.push, offers.current, there, read]
    rw [pushed]
    exact offers.modify (fun _ => rfl) (fun _ => ⟨rfl, rfl⟩) (fun _ waiting => by simp [waiting])

/-- Giving a subscription back leaves its feed as it is. -/
theorem unsubscribe (offers : x.Offers h items) :
    ∃ result x', transport.unsubscribe h x = (result, x') ∧ result ≠ .crashed ∧
    x'.Offers h items := by
  have sound := offers.sound
  have given : (x.unsubscribe h).1 ≠ .crashed ∧
      (x.unsubscribe h).2 = x.note h.scope s!"unsubscribe {h.label}" := by
    cases mode : x.modes h.scope <;> simp_all [Feeds.unsubscribe, note]
  refine ⟨_, _, rfl, given.1, ?_⟩
  change (x.unsubscribe h).2.Offers h items
  rw [given.2]
  exact ⟨note_numbered offers.numbered _ _, offers.current, offers.feed, offers.granted, sound⟩

/-- The next subscription gets another number. -/
theorem id_ne_next (offers : x.Offers h items) : x.nextId ≠ h.id := by
  obtain ⟨feed, there, -⟩ := offers.feed
  intro same
  rw [← same, offers.numbered.feed?_next] at there
  cases there

end Offers

/-- A granted subscription reads a fresh feed. -/
theorem offers_subscribe {x : Feeds} (numbered : x.Numbered) {scope : Scope}
    (granted : x.rules scope = .allow) (sound : x.modes scope ≠ .crash) :
    ∃ x', transport.subscribe scope x = (.granted ⟨x.nextId, scope⟩, x') ∧
      x'.Offers ⟨x.nextId, scope⟩ [] := by
  refine ⟨_, subscribe_of_allow granted, ?_⟩
  have noted := note_numbered numbered scope s!"subscribe {scope.label}"
  have retired := retire_numbered noted scope
  have next : ((x.note scope s!"subscribe {scope.label}").retire scope).nextId = x.nextId :=
    retire_nextId scope _
  have kept : ∀ y : Feeds, (y.retire scope).rules = y.rules ∧ (y.retire scope).modes = y.modes := by
    intro y
    cases current : y.current scope with
    | none =>
      rw [retire_of_none current]
      exact ⟨rfl, rfl⟩
    | some id =>
      rw [retire_of_some current]
      exact ⟨rfl, rfl⟩
  obtain ⟨rules, modes⟩ := kept (x.note scope s!"subscribe {scope.label}")
  refine ⟨⟨retired.add.distinct, retired.add.below⟩, by simp [fill, put], ?_, ?_, ?_⟩
  · refine ⟨⟨x.nextId, [], false, false⟩, ?_, rfl, rfl, rfl⟩
    have fresh := feed?_add retired x.nextId
    rw [next, if_pos rfl] at fresh
    exact fresh
  · exact (congrFun rules scope).trans granted
  · exact fun crash => sound ((congrFun modes scope).symm.trans crash)

/-- An expired subscription is given up for a fresh one. -/
theorem Offers.abandon {x : Feeds} {h fresh : Handle} {items : List (Fault ⊕ Event)}
    (offers : x.Offers fresh items) (other : fresh.id ≠ h.id) :
    (transport.abandon h x).Offers fresh items := by
  have keeps : ∀ feed : Feed, ({ feed with abandoned := true, queue := [] } : Feed).id =
    feed.id := fun _ => rfl
  obtain ⟨feed, there, lies⟩ := offers.feed
  refine ⟨offers.numbered.modify keeps h.id, offers.current, ⟨feed, ?_, lies⟩, offers.granted,
    offers.sound⟩
  change (x.modify h.id _).feed? fresh.id = _
  rw [feed?_modify keeps, if_neg other, there]

end Feeds

namespace Pool

variable {sink : Sink σ} {n : Nat} {h : Handle} {p : Pool (Recorded Feeds) σ}

/-- Delivery `n` alone has something to do: it reads this subscription, and nobody asked it to
stop. -/
structure Hears (p : Pool (Recorded Feeds) σ) (n : Nat) (h : Handle)
    (items : List (Fault ⊕ Event)) : Prop where
  delivery : ∃ d, p.deliveries[n]? = some d ∧ d.phase = .watching h ∧ d.scope = h.scope ∧
    d.stopAsked = false
  offers : p.transport.state.Offers h items

theorem turn_alone {t : Transport τ} {p : Pool τ σ} {d : Delivery} (alone : p.ready = [n])
    (there : p.deliveries[n]? = some d) :
    p.turn t sink = p.advance n [] (d.step t sink p.transport p.sink) := by
  simp only [turn, alone, there]

theorem advance_here {p : Pool τ σ} {d : Delivery} (there : p.deliveries[n]? = some d)
    (others : List Nat) (s : Step τ σ) :
    (p.advance n others s).deliveries[n]? = some s.delivery := by
  obtain ⟨inside, -⟩ := List.getElem?_eq_some_iff.mp there
  simp [advance, inside]

/-- The delivery goes on after a step with which it stays the same. -/
theorem hears_advance {items : List (Fault ⊕ Event)} {d d' : Delivery} {x : Recorded Feeds} {y : σ}
    {acts : List Act} {turn : Turn} (there : p.deliveries[n]? = some d)
    (phase : d'.phase = .watching h) (scope : d'.scope = h.scope) (unasked : d'.stopAsked = false)
    (offers : x.state.Offers h items) : (p.advance n [] ⟨d', x, y, acts, turn⟩).Hears n h items :=
  ⟨⟨d', advance_here there [] _, phase, scope, unasked⟩, offers⟩

theorem Hears.idle (hears : p.Hears n h []) (alone : p.ready = [n]) :
    let q := p.turn Feeds.transport.recorded sink
    q.Hears n h [] ∧ q.ready = [] ∧ q.transport.calls = .next h .idle :: p.transport.calls := by
  obtain ⟨⟨d, there, phase, scope, unasked⟩, offers⟩ := hears
  have step : d.step Feeds.transport.recorded sink p.transport p.sink =
      ⟨d, ⟨p.transport.state, .next h .idle :: p.transport.calls⟩, p.sink, [], .rest⟩ := by
    simp [Delivery.step, phase, unasked, Delivery.take, Transport.recorded, offers.idle]
  rw [turn_alone alone there, step]
  exact ⟨hears_advance there phase scope unasked offers, rfl, rfl⟩

theorem Hears.event {e : Event} {rest : List (Fault ⊕ Event)} (hears : p.Hears n h (.inr e :: rest))
    (alone : p.ready = [n]) (calm : ∀ e y, (sink e y).1 = .done) :
    let q := p.turn Feeds.transport.recorded sink
    q.Hears n h rest ∧ q.ready = [n] ∧
    q.transport.calls = .next h (.event e) :: p.transport.calls := by
  obtain ⟨⟨d, there, phase, scope, unasked⟩, offers⟩ := hears
  obtain ⟨x, next, onward⟩ := offers.next
  have done := calm e p.sink
  rcases handled : sink e p.sink with ⟨first, y⟩
  rw [handled] at done
  obtain rfl : first = .done := done
  have step : d.step Feeds.transport.recorded sink p.transport p.sink =
      ⟨d, ⟨x, .next h (.event e) :: p.transport.calls⟩, y, [.delivered e], .again⟩ := by
    simp [Delivery.step, phase, unasked, Delivery.take, Transport.recorded, next,
      Feeds.itemOf, handled]
  rw [turn_alone alone there, step]
  exact ⟨hears_advance there phase scope unasked onward, rfl, rfl⟩

/-- An expired subscription is given back and renewed. -/
theorem Hears.expiry {reason : String} (hears : p.Hears n h [.inl (.expired reason)])
    (alone : p.ready = [n]) :
    let q := (p.turn Feeds.transport.recorded sink).turn Feeds.transport.recorded sink
    ∃ fresh result, fresh.scope = h.scope ∧ q.Hears n fresh [] ∧ q.ready = [n] ∧
      q.transport.calls = .subscribe h.scope (.granted fresh) :: .unsubscribe h result ::
        .next h (.fault (.expired reason)) :: p.transport.calls := by
  obtain ⟨⟨d, there, phase, scope, unasked⟩, offers⟩ := hears
  obtain ⟨x, next, read⟩ := offers.next
  obtain ⟨result, x', given, sound, left⟩ := read.unsubscribe
  obtain ⟨x'', answer, fresh⟩ := Feeds.offers_subscribe left.numbered left.granted left.sound
  have other : ((⟨x'.nextId, h.scope⟩ : Handle)).id ≠ h.id := left.id_ne_next
  let renewing : Delivery := { d with state := .starting, phase := .renewing h }
  let calls : List TransportCall :=
    .unsubscribe h result :: .next h (.fault (.expired reason)) :: p.transport.calls
  have expires : d.step Feeds.transport.recorded sink p.transport p.sink =
      ⟨renewing, ⟨x', calls⟩, p.sink, [.published .starting, .released h result], .again⟩ := by
    cases result with
    | crashed => exact absurd rfl sound
    | released =>
      simp [Delivery.step, phase, unasked, Delivery.take, Transport.recorded, next, Feeds.itemOf,
        Delivery.expire, given, renewing, calls]
    | failed f =>
      simp [Delivery.step, phase, unasked, Delivery.take, Transport.recorded, next, Feeds.itemOf,
        Delivery.expire, given, renewing, calls]
  have renews : renewing.step Feeds.transport.recorded sink ⟨x', calls⟩ p.sink =
      ⟨{ renewing with state := .active, phase := .watching ⟨x'.nextId, h.scope⟩ },
        ⟨Feeds.transport.abandon h x'', .subscribe h.scope (.granted ⟨x'.nextId, h.scope⟩) ::
          calls⟩, p.sink, [.subscribed ⟨x'.nextId, h.scope⟩, .published .active], .again⟩ := by
    have steady : Feeds.transport.suspends = false := rfl
    simp [Delivery.step, renewing, unasked, Delivery.renew, scope, Transport.recorded,
      answer, steady]
  have between : (p.advance n [] ⟨renewing, ⟨x', calls⟩, p.sink,
      [.published .starting, .released h result], .again⟩).deliveries[n]? = some renewing :=
    advance_here there [] _
  refine ⟨⟨x'.nextId, h.scope⟩, result, rfl, ?_⟩
  rw [turn_alone alone there, expires, turn_alone rfl between]
  simp only [advance] at renews ⊢
  rw [renews]
  exact ⟨hears_advance between rfl scope unasked (fresh.abandon other), rfl, rfl⟩

/-! ## Whole streams -/

section Streams

variable {before earlier : List Reading} {items : List Item} {events : List Event}

/-- The events at the head of a feed are read one after the other. -/
theorem Hears.reads_events (calm : ∀ e y, (sink e y).1 = .done) {rest : List (Fault ⊕ Event)}
    (hears : p.Hears n h (events.map .inr ++ rest)) (alone : p.ready = [n])
    (read : readings before p.transport.calls = ⟨h, items⟩ :: earlier) :
    ∃ q, (∀ r, Settles Feeds.transport.recorded sink q r →
      Settles Feeds.transport.recorded sink p r) ∧
      q.Hears n h rest ∧ q.ready = [n] ∧
      readings before q.transport.calls = ⟨h, items ++ events.map .event⟩ :: earlier := by
  induction events generalizing p items with
  | nil => exact ⟨p, fun _ settles => settles, hears, alone, by simpa using read⟩
  | cons e later ih =>
    obtain ⟨onward, still, calls⟩ := hears.event alone calm
    have more : readings before (p.turn Feeds.transport.recorded sink).transport.calls =
        ⟨h, items ++ [.event e]⟩ :: earlier := by
      simp [calls, read, TransportCall.note, Item.isThere]
    obtain ⟨q, settles, hears, alone', whole⟩ := ih onward still more
    refine ⟨q, fun r rests => ?_, hears, alone', by simpa using whole⟩
    exact .turn p r (by simp [alone]) (settles r rests)

theorem Hears.rests (hears : p.Hears n h []) (alone : p.ready = [n])
    (read : readings before p.transport.calls = ⟨h, items⟩ :: earlier) :
    ∃ q, Settles Feeds.transport.recorded sink p q ∧ q.Hears n h [] ∧ q.ready = [] ∧
      q.transport.calls = .next h .idle :: p.transport.calls ∧
      readings before q.transport.calls = ⟨h, items⟩ :: earlier := by
  obtain ⟨onward, idle, calls⟩ := @Hears.idle _ sink _ _ _ hears alone
  refine ⟨_, .turn p _ (by simp [alone]) (.rest _ idle), onward, idle, calls, ?_⟩
  simp [calls, read, TransportCall.note, Item.isThere]

theorem Hears.settle_eq {items : List (Fault ⊕ Event)} {q : Pool (Recorded Feeds) σ}
    (hears : p.Hears n h items) (settles : Settles Feeds.transport.recorded sink p q) :
    p.settle Feeds.transport.recorded sink = q :=
  (settles_settle Feeds.dwindles.recorded sink hears.offers.numbered).unique settles

/-- A stream without an expiry is read to its end. -/
theorem Hears.settle_lasting (calm : ∀ e y, (sink e y).1 = .done)
    (hears : p.Hears n h (events.map .inr)) (alone : p.ready = [n])
    (read : readings before p.transport.calls = ⟨h, []⟩ :: earlier) :
    let q := p.settle Feeds.transport.recorded sink
    q.ready = [] ∧ q.transport.calls ≠ [] ∧
      readings before q.transport.calls = ⟨h, events.map .event⟩ :: earlier := by
  have all : p.Hears n h (events.map .inr ++ []) := by rwa [List.append_nil]
  obtain ⟨r, onward, hears', alone', whole⟩ := all.reads_events calm alone read
  obtain ⟨q, settles, -, idle, calls, kept⟩ := hears'.rests alone' whole
  rw [hears.settle_eq (onward q settles)]
  exact ⟨idle, by simp [calls], kept⟩

/-- A stream that expires is read up to its expiry, and the session waits for the next one. -/
theorem Hears.settle_expiring (calm : ∀ e y, (sink e y).1 = .done) {reason : String}
    (hears : p.Hears n h (events.map .inr ++ [.inl (.expired reason)])) (alone : p.ready = [n])
    (read : readings before p.transport.calls = ⟨h, []⟩ :: earlier) :
    let q := p.settle Feeds.transport.recorded sink
    ∃ fresh, fresh.scope = h.scope ∧ q.Hears n fresh [] ∧ q.ready = [] ∧
      readings before q.transport.calls =
        ⟨fresh, []⟩ :: ⟨h, events.map .event ++ [.fault (.expired reason)]⟩ :: earlier := by
  obtain ⟨r, onward, hears', alone', whole⟩ := hears.reads_events calm alone read
  obtain ⟨fresh, result, scope, renewed, ready, calls⟩ := @Hears.expiry _ sink _ _ _ _ hears' alone'
  have read' : readings before ((r.turn Feeds.transport.recorded sink).turn
      Feeds.transport.recorded sink).transport.calls =
      ⟨fresh, []⟩ :: ⟨h, events.map .event ++ [.fault (.expired reason)]⟩ :: earlier := by
    simp [calls, whole, TransportCall.note, Item.isThere]
  obtain ⟨q, settles, rests, idle, -, kept⟩ := @Hears.rests _ sink _ _ _ _ _ _ renewed ready read'
  have middle : (r.turn Feeds.transport.recorded sink).ready ≠ [] := by
    intro none
    rw [turn, none] at ready
    rw [none] at ready
    cases ready
  have all := onward q (.turn r q (by simp [alone']) (.turn _ q middle settles))
  rw [hears.settle_eq all]
  exact ⟨fresh, scope, rests, idle, kept⟩

end Streams

end Pool

def Item.pushed? : Item → Option (Fault ⊕ Event)
  | .event e => some (.inr e)
  | .fault f => some (.inl f)
  | _ => none

theorem pushed_events (events : List Event) :
    (events.map Item.event).filterMap Item.pushed? = events.map .inr := by
  rw [List.filterMap_map]
  exact congrFun List.filterMap_eq_map events

/-- The stream offers events until it expires. -/
def Expires (stream : List Item) : Prop :=
  ∃ (events : List Event) (reason : String),
  stream = events.map .event ++ [.fault (.expired reason)]

/-- Streams that were read as a whole are the streams that are offered. -/
theorem Offered.of_read {streams : List (List Item)} {before : List Reading}
    {calls : List TransportCall}
    (read : (readings before calls).reverse.map Reading.items = streams) :
    Offered streams before calls := by
  have length : (readings before calls).length = streams.length := by simp [← read]
  refine ⟨?_, fun h _ => ?_⟩
  · rw [length, List.take_length, ← read, List.forall₂_map_right_iff]
    exact List.forall₂_same.mpr fun reading _ => List.prefix_rfl
  · rw [length, List.take_length, ← read, List.map_reverse, List.getLast?_reverse, List.head?_map]

end WatchDispatch.Watch

namespace WatchDispatch.Dispatch.Source

open Watch

variable {s : Source Feeds} {session : Session} {h : Handle}

/-- The ticks with which a session is told these streams, latest stream first: each is pushed to its
scope, and then the session runs until nothing moves. -/
def telling (s : Source Feeds) (session : Session) : List (List Item) → List (Tick Feeds)
  | [] => []
  | stream :: earlier =>
    let run := s.telling session earlier
    let x := (s.leftAlone Feeds.transport run).pool.transport.state
    .settle :: .pick session.number ::
      .outside (x.push session.scope (stream.filterMap Item.pushed?)).2 :: run

/-- The only delivery that has something to do is that of the session, which waits for a stream. -/
structure Attentive (s : Source (Recorded Feeds)) (session : Session) (h : Handle) : Prop where
  scope : h.scope = session.scope
  hears : s.pool.Hears session.number h []
  alone : s.pool.ready.erase session.number = []

/-- A session that waits is told one more stream. -/
theorem Attentive.told {run : List (Tick Feeds)}
    (attentive : (s.leftAlone Feeds.transport run).Attentive session h)
    (stream : List (Fault ⊕ Event)) :
    let s' := s.leftAlone Feeds.transport run
    ∃ p : Pool (Recorded Feeds) Stores,
      p.Hears session.number h stream ∧ p.ready = [session.number] ∧
      p.transport.calls = s'.pool.transport.calls ∧
      (s.leftAlone Feeds.transport (.settle :: .pick session.number ::
        .outside (s'.pool.transport.state.push session.scope stream).2 :: run)).pool =
        p.settle Feeds.transport.recorded s.sink := by
  intro s'
  obtain ⟨scope, ⟨delivery, offers⟩, alone⟩ := attentive
  let x : Recorded Feeds :=
    { s'.pool.transport with state := (s'.pool.transport.state.push session.scope stream).2 }
  refine ⟨{ s'.pool with transport := x, ready := [session.number] }, ⟨delivery, ?_⟩, rfl, rfl, ?_⟩
  · change (s'.pool.transport.state.push session.scope stream).2.Offers h stream
    rw [← scope]
    exact offers.push stream
  · have sink : s'.sink = s.sink :=
      (ticks_own Feeds.transport.recorded Recorded.become s.recorded run).2
    rw [← sink]
    change Pool.settle _ _ { s'.pool with
      transport := x, ready := session.number :: s'.pool.ready.erase session.number } = _
    rw [alone]
    rfl

theorem expires_of_mem_expiring {events : List Event} {rounds : List Interruption} :
    ∀ stream ∈ expiring events rounds, Expires stream := by
  induction rounds generalizing events with
  | nil => simp [expiring]
  | cons round rest ih =>
    intro stream mem
    rcases List.mem_cons.mp mem with rfl | later
    · exact ⟨events, round.reason, rfl⟩
    · exact ih stream later

section Runs

variable (attentive : s.recorded.Attentive session h)
  (calm : ∀ calls call, s.dispatcher calls call = .done)

include attentive calm

/-- Streams that expire are read one after the other up to their expiry, and the session waits for
the next. -/
theorem Attentive.telling {streams : List (List Item)}
    (expire : ∀ stream ∈ streams, Expires stream) :
    let s' := s.leftAlone Feeds.transport (s.telling session streams)
    ∃ fresh earlier, s'.Attentive session fresh ∧
      readings [⟨h, []⟩] s'.pool.transport.calls = ⟨fresh, []⟩ :: earlier ∧
      earlier.map Reading.items = streams := by
  induction streams with
  | nil => exact ⟨h, [], attentive, rfl, rfl⟩
  | cons stream streams ih =>
    obtain ⟨fresh, earlier, waits, read, items⟩ :=
      ih (fun stream mem => expire stream (List.mem_cons_of_mem _ mem))
    obtain ⟨events, reason, rfl⟩ := expire stream List.mem_cons_self
    obtain ⟨p, hears, alone, calls, settled⟩ :=
      waits.told ((events.map Item.event ++ [Item.fault (.expired reason)]).filterMap Item.pushed?)
    rw [List.filterMap_append, pushed_events] at hears
    have crashless : ∀ e y, (s.sink e y).1 = .done := fun e y => Stores.deliver_done calm e y
    obtain ⟨next, scope, still, idle, read'⟩ :=
      hears.settle_expiring crashless alone ((congrArg _ calls).trans read)
    rw [← settled] at still idle read'
    refine ⟨next, _, ⟨scope.trans waits.scope, still, ?_⟩, read', congrArg _ items⟩
    rw [Source.telling, idle, List.erase_nil]

/-- Whatever a session is told, with whatever interruptions, it comes to rest over these streams. -/
theorem Attentive.restsOver (events : List Event) (rounds : List Interruption) :
    (s.leftAlone Feeds.transport (s.telling session (interrupted events rounds).reverse)).RestsOver
      session h (interrupted events rounds) := by
  have crashless : ∀ e y, (s.sink e y).1 = .done := fun e y => Stores.deliver_done calm e y
  have expire : ∀ stream ∈ (expiring events rounds).reverse, Expires stream :=
    fun stream mem => expires_of_mem_expiring stream (List.mem_reverse.mp mem)
  obtain ⟨fresh, earlier, waits, read, items⟩ := attentive.telling calm expire
  obtain ⟨p, hears, alone, calls, settled⟩ :=
    waits.told (((lasting events rounds).map Item.event).filterMap Item.pushed?)
  rw [pushed_events] at hears
  obtain ⟨idle, called, read'⟩ :=
    hears.settle_lasting crashless alone ((congrArg _ calls).trans read)
  rw [← settled] at idle called read'
  have whole : (readings [⟨h, []⟩] (s.leftAlone Feeds.transport
      (s.telling session (interrupted events rounds).reverse)).pool.transport.calls).reverse.map
        Reading.items = interrupted events rounds := by
    rw [interrupted, List.reverse_append, List.reverse_singleton, List.singleton_append,
      Source.telling, read', List.map_reverse, List.map_cons, items, List.reverse_cons,
      List.reverse_reverse]
  have length := congrArg List.length whole
  rw [List.length_map, List.length_reverse, length_readings, List.length_singleton] at length
  refine ⟨.of_read whole, length, ?_, ?_⟩
  · rw [interrupted, List.reverse_append]
    exact called
  · rw [interrupted, List.reverse_append]
    exact fun queued => absurd (idle ▸ queued) List.not_mem_nil

end Runs

/-- A source with one scope, started over feeds that grant subscriptions to it. -/
theorem start_attends {config : Configuration} {scope : Scope}
    (target : config.target.watchScopes = [scope]) (dispatcher : Dispatcher) {x : Feeds}
    (numbered : x.Numbered) (granted : x.rules scope = .allow) (sound : x.modes scope ≠ .crash) :
    let s := ((make config dispatcher x).start Feeds.transport).2
    s.dispatcher = dispatcher ∧ s.Watches ⟨0, scope, false⟩ ⟨x.nextId, scope⟩ ∧
      s.recorded.Attentive ⟨0, scope, false⟩ ⟨x.nextId, scope⟩ := by
  intro s
  obtain ⟨x', answer, offers⟩ := Feeds.offers_subscribe numbered granted sound
  have steady : Feeds.transport.suspends = false := rfl
  have opened : s = ⟨config, dispatcher, [⟨0, scope, false⟩],
      ⟨x', Stores.empty, [⟨config.gvkKey, scope, false, .active, .watching ⟨x.nextId, scope⟩⟩], [0],
        [(0, .published .active), (0, .subscribed ⟨x.nextId, scope⟩)], some []⟩⟩ := by
    simp [s, start, startWith, make, target, openEach, openSession, Pool.start, Pool.openSession,
      Pool.openWhile, answer, Pool.goOn, steady, Pool.spawn, Pool.abandonPending]
  rw [opened]
  refine ⟨rfl, ⟨rfl, ⟨_, rfl, rfl, rfl, rfl⟩, ?_⟩, rfl, ⟨⟨_, rfl, rfl, rfl, rfl⟩, offers⟩, rfl⟩
  intro m d other there
  cases m with
  | zero => exact absurd rfl other
  | succ m => cases there

/-- Once such a source was started, its session is read to its end over any events with any
interruptions. -/
theorem started_restsOver {config : Configuration} {scope : Scope}
    (target : config.target.watchScopes = [scope]) {dispatcher : Dispatcher}
    (calm : ∀ calls call, dispatcher calls call = .done) {x : Feeds} (numbered : x.Numbered)
    (granted : x.rules scope = .allow) (sound : x.modes scope ≠ .crash) (events : List Event)
    (rounds : List Interruption) :
    let s := ((make config dispatcher x).start Feeds.transport).2
    let session : Session := ⟨0, scope, false⟩
    let streams := interrupted events rounds
    s.Watches session ⟨x.nextId, scope⟩ ∧
      (s.leftAlone Feeds.transport (s.telling session streams.reverse)).RestsOver session
        ⟨x.nextId, scope⟩ streams := by
  intro s session streams
  obtain ⟨same, watches, attentive⟩ := start_attends target dispatcher numbered granted sound
  exact ⟨watches,
    attentive.restsOver (fun calls call => (congrFun₂ same calls call).trans (calm calls call))
    events rounds⟩

end WatchDispatch.Dispatch.Source
