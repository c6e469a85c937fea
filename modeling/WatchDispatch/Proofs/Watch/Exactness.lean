import WatchDispatch.Proofs.Watch.Readings

/-!
# Exact delivery

What a sink is handed in a run of a session is compared with the streams of its subscriptions as
lists: of each stream the events before the first fault or end, one stream after the other. A stop
or a crash of the sink cuts this off and nothing else does. The streams may offer more behind a
fault, and they may do so after a stop; it is never handed on.
-/

namespace WatchDispatch.Watch

open View (Course)

variable {τ σ : Type}

/-- What the sink was handed is what was read, and the calls say why no more was read. -/
structure View.Exact (v : View (Noted σ)) : Prop where
  reads : Reads v.delivery.phase (readings [] v.calls)
  handed : (v.sink.events.map Prod.fst).reverse = leads (readings [] v.calls)
  running : v.delivery.isRunning = true → ∀ entry ∈ v.sink.events, entry.2 = .done
  last : ∀ entry ∈ v.sink.events.tail, entry.2 = .done
  ended : v.delivery.isRunning = false → v.delivery.stopAsked = true ∨
    (∃ entry ∈ v.sink.events, entry.2 ≠ .done) ∨
    ∀ reading ∈ (readings [] v.calls).head?, Closed reading.items
  resting : v.Resting

theorem Takes.tail_subset {sink : Sink σ} {y y' : σ} {handed : List (Event × Handled)}
    (takes : Takes sink y handed y') (events : List (Event × Handled)) :
    ∀ entry ∈ (handed ++ events).tail, entry ∈ events := by
  cases takes with
  | nothing => exact fun entry mem => List.mem_of_mem_tail mem
  | event => exact fun entry mem => mem

namespace View

variable {t : Transport τ} {sink : Sink σ} {v v' : View (Noted σ)}

theorem Exact.of_notes {y : Noted σ} {queued : Bool} (holds : v.Exact)
    (notes : y.events = v.sink.events)
    (rests : View.Resting { v with sink := y, queued := queued }) :
    View.Exact { v with sink := y, queued := queued } := by
  obtain ⟨state, events⟩ := y
  obtain rfl : events = v.sink.events := notes
  exact { holds with resting := rests }

theorem Exact.next (holds : v.Exact) (next : Next t sink.noted SameNotes v v') : v'.Exact := by
  have resting := holds.resting.next next
  cases next with
  | @move d calls handed acts turn y queued move takes answered rests =>
    have notes := takes.noted_events
    cases running : v.delivery.isRunning with
    | false =>
      obtain ⟨rfl, rfl, rfl, rfl⟩ := move.eq_of_ended running
      obtain ⟨state, events⟩ := y
      obtain rfl : events = v.sink.events := notes
      exact ⟨holds.reads, holds.handed, holds.running, holds.last, holds.ended, resting⟩
    | true =>
      have done := holds.running running
      refine ⟨?_, ?_, ?_, ?_, ?_, resting⟩
      · rw [readings_append]
        exact holds.reads.move move
      · -- One event at most is handed on in a move, so its order is no matter.
        have short : (handed.map Prod.fst).reverse = handed.map Prod.fst := by
          cases takes <;> rfl
        rw [readings_append, holds.reads.leads_move move, notes, List.map_append,
          List.reverse_append, holds.handed, short]
      · intro goes entry mem
        rw [notes] at mem
        exact (List.mem_append.mp mem).elim (move.done_of_running goes entry) (done entry)
      · intro entry mem
        rw [notes] at mem
        exact done entry (Takes.tail_subset takes _ entry mem)
      · intro ended
        rw [notes, readings_append]
        rcases holds.reads.ends_move move running ended with asked | ⟨entry, mem, crashed⟩ | closed
        · exact .inl (move.stopAsked_eq.trans asked)
        · exact .inr (.inl ⟨entry, List.mem_append_left _ mem, crashed⟩)
        · exact .inr (.inr closed)
  | ask => exact { holds with ended := fun _ => .inl rfl, resting := resting }
  | close => exact { holds with resting := resting }
  | wake => exact { holds with resting := resting }
  | elsewhere same => exact holds.of_notes same resting

theorem Exact.course (holds : v.Exact) (course : Course t sink.noted SameNotes v v') :
    v'.Exact := by
  induction course with
  | refl => exact holds
  | tail _ next ih => exact ih.next next

/-- A session that was asked to stop is handed nothing more, and gives back at most. -/
theorem Course.halted_of_asked (course : Course t sink.noted SameNotes v v')
    (asked : v.delivery.stopAsked = true) : v'.sink.events = v.sink.events ∧
      ∃ more, v'.calls = more ++ v.calls ∧ ∀ call ∈ more, ∃ h result,
      call = .unsubscribe h result := by
  induction course with
  | refl => exact ⟨rfl, [], rfl, by simp⟩
  | tail course next ih =>
    obtain ⟨events, more, calls, releases⟩ := ih
    cases next with
    | @move d added handed acts turn y queued move takes =>
      have stopping := View.Course.stopAsked_mono course asked
      have halted : handed = [] ∧ ∀ call ∈ added, ∃ h result, call = .unsubscribe h result := by
        cases move with
        | stop result => exact ⟨rfl, by simp⟩
        | _ => simp_all
      refine ⟨?_, added ++ more, by simp [calls], ?_⟩
      · rw [takes.noted_events, halted.1, events]
        rfl
      · intro call mem
        exact (List.mem_append.mp mem).elim (halted.2 call) (releases call)
    | ask => exact ⟨events, more, calls, releases⟩
    | close => exact ⟨events, more, calls, releases⟩
    | wake => exact ⟨events, more, calls, releases⟩
    | elsewhere same => exact ⟨same.trans events, more, calls, releases⟩

/-- A session that rests, with no stop asked for and no crash, has handed on all that precedes the
first fault or end of each stream. -/
theorem Exact.whole (holds : v.Exact) {streams : List (List Item)}
    (offered : Offered streams [] v.calls) (unasked : v.delivery.stopAsked = false)
    (sound : ∀ entry ∈ v.sink.events, entry.2 = .done) (unqueued : v.queued = false) :
    leads (readings [] v.calls) =
      (streams.take (readings [] v.calls).length).flatMap lead := by
  obtain ⟨reading, earlier, read⟩ := List.exists_cons_of_ne_nil holds.reads.ne_nil
  obtain ⟨older, stream, taken, begins, others, whole⟩ := offered.split read
  have expired := (read ▸ holds.reads).earlier
  have before : leads earlier = older.flatMap lead :=
    flatMap_lead_eq others (by simpa using fun r mem => (expired r mem).closed)
  have latest : lead reading.items = lead stream := by
    cases running : v.delivery.isRunning with
    | false =>
      -- It ended at a fault or an end: what the stream offers behind that is no lead of it.
      rcases holds.ended running with asked | ⟨entry, mem, crashed⟩ | closed
      · simp [unasked] at asked
      · exact absurd (sound entry mem) crashed
      · exact (closed reading (by simp [read])).lead_eq begins
    | true =>
      -- It goes on and has nothing to do: the stream was read as a whole.
      rcases holds.resting unqueued running with none | ⟨h, phase⟩ | ⟨h, phase, idle⟩
      · simp [none] at read
      · have reads := read ▸ holds.reads
        rw [phase] at reads
        cases reads with
        | awaiting _ all => exact (all reading List.mem_cons_self).closed.lead_eq begins
      · rw [whole h idle]
  rw [taken, read, leads_cons, before, latest]
  simp

end View

theorem View.exact_opened (gvkKey : String) (scope : Scope) (h : Handle) (y : σ) :
    (View.opened gvkKey scope h (⟨y, []⟩ : Noted σ)).Exact := by
  refine ⟨@Reads.watching h [] [] (by simp), rfl, ?_, ?_, ?_, ?_⟩
  · simp [View.opened]
  · simp [View.opened]
  · intro ended
    simp [View.opened, Delivery.isRunning] at ended
  · intro queued
    simp [View.opened] at queued

/-- The events that the sink was handed, in order. -/
def Owner.handed (o : Owner τ (Noted σ)) : List Event := (o.events.map Prod.fst).reverse

/-- What the session delivers of these streams is exact; `asked` says whether it was asked to
stop. -/
structure DeliversExactly (streams : List (List Item)) (asked : Bool) (o : Owner τ (Noted σ)) :
    Prop where
  /-- What the sink was handed are the leading events of what was read. -/
  taken : o.handed = leads (readings [] o.calls)
  /-- All streams but the last are handed on up to their first fault or end, the last one at
  most. -/
  cut : ∃ earlier stream n, streams.take (granted o.calls).length = earlier ++ [stream] ∧
    o.handed = earlier.flatMap lead ++ (lead stream).take n
  /-- Nothing is handed on after a crash of the sink. -/
  crash : ∀ entry ∈ o.events.tail, entry.2 = .done
  /-- Nothing is missing once the session rests, unless it was stopped or the sink crashed. -/
  whole : asked = false → (∀ entry ∈ o.events, entry.2 = .done) → o.session.number ∉ o.pool.ready →
    o.handed = (streams.take (granted o.calls).length).flatMap lead

theorem View.Exact.deliversExactly {v : View (Noted σ)} {o : Owner τ (Noted σ)} (holds : v.Exact)
    (shows : o.Shows v) {streams : List (List Item)} (offered : Offered streams [] o.calls) :
    DeliversExactly streams v.delivery.stopAsked o := by
  have calls := shows.calls_eq
  have events := shows.events_eq
  have taken : o.handed = leads (readings [] o.calls) := by
    rw [Owner.handed, events, calls]
    exact holds.handed
  have made : (readings [] o.calls).length = (granted o.calls).length := length_readings [] o.calls
  refine ⟨taken, ?_, ?_, ?_⟩
  · obtain ⟨reading, earlier, read⟩ := List.exists_cons_of_ne_nil holds.reads.ne_nil
    rw [← calls] at read
    obtain ⟨older, stream, split, begins, others, _⟩ := offered.split read
    have expired : ∀ r ∈ earlier, r.Expired := Reads.earlier (read ▸ calls ▸ holds.reads)
    have before : leads earlier = older.flatMap lead :=
      flatMap_lead_eq others (by simpa using fun r mem => (expired r mem).closed)
    obtain ⟨rest, lead_eq⟩ := lead_prefix begins
    refine ⟨older, stream, (lead reading.items).length, made ▸ split, ?_⟩
    rw [taken, read, leads_cons, before, ← lead_eq, List.take_left]
  · rw [events]
    exact holds.last
  · rw [taken, events, ← made, calls]
    intro unasked sound rests
    refine holds.whole (calls ▸ offered) unasked sound ?_
    cases queued : v.queued with
    | false => rfl
    | true => exact absurd (Pool.Shows.queued shows queued) rests

/-- Whatever happens to a session, its sink is handed the leading events of the streams of its
subscriptions, in order and without gaps, up to a stop or a crash. Once the session was asked to
stop, it is handed nothing more and nothing more is subscribed to or read. -/
theorem delivery_exact {t : Transport τ} {sink : Sink σ} {gvkKey : String} {scope : Scope} {x : τ}
    {y : σ} {o : Owner τ (Noted σ)}
    (opened : Owner.open? t sink.noted gvkKey scope x ⟨y, []⟩ = some o) (run : List (Happening τ σ))
    {streams : List (List Item)} (offered : Offered streams [] (o.observed t sink run).calls) :
    let now := o.observed t sink run
    DeliversExactly streams (run.any Happening.asksStop) now ∧
    ∀ later, let after := o.observed t sink (later ++ run)
      run.any Happening.asksStop = true → after.handed = now.handed ∧
        ∃ more, after.calls = more ++ now.calls ∧
          ∀ call ∈ more, ∃ h result, call = .unsubscribe h result := by
  intro now
  obtain ⟨h, start⟩ := Owner.shows_of_open? opened
  obtain ⟨v, shows, course, asked⟩ := start.observed t sink run
  have holds := (View.exact_opened gvkKey scope h y).course course
  have asks : v.delivery.stopAsked = run.any Happening.asksStop := by
    simpa [View.opened] using asked
  refine ⟨asks ▸ holds.deliversExactly shows offered, ?_⟩
  intro later after stopping
  obtain ⟨v', shows', onward⟩ := shows.observed_later later
  obtain ⟨events, more, calls, releases⟩ := onward.halted_of_asked (asks.trans stopping)
  refine ⟨?_, more, ?_, releases⟩
  · rw [Owner.handed, Owner.handed, shows'.events_eq, shows.events_eq, events]
  · rw [shows'.calls_eq, shows.calls_eq, calls]

namespace Sample

/-- A transport that numbers its subscriptions; each has a stream of its own. -/
def numbered : Transport (Nat × List (List Item)) where
  subscribe scope x := (.granted ⟨x.1, scope⟩, (x.1 + 1, x.2))
  unsubscribe _ x := (.released, x)
  next h x :=
    match x.2[h.id]? with
    | some (item :: rest) => (item, (x.1, x.2.set h.id rest))
    | _ => (.idle, x)
  abandon _ x := x
  suspends := false
  work x := x.2.flatten.length
  breakdown := panicked

def event (action : Action) : Event := ⟨action, default⟩

/-- A stream that expires and one that ends, each with an event behind that. -/
def streams : List (List Item) :=
  [[.event (event .added), .fault (.expired "gone"), .event (event .deleted)],
    [.event (event .modified), .ended, .event (event .deleted)]]

/-- A session over these streams whose sink never crashes. -/
def reader? : Option (Owner (Nat × List (List Item)) (Noted Unit)) :=
  Owner.open? numbered (Sink.noted fun _ y => (.done, y)) "example.com/v1/Widget" .allNamespaces
    (0, streams) ⟨(), []⟩

end Sample

/-- What is queued behind an expiry and behind an end is not handed on. -/
theorem delivery_exact_behind_faults :
    ∃ o, Sample.reader? = some o ∧
      let now := o.observed Sample.numbered (fun _ y => (.done, y)) [.settle]
      now.handed = [Sample.event .added, Sample.event .modified] ∧
        Offered Sample.streams [] now.calls ∧ DeliversExactly Sample.streams false now := by
  have offered : ∀ o, Sample.reader? = some o → Offered Sample.streams []
      (o.observed Sample.numbered (fun _ y => (.done, y)) [.settle]).calls := by
    rintro _ ⟨⟩
    exact ⟨.cons ⟨[.event (Sample.event .deleted)], rfl⟩
      (.cons ⟨[.event (Sample.event .deleted)], rfl⟩ .nil),
      fun h idle => by cases idle⟩
  exact ⟨_, rfl, rfl, offered _ rfl, (delivery_exact rfl [.settle] (offered _ rfl)).1⟩

end WatchDispatch.Watch
