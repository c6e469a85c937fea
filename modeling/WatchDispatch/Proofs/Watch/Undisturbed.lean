import WatchDispatch.Proofs.Watch.Readings

/-!
# Sessions that nobody disturbs

A session that is not asked to stop, with a sink of its own that never crashes, comes to rest at the
end of its streams: the sink has taken their leading events, one stream after the other, and if the
last stream offers nothing but events, the session is active as before and has reported nothing.
-/

namespace WatchDispatch.Watch

open View (Course)

variable {τ σ : Type}

/-- The state of a sink after it took these events in order. -/
def Sink.takeAll (sink : Sink σ) (events : List Event) (y : σ) : σ :=
  events.foldl (fun y e => (sink e y).2) y

theorem Sink.takeAll_append (sink : Sink σ) (events later : List Event) (y : σ) :
    sink.takeAll (events ++ later) y = sink.takeAll later (sink.takeAll events y) :=
  List.foldl_append

theorem Takes.eq_takeAll {sink : Sink σ} {y y' : σ} {handed : List (Event × Handled)}
    (takes : Takes sink y handed y') : y' = sink.takeAll (handed.map Prod.fst) y := by
  cases takes with
  | nothing => rfl
  | event taken => simp [Sink.takeAll, taken]

/-- A sink that never crashes was not seen to crash. -/
theorem Takes.done {sink : Sink σ} {y y' : σ} {handed : List (Event × Handled)}
    (takes : Takes sink y handed y') (calm : ∀ e y, (sink e y).1 = .done) :
    ∀ entry ∈ handed, entry.2 = .done := by
  cases takes with
  | nothing => simp
  | @event e handled y' taken =>
    have done := calm e y
    rw [taken] at done
    simpa using done

/-- What a session has come to that began as `start` with a subscription at hand. -/
structure View.Undisturbed (v : View σ) (sink : Sink σ) (before : Reading) (start : View σ) :
    Prop where
  reads : Reads v.delivery.phase (readings [before] v.calls)
  sink : v.sink = sink.takeAll (leads (readings [before] v.calls)) start.sink
  ended : v.delivery.isRunning = false →
    ∀ reading ∈ (readings [before] v.calls).head?, Closed reading.items
  active : ∀ h, v.delivery.phase = .watching h → v.delivery.state = .active
  silent : v.delivery.isRunning = true →
    v.reports = start.reports ∧ Act.reports v.acts = Act.reports start.acts
  resting : v.Resting

/-- A delivery that goes on reports nothing, and is active while it reads a stream. -/
theorem Move.quiet_of_running {d d' : Delivery} {calls : List TransportCall}
    {handed : List (Event × Handled)} {acts : List Act} {turn : Turn}
    (move : Move d d' calls handed acts turn) (running : d'.isRunning = true)
    (active : ∀ h, d.phase = .watching h → d.state = .active) :
    Act.reports acts = [] ∧ ∀ h, d'.phase = .watching h → d'.state = .active := by
  cases move with
  | finished => exact ⟨rfl, active⟩
  | wait => exact ⟨rfl, active⟩
  | idle => exact ⟨rfl, active⟩
  | busy => exact ⟨rfl, active⟩
  | hand => exact ⟨rfl, active⟩
  | expire => exact ⟨rfl, by simp⟩
  | renew => exact ⟨rfl, fun _ _ => rfl⟩
  | unanswered => exact ⟨rfl, by simp⟩
  | _ => simp [Delivery.isRunning] at running

section Courses

variable {t : Transport τ} {sink : Sink σ} {before : Reading} {start v v' : View σ}

theorem View.Undisturbed.next (calm : ∀ e y, (sink e y).1 = .done)
    (holds : v.Undisturbed sink before start) (unasked : v'.delivery.stopAsked = false)
    (next : View.Next t sink (fun y y' => y = y') v v') : v'.Undisturbed sink before start := by
  have resting := holds.resting.next next
  cases next with
  | @move d calls handed acts turn y' queued move takes answered rests =>
    cases running : v.delivery.isRunning with
    | false =>
      obtain ⟨rfl, rfl, rfl, rfl⟩ := move.eq_of_ended running
      refine ⟨holds.reads, takes.eq_takeAll.trans holds.sink, holds.ended, holds.active,
        ?_, resting⟩
      intro goes
      simp [running] at goes
    | true =>
      have taken := takes.eq_takeAll
      refine ⟨?_, ?_, ?_, ?_, ?_, resting⟩
      · rw [readings_append]
        exact holds.reads.move move
      · rw [readings_append, holds.reads.leads_move move, Sink.takeAll_append, ← holds.sink]
        exact taken
      · intro ended
        rw [readings_append]
        rcases holds.reads.ends_move move running ended with asked | ⟨entry, mem, crashed⟩ | closed
        · rw [← move.stopAsked_eq, unasked] at asked
          cases asked
        · exact absurd (takes.done calm entry mem) crashed
        · exact closed
      · intro h phase
        have watching : d.phase = .watching h := phase
        have goes : d.isRunning = true := by simp [Delivery.isRunning, watching]
        exact (move.quiet_of_running goes holds.active).2 h phase
      · intro goes
        have quiet := (move.quiet_of_running goes holds.active).1
        obtain ⟨reports, told⟩ := holds.silent running
        refine ⟨?_, ?_⟩
        · rw [← reports]
          simp [quiet]
        · rw [Act.reports_append, Act.reports_reverse, quiet, told]
          rfl
  | ask => cases unasked
  | close finished =>
    refine { holds with active := ?_, resting := resting }
    intro h phase
    rw [finished] at phase
    cases phase
  | wake => exact { holds with resting := resting }
  | elsewhere same => exact { holds with sink := same ▸ holds.sink, resting := resting }

theorem View.Undisturbed.course (calm : ∀ e y, (sink e y).1 = .done)
    (holds : v.Undisturbed sink before start) (unasked : v'.delivery.stopAsked = false)
    (course : Course t sink (fun y y' => y = y') v v') : v'.Undisturbed sink before start := by
  -- A stop stays asked for, so none was asked for on the way.
  induction course with
  | refl => exact holds
  | @tail middle last _ next ih =>
    cases asked : middle.delivery.stopAsked with
    | false => exact (ih asked).next calm unasked next
    | true =>
      have stays := View.Course.stopAsked_mono (.single next) asked
      rw [unasked] at stays
      cases stays

/-- Reading that stopped at something other than an event did not read events only. -/
theorem Closed.not_events {items : List Item} {events : List Event} (closed : Closed items)
    (begins : items <+: events.map .event) : False := by
  obtain ⟨_, item, rfl, other⟩ := closed
  have mem := begins.subset (List.mem_append_right _ (List.mem_singleton_self item))
  obtain ⟨e, _, same⟩ := List.mem_map.mp mem
  exact other e same.symm

/-- All subscriptions were made and the last one offers nothing but events: a session that rests has
handed on what they offer, and goes on. -/
theorem View.Undisturbed.at_rest (holds : v.Undisturbed sink before start)
    {older : List (List Item)} {events : List Event}
    (offered : Offered (older ++ [events.map .event]) [before] v.calls)
    (made : (readings [before] v.calls).length = older.length + 1) (called : v.calls ≠ [])
    (unqueued : v.queued = false) :
    v.sink = sink.takeAll (older.flatMap lead ++ events) start.sink ∧ v.delivery.state = .active ∧
      v.reports = start.reports ∧ Act.reports v.acts = Act.reports start.acts := by
  obtain ⟨reading, earlier, read⟩ := List.exists_cons_of_ne_nil holds.reads.ne_nil
  obtain ⟨past, stream, taken, begins, others, whole⟩ := offered.split read
  rw [made, List.take_of_length_le (by simp)] at taken
  obtain ⟨rfl, rfl⟩ : older = past ∧ events.map Item.event = stream := by simpa using taken
  have unclosed : ¬ Closed reading.items := fun closed => closed.not_events begins
  have reads := read ▸ holds.reads
  have running : v.delivery.isRunning = true := by
    cases running : v.delivery.isRunning with
    | true => rfl
    | false => exact absurd (holds.ended running reading (by simp [read])) unclosed
  rcases holds.resting unqueued running with none | ⟨h, phase⟩ | ⟨h, phase, idle⟩
  · exact absurd none called
  · rw [phase] at reads
    cases reads with
    | awaiting _ expired => exact absurd (expired reading List.mem_cons_self).closed unclosed
  · refine ⟨?_, holds.active h phase, holds.silent running⟩
    have handed : leads earlier = older.flatMap lead :=
      flatMap_lead_eq others (by simpa using fun r mem => (reads.earlier r mem).closed)
    rw [holds.sink, read, leads_cons, handed, whole h idle, lead_events]

end Courses

end WatchDispatch.Watch
