import WatchDispatch.Proofs.Watch.Attended

/-!
# Waiting for the end of a session

A wait for the end takes the delivery of its session over before it begins. So the first wait that
returns has seen the end, and the session stays as it left it; but a wait that is given up takes the
delivery away with it, and every later wait returns at once, whatever the delivery does meanwhile.
-/

namespace WatchDispatch.Watch

variable {τ σ : Type}

inductive Wait where
  | finish
  /-- Asks for a stop first. -/
  | close

def Wait.happening : Wait → Happening τ σ
  | .finish => .finish
  | .close => .close

/-- Whether a wait begins, to whatever end. -/
def Happening.waits : Happening τ σ → Bool
  | .finish | .close | .abandonFinish => true
  | _ => false

namespace Owner

def answer (t : Transport τ) (sink : Sink σ) (o : Owner τ σ) : Wait → Finish
  | .finish => (o.pool.finish t.recorded sink o.session).1
  | .close => (o.pool.close t.recorded sink o.session).1

/-- Whether a wait is given up: one that has begun is left, or the delivery does not end. -/
def givesUp (t : Transport τ) (sink : Sink σ) (o : Owner τ σ) : Happening τ σ → Bool
  | .abandonFinish => !o.session.joined
  | .finish => o.answer t sink .finish = .pending
  | .close => o.answer t sink .close = .pending
  | _ => false

/-- Whether a wait was given up at some point of a run. -/
def gaveUp (t : Transport τ) (sink : Sink σ) (o : Owner τ σ) : List (Happening τ σ) → Bool
  | [] => false
  | happening :: earlier =>
      o.gaveUp t sink earlier || (o.after t sink earlier).givesUp t sink happening

/-- The session shows itself closed, its delivery has ended, and all that it obtained was given
back. -/
structure Finished (o : Owner τ σ) : Prop where
  closed : o.state = .closed
  ended : o.isRunning = false
  returned : granted o.calls = returned o.calls

end Owner

/-! ## The end of a delivery -/

theorem Delivery.Keeps.and {t : Transport τ} {sink : Sink σ} {R R' : Delivery → τ → Prop}
    (keeps : Delivery.Keeps t sink R) (keeps' : Delivery.Keeps t sink R') :
    Delivery.Keeps t sink (fun d x => R d x ∧ R' d x) where
  step := fun y both => ⟨keeps.step y both.1, keeps'.step y both.2⟩
  ask := fun both => ⟨keeps.ask both.1, keeps'.ask both.2⟩
  close := fun phase both => ⟨keeps.close phase both.1, keeps'.close phase both.2⟩

/-- The delivery has ended and shows it. -/
def Delivery.Gone (d : Delivery) : Prop := d.isRunning = false ∧ d.state = .closed

theorem keeps_gone (t : Transport τ) (sink : Sink σ) :
    Delivery.Keeps t sink (fun d _ => d.Gone) where
  step := fun {d x} y gone => by
    rw [d.step_of_ended t sink x y gone.1]
    exact gone
  ask := fun gone => gone
  close := fun _ gone => ⟨gone.1, rfl⟩

/-- A delivery that ends shows it unless the transport breaks down. -/
theorem Move.gone_of_ended {d d' : Delivery} {calls : List TransportCall}
    {handed : List (Event × Handled)} {acts : List Act} {turn : Turn}
    (move : Move d d' calls handed acts turn) (ended : d'.isRunning = false) :
    d' = d ∨ d'.state = .closed ∨ Crashed calls := by
  cases move with
  | expire => cases ended
  | renew => cases ended
  | unanswered => cases ended
  | stop => exact .inr (.inl rfl)
  | giveUp => exact .inr (.inl rfl)
  | escalate => exact .inr (.inl rfl)
  | refuse => exact .inr (.inl rfl)
  | expireCrash => exact .inr (.inr ⟨_, List.mem_cons_self⟩)
  | escalateCrash => exact .inr (.inr ⟨_, List.mem_cons_self⟩)
  | _ => exact .inl rfl

/-- If the delivery has ended, it shows that as long as the transport is whole. -/
def ShowsEnd (calls : List TransportCall) (d : Delivery) : Prop :=
  Crashed calls ∨ (d.isRunning = false → d.state = .closed)

theorem keeps_showsEnd (t : Transport τ) (sink : Sink σ) :
    Delivery.Keeps t.recorded sink (fun d x => ShowsEnd x.calls d) where
  step := fun {d x} y shows => by
    obtain ⟨calls, handed, recorded, -, -, move⟩ := d.step_moves t sink x y
    rw [recorded]
    rcases shows with ⟨h, mem⟩ | shows
    · exact .inl ⟨h, List.mem_append_right _ mem⟩
    · by_cases crashed : Crashed calls
      · obtain ⟨h, mem⟩ := crashed
        exact .inl ⟨h, List.mem_append_left _ mem⟩
      · refine .inr fun ended => ?_
        rcases move.gone_of_ended ended with same | closed | broken
        · rw [same] at ended ⊢
          exact shows ended
        · exact closed
        · exact absurd broken crashed
  ask := fun shows => shows
  close := fun _ _ => .inr fun _ => rfl

theorem keeps_sound_showsEnd (t : Transport τ) (sink : Sink σ) :
    Delivery.Keeps t.recorded sink (fun d x => Sound x.calls d ∧ ShowsEnd x.calls d) :=
  (keeps_sound t sink).and (keeps_showsEnd t sink)

theorem Sound.returned {calls : List TransportCall} {d : Delivery} (sound : Sound calls d)
    (ended : d.isRunning = false) : granted calls = Watch.returned calls := by
  rw [sound.ledger.granted_eq, d.held_of_ended ended]
  rfl

/-! ## Waiting -/

namespace Pool

variable {numbers : List Nat} {p : Pool (Recorded τ) σ}

/-- A delivery that is asked to stop needs no owner any more. -/
theorem Attended.requestStop (s : Session) (attended : p.Attended (s.number :: numbers)) :
    (p.requestStop s).Attended numbers := by
  obtain ⟨ready, woken, self, kept⟩ :=
    wake_eq s.number (p.modify s.number fun d => { d with stopAsked := true })
  rw [Pool.requestStop, woken]
  exact attended.stop self kept

theorem Attended.finish (t : Transport τ) (sink : Sink σ) (s : Session)
    (attended : p.Attended numbers) : (p.finish t.recorded sink s).2.2.Attended numbers := by
  rcases p.finish_cases t.recorded sink s with ⟨_, same⟩ | ⟨_, ⟨d, outcome, -, -, same⟩ | same⟩
    <;> rw [same]
  · exact attended
  · exact (attended.settle t sink).publishClosed s.number
  · exact attended.settle t sink

/-- Every wait takes the delivery over, whether it returns or not. -/
theorem joined_finish (t : Transport τ) (sink : Sink σ) (s : Session) (p : Pool τ σ) :
    (p.finish t sink s).2.1.joined = true := by
  rcases p.finish_cases t sink s with ⟨joined, same⟩ | ⟨_, ⟨d, outcome, -, -, same⟩ | same⟩
    <;> rw [same]
  exact joined

/-- The first wait has seen the end if it returns. -/
theorem gone_of_finish (t : Transport τ) (sink : Sink σ) {s : Session} (waiting : s.joined = false)
    {d : Delivery} (only : (p.settle t.recorded sink).deliveries = [d])
    (returns : (p.finish t.recorded sink s).1 ≠ .pending) :
    (p.finish t.recorded sink s).2.2.Alone (fun d _ => d.Gone) := by
  rcases p.finish_cases t.recorded sink s with ⟨joined, _⟩ |
    ⟨_, ⟨d', outcome, there, phase, same⟩ | same⟩
  · rw [waiting] at joined
    cases joined
  · obtain ⟨first, rfl⟩ : s.number = 0 ∧
      d = d' := by simpa [only, List.getElem?_singleton] using there
    rw [same]
    exact ⟨{ d with state := .closed }, by simp [publishClosed, modify, only, first],
      by simp [Delivery.isRunning, phase], rfl⟩
  · rw [same] at returns
    exact absurd rfl returns

/-- Nobody waits in vain for a delivery that was asked to stop. -/
theorem Attended.finish_returns (t : Transport τ) (sink : Sink σ) {s : Session}
    (attended : p.Attended []) (inside : s.number < p.deliveries.length) :
    (p.finish t.recorded sink s).1 ≠ .pending := by
  cases joined : s.joined with
  | true => simp [Pool.finish, joined]
  | false =>
    rw [← settle_length t.recorded sink p] at inside
    have ended := attended.settle_over t sink _ (List.getElem_mem inside)
    obtain ⟨outcome, phase⟩ := Delivery.phase_of_ended ended
    rw [finish_of_ended t.recorded sink joined (List.getElem?_eq_getElem inside) phase]
    cases outcome <;> simp [finishOf]

end Pool

namespace Owner

variable {t : Transport τ} {sink : Sink σ} {o : Owner τ σ}

theorem perform_attended {numbers : List Nat} (attended : o.pool.Attended numbers)
    (happening : Happening τ σ) : (o.perform t sink happening).pool.Attended numbers := by
  have stopped : (o.pool.requestStop o.session).Attended numbers :=
    (attended.mono fun _ mem => List.mem_cons_of_mem _ mem).requestStop o.session
  cases happening with
  | requestStop => exact stopped
  | drop => exact stopped
  | finish => exact attended.finish t sink o.session
  | close => exact stopped.finish t sink o.session
  | abandonFinish => exact attended
  | wake =>
    obtain ⟨ready, woken, -, kept⟩ := Pool.wake_eq o.session.number o.pool
    rw [perform, woken]
    exact attended.queue kept
  | turn => exact attended.turn t sink
  | settle => exact attended.settle t sink
  | elsewhere x y => exact ⟨attended.queued, attended.owned⟩

theorem after_attended {numbers : List Nat} (attended : o.pool.Attended numbers)
    (run : List (Happening τ σ)) : (o.after t sink run).pool.Attended numbers := by
  induction run with
  | nil => exact attended
  | cons happening earlier ih => exact perform_attended ih happening

/-- What holds at every point of a run. -/
structure Watched (gaveUp : Bool) (o : Owner τ σ) : Prop where
  number : o.session.number = 0
  alone : o.pool.Alone (fun d x => Sound x.calls d ∧ ShowsEnd x.calls d)
  attended : o.pool.Attended [0]
  /-- A wait that was given up has the delivery. -/
  lost : gaveUp = true → o.session.joined = true
  /-- If none was given up, one that began has returned. -/
  seen : o.session.joined = true → gaveUp = true ∨ o.pool.Alone (fun d _ => d.Gone)

theorem open?_watched {gvkKey : String} {scope : Scope} {x : τ} {y : σ}
    (opened : open? t sink gvkKey scope x y = some o) : o.Watched false := by
  obtain ⟨h, state, -, rfl⟩ := open?_eq opened
  refine ⟨rfl,
    ⟨_, rfl, ⟨.granted .start, .inr (by simp [Phase.held])⟩, .inr (by simp [Delivery.isRunning])⟩,
    ⟨?_, ?_⟩, by simp, by simp⟩
  · intro n d there running asked
    cases n <;> cases there
    cases asked
  · intro n d there running
    cases n <;> cases there
    exact .inr List.mem_cons_self

theorem perform_joined (happening : Happening τ σ) :
    (o.perform t sink happening).session.joined = (o.session.joined || happening.waits) := by
  cases happening with
  | finish =>
      exact (Pool.joined_finish t.recorded sink o.session o.pool).trans (Bool.or_true _).symm
  | close => exact (Pool.joined_finish t.recorded sink o.session _).trans (Bool.or_true _).symm
  | abandonFinish => exact (Bool.or_true _).symm
  | _ => exact (Bool.or_false _).symm

namespace Watched

variable {gaveUp : Bool}

/-- What the first wait leaves if it is not given up. -/
theorem first_wait (watched : o.Watched gaveUp) (waiting : o.session.joined = false) (wait : Wait)
    (returns : o.answer t sink wait ≠ .pending) :
    (o.perform t sink wait.happening).pool.Alone (fun d _ => d.Gone) := by
  have keeps := keeps_sound_showsEnd t sink
  cases wait with
  | finish =>
    obtain ⟨d, only, -⟩ := watched.alone.settle keeps
    exact Pool.gone_of_finish t sink waiting only returns
  | close =>
    obtain ⟨d, only, -⟩ := (watched.alone.requestStop keeps o.session).settle keeps
    exact Pool.gone_of_finish t sink waiting only returns

/-- The first wait that begins is given up, or the delivery is gone after it. -/
theorem first_begun (t : Transport τ) (sink : Sink σ) (watched : o.Watched gaveUp)
    (waiting : o.session.joined = false) {happening : Happening τ σ}
    (begins : happening.waits = true) :
    o.givesUp t sink happening = true ∨
    (o.perform t sink happening).pool.Alone (fun d _ => d.Gone) := by
  have seen : ∀ wait : Wait, o.givesUp t sink wait.happening = true ∨
      (o.perform t sink wait.happening).pool.Alone (fun d _ => d.Gone) := by
    intro wait
    by_cases pending : o.answer t sink wait = .pending
    · exact .inl (by cases wait <;> simp [Wait.happening, givesUp, pending])
    · exact .inr (watched.first_wait waiting wait pending)
  cases happening with
  | abandonFinish => exact .inl (by simp [givesUp, waiting])
  | finish => exact seen .finish
  | close => exact seen .close
  | _ => cases begins

theorem perform (watched : o.Watched gaveUp) (happening : Happening τ σ) :
    (o.perform t sink happening).Watched (gaveUp || o.givesUp t sink happening) := by
  refine ⟨(o.perform_number t sink happening).trans watched.number,
    perform_alone (keeps_sound_showsEnd t sink) watched.alone happening
      (fun _ _ _ _ holds => holds), perform_attended watched.attended happening, ?_, ?_⟩
  · intro given
    rw [perform_joined, Bool.or_eq_true_iff]
    refine (Bool.or_eq_true_iff.mp given).imp watched.lost fun now => ?_
    cases happening with
    | abandonFinish => rfl
    | finish => rfl
    | close => rfl
    | _ => cases now
  · intro joined
    rw [perform_joined, Bool.or_eq_true_iff] at joined
    cases waiting : o.session.joined with
    | true =>
      refine (watched.seen waiting).imp (fun given => by rw [given, Bool.true_or]) fun gone => ?_
      exact perform_alone (keeps_gone t.recorded sink) gone happening fun _ _ _ _ gone => gone
    | false =>
      have ends := watched.first_begun t sink waiting (joined.resolve_left (by simp [waiting]))
      exact ends.imp_left fun gives => Bool.or_eq_true_iff.mpr (.inr gives)

/-- What the session shows is what its delivery shows. -/
theorem delivery (watched : o.Watched gaveUp) :
    ∃ d, o.pool.deliveries = [d] ∧ o.state = d.state ∧ o.isRunning = d.isRunning ∧
      Sound o.calls d ∧ ShowsEnd o.calls d := by
  obtain ⟨d, only, sound, shows⟩ := watched.alone
  refine ⟨d, only, ?_, ?_, sound, shows⟩
  · simp [state, Pool.state, Pool.delivery?, watched.number, only]
  · simp [isRunning, Pool.isRunning, only]

/-- A session whose delivery is gone has finished. -/
theorem finished (watched : o.Watched gaveUp) (gone : o.pool.Alone (fun d _ => d.Gone)) :
    o.Finished := by
  obtain ⟨d, only, state, running, sound, -⟩ := watched.delivery
  obtain ⟨e, same, ended, closed⟩ := gone
  obtain rfl : d = e := by simpa [only] using same
  exact ⟨state.trans closed, running.trans ended, sound.returned ended⟩

/-- A delivery that was asked to stop comes to its end, whatever became of the waits. -/
theorem ends (watched : o.Watched gaveUp) (attended : o.pool.Attended []) :
    let rest := o.perform t sink .settle
    rest.isRunning = false ∧ granted rest.calls = returned rest.calls ∧
      (rest.state = .closed ∨ Crashed rest.calls) := by
  intro rest
  have isOver : rest.pool.Over := attended.settle_over t sink
  have resting : rest.Watched _ := watched.perform .settle
  obtain ⟨d, only, state, running, sound, shows⟩ := resting.delivery
  have ended : d.isRunning = false := isOver d (by rw [only]; exact List.mem_singleton_self d)
  exact ⟨running.trans ended, sound.returned ended,
    (shows.imp_right fun closed => state.trans (closed ended)).symm⟩

end Watched

theorem after_watched {gaveUp : Bool} (watched : o.Watched gaveUp) (run : List (Happening τ σ)) :
    (o.after t sink run).Watched (gaveUp || o.gaveUp t sink run) := by
  induction run with
  | nil => exact (Bool.or_false gaveUp).symm ▸ watched
  | cons happening earlier ih =>
    rw [Owner.gaveUp, ← Bool.or_assoc]
    exact ih.perform happening

theorem after_gone (gone : o.pool.Alone (fun d _ => d.Gone)) (run : List (Happening τ σ)) :
    (o.after t sink run).pool.Alone (fun d _ => d.Gone) := by
  induction run with
  | nil => exact gone
  | cons happening earlier ih =>
    exact perform_alone (keeps_gone t.recorded sink) ih happening fun _ _ _ _ gone => gone

/-- A wait for a delivery that an earlier one took asks for a stop at most. -/
theorem wait_of_joined (joined : o.session.joined = true) (wait : Wait) :
    o.answer t sink wait = .finished ∧
      o.perform t sink wait.happening = match wait with
        | .finish => o
        | .close => o.perform t sink .requestStop := by
  cases wait <;> simp [answer, Wait.happening, perform, Pool.close, Pool.finish, joined]

end Owner

/-- As long as no wait for the end of a session was given up, a `finish` or `close` that returns
leaves it finished for good, and a `close` always returns. After a wait was given up they return at
once and look at nothing: a `finish` changes nothing, a `close` only asks for a stop. Either way a
session that was closed comes to its end once nothing moves, and shows it unless the transport broke
down. -/
theorem wait_sees_end_unless_given_up {t : Transport τ} {sink : Sink σ} {gvkKey : String}
    {scope : Scope} {x : τ} {y : σ} {o : Owner τ σ}
    (opened : Owner.open? t sink gvkKey scope x y = some o) (run : List (Happening τ σ))
    (wait : Wait) :
    let s := o.after t sink run
    let s' := s.perform t sink wait.happening
    (o.gaveUp t sink run = false →
      (s.answer t sink wait ≠ .pending → ∀ later, (s'.after t sink later).Finished) ∧
      (wait = .close → s.answer t sink wait ≠ .pending)) ∧
    (o.gaveUp t sink run = true → s.answer t sink wait = .finished ∧
      s' = match wait with
        | .finish => s
        | .close => s.perform t sink .requestStop) ∧
    (wait = .close → ∀ later,
      let rest := (s'.after t sink later).perform t sink .settle
      rest.isRunning = false ∧ granted rest.calls = returned rest.calls ∧
        (rest.state = .closed ∨ Crashed rest.calls)) := by
  intro s s'
  have watched : s.Watched (o.gaveUp t sink run) :=
    Owner.after_watched (Owner.open?_watched opened) run
  have onward : s'.Watched _ := watched.perform wait.happening
  have stopped : (s.pool.requestStop s.session).Attended [] :=
    Pool.Attended.requestStop s.session (watched.number.symm ▸ watched.attended)
  refine ⟨fun none => ⟨?_, ?_⟩, fun given => Owner.wait_of_joined (watched.lost given) wait, ?_⟩
  · intro returns later
    have gone : s'.pool.Alone (fun d _ => d.Gone) := by
      cases waiting : s.session.joined with
      | false => exact watched.first_wait waiting wait returns
      | true =>
        have before := (watched.seen waiting).resolve_left (by simp [none])
        exact Owner.perform_alone (keeps_gone t.recorded sink) before _ fun _ _ _ _ gone => gone
    exact (Owner.after_watched onward later).finished (Owner.after_gone gone later)
  · rintro rfl
    obtain ⟨d, only, -⟩ := watched.alone.requestStop (keeps_sound_showsEnd t sink) s.session
    exact stopped.finish_returns t sink (by simp [only, watched.number])
  · rintro rfl later
    have attended : s'.pool.Attended [] := stopped.finish t sink s.session
    exact (Owner.after_watched onward later).ends (Owner.after_attended attended later)

namespace Sample

/-- A session whose stream has nothing to offer. -/
def quiet? : Option (Owner (Nat × List Item) Unit) :=
  Owner.open? transport (fun _ y => (.done, y)) "example.com/v1/Widget" .allNamespaces (0, []) ()

end Sample

/-- A session that is closed after its watch expired twice is finished for good. Had a wait been
given up before, its `close` would only ask for the stop. -/
theorem wait_sees_end_after_expiries :
    ∃ o, Sample.owner? = some o ∧
      let settled := o.after Sample.transport (fun _ y => (.done, y)) [.settle]
      let given := o.after Sample.transport (fun _ y => (.done, y)) [.abandonFinish]
      (∀ later,
        ((settled.perform Sample.transport (fun _ y => (.done, y)) .close).after Sample.transport
        (fun _ y => (.done, y)) later).Finished) ∧
      given.answer Sample.transport (fun _ y => (.done, y)) .close = .finished ∧
      given.perform Sample.transport (fun _ y => (.done, y)) .close =
        given.perform Sample.transport (fun _ y => (.done, y)) .requestStop :=
  ⟨_, rfl, ((wait_sees_end_unless_given_up rfl [.settle] .close).1 (by decide)).1 (by decide),
    (wait_sees_end_unless_given_up rfl [.abandonFinish] .close).2.1 (by decide)⟩

/-- After a wait that was given up, `finish` and `close` return while the delivery goes on and holds
its subscription. -/
theorem wait_returns_unfinished :
    ∃ o, Sample.quiet? = some o ∧
      let given := o.after Sample.transport (fun _ y => (.done, y)) [.finish]
      ∀ wait : Wait, given.answer Sample.transport (fun _ y => (.done, y)) wait = .finished ∧
        let s := given.perform Sample.transport (fun _ y => (.done, y)) wait.happening
        s.state = .active ∧ s.isRunning = true ∧ outstanding s.calls = [⟨0, .allNamespaces⟩] :=
  ⟨_, rfl, fun wait => by cases wait <;> decide⟩

end WatchDispatch.Watch
