import WatchDispatch.Proofs.Watch.Diaries
import WatchDispatch.Proofs.Watch.LifeCycle
import WatchDispatch.Proofs.Watch.Waiting

/-!
# What a close answers

The first wait that returns tells how the delivery ended. It fails with the fault of the transport
if the delivery took a stop while it held a subscription and could not give that back, and with a
breakdown if the transport crashed at a release. After every other end it is fine, whatever became
of the releases: after a fatal fault, and after a stop between two subscriptions. Everything that is
asked of the session later is answered at once and does nothing.
-/

namespace WatchDispatch.Watch

variable {τ σ : Type}

/-! ## How deliveries end -/

def Act.isClosing : Act → Bool
  | .published .closed => true
  | _ => false

/-- The acts, latest first, up to the last one that does more than to show the session closed. -/
def upToLast (acts : List Act) : List Act := acts.dropWhile Act.isClosing

/-- The delivery took a stop while it held this subscription. Only then a session shows itself
closed before it gives its subscription back. -/
def TookStop (h : Handle) (result : Released) (acts : List Act) : Prop :=
  ∃ earlier, upToLast acts = .released h result :: .published .closed :: earlier ∧
    obtained earlier = h :: (releases earlier).map Prod.fst

/-- The delivery has given its expired subscription back and has no other yet. -/
inductive Between : List Act → Prop
  | renewing (h) {result} (earlier) : result ≠ .crashed →
      Between (.released h result :: .published .starting :: earlier)
  | awaiting (earlier) : Between (.unanswered :: earlier)

/-- How an end shows in the last acts. -/
inductive Ending : Outcome → List Act → Prop
  | stop {h earlier} (result : Released) : obtained earlier = h :: (releases earlier).map Prod.fst →
      Ending result.outcome (.released h result :: .published .closed :: earlier)
  | between {acts} : Between acts → Ending .stopped acts
  | fatal (f) (earlier) : Ending .escalated (.reported f :: earlier)
  | crash (h) (earlier) : Ending .aborted (.released h .crashed :: earlier)

/-- What a delivery has done last, depending on where it stands. -/
def Phase.Left : Phase → List Act → Prop
  | .watching _, _ => True
  | .renewing _, acts | .awaiting _, acts => Between acts
  | .ended outcome, acts => Ending outcome (upToLast acts)

theorem Between.upToLast_eq {acts : List Act} (between : Between acts) : upToLast acts = acts := by
  cases between <;> rfl

theorem Ending.releaseFailed_iff {outcome : Outcome} {acts : List Act}
    (ending : Ending outcome acts) {f : Fault} :
    outcome = .releaseFailed f ↔ ∃ h earlier,
    acts = .released h (.failed f) :: .published .closed :: earlier ∧
      obtained earlier = h :: (releases earlier).map Prod.fst := by
  cases ending with
  | @stop h earlier result held =>
    cases result with
    | failed g =>
      constructor
      · rintro ⟨⟩
        exact ⟨h, earlier, rfl, held⟩
      · rintro ⟨_, _, same, -⟩
        cases same
        rfl
    | _ => simp [Released.outcome]
  | between between => cases between <;> simp
  | _ => simp

theorem Ending.stopped_of_between {outcome : Outcome} {acts : List Act}
    (ending : Ending outcome acts) (between : Between acts) : outcome = .stopped := by
  cases ending with
  | stop => cases between
  | between => rfl
  | fatal => cases between
  | crash =>
    cases between
    contradiction

/-- The diary of a delivery tells what it holds and how it ended; if it has reported a fault, by
that. -/
structure Delivery.Accountable (d : Delivery) (diary : List Act) : Prop where
  faithful : d.Faithful diary
  left : d.phase.Left diary
  reported : ∀ f, .reported f ∈ diary → d.phase = .ended .escalated

section Moves

variable {d d' : Delivery} {calls : List TransportCall} {handed : List (Event × Handled)}
    {acts diary : List Act}
  {turn : Turn} (move : Move d d' calls handed acts turn)

include move

theorem Move.left (accountable : d.Accountable diary) : d'.phase.Left (acts.reverse ++ diary) := by
  have left := accountable.left
  cases move with
  | finished => exact left
  | wait => exact left
  | stop result phase =>
    have account := accountable.faithful.obtained
    rw [phase] at account
    exact .stop result account
  | giveUp phase =>
    have between : Between diary := by
      rcases phase with phase | phase <;> rw [phase] at left <;> exact left
    change Ending .stopped (upToLast diary)
    rw [between.upToLast_eq]
    exact .between between
  | expire reason result _ _ whole => exact .renewing _ _ whole
  | expireCrash => exact .crash _ _
  | escalate result _ _ fatal =>
    rw [List.reverse_append]
    exact .fatal _ _
  | escalateCrash _ _ fatal =>
    rw [List.reverse_append]
    exact .crash _ _
  | renew => exact trivial
  | refuse => exact .fatal _ _
  | unanswered => exact .awaiting _
  | idle phase => exact left
  | busy phase => exact left
  | hand phase =>
    rw [phase]
    trivial

/-- A fault is reported at the end. -/
theorem Move.escalated_of_reported {f : FatalFault} (mem : .reported f ∈ acts) :
    d'.phase = .ended .escalated := by
  cases move with
  | escalate => rfl
  | refuse => rfl
  | escalateCrash _ _ fatal => cases fatal <;> simp at mem
  | _ => simp at mem

end Moves

theorem habit_accountable : Habit Delivery.Accountable where
  opened := fun gvkKey scope h => ⟨habit_faithful.opened gvkKey scope h, trivial, by simp⟩
  move := fun {d d' calls handed acts turn diary} move accountable => by
    refine ⟨habit_faithful.move move accountable.faithful, move.left accountable, fun f mem => ?_⟩
    rcases List.mem_append.mp mem with new | old
    · exact move.escalated_of_reported (List.mem_reverse.mp new)
    · have phase := accountable.reported f old
      have ended : d.isRunning = false := by simp [Delivery.isRunning, phase]
      rw [(move.eq_of_ended ended).1]
      exact phase
  ask := fun accountable =>
    ⟨habit_faithful.ask accountable.faithful, accountable.left, accountable.reported⟩
  close := fun {d diary outcome} phase accountable => by
    refine ⟨habit_faithful.close phase accountable.faithful, ?_, fun f mem => ?_⟩
    · have left := accountable.left
      rw [phase] at left
      change Phase.Left d.phase _
      rw [phase]
      exact left
    · exact accountable.reported f (by simpa using mem)

/-- A habit is kept in every course of a session. -/
theorem Habit.course {R : Delivery → List Act → Prop} (habit : Habit R) {t : Transport τ}
    {sink : Sink σ} {others : σ → σ → Prop} {v v' : View σ}
    (course : View.Course t sink others v v') (holds : R v.delivery v.acts) :
    R v'.delivery v'.acts := by
  induction course with
  | refl => exact holds
  | tail _ next ih =>
    cases next with
    | move queued move => exact habit.move move ih
    | ask => exact habit.ask ih
    | close phase => exact habit.close phase ih
    | wake => exact ih
    | elsewhere => exact ih

namespace Owner

variable {t : Transport τ} {sink : Sink σ} {o : Owner τ σ} {v : View σ}

theorem perform_scope (t : Transport τ) (sink : Sink σ) (o : Owner τ σ)
    (happening : Happening τ σ) : (o.perform t sink happening).session.scope = o.session.scope := by
  have finish : ∀ p : Pool (Recorded τ) σ, (p.finish t.recorded sink o.session).2.1.scope =
      o.session.scope := by
    intro p
    rcases p.finish_cases t.recorded sink o.session with ⟨_, same⟩ | ⟨_, ⟨_, _, _, _, same⟩ | same⟩
      <;> rw [same]
  cases happening with
  | finish => exact finish _
  | close => exact finish _
  | _ => rfl

theorem after_scope (t : Transport τ) (sink : Sink σ) (o : Owner τ σ) (run : List (Happening τ σ)) :
    (o.after t sink run).session.scope = o.session.scope := by
  induction run with
  | nil => rfl
  | cons happening earlier ih => exact (perform_scope t sink _ happening).trans ih

theorem after_joined (t : Transport τ) (sink : Sink σ) (o : Owner τ σ)
    (run : List (Happening τ σ)) :
    (o.after t sink run).session.joined = (o.session.joined || run.any Happening.waits) := by
  induction run with
  | nil => exact (Bool.or_false _).symm
  | cons happening earlier ih =>
    rw [after, perform_joined, ih, List.any_cons, Bool.or_assoc, Bool.or_comm happening.waits]

/-- Whatever is done to a session, it follows a course, and it was asked to stop if the run asked
for it. -/
theorem Shows.after (shows : o.Shows v) (t : Transport τ) (sink : Sink σ)
    (run : List (Happening τ σ)) :
    ∃ v', (o.after t sink run).Shows v' ∧ View.Course t sink Unbound v v' ∧
      v'.delivery.stopAsked = (v.delivery.stopAsked || run.any Happening.asksStop) := by
  induction run with
  | nil => exact ⟨v, shows, .refl, (Bool.or_false _).symm⟩
  | cons happening earlier ih =>
    obtain ⟨v', before, course, asked⟩ := ih
    have free : ∀ x y, happening = .elsewhere x y → Unbound (o.after t sink earlier).pool.sink y :=
      fun _ _ _ => trivial
    obtain ⟨v'', after, onward, also⟩ := before.perform t sink happening free
    refine ⟨v'', after, course.trans onward, ?_⟩
    rw [also, asked, List.any_cons, Bool.or_assoc, Bool.or_comm happening.asksStop]

/-- The first wait that returns answers how the delivery ended. -/
theorem answer_of_first (waiting : o.session.joined = false) (wait : Wait)
    (returns : o.answer t sink wait ≠ .pending)
    (shows : (o.perform t sink wait.happening).Shows v) :
    ∃ outcome, v.delivery.phase = .ended outcome ∧
      o.answer t sink wait = Pool.finishOf (t.breakdown o.session.number) o.session.scope
        outcome := by
  have here : (o.perform t sink wait.happening).pool.deliveries[o.session.number]? =
      some v.delivery := by
    rw [← perform_number t sink o wait.happening]
    exact Pool.Shows.here shows
  have seen : ∀ p : Pool (Recorded τ) σ,
      (p.finish t.recorded sink o.session).2.2.deliveries[o.session.number]? = some v.delivery →
      (p.finish t.recorded sink o.session).1 ≠ .pending →
      ∃ outcome, v.delivery.phase = .ended outcome ∧
        (p.finish t.recorded sink o.session).1 =
          Pool.finishOf (t.breakdown o.session.number) o.session.scope outcome := by
    intro p here returns
    rcases p.finish_cases t.recorded sink o.session with ⟨joined, _⟩ |
      ⟨_, ⟨d, outcome, there, phase, same⟩ | same⟩
    · rw [waiting] at joined
      cases joined
    · rw [same] at here ⊢
      refine ⟨outcome, ?_, rfl⟩
      rw [← Option.some.inj ((Pool.getElem?_modify_self there).symm.trans here)]
      exact phase
    · rw [same] at returns
      exact absurd rfl returns
  cases wait with
  | finish => exact seen _ here returns
  | close => exact seen _ here returns

/-! ## After the end -/

/-- Nothing was done and nothing is shown anew. -/
structure AsLeft (o o' : Owner τ σ) : Prop where
  calls : o'.calls = o.calls
  journal : o'.pool.journal = o.pool.journal
  reports : o'.pool.reports = o.pool.reports
  state : o'.state = o.state

/-- Besides, the states of transport and sink are the same. -/
structure Untouched (o o' : Owner τ σ) : Prop extends AsLeft o o' where
  transport : o'.pool.transport = o.pool.transport
  sink : o'.pool.sink = o.pool.sink

theorem AsLeft.refl (o : Owner τ σ) : o.AsLeft o := ⟨rfl, rfl, rfl, rfl⟩

theorem AsLeft.trans {o' o'' : Owner τ σ} (left : o.AsLeft o') (again : o'.AsLeft o'') :
    o.AsLeft o'' :=
  ⟨again.calls.trans left.calls, again.journal.trans left.journal, again.reports.trans left.reports,
    again.state.trans left.state⟩

/-- Another queue is all that changes. -/
theorem Untouched.of_ready {p : Pool (Recorded τ) σ} {ready : List Nat}
    (same : p = { o.pool with ready }) : o.Untouched { o with pool := p } := by
  subst same
  exact ⟨⟨rfl, rfl, rfl, rfl⟩, rfl, rfl⟩

/-- A delivery that is gone does nothing when it has its turn. -/
theorem turn_of_gone {p : Pool (Recorded τ) σ} (t : Transport τ) (sink : Sink σ)
    (gone : p.Alone (fun d _ => d.Gone)) : ∃ ready, p.turn t.recorded sink = { p with ready } := by
  rcases p.turn_cases t.recorded sink with same | ⟨n, others, d, there, moved⟩
  · exact same
  · obtain ⟨e, only, ended, -⟩ := gone
    have here := there
    rw [only] at here
    obtain ⟨rfl, rfl⟩ : n = 0 ∧ e = d := by simpa [List.getElem?_singleton] using here
    refine ⟨others, ?_⟩
    rw [moved, Delivery.step_of_ended _ _ _ _ ended]
    simp [Pool.advance, Pool.requeue, Act.reports, only]

theorem settle_of_gone {p : Pool (Recorded τ) σ} (t : Transport τ) (sink : Sink σ)
    (gone : p.Alone (fun d _ => d.Gone)) :
    ∃ ready, p.settle t.recorded sink = { p with ready } := by
  refine Pool.settle_induction (P := fun q => ∃ ready, q = { p with ready }) ?_ ⟨p.ready, rfl⟩
  rintro _ ⟨ready, rfl⟩
  exact turn_of_gone t sink gone

theorem untouched_requestStop (t : Transport τ) (sink : Sink σ) (o : Owner τ σ) :
    o.Untouched (o.perform t sink .requestStop) := by
  obtain ⟨ready, woken, -, -⟩ :=
    Pool.wake_eq o.session.number (o.pool.modify o.session.number fun d =>
      { d with stopAsked := true })
  rw [perform, Pool.requestStop, woken]
  refine ⟨⟨rfl, rfl, rfl, ?_⟩, rfl, rfl⟩
  simp only [state, Pool.state, Pool.delivery?, Pool.modify, List.getElem?_modify, if_true]
  cases o.pool.deliveries[o.session.number]? <;> rfl

/-- A stop, a wait or a close touches nothing once the end was waited for. -/
theorem untouched_of_joined (t : Transport τ) (sink : Sink σ) (joined : o.session.joined = true)
    {further : Happening τ σ} (asks : further ∈ [.requestStop, .finish, .close]) :
    o.Untouched (o.perform t sink further) := by
  have finish : o.perform t sink .finish = o := (wait_of_joined joined .finish).2
  have close : o.perform t sink .close = o.perform t sink .requestStop :=
    (wait_of_joined joined .close).2
  simp only [List.mem_cons, List.not_mem_nil, or_false] at asks
  rcases asks with rfl | rfl | rfl
  · exact untouched_requestStop t sink o
  · rw [finish]
    exact ⟨.refl o, rfl, rfl⟩
  · rw [close]
    exact untouched_requestStop t sink o

/-- A session whose end was waited for stays as it was left. -/
theorem perform_asLeft (t : Transport τ) (sink : Sink σ) (joined : o.session.joined = true)
    (gone : o.pool.Alone (fun d _ => d.Gone)) (happening : Happening τ σ) :
    o.AsLeft (o.perform t sink happening) := by
  cases happening with
  | requestStop => exact (untouched_of_joined t sink joined (by simp)).toAsLeft
  | finish => exact (untouched_of_joined t sink joined (by simp)).toAsLeft
  | close => exact (untouched_of_joined t sink joined (by simp)).toAsLeft
  | drop => exact (untouched_requestStop t sink o).toAsLeft
  | abandonFinish => exact ⟨rfl, rfl, rfl, rfl⟩
  | wake =>
    obtain ⟨ready, woken, -, -⟩ := Pool.wake_eq o.session.number o.pool
    exact (Untouched.of_ready woken).toAsLeft
  | turn =>
    obtain ⟨ready, same⟩ := turn_of_gone t sink gone
    exact (Untouched.of_ready same).toAsLeft
  | settle =>
    obtain ⟨ready, same⟩ := settle_of_gone t sink gone
    exact (Untouched.of_ready same).toAsLeft
  | elsewhere x y => exact ⟨rfl, rfl, rfl, rfl⟩

theorem after_asLeft (t : Transport τ) (sink : Sink σ) (joined : o.session.joined = true)
    (gone : o.pool.Alone (fun d _ => d.Gone)) (later : List (Happening τ σ)) :
    o.AsLeft (o.after t sink later) := by
  induction later with
  | nil => exact .refl o
  | cons happening earlier ih =>
    refine ih.trans (perform_asLeft t sink ?_ (after_gone gone earlier) happening)
    rw [after_joined, joined, Bool.true_or]

end Owner

/-! ## The answer -/

/-- What the first wait that returns answers, given the acts of the session and the calls of its
transport, and the reason that is given for a breakdown. -/
structure Verdict (reason : String) (scope : Scope) (acts : List Act) (calls : List TransportCall)
    (answer : Finish) : Prop where
  closing : ∀ f, answer = .failed (.closing scope f) ↔ ∃ h, TookStop h (.failed f) acts
  aborted : answer = .failed (@WatchError.aborted reason scope) ↔ Crashed calls
  finished : answer = .finished ↔ ¬ Crashed calls ∧ ∀ h f, ¬ TookStop h (.failed f) acts
  /-- After a fatal fault, whatever became of the release. -/
  fatal : ∀ f, .reported f ∈ acts → answer = .finished
  /-- After a stop while no subscription was held, whatever became of the one that had expired. -/
  between : Between (upToLast acts) → answer = .finished

theorem Delivery.Accountable.verdict {d : Delivery} {acts : List Act} {calls : List TransportCall}
    {outcome : Outcome} (accountable : d.Accountable acts) (tells : Tells acts calls)
    (reason : String) (scope : Scope) (phase : d.phase = .ended outcome) :
    Verdict reason scope acts calls (Pool.finishOf reason scope outcome) := by
  have ending := accountable.left
  have crashed := accountable.faithful.crashed
  have reported := accountable.reported
  rw [phase] at ending crashed reported
  have aborted : outcome = .aborted ↔ Crashed calls := by
    rw [← tells.crashed_iff, ← crashed]
    exact ⟨congrArg _, Phase.ended.inj⟩
  have failed : ∀ f, outcome = .releaseFailed f ↔ ∃ h, TookStop h (.failed f) acts :=
    fun f => Ending.releaseFailed_iff ending
  refine ⟨fun f => ?_, ?_, ?_, fun f mem => ?_, fun between => ?_⟩
  · rw [← failed]
    cases outcome <;> simp [Pool.finishOf]
  · rw [← aborted]
    cases outcome <;> simp [Pool.finishOf]
  · rw [← aborted]
    have none : (∀ h f, ¬ TookStop h (.failed f) acts) ↔ ∀ f, outcome ≠ .releaseFailed f := by
      simp only [ne_eq, failed, not_exists]
      exact forall_comm
    rw [none]
    cases outcome <;> simp [Pool.finishOf]
  · obtain rfl := Phase.ended.inj (reported f mem)
    rfl
  · obtain rfl := Ending.stopped_of_between ending between
    rfl

/-- A session was opened, and no wait for its end has begun. The first wait that returns fails with
a fault of the transport exactly if the delivery took a stop while it held a subscription that the
transport failed to take back, and then a stop had been asked for. It fails with a breakdown exactly
if the transport crashed at a release. In all other cases it is fine: after a fatal fault, and after
a stop while an expired subscription was being replaced, even if something could not be given back.
The acts tell the calls of the transport. Whatever is done to the session then, it is closed and
does nothing; every stop, wait or close that is asked of it changes nothing, and every wait is
fine. -/
theorem first_wait_answers_end {t : Transport τ} {sink : Sink σ} {gvkKey : String} {scope : Scope}
    {x : τ} {y : σ} {o : Owner τ σ} (opened : Owner.open? t sink gvkKey scope x y = some o)
    (run : List (Happening τ σ)) (first : ∀ happening ∈ run, happening.waits = false) (wait : Wait)
    (returns : (o.after t sink run).answer t sink wait ≠ .pending) :
    let s := o.after t sink run
    let s' := s.perform t sink wait.happening
    let answer := s.answer t sink wait
    Verdict (t.breakdown s.session.number) scope s'.acts s'.calls answer ∧ Tells s'.acts s'.calls ∧
    (∀ f, answer = .failed (.closing scope f) →
      (wait.happening :: run).any Happening.asksStop = true) ∧
    ∀ later,
      let s'' := s'.after t sink later
      s''.state = .closed ∧ s'.AsLeft s'' ∧ (∀ wait, s''.answer t sink wait = .finished) ∧
      ∀ further ∈ [.requestStop, .finish, .close], s''.Untouched (s''.perform t sink further) := by
  intro s s' answer
  have waiting : s.session.joined = false := by
    have none : run.any Happening.waits = false := by simpa using first
    obtain ⟨h, state, -, rfl⟩ := Owner.open?_eq opened
    rw [Owner.after_joined, none]
    rfl
  have ofScope : s.session.scope = scope := by
    obtain ⟨h, state, -, rfl⟩ := Owner.open?_eq opened
    exact Owner.after_scope t sink _ run
  -- The wait itself is the last happening of the course that the answer is read off.
  obtain ⟨h, start⟩ := Owner.shows_of_open? opened
  obtain ⟨v, shows, course, asked⟩ := start.after t sink (wait.happening :: run)
  have accountable : v.delivery.Accountable v.acts :=
    habit_accountable.course course (habit_accountable.opened gvkKey scope h)
  have tells : Tells v.acts v.calls := ((View.cycles_opened gvkKey scope h y).course course).tells
  obtain ⟨outcome, phase, answers⟩ := Owner.answer_of_first waiting wait returns shows
  have acts : s'.acts = v.acts := Pool.Shows.acts shows
  have answered : answer = Pool.finishOf (t.breakdown s.session.number) scope outcome := by
    rw [← ofScope]
    exact answers
  rw [acts, show s'.calls = v.calls from shows.calls_eq, answered]
  refine ⟨accountable.verdict tells _ scope phase, tells, fun f closing => ?_, fun later => ?_⟩
  · by_contra unasked
    rw [Bool.not_eq_true] at unasked
    rw [unasked] at asked
    rcases accountable.faithful.unasked asked outcome phase with rfl | rfl <;> cases closing
  · have watched : s.Watched _ := Owner.after_watched (Owner.open?_watched opened) run
    have gone := watched.first_wait waiting wait returns
    have joined : s'.session.joined = true := by
      rw [Owner.perform_joined]
      cases wait <;> exact Bool.or_true _
    have left := Owner.after_asLeft t sink joined gone later
    have still : (s'.after t sink later).session.joined = true := by
      rw [Owner.after_joined, joined, Bool.true_or]
    refine ⟨?_, left, fun wait => (Owner.wait_of_joined still wait).1,
      fun further asks => Owner.untouched_of_joined t sink still asks⟩
    exact left.state.trans ((watched.perform wait.happening).finished gone).closed

namespace Sample

/-- A transport that takes no subscription back. -/
def stubborn : Transport (Nat × List Item) :=
  { transport with unsubscribe := fun _ x => (.failed (.failed "reset"), x) }

/-- A session whose watch expires, over such a transport. -/
def stubborn? : Option (Owner (Nat × List Item) Unit) :=
  Owner.open? stubborn (fun _ y => (.done, y)) "example.com/v1/Widget" .allNamespaces
    (0, [.fault (.expired "gone")]) ()

end Sample

/-- The session is closed after its watch was renewed, and the release fails. Had it been stopped
before the renewal, the release of the expired watch, which failed too, would be nobody's
concern. -/
theorem close_fails_after_renewal :
    ∃ o, Sample.stubborn? = some o ∧
      let renewed := o.after Sample.stubborn (fun _ y => (.done, y)) [.settle]
      let stopped := o.after Sample.stubborn (fun _ y => (.done, y)) [.requestStop, .turn]
      renewed.answer Sample.stubborn (fun _ y => (.done, y)) .close =
        .failed (.closing .allNamespaces (.failed "reset")) ∧
      (∀ later wait,
        ((renewed.perform Sample.stubborn (fun _ y => (.done, y)) .close).after Sample.stubborn
        (fun _ y => (.done, y)) later).answer Sample.stubborn (fun _ y => (.done, y)) wait =
          .finished) ∧
      stopped.answer Sample.stubborn (fun _ y => (.done, y)) .finish = .finished := by
  refine ⟨_, rfl, ?_, ?_, ?_⟩
  · refine ((first_wait_answers_end rfl [.settle] (by decide) .close (by decide)).1.closing _).mpr
      ?_
    exact ⟨⟨1, .allNamespaces⟩, _, rfl, rfl⟩
  · intro later wait
    exact ((first_wait_answers_end rfl [.settle] (by decide) .close (by decide)).2.2.2 later).2.2.1
      wait
  · refine (first_wait_answers_end rfl [.requestStop, .turn]
      (by decide) .finish (by decide)).1.between ?_
    exact .renewing ⟨0, .allNamespaces⟩ _ (by simp)

end WatchDispatch.Watch
