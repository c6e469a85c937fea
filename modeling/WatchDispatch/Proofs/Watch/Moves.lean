import WatchDispatch.Proofs.Watch.SessionRun

/-!
# The moves of a delivery

Whatever the transport answers and however the sink takes an event, a step of a delivery is one of
the moves below. A move says which calls the transport took, what was handed to the sink, which acts
were noted and who goes next; the states of transport and sink do not occur in it. All that is
proved about runs of a session starts from these moves, none of it unfolds a step again.
-/

namespace WatchDispatch.Watch

variable {τ σ : Type}

/-- The transport gives this answer to this call in some state. -/
def Transport.Answers (t : Transport τ) : TransportCall → Prop
  | .subscribe scope answer => ∃ x, (t.subscribe scope x).1 = answer
  | .unsubscribe h result => ∃ x, (t.unsubscribe h x).1 = result
  | .next h item => ∃ x, (t.next h x).1 = item

theorem Act.reports_append (later earlier : List Act) :
    Act.reports (later ++ earlier) = Act.reports later ++ Act.reports earlier :=
  List.filterMap_append

theorem Act.reports_reverse (acts : List Act) :
    Act.reports acts.reverse = (Act.reports acts).reverse :=
  List.filterMap_reverse

def Released.outcome : Released → Outcome
  | .released => .stopped
  | .failed f => .releaseFailed f
  | .crashed => .aborted

/-- The sink goes from one state to another by what it is handed, one event at most. -/
inductive Takes (sink : Sink σ) (y : σ) : List (Event × Handled) → σ → Prop
  | nothing : Takes sink y [] y
  | event {e handled y'} : sink e y = (handled, y') → Takes sink y [(e, handled)] y'

/-- An item after which a delivery cannot go on: what is handed and noted of it, and the fault. -/
inductive Fatal : Item → List (Event × Handled) → List Act → Fault → Prop
  | crash (e message) : Fatal (.event e) [(e, .crashed message)] [.delivered e] (crashFault message)
  | fault (reason) : Fatal (.fault (.failed reason)) [] [] (.failed reason)
  | ending : Fatal .ended [] [] endFault

/-- What a delivery can do in one step: the delivery afterwards, the calls, latest first, what the
sink was handed, the acts, first one first, and who goes next. -/
inductive Move (d : Delivery) :
    Delivery → List TransportCall → List (Event × Handled) → List Act → Turn → Prop
  | finished {outcome} : d.phase = .ended outcome → Move d d [] [] [] .rest
  | wait {h} : d.phase = .awaiting h → d.stopAsked = false → Move d d [] [] [] .rest
  | stop {h} (result) : d.phase = .watching h → d.stopAsked = true →
      Move d { d with state := .closed, phase := .ended result.outcome } [.unsubscribe h result] []
        [.published .closed, .released h result] .rest
  | giveUp {h} : d.phase = .renewing h ∨ d.phase = .awaiting h → d.stopAsked = true →
      Move d { d with state := .closed, phase := .ended .stopped } [] [] [.published .closed] .rest
  | idle {h} : d.phase = .watching h → d.stopAsked = false → Move d d [.next h .idle] [] [] .rest
  | busy {h} : d.phase = .watching h → d.stopAsked = false → Move d d [.next h .busy] [] [] .pause
  | hand {h e} : d.phase = .watching h → d.stopAsked = false →
      Move d d [.next h (.event e)] [(e, .done)] [.delivered e] .again
  | expire {h} (reason result) : d.phase = .watching h → d.stopAsked = false → result ≠ .crashed →
      Move d { d with state := .starting, phase := .renewing h }
        [.unsubscribe h result, .next h (.fault (.expired reason))] []
        [.published .starting, .released h result] .again
  | expireCrash {h} (reason) : d.phase = .watching h → d.stopAsked = false →
      Move d { d with state := .starting, phase := .ended .aborted }
        [.unsubscribe h .crashed, .next h (.fault (.expired reason))] []
        [.published .starting, .released h .crashed] .rest
  | escalate {h item handed before f} (result) : d.phase = .watching h → d.stopAsked = false →
      Fatal item handed before f → result ≠ .crashed →
      Move d { d with state := .closed, phase := .ended .escalated }
        [.unsubscribe h result, .next h item] handed
        (before ++ [.released h result, .published .closed, .reported (d.fatal f)]) .rest
  | escalateCrash {h item handed before f} : d.phase = .watching h → d.stopAsked = false →
      Fatal item handed before f →
      Move d { d with phase := .ended .aborted } [.unsubscribe h .crashed, .next h item] handed
        (before ++ [.released h .crashed]) .rest
  | renew {h fresh turn} : d.phase = .renewing h → d.stopAsked = false → turn ≠ .rest →
      Move d { d with state := .active, phase := .watching fresh }
        [.subscribe d.scope (.granted fresh)] [] [.subscribed fresh, .published .active] turn
  | refuse {h f} : d.phase = .renewing h → d.stopAsked = false →
      Move d { d with state := .closed, phase := .ended .escalated }
        [.subscribe d.scope (.refused f)] []
        [.refused f, .published .closed, .reported (d.fatal (renewalFault f))] .rest
  | unanswered {h} : d.phase = .renewing h → d.stopAsked = false →
      Move d { d with phase := .awaiting h } [.subscribe d.scope .unanswered] [] [.unanswered] .rest

namespace Move

variable {d d' : Delivery} {calls : List TransportCall} {handed : List (Event × Handled)}
  {acts : List Act} {turn : Turn} (move : Move d d' calls handed acts turn)

include move

theorem own_eq : d'.gvkKey = d.gvkKey ∧ d'.scope = d.scope := by
  cases move <;> exact ⟨rfl, rfl⟩

theorem stopAsked_eq : d'.stopAsked = d.stopAsked := by
  cases move <;> rfl

/-- A delivery that has ended does nothing any more. -/
theorem eq_of_ended (ended : d.isRunning = false) :
    d' = d ∧ calls = [] ∧ handed = [] ∧ acts = [] := by
  cases move
  case finished => exact ⟨rfl, rfl, rfl, rfl⟩
  case giveUp phase _ => rcases phase with phase | phase
    <;> simp [Delivery.isRunning, phase] at ended
  all_goals simp_all [Delivery.isRunning]

end Move

/-- A step, seen from outside, is a move. -/
def Step.Moves (t : Transport τ) (sink : Sink σ) (d : Delivery) (x : Recorded τ) (y : σ)
    (s : Step (Recorded τ) σ) : Prop :=
  ∃ calls handed, s.transport.calls = calls ++ x.calls ∧ (∀ call ∈ calls, t.Answers call) ∧
    Takes sink y handed s.sink ∧ Move d s.delivery calls handed s.acts s.turn

namespace Delivery

variable (t : Transport τ) (sink : Sink σ) (d : Delivery) (h : Handle) (x : Recorded τ) (y : σ)

theorem stop_moves (phase : d.phase = .watching h) (asked : d.stopAsked = true) :
    (d.stop t.recorded h x y).Moves t sink d x y := by
  have move := Move.stop (t.unsubscribe h x.state).1 phase asked
  refine ⟨[.unsubscribe h (t.unsubscribe h x.state).1], [], rfl, ?_, .nothing, ?_⟩
  · simpa using ⟨x.state, rfl⟩
  · revert move
    cases released : (t.unsubscribe h x.state).1 <;>
      exact fun move => by
      simpa only [stop, Transport.recorded, released, Released.outcome] using move

theorem stopRenewal_moves (phase : d.phase = .renewing h ∨ d.phase = .awaiting h)
    (asked : d.stopAsked = true) : (d.stopRenewal t.recorded h x y).Moves t sink d x y :=
  ⟨[], [], rfl, by simp, .nothing, .giveUp phase asked⟩

/-- What a release after an item adds to the calls was answered by the transport. -/
theorem release_answered {item : Item} {result : Released} {state : τ}
    (taken : t.next h x.state = (item, state)) (released : (t.unsubscribe h state).1 = result) :
    ∀ call ∈ [TransportCall.unsubscribe h result, .next h item], t.Answers call := by
  intro call mem
  simp only [List.mem_cons, List.not_mem_nil, or_false] at mem
  rcases mem with rfl | rfl
  · exact ⟨state, released⟩
  · exact ⟨x.state, by rw [taken]⟩

theorem escalate_moves {item : Item} {handed : List (Event × Handled)} {before : List Act}
    {f : Fault} {state : τ} {y' : σ} (phase : d.phase = .watching h) (asked : d.stopAsked = false)
    (taken : t.next h x.state = (item, state)) (takes : Takes sink y handed y')
    (fatal : Fatal item handed before f) :
    (d.escalate t.recorded h f before ⟨state, .next h item :: x.calls⟩ y').Moves t sink d x y := by
  refine ⟨[.unsubscribe h (t.unsubscribe h state).1, .next h item], handed, ?_,
    release_answered t h x taken rfl, ?_, ?_⟩
  · cases released : (t.unsubscribe h state).1 <;> simp [escalate, Transport.recorded, released]
  · cases released : (t.unsubscribe h state).1 <;>
      simpa only [escalate, Transport.recorded, released] using takes
  · have whole := fun result => Move.escalate result phase asked fatal
    cases released : (t.unsubscribe h state).1 with
    | crashed =>
      simpa only [escalate, Transport.recorded, released] using Move.escalateCrash phase asked fatal
    | released => simpa only [escalate, Transport.recorded, released]
        using whole .released (by simp)
    | failed g => simpa only [escalate, Transport.recorded, released]
        using whole (.failed g) (by simp)

theorem expire_moves {reason : String} {state : τ} (phase : d.phase = .watching h)
    (asked : d.stopAsked = false) (taken : t.next h x.state = (.fault (.expired reason), state)) :
    (d.expire t.recorded h ⟨state, .next h (.fault (.expired reason)) :: x.calls⟩ y).Moves
      t sink d x
      y := by
  refine ⟨[.unsubscribe h (t.unsubscribe h state).1, .next h (.fault (.expired reason))], [], ?_,
    release_answered t h x taken rfl, ?_, ?_⟩
  · cases released : (t.unsubscribe h state).1 <;> simp [expire, Transport.recorded, released]
  · cases released : (t.unsubscribe h state).1 <;>
      simpa only [expire, Transport.recorded, released] using Takes.nothing
  · have whole := fun result => Move.expire reason result phase asked
    cases released : (t.unsubscribe h state).1 with
    | crashed =>
      simpa only [expire, Transport.recorded, released] using Move.expireCrash reason phase asked
    | released => simpa only [expire, Transport.recorded, released] using whole .released (by simp)
    | failed g => simpa only [expire, Transport.recorded, released]
        using whole (.failed g) (by simp)

theorem renew_moves (phase : d.phase = .renewing h) (asked : d.stopAsked = false) :
    (d.renew t.recorded h x y).Moves t sink d x y := by
  have answers : t.Answers (.subscribe d.scope (t.subscribe d.scope x.state).1) := ⟨x.state, rfl⟩
  rcases answer : t.subscribe d.scope x.state with ⟨fresh | f | _, state⟩
  · refine ⟨[.subscribe d.scope (.granted fresh)], [], ?_, ?_, ?_, ?_⟩
    · simp [renew, Transport.recorded, answer]
    · simpa [answer] using answers
    · simpa only [renew, Transport.recorded, answer] using Takes.nothing
    · have turn : (if t.suspends then Turn.pause else .again) ≠ .rest := by split <;> simp
      simp only [renew, Transport.recorded, answer]
      exact Move.renew phase asked turn
  · refine ⟨[.subscribe d.scope (.refused f)], [], ?_, ?_, ?_, ?_⟩
    · simp [renew, Transport.recorded, answer]
    · simpa [answer] using answers
    · simpa only [renew, Transport.recorded, answer] using Takes.nothing
    · simpa only [renew, Transport.recorded, answer] using Move.refuse phase asked
  · refine ⟨[.subscribe d.scope .unanswered], [], ?_, ?_, ?_, ?_⟩
    · simp [renew, Transport.recorded, answer]
    · simpa [answer] using answers
    · simpa only [renew, Transport.recorded, answer] using Takes.nothing
    · simpa only [renew, Transport.recorded, answer] using Move.unanswered phase asked

theorem take_moves (phase : d.phase = .watching h) (asked : d.stopAsked = false) :
    (d.take t.recorded sink h x y).Moves t sink d x y := by
  have answered : ∀ {item}, (t.next h x.state).1 = item →
      ∀ call ∈ [TransportCall.next h item], t.Answers call := by
    intro item answer
    simpa using ⟨x.state, answer⟩
  rcases taken : t.next h x.state with ⟨e | ⟨reason | reason⟩ | _ | _ | _, state⟩
  · rcases handled : sink e y with ⟨_ | message, y'⟩
    · refine ⟨[.next h (.event e)], [(e, .done)], ?_, answered (by rw [taken]), ?_, ?_⟩
      · simp [take, Transport.recorded, taken, handled]
      · simpa only [take, Transport.recorded, taken, handled] using Takes.event handled
      · simpa only [take, Transport.recorded, taken, handled] using Move.hand phase asked
    · simpa only [take, Transport.recorded, taken, handled] using
        escalate_moves t sink d h x y phase asked taken (.event handled) (.crash e message)
  · simpa only [take, Transport.recorded, taken] using expire_moves t sink d h x y phase asked taken
  · simpa only [take, Transport.recorded, taken] using
      escalate_moves t sink d h x y phase asked taken .nothing (.fault reason)
  · simpa only [take, Transport.recorded, taken] using
      escalate_moves t sink d h x y phase asked taken .nothing .ending
  · refine ⟨[.next h .idle], [], ?_, answered (by rw [taken]), ?_, ?_⟩
    · simp [take, Transport.recorded, taken]
    · simpa only [take, Transport.recorded, taken] using Takes.nothing
    · simpa only [take, Transport.recorded, taken] using Move.idle phase asked
  · refine ⟨[.next h .busy], [], ?_, answered (by rw [taken]), ?_, ?_⟩
    · simp [take, Transport.recorded, taken]
    · simpa only [take, Transport.recorded, taken] using Takes.nothing
    · simpa only [take, Transport.recorded, taken] using Move.busy phase asked

theorem step_moves : (d.step t.recorded sink x y).Moves t sink d x y := by
  unfold step
  split
  next h phase =>
    split
    next asked => exact stop_moves t sink d h x y phase asked
    next asked => exact take_moves t sink d h x y phase (by simpa using asked)
  next h phase =>
    split
    next asked => exact stopRenewal_moves t sink d h x y (.inl phase) asked
    next asked => exact renew_moves t sink d h x y phase (by simpa using asked)
  next h phase =>
    split
    next asked => exact stopRenewal_moves t sink d h x y (.inr phase) asked
    next asked => exact ⟨[], [], rfl, by simp, .nothing, .wait phase (by simpa using asked)⟩
  next outcome phase => exact ⟨[], [], rfl, by simp, .nothing, .finished phase⟩

end Delivery

end WatchDispatch.Watch
