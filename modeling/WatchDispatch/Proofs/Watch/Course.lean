import Mathlib.Logic.Relation
import WatchDispatch.Proofs.Watch.Alone
import WatchDispatch.Proofs.Watch.Moves

/-!
# The course of a session

A view is what can be seen of one session: its delivery, the calls of its transport, the state of
its sink, its acts and its reports. Views change by the moves of the delivery, by a stop that is
asked for, by the end that an owner has waited for, and by what others do to the sink. Every run of
an owner is a course of views, whatever the queue of the pool does meanwhile. Deliveries that have
ended may share the pool.
-/

namespace WatchDispatch.Watch

variable {τ σ : Type}

/-- What is seen of one session; calls and acts are latest first. -/
structure View (σ : Type) where
  delivery : Delivery
  calls : List TransportCall
  sink : σ
  acts : List Act
  reports : Option (List FatalFault)
  /-- The delivery waits for its turn. -/
  queued : Bool

namespace View

/-- One change of a view. `others` says what others may do to the sink. -/
inductive Next (t : Transport τ) (sink : Sink σ) (others : σ → σ → Prop) (v : View σ) :
    View σ → Prop
  | move {d calls handed acts turn y} (queued) :
      Move v.delivery d calls handed acts turn → Takes sink v.sink handed y →
      (∀ call ∈ calls, t.Answers call) → (queued = false → turn = .rest) →
      Next t sink others v ⟨d, calls ++ v.calls, y, acts.reverse ++ v.acts,
        v.reports.map (· ++ Act.reports acts), queued⟩
  | ask : Next t sink others v
      { v with delivery := { v.delivery with stopAsked := true }, queued := true }
  | close {outcome} : v.delivery.phase = .ended outcome → Next t sink others v
      { v with
        delivery := { v.delivery with state := .closed }
        acts := .published .closed :: v.acts }
  | wake : Next t sink others v { v with queued := true }
  | elsewhere {y} : others v.sink y → Next t sink others v { v with sink := y }

def opened (gvkKey : String) (scope : Scope) (h : Handle) (y : σ) : View σ where
  delivery := ⟨gvkKey, scope, false, .active, .watching h⟩
  calls := [.subscribe scope (.granted h)]
  sink := y
  acts := [.published .active, .subscribed h]
  reports := some []
  queued := true

abbrev Course (t : Transport τ) (sink : Sink σ) (others : σ → σ → Prop) : View σ → View σ → Prop :=
  Relation.ReflTransGen (Next t sink others)

end View

open View (Course)

theorem View.Course.stopAsked_mono {t : Transport τ} {sink : Sink σ} {others : σ → σ → Prop}
    {v v' : View σ} (course : Course t sink others v v') (asked : v.delivery.stopAsked = true) :
    v'.delivery.stopAsked = true := by
  induction course with
  | refl => exact asked
  | tail _ next ih =>
    cases next with
    | move queued move =>
      rw [move.stopAsked_eq]
      exact ih
    | ask => rfl
    | close => exact ih
    | wake => exact ih
    | elsewhere => exact ih

/-! ## A session in a pool -/

/-- The pool shows a session as this view; all other deliveries of the pool have ended. -/
structure Pool.Shows (p : Pool (Recorded τ) σ) (n : Nat) (v : View σ) : Prop where
  here : p.deliveries[n]? = some v.delivery
  alone : ∀ m d, m ≠ n → p.deliveries[m]? = some d → d.isRunning = false
  calls : p.transport.calls = v.calls
  sink : p.sink = v.sink
  acts : (p.journal.filter (fun entry => entry.1 = n)).map Prod.snd = v.acts
  reports : p.reports = v.reports
  queued : v.queued = true → n ∈ p.ready

theorem Delivery.step_of_ended (t : Transport τ) (sink : Sink σ) {d : Delivery} (x : τ) (y : σ)
    (ended : d.isRunning = false) : d.step t sink x y = ⟨d, x, y, [], .rest⟩ := by
  cases phase : d.phase with
  | ended outcome => simp [step, phase]
  | watching h => simp [isRunning, phase] at ended
  | renewing h => simp [isRunning, phase] at ended
  | awaiting h => simp [isRunning, phase] at ended

namespace Pool

theorem mem_requeue {n m : Nat} {others : List Nat} {turn : Turn} (mem : m ∈ others) :
    m ∈ requeue n others turn := by
  cases turn <;> simp [requeue, mem]

theorem mem_requeue_self {n : Nat} {others : List Nat} {turn : Turn} (goes : turn ≠ .rest) :
    n ∈ requeue n others turn := by
  cases turn <;> simp_all [requeue]

theorem wake_eq (n : Nat) (p : Pool τ σ) :
    ∃ ready, p.wake n = { p with ready } ∧ n ∈ ready ∧ ∀ m ∈ p.ready, m ∈ ready := by
  unfold wake
  split
  next there => exact ⟨p.ready, rfl, by simpa using there, fun m mem => mem⟩
  next => exact ⟨p.ready ++ [n], rfl, by simp, fun m mem => List.mem_append_left _ mem⟩

/-- A wait that was given up already changes nothing. Any other lets the deliveries run, and sees
the end if there is one. -/
theorem finish_cases (t : Transport τ) (sink : Sink σ) (s : Session) (p : Pool τ σ) :
    s.joined = true ∧ p.finish t sink s = (.finished, s, p) ∨
    s.joined = false ∧
      ((∃ d outcome, (p.settle t sink).deliveries[s.number]? = some d ∧ d.phase = .ended outcome ∧
        p.finish t sink s =
        (finishOf (t.breakdown s.number) s.scope outcome, { s with joined := true },
          (p.settle t sink).publishClosed s.number)) ∨
      p.finish t sink s = (.pending, { s with joined := true }, p.settle t sink)) := by
  unfold finish
  split
  next joined => exact .inl ⟨joined, rfl⟩
  next joined =>
    refine .inr ⟨by simpa using joined, ?_⟩
    dsimp only
    split
    next outcome ended =>
      obtain ⟨d, there, phase⟩ := Option.map_eq_some_iff.mp ended
      exact .inl ⟨d, outcome, there, phase, rfl⟩
    next => exact .inr rfl

theorem finish_of_ended (t : Transport τ) (sink : Sink σ) {s : Session} {p : Pool τ σ}
    {d : Delivery} {outcome : Outcome} (waiting : s.joined = false)
    (there : (p.settle t sink).deliveries[s.number]? = some d) (phase : d.phase = .ended outcome) :
    p.finish t sink s =
      (finishOf (t.breakdown s.number) s.scope outcome, { s with joined := true },
        (p.settle t sink).publishClosed s.number) := by
  simp [finish, waiting, delivery?, there, phase]

namespace Shows

variable {p : Pool (Recorded τ) σ} {n : Nat} {v : View σ} (shows : p.Shows n v)

include shows

theorem wake_self : (p.wake n).Shows n { v with queued := true } := by
  obtain ⟨ready, woken, self, -⟩ := wake_eq n p
  rw [woken]
  exact { shows with queued := fun _ => self }

theorem modify (change : Delivery → Delivery) :
    (p.modify n change).Shows n { v with delivery := change v.delivery } := by
  refine { shows with here := ?_, alone := ?_ }
  · simp [Pool.modify, shows.here]
  · intro m d other there
    refine shows.alone m d other ?_
    simpa [Pool.modify, List.getElem?_modify, other.symm] using there

theorem requestStop {s : Session} (number : s.number = n) :
    (p.requestStop s).Shows n
      { v with delivery := { v.delivery with stopAsked := true }, queued := true } := by
  unfold Pool.requestStop
  rw [number]
  exact (shows.modify fun d => { d with stopAsked := true }).wake_self

theorem publishClosed : (p.publishClosed n).Shows n
    { v with
      delivery := { v.delivery with state := .closed }
      acts := .published .closed :: v.acts } := by
  refine { shows.modify fun d => { d with state := .closed } with acts := ?_ }
  simpa [Pool.publishClosed] using shows.acts

/-- A delivery that has ended takes its turn and changes nothing but the queue. -/
theorem turn_other {m : Nat} {others : List Nat} {d : Delivery} (other : m ≠ n)
    (ready : p.ready = m :: others) (there : p.deliveries[m]? = some d) :
    (p.advance m others ⟨d, p.transport, p.sink, [], .rest⟩).Shows n v := by
  refine ⟨?_, ?_, shows.calls, shows.sink, shows.acts, ?_, ?_⟩
  · simpa [advance, List.getElem?_set, other] using shows.here
  · intro k e outside found
    by_cases same : m = k
    · subst same
      have inside : m < p.deliveries.length := (List.getElem?_eq_some_iff.mp there).1
      obtain rfl : d = e := by simpa [advance, List.getElem?_set, inside] using found
      exact shows.alone m d other there
    · exact shows.alone k e outside (by simpa [advance, List.getElem?_set, same] using found)
  · simp [advance, Act.reports, shows.reports]
  · intro queued
    have mem := shows.queued queued
    rw [ready] at mem
    exact (List.mem_cons.mp mem).resolve_left (Ne.symm other)

/-- The session takes its turn. -/
theorem turn_self {s : Step (Recorded τ) σ} {t : Transport τ} {sink : Sink σ} (others : List Nat)
    (rest : σ → σ → Prop) (moves : s.Moves t sink v.delivery p.transport p.sink) :
    ∃ v', (p.advance n others s).Shows n v' ∧ View.Next t sink rest v v' ∧
      v'.delivery.stopAsked = v.delivery.stopAsked := by
  obtain ⟨calls, handed, recorded, answered, takes, move⟩ := moves
  rw [shows.sink] at takes
  refine ⟨_, ?_, .move (decide (s.turn ≠ .rest)) move takes answered (by simp), move.stopAsked_eq⟩
  have inside : n < p.deliveries.length := (List.getElem?_eq_some_iff.mp shows.here).1
  refine ⟨?_, ?_, ?_, rfl, ?_, ?_, ?_⟩
  · simp [advance, inside]
  · intro m d other there
    exact shows.alone m d other (by simpa [advance, List.getElem?_set, other.symm] using there)
  · rw [← shows.calls]
    exact recorded
  · have own : (s.acts.map (fun act => (n, act))).reverse.filter (fun entry => entry.1 = n) =
        (s.acts.map (fun act => (n, act))).reverse := by
      rw [List.filter_eq_self]
      simp
    simp only [advance, List.filter_append, own, List.map_append, List.map_reverse, List.map_map,
      shows.acts]
    simp [Function.comp_def]
  · simp [advance, shows.reports]
  · intro queued
    exact mem_requeue_self (by simpa using queued)

theorem turn (t : Transport τ) (sink : Sink σ) (rest : σ → σ → Prop) :
    ∃ v', (p.turn t.recorded sink).Shows n v' ∧ Course t sink rest v v' ∧
      v'.delivery.stopAsked = v.delivery.stopAsked := by
  unfold Pool.turn
  cases ready : p.ready with
  | nil => exact ⟨v, shows, .refl, rfl⟩
  | cons m others =>
    by_cases same : m = n
    · subst same
      obtain ⟨v', after, next, asked⟩ := shows.turn_self others rest
        (v.delivery.step_moves t sink p.transport p.sink)
      exact ⟨v', by simpa [shows.here] using after, .single next, asked⟩
    · refine ⟨v, ?_, .refl, rfl⟩
      cases there : p.deliveries[m]? with
      | some d =>
        have ended := Delivery.step_of_ended t.recorded sink p.transport p.sink
          (shows.alone m d same there)
        simpa [there, ended] using shows.turn_other same ready there
      | none =>
        have popped : ({ p with ready := others } : Pool (Recorded τ) σ).Shows n v := by
          refine { shows with queued := fun queued => ?_ }
          have mem := shows.queued queued
          rw [ready] at mem
          exact (List.mem_cons.mp mem).resolve_left (Ne.symm same)
        simpa [there] using popped

theorem settle (t : Transport τ) (sink : Sink σ) (rest : σ → σ → Prop) :
    ∃ v', (p.settle t.recorded sink).Shows n v' ∧ Course t sink rest v v' ∧
      v'.delivery.stopAsked = v.delivery.stopAsked := by
  refine settle_induction (P := fun q => ∃ v', q.Shows n v' ∧ Course t sink rest v v' ∧
    v'.delivery.stopAsked = v.delivery.stopAsked) ?_ ⟨v, shows, .refl, rfl⟩
  rintro q ⟨v', there, course, asked⟩
  obtain ⟨v'', after, onward, same⟩ := there.turn t sink rest
  exact ⟨v'', after, course.trans onward, same.trans asked⟩

theorem finish {s : Session} (number : s.number = n) (t : Transport τ) (sink : Sink σ)
    (rest : σ → σ → Prop) :
    ∃ v', (p.finish t.recorded sink s).2.2.Shows n v' ∧ Course t sink rest v v' ∧
      v'.delivery.stopAsked = v.delivery.stopAsked := by
  obtain ⟨v', there, course, asked⟩ := shows.settle t sink rest
  rcases finish_cases t.recorded sink s p with
    ⟨_, same⟩ | ⟨_, ⟨d, outcome, found, phase, same⟩ | same⟩ <;>
    rw [same]
  · exact ⟨v, shows, .refl, rfl⟩
  · rw [number, there.here] at found
    obtain rfl := Option.some.inj found
    exact ⟨_, number ▸ there.publishClosed, course.tail (.close phase), asked⟩
  · exact ⟨v', there, course, asked⟩

end Shows

end Pool

/-! ## A session with its owner -/

def Happening.asksStop : Happening τ σ → Bool
  | .requestStop | .drop | .close => true
  | _ => false

namespace Owner

def Shows (o : Owner τ σ) (v : View σ) : Prop := o.pool.Shows o.session.number v

variable {o : Owner τ σ} {v : View σ}

theorem Shows.perform (shows : o.Shows v) (t : Transport τ) (sink : Sink σ) {others : σ → σ → Prop}
    (happening : Happening τ σ)
    (allowed : ∀ x y, happening = .elsewhere x y → others o.pool.sink y) :
    ∃ v', (o.perform t sink happening).Shows v' ∧ Course t sink others v v' ∧
      v'.delivery.stopAsked = (v.delivery.stopAsked || happening.asksStop) := by
  have shown : o.pool.Shows o.session.number v := shows
  unfold Shows
  rw [perform_number]
  cases happening with
  | requestStop =>
    exact ⟨_, shown.requestStop rfl, .single .ask, by simp [Happening.asksStop]⟩
  | drop => exact ⟨_, shown.requestStop rfl, .single .ask, by simp [Happening.asksStop]⟩
  | finish =>
    obtain ⟨v', after, course, asked⟩ := shown.finish rfl t sink others
    exact ⟨v', after, course, by simpa [Happening.asksStop] using asked⟩
  | close =>
    obtain ⟨v', after, course, asked⟩ := (shown.requestStop rfl).finish rfl t sink others
    exact ⟨v', after, .head .ask course, by simpa [Happening.asksStop] using asked⟩
  | abandonFinish => exact ⟨v, shown, .refl, by simp [Happening.asksStop]⟩
  | wake => exact ⟨_, shown.wake_self, .single .wake, by simp [Happening.asksStop]⟩
  | turn =>
    obtain ⟨v', after, course, asked⟩ := shown.turn t sink others
    exact ⟨v', after, course, by simpa [Happening.asksStop] using asked⟩
  | settle =>
    obtain ⟨v', after, course, asked⟩ := shown.settle t sink others
    exact ⟨v', after, course, by simpa [Happening.asksStop] using asked⟩
  | elsewhere x y =>
    refine ⟨{ v with sink := y }, { shown with sink := rfl }, .single (.elsewhere ?_),
      by simp [Happening.asksStop]⟩
    rw [← shown.sink]
    exact allowed x y rfl

/-- An owner that has just opened a session. -/
theorem shows_of_open? {t : Transport τ} {sink : Sink σ} {gvkKey : String} {scope : Scope} {x : τ}
    {y : σ} (opened : open? t sink gvkKey scope x y = some o) :
    ∃ h, o.Shows (.opened gvkKey scope h y) := by
  obtain ⟨h, state, -, rfl⟩ := open?_eq opened
  refine ⟨h, rfl, ?_, rfl, rfl, rfl, rfl, fun _ => List.mem_cons_self⟩
  intro m d other there
  have inside := (List.getElem?_eq_some_iff.mp there).1
  have outside : m ≠ 0 := other
  simp at inside
  omega

end Owner

/-! ## A sink that notes what it is handed -/

/-- The state of a sink with the events that it was handed and how it took them, latest first. -/
structure Noted (σ : Type) where
  state : σ
  events : List (Event × Handled)

/-- The sink that notes its events and otherwise does the same. -/
def Sink.noted (sink : Sink σ) : Sink (Noted σ) := fun e y =>
  let (handled, state) := sink e y.state
  (handled, ⟨state, (e, handled) :: y.events⟩)

/-- Others may change the state of the sink, but not its notes. -/
def SameNotes (y y' : Noted σ) : Prop := y'.events = y.events

theorem Takes.noted_events {sink : Sink σ} {y y' : Noted σ} {handed : List (Event × Handled)}
    (takes : Takes sink.noted y handed y') : y'.events = handed ++ y.events := by
  cases takes with
  | nothing => rfl
  | event taken =>
    simp only [Sink.noted, Prod.mk.injEq] at taken
    obtain ⟨rfl, rfl⟩ := taken
    rfl

/-- A happening to a session whose sink has these notes. -/
def Happening.noting (events : List (Event × Handled)) : Happening τ σ → Happening τ (Noted σ)
  | .requestStop => .requestStop
  | .drop => .drop
  | .finish => .finish
  | .close => .close
  | .abandonFinish => .abandonFinish
  | .wake => .wake
  | .turn => .turn
  | .settle => .settle
  | .elsewhere x y => .elsewhere x ⟨y, events⟩

theorem Happening.noting_asksStop (events : List (Event × Handled)) (happening : Happening τ σ) :
    (happening.noting events).asksStop = happening.asksStop := by
  cases happening <;> rfl

namespace Owner

/-- The owner after a run that is observed: calls, events, acts and reports are all noted. -/
def observed (t : Transport τ) (sink : Sink σ) (o : Owner τ (Noted σ)) :
    List (Happening τ σ) → Owner τ (Noted σ)
  | [] => o
  | happening :: earlier =>
    let o := o.observed t sink earlier
    o.perform t sink.noted (happening.noting o.pool.sink.events)

/-- The events that the sink was handed and how it took them, latest first. -/
def events (o : Owner τ (Noted σ)) : List (Event × Handled) := o.pool.sink.events

/-- The acts of the session, latest first. -/
def acts (o : Owner τ σ) : List Act :=
  (o.pool.journal.filter (fun entry => entry.1 = o.session.number)).map Prod.snd

theorem observed_append (t : Transport τ) (sink : Sink σ) (o : Owner τ (Noted σ))
    (later run : List (Happening τ σ)) :
    o.observed t sink (later ++ run) = (o.observed t sink run).observed t sink later := by
  induction later with
  | nil => rfl
  | cons happening later ih => simp only [List.cons_append, observed, ih]

/-- A run that is observed is a course of views, and a stop was asked for if the run says so. -/
theorem Shows.observed {o : Owner τ (Noted σ)} {v : View (Noted σ)} (shows : o.Shows v)
    (t : Transport τ) (sink : Sink σ) (run : List (Happening τ σ)) :
    ∃ v', (o.observed t sink run).Shows v' ∧ Course t sink.noted SameNotes v v' ∧
      v'.delivery.stopAsked = (v.delivery.stopAsked || run.any Happening.asksStop) := by
  induction run with
  | nil => exact ⟨v, shows, .refl, by simp⟩
  | cons happening earlier ih =>
    obtain ⟨v', before, course, asked⟩ := ih
    have allowed : ∀ x y, happening.noting (o.observed t sink earlier).pool.sink.events =
        .elsewhere x y → SameNotes (o.observed t sink earlier).pool.sink y := by
      intro x y same
      cases happening <;> cases same
      rfl
    obtain ⟨v'', after, onward, also⟩ := before.perform t sink.noted _ allowed
    refine ⟨v'', after, course.trans onward, ?_⟩
    rw [also, asked, Happening.noting_asksStop, List.any_cons]
    cases happening.asksStop <;> simp

theorem Shows.observed_later {o : Owner τ (Noted σ)} {v : View (Noted σ)} {t : Transport τ}
    {sink : Sink σ} {run : List (Happening τ σ)} (shows : (o.observed t sink run).Shows v)
    (later : List (Happening τ σ)) :
    ∃ v', (o.observed t sink (later ++ run)).Shows v' ∧ Course t sink.noted SameNotes v v' := by
  obtain ⟨v', after, course, _⟩ := shows.observed t sink later
  rw [← observed_append] at after
  exact ⟨v', after, course⟩

theorem Shows.events_eq {o : Owner τ (Noted σ)} {v : View (Noted σ)} (shows : o.Shows v) :
    o.events = v.sink.events :=
  congrArg Noted.events (Pool.Shows.sink shows)

section Readings

variable {o : Owner τ σ} {v : View σ} (shows : o.Shows v)

include shows

theorem Shows.calls_eq : o.calls = v.calls := Pool.Shows.calls shows

theorem Shows.reports_eq : o.pool.reports = v.reports := Pool.Shows.reports shows

theorem Shows.state_eq : o.state = v.delivery.state := by
  have here : o.pool.deliveries[o.session.number]? = some v.delivery := Pool.Shows.here shows
  simp [state, Pool.state, Pool.delivery?, here]

theorem Shows.isRunning_eq : o.isRunning = v.delivery.isRunning := by
  have shown : o.pool.Shows o.session.number v := shows
  have mem : v.delivery ∈ o.pool.deliveries := List.mem_of_getElem? shown.here
  cases running : v.delivery.isRunning with
  | true => exact List.any_eq_true.mpr ⟨v.delivery, mem, running⟩
  | false =>
    refine List.any_eq_false.mpr ?_
    intro d there
    obtain ⟨m, found⟩ := List.mem_iff_getElem?.mp there
    by_cases same : m = o.session.number
    · rw [same, shown.here] at found
      obtain rfl := Option.some.inj found
      simp [running]
    · simp [shown.alone m d same found]

end Readings

end Owner

end WatchDispatch.Watch
