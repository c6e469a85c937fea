import Mathlib.Data.List.Chain
import WatchDispatch.Proofs.Watch.Escalation

/-!
# The life cycle of a session

A session shows that it starts before it has done anything, and then the states that it publishes.
Two of its parts publish: the delivery, at several places, and the owner that has waited for the
end. Whatever the order in which they come, each state follows one that it may follow, so nothing
comes after a closing but closings; and what led to a state is found in the calls of the transport
at the same place.
-/

namespace WatchDispatch.Watch

variable {τ σ : Type}

/-- A state may be shown right after another one. -/
inductive SessionState.MayFollow : SessionState → SessionState → Prop
  | renewal : MayFollow .active .starting
  | expiry : MayFollow .starting .active
  | closing (before) : MayFollow .closed before

open SessionState (MayFollow)

def Act.state? : Act → Option SessionState
  | .published state => some state
  | _ => none

/-- The states that a session has shown, latest first. -/
def shown (acts : List Act) : List SessionState := acts.filterMap Act.state? ++ [.starting]

theorem shown_append (new acts : List Act) :
    shown (new ++ acts) = new.filterMap Act.state? ++ shown acts := by
  rw [shown, List.filterMap_append, List.append_assoc, shown]

/-- Nothing is shown after a closing but closings. -/
theorem eq_closed_of_chain {later earlier : List SessionState}
    (chain : (later ++ .closed :: earlier).IsChain MayFollow) : ∀ s ∈ later, s = .closed := by
  induction later with
  | nil =>
    intro s mem
    cases mem
  | cons s later ih =>
    have closings := ih chain.tail
    have follows : ∃ before rest, later ++ .closed :: earlier = before :: rest ∧
        before = .closed := by
      cases later with
      | nil => exact ⟨_, _, rfl, rfl⟩
      | cons before later => exact ⟨_, _, rfl, closings before List.mem_cons_self⟩
    obtain ⟨_, rest, split, rfl⟩ := follows
    rw [List.cons_append, split] at chain
    have closed : s = .closed := by
      cases (List.isChain_cons_cons.mp chain).1
      rfl
    exact List.forall_mem_cons.mpr ⟨closed, closings⟩

/-! ## What leads to a state -/

/-- The acts tell these calls, up to the reading of items. -/
def Tells (acts : List Act) (calls : List TransportCall) : Prop :=
  acts.filter Act.isCall = calls.filterMap TransportCall.act?

theorem Tells.append {new acts : List Act} {calls before : List TransportCall}
    (tells : Tells new calls) (told : Tells acts before) :
    Tells (new ++ acts) (calls ++ before) := by
  rw [Tells, List.filter_append, List.filterMap_append, tells, told]

/-- A transport that crashes at a release shows in the acts. -/
theorem Tells.crashed_iff {acts : List Act} {calls : List TransportCall}
    (tells : Tells acts calls) : (∃ h, .released h .crashed ∈ acts) ↔ Crashed calls := by
  refine exists_congr fun h => ?_
  have told : .released h .crashed ∈ acts ↔ .released h .crashed ∈ acts.filter Act.isCall := by
    simp [Act.isCall]
  rw [told, tells, List.mem_filterMap]
  constructor
  · rintro ⟨call, mem, act⟩
    unfold TransportCall.act? at act
    split at act <;> cases act
    exact mem
  · intro mem
    exact ⟨_, mem, rfl⟩

/-- What the calls of a session of this scope say about a state that it has published between other
acts. -/
inductive Occasion (scope : Scope) (later earlier : List Act) (calls : List TransportCall) :
    SessionState → Prop
  | closing : Occasion scope later earlier calls .closed
  /-- A subscription was granted right before. -/
  | grant {h before newer older} : earlier = .subscribed h :: before →
      calls = newer ++ .subscribe scope (.granted h) :: older → Tells later newer →
      Tells before older →
      Occasion scope later earlier calls .active
  /-- The watch that was read has expired, and is given back next. -/
  | expiry {h reason result since newer older} : later = since ++ [.released h result] →
      calls = newer ++ .unsubscribe h result :: .next h (.fault (.expired reason)) :: older →
      Tells since newer → Tells earlier older → Occasion scope later earlier calls .starting

theorem Occasion.grow {scope : Scope} {new later earlier : List Act}
    {calls before : List TransportCall} {s : SessionState}
    (occasion : Occasion scope later earlier before s) (tells : Tells new calls) :
    Occasion scope (new ++ later) earlier (calls ++ before) s := by
  cases occasion with
  | closing => exact .closing
  | grant split found newer older =>
    exact .grant split (by rw [found, List.append_assoc]) (tells.append newer) older
  | expiry split found newer older =>
    exact .expiry (by rw [split, List.append_assoc]) (by rw [found, List.append_assoc])
      (tells.append newer) older

/-- Every state that was published had its occasion. -/
def Occasioned (scope : Scope) (acts : List Act) (calls : List TransportCall) : Prop :=
  ∀ later s earlier, acts = later ++ .published s :: earlier → Occasion scope later earlier calls s

theorem Occasioned.append {scope : Scope} {new acts : List Act} {calls before : List TransportCall}
    (occasioned : Occasioned scope acts before) (tells : Tells new calls)
    (inside : ∀ later s rest, new = later ++ .published s :: rest →
      Occasion scope later (rest ++ acts) (calls ++ before) s) :
    Occasioned scope (new ++ acts) (calls ++ before) := by
  intro later s earlier split
  rcases List.append_eq_append_iff.mp split with ⟨old, rfl, found⟩ | ⟨rest, found, cut⟩
  · exact (occasioned old s earlier found).grow tells
  · cases rest with
    | nil =>
      rw [List.append_nil] at found
      rw [← found, ← List.append_nil new]
      exact (occasioned [] s earlier cut.symm).grow tells
    | cons first rest =>
      obtain ⟨rfl, rfl⟩ := List.cons_eq_cons.mp cut
      exact inside later s rest found

/-! ## One move -/

/-- The state that a delivery shows while it stands here. -/
def Phase.Fitting : Phase → SessionState → Prop
  | .watching _, s => s = .active
  | .renewing _, s | .awaiting _, s => s = .starting
  | .ended _, _ => True

namespace Move

variable {d d' : Delivery} {calls : List TransportCall} {handed : List (Event × Handled)}
    {acts : List Act}
  {turn : Turn} (move : Move d d' calls handed acts turn)

include move

/-- A move publishes one state at most, and one that may follow. -/
theorem states_eq (fitting : d.phase.Fitting d.state) :
    d'.phase.Fitting d'.state ∧
      (acts.filterMap Act.state? = [] ∧ d'.state = d.state ∨
        acts.filterMap Act.state? = [d'.state] ∧ d'.state.MayFollow d.state) := by
  have active : ∀ {h}, d.phase = .watching h → d.state = .active := fun phase => by
    rw [phase] at fitting
    exact fitting
  cases move with
  | finished => exact ⟨fitting, .inl ⟨rfl, rfl⟩⟩
  | wait => exact ⟨fitting, .inl ⟨rfl, rfl⟩⟩
  | stop => exact ⟨trivial, .inr ⟨rfl, .closing _⟩⟩
  | giveUp => exact ⟨trivial, .inr ⟨rfl, .closing _⟩⟩
  | idle => exact ⟨fitting, .inl ⟨rfl, rfl⟩⟩
  | busy => exact ⟨fitting, .inl ⟨rfl, rfl⟩⟩
  | hand => exact ⟨fitting, .inl ⟨rfl, rfl⟩⟩
  | expire reason result phase => exact ⟨rfl, .inr ⟨rfl, active phase ▸ .expiry⟩⟩
  | expireCrash reason phase => exact ⟨trivial, .inr ⟨rfl, active phase ▸ .expiry⟩⟩
  | escalate result phase _ fatal => exact ⟨trivial, .inr ⟨by cases fatal <;> rfl, .closing _⟩⟩
  | escalateCrash phase _ fatal => exact ⟨trivial, .inl ⟨by cases fatal <;> rfl, rfl⟩⟩
  | renew phase =>
    rw [phase] at fitting
    exact ⟨rfl, .inr ⟨rfl, show MayFollow .active d.state from fitting ▸ .renewal⟩⟩
  | refuse => exact ⟨trivial, .inr ⟨rfl, .closing _⟩⟩
  | unanswered phase =>
    rw [phase] at fitting
    exact ⟨fitting, .inl ⟨rfl, rfl⟩⟩

/-- A state that a move publishes has its occasion in the calls of the move. -/
theorem occasion {before : List TransportCall} {earlier : List Act} (told : Tells earlier before)
    {later rest : List Act} {s : SessionState}
    (here : acts.reverse = later ++ .published s :: rest) :
    Occasion d.scope later (rest ++ earlier) (calls ++ before) s := by
  have mem : .published s ∈ acts := by
    rw [← List.mem_reverse, here]
    exact List.mem_append_right _ List.mem_cons_self
  have closed : s = .closed → Occasion d.scope later (rest ++ earlier) (calls ++ before) s := by
    rintro rfl
    exact .closing
  -- What is released is noted after the state, so it stands before it here.
  have expired : ∀ h reason result, [.released h result, .published .starting] =
    later ++ .published s :: rest →
      Occasion d.scope later (rest ++ earlier)
        (.unsubscribe h result :: .next h (.fault (.expired reason)) :: before) s := by
    intro h reason result split
    rcases later with _ | ⟨first, _ | ⟨second, later⟩⟩ <;> simp at split
    obtain ⟨rfl, rfl, rfl⟩ := split
    exact .expiry (List.nil_append _).symm (List.nil_append _).symm rfl told
  cases move with
  | stop => exact closed (by simpa using mem)
  | giveUp => exact closed (by simpa using mem)
  | refuse => exact closed (by simpa using mem)
  | escalate result _ _ fatal => exact closed (by cases fatal <;> simpa using mem)
  | escalateCrash _ _ fatal => cases fatal <;> simp at mem
  | expire reason result => exact expired _ reason result here
  | expireCrash reason => exact expired _ reason .crashed here
  | @renew h fresh =>
    rcases later with _ | ⟨first, _ | ⟨second, later⟩⟩ <;> simp at here
    obtain ⟨rfl, rfl⟩ := here
    exact .grant rfl (List.nil_append _).symm rfl told
  | _ => simp at mem

end Move

/-! ## Whole courses -/

/-- What a session has shown so far, and that it had its occasions. -/
structure View.Cycles (scope : Scope) (v : View σ) : Prop where
  own : v.delivery.scope = scope
  fitting : v.delivery.phase.Fitting v.delivery.state
  chain : (shown v.acts).IsChain MayFollow
  last : (shown v.acts).head? = some v.delivery.state
  tells : Tells v.acts v.calls
  occasions : Occasioned scope v.acts v.calls

/-- Publishing one more state that may follow. -/
theorem chain_cons {states : List SessionState} {s before : SessionState}
    (chain : states.IsChain MayFollow) (last : states.head? = some before)
    (follows : s.MayFollow before) : (s :: states).IsChain MayFollow := by
  refine List.isChain_cons.mpr ⟨?_, chain⟩
  intro t mem
  obtain rfl : before = t := Option.some.inj (last.symm.trans mem)
  exact follows

namespace View

variable {t : Transport τ} {sink : Sink σ} {others : σ → σ → Prop} {scope : Scope} {v v' : View σ}

theorem cycles_opened (gvkKey : String) (scope : Scope) (h : Handle) (y : σ) :
    (View.opened gvkKey scope h y).Cycles scope where
  own := rfl
  fitting := rfl
  chain := List.isChain_cons_cons.mpr ⟨.renewal, List.isChain_singleton _⟩
  last := rfl
  tells := rfl
  occasions := by
    intro later s earlier split
    rcases later with _ | ⟨first, _ | ⟨second, later⟩⟩ <;> simp [View.opened] at split
    obtain ⟨rfl, rfl⟩ := split
    have nothing : Tells [] [] := rfl
    exact .grant rfl (List.nil_append _).symm nothing nothing

theorem Cycles.next (cycles : v.Cycles scope) (next : Next t sink others v v') :
    v'.Cycles scope := by
  cases next with
  | @move d calls handed acts turn y queued move takes answered _ =>
    obtain ⟨fitting, published⟩ := move.states_eq cycles.fitting
    have tells : Tells acts.reverse calls := move.filter_isCall
    refine ⟨move.own_eq.2.trans cycles.own, fitting, ?_, ?_, tells.append cycles.tells, ?_⟩
    · rw [shown_append, List.filterMap_reverse]
      rcases published with ⟨none, -⟩ | ⟨one, follows⟩
      · rw [none]
        exact cycles.chain
      · rw [one]
        exact chain_cons cycles.chain cycles.last follows
    · rw [shown_append, List.filterMap_reverse]
      rcases published with ⟨none, same⟩ | ⟨one, -⟩
      · rw [none, same]
        exact cycles.last
      · rw [one]
        rfl
    · refine cycles.occasions.append tells fun later s rest here => ?_
      rw [← cycles.own]
      exact move.occasion cycles.tells here
  | ask => exact { cycles with }
  | @close outcome phase =>
    refine ⟨cycles.own, ?_, chain_cons cycles.chain cycles.last (.closing _), rfl, cycles.tells, ?_⟩
    · rw [phase]
      trivial
    · have tells : Tells [.published .closed] [] := rfl
      refine cycles.occasions.append tells fun later s rest here => ?_
      rcases later with _ | ⟨first, later⟩ <;> simp at here
      obtain ⟨rfl, rfl⟩ := here
      exact .closing
  | wake => exact { cycles with }
  | elsewhere => exact { cycles with }

theorem Cycles.course (cycles : v.Cycles scope) (course : Course t sink others v v') :
    v'.Cycles scope := by
  induction course with
  | refl => exact cycles
  | tail _ next ih => exact ih.next next

end View

/-! ## Deliveries that break down -/

/-- The delivery ends where it stands, because the transport crashes while it is asked for a
subscription or for an item. -/
def Delivery.breakDown (d : Delivery) : Delivery :=
  if d.isRunning then { d with phase := .ended .aborted } else d

theorem View.Cycles.breakDown {scope : Scope} {v : View σ} (cycles : v.Cycles scope) :
    View.Cycles scope { v with delivery := v.delivery.breakDown } := by
  unfold Delivery.breakDown
  split
  · exact { cycles with fitting := trivial }
  · exact cycles

inductive Occurrence (τ σ : Type) where
  | happening (happening : Happening τ σ)
  | breakdown

namespace Owner

def befall (t : Transport τ) (sink : Sink σ) (o : Owner τ σ) : Occurrence τ σ → Owner τ σ
  | .happening happening => o.perform t sink happening
  | .breakdown => { o with pool := o.pool.modify o.session.number Delivery.breakDown }

/-- The owner after a run, latest occurrence first. -/
def through (t : Transport τ) (sink : Sink σ) (o : Owner τ σ) : List (Occurrence τ σ) → Owner τ σ
  | [] => o
  | occurrence :: earlier => (o.through t sink earlier).befall t sink occurrence

def Unbound (_ _ : σ) : Prop := True

/-- The states that the session has shown, latest first. -/
def shown (o : Owner τ σ) : List SessionState := Watch.shown o.acts

theorem cycles_through (t : Transport τ) (sink : Sink σ) {scope : Scope} {o : Owner τ σ}
    {v : View σ} (shows : o.Shows v) (cycles : v.Cycles scope) (run : List (Occurrence τ σ)) :
    ∃ v', (o.through t sink run).Shows v' ∧ v'.Cycles scope := by
  induction run with
  | nil => exact ⟨v, shows, cycles⟩
  | cons occurrence earlier ih =>
    obtain ⟨before, shown, kept⟩ := ih
    cases occurrence with
    | happening happening =>
      have free : ∀ x y, happening = .elsewhere x y →
          Unbound (o.through t sink earlier).pool.sink y :=
        fun _ _ _ => trivial
      obtain ⟨v', after, course, -⟩ := shown.perform t sink happening free
      exact ⟨v', after, kept.course course⟩
    | breakdown => exact ⟨_, Pool.Shows.modify shown Delivery.breakDown, kept.breakDown⟩

end Owner

/-- A session shows first that it starts, in the end the state in which it is, and in between each
state follows one that it may follow: what is active has started, what starts again was active, and
what is closed stays so. Right before it shows itself active, a subscription was granted, and if it
starts again, its watch has just expired. -/
theorem life_cycle {t : Transport τ} {sink : Sink σ} {gvkKey : String} {scope : Scope} {x : τ}
    {y : σ} {o : Owner τ σ} (opened : Owner.open? t sink gvkKey scope x y = some o)
    (run : List (Occurrence τ σ)) :
    let now := o.through t sink run
    now.shown.getLast? = some .starting ∧ now.shown.head? = some now.state ∧
    now.shown.IsChain MayFollow ∧
    (∀ later earlier, now.shown = later ++ .closed :: earlier → ∀ s ∈ later, s = .closed) ∧
    Occasioned scope now.acts now.calls := by
  intro now
  obtain ⟨h, start⟩ := Owner.shows_of_open? opened
  obtain ⟨v, shows, cycles⟩ :=
    Owner.cycles_through t sink start (View.cycles_opened gvkKey scope h y) run
  have acts : now.acts = v.acts := Pool.Shows.acts shows
  have chain : now.shown.IsChain MayFollow := by
    rw [Owner.shown, acts]
    exact cycles.chain
  refine ⟨List.getLast?_concat, ?_, chain, ?_, ?_⟩
  · rw [Owner.shown, acts, shows.state_eq]
    exact cycles.last
  · intro later earlier split
    exact eq_closed_of_chain (split ▸ chain)
  · rw [acts, shows.calls_eq]
    exact cycles.occasions

/-- A watch expires and is renewed before the session is closed. The delivery and the owner both
publish the end. -/
theorem life_cycle_after_renewal :
    ∃ o, Sample.session? [.fault (.expired "gone")] = some o ∧
      let now := o.through Sample.transport (Sink.noted fun _ y => (.done, y))
        [.happening .close, .happening .settle]
      now.shown = [.closed, .closed, .active, .starting, .active, .starting] ∧
        now.shown.IsChain MayFollow :=
  ⟨_, rfl, by decide, (life_cycle rfl [.happening .close, .happening .settle]).2.2.1⟩

end WatchDispatch.Watch
