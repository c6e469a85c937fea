import WatchDispatch.Proofs.Watch.Course
import WatchDispatch.Proofs.Watch.OutstandingSubscriptions

/-!
# Invariants of pools

What holds of a pool, of the sessions that are open over it and of the subscriptions that are
granted but not handed over yet, is kept by every run if it is kept by the few things that can
happen to a pool at once: a delivery takes a step, a session is opened in two strokes, one is asked
to stop, one is shown as closed, and others change the queue, the sink or the transport.
-/

namespace WatchDispatch.Watch

variable {τ σ ε : Type}

/-- The sessions that are open after an opening, with those that were open before. -/
def Opening.sessions (before : List Session) : Opening → List Session
  | .opened session => before ++ [session]
  | .refused _ | .pending => before

/-- Each single change of a pool keeps what holds of it. -/
structure Pool.Keeps (t : Transport τ) (env : ε → Recorded τ → Recorded τ)
    (Holds : List Session → List Handle → Pool (Recorded τ) σ → Prop) : Prop where
  advance : ∀ {sessions opening p n others d} (sink : Sink σ), p.ready = n :: others →
    p.deliveries[n]? = some d → Holds sessions opening p →
    Holds sessions opening (p.advance n others (d.step t.recorded sink p.transport p.sink))
  /-- A number that stands for no delivery leaves the queue. -/
  skip : ∀ {sessions opening p n others}, p.ready = n :: others → p.deliveries[n]? = none →
    Holds sessions opening p → Holds sessions opening { p with ready := others }
  /-- A subscription is asked for, to open a session. -/
  asks : ∀ {sessions p} scope, Holds sessions [] p →
    Holds sessions (t.recorded.subscribe scope p.transport).1.handles
      { p with transport := (t.recorded.subscribe scope p.transport).2 }
  /-- A session is opened with the subscription that was granted for its scope. -/
  spawn : ∀ {sessions p h} gvkKey scope, t.Answers (.subscribe scope (.granted h)) →
    Holds sessions [h] p →
    Holds (sessions ++ [(p.spawn gvkKey scope h).1]) [] (p.spawn gvkKey scope h).2
  /-- The first session is asked to stop; its delivery has its turn then. -/
  stop : ∀ {session sessions opening p ready}, session.number ∈ ready → (∀ n ∈ p.ready, n ∈ ready) →
    Holds (session :: sessions) opening p →
    Holds sessions opening
      { p.modify session.number (fun d => { d with stopAsked := true }) with ready := ready }
  close : ∀ {sessions opening p n d outcome}, p.deliveries[n]? = some d → d.phase = .ended outcome →
    Holds sessions opening p → Holds sessions opening (p.publishClosed n)
  queue : ∀ {sessions opening p ready}, (∀ n ∈ p.ready, n ∈ ready) → Holds sessions opening p →
    Holds sessions opening { p with ready := ready }
  sink : ∀ {sessions opening p} y, Holds sessions opening p →
    Holds sessions opening { p with sink := y }
  outside : ∀ {sessions opening p} change, Holds sessions opening p →
    Holds sessions opening { p with transport := env change p.transport }

namespace Pool

/-! ## The deliveries after a change -/

section Places

variable {p : Pool τ σ} {n m : Nat} {d e : Delivery}

theorem getElem?_advance_cases {others : List Nat} {s : Step τ σ}
    (there : p.deliveries[n]? = some d) (found : (p.advance n others s).deliveries[m]? = some e) :
    m = n ∧ e = s.delivery ∨ m ≠ n ∧ p.deliveries[m]? = some e := by
  have inside : n < p.deliveries.length := (List.getElem?_eq_some_iff.mp there).1
  by_cases same : n = m
  · subst same
    exact .inl ⟨rfl, by simpa [advance, inside, eq_comm] using found⟩
  · exact .inr ⟨Ne.symm same, by simpa [advance, List.getElem?_set, same] using found⟩

/-- A delivery of the changed pool is one from before, or it is the one that was changed. -/
theorem getElem?_modify_cases {change : Delivery → Delivery}
    (found : (p.modify n change).deliveries[m]? = some e) :
    (m ≠ n ∧ p.deliveries[m]? = some e) ∨ m = n ∧ ∃ d, p.deliveries[n]? = some d ∧
    e = change d := by
  simp only [modify, List.getElem?_modify] at found
  by_cases same : n = m
  · subst same
    obtain ⟨d, there, rfl⟩ := Option.map_eq_some_iff.mp found
    exact .inr ⟨rfl, d, there, by simp⟩
  · exact .inl ⟨Ne.symm same, by simpa [same] using found⟩

theorem getElem?_spawn_cases {gvkKey : String} {scope : Scope} {h : Handle}
    (found : (p.spawn gvkKey scope h).2.deliveries[m]? = some e) :
    m < p.deliveries.length ∧ p.deliveries[m]? = some e ∨
      m = p.deliveries.length ∧ e = ⟨gvkKey, scope, false, .active, .watching h⟩ := by
  simp only [spawn, List.getElem?_append] at found
  split at found
  next inside => exact .inl ⟨inside, found⟩
  next =>
    rw [List.getElem?_singleton] at found
    split at found
    · exact .inr ⟨by omega, (Option.some.inj found).symm⟩
    · cases found

theorem getElem?_advance_self {others : List Nat} {s : Step τ σ}
    (there : p.deliveries[n]? = some d) :
    (p.advance n others s).deliveries[n]? = some s.delivery := by
  have inside : n < p.deliveries.length := (List.getElem?_eq_some_iff.mp there).1
  simp [advance, inside]

theorem getElem?_advance_of_ne {others : List Nat} {s : Step τ σ} (other : m ≠ n) :
    (p.advance n others s).deliveries[m]? = p.deliveries[m]? := by
  simp [advance, Ne.symm other]

theorem getElem?_modify_self {change : Delivery → Delivery} (there : p.deliveries[n]? = some d) :
    (p.modify n change).deliveries[n]? = some (change d) := by
  simp [modify, there]

theorem getElem?_modify_of_ne {change : Delivery → Delivery} (other : m ≠ n) :
    (p.modify n change).deliveries[m]? = p.deliveries[m]? := by
  simp [modify, Ne.symm other]

end Places

/-! ## Longer changes -/

/-- A turn changes nothing, drops a number that stands for no delivery, or one delivery takes a
step. -/
theorem turn_kept {P : Pool τ σ → Prop} {t : Transport τ} {sink : Sink σ}
    (advance : ∀ {p n others d}, p.ready = n :: others → p.deliveries[n]? = some d → P p →
      P (p.advance n others (d.step t sink p.transport p.sink)))
    (skip : ∀ {p n others}, p.ready = n :: others → p.deliveries[n]? = none → P p →
      P { p with ready := others }) {p : Pool τ σ} (holds : P p) : P (p.turn t sink) := by
  unfold turn
  cases ready : p.ready with
  | nil => exact holds
  | cons n others =>
    cases there : p.deliveries[n]? with
    | none => simpa [there] using skip ready there holds
    | some d => simpa [there] using advance ready there holds

namespace Keeps

variable {t : Transport τ} {env : ε → Recorded τ → Recorded τ}
  {Holds : List Session → List Handle → Pool (Recorded τ) σ → Prop} {sessions : List Session}
  {opening : List Handle} {p : Pool (Recorded τ) σ} (keeps : Keeps t env Holds)

include keeps

theorem turn (sink : Sink σ) (holds : Holds sessions opening p) :
    Holds sessions opening (p.turn t.recorded sink) :=
  turn_kept (keeps.advance sink) keeps.skip holds

theorem settle (sink : Sink σ) (holds : Holds sessions opening p) :
    Holds sessions opening (p.settle t.recorded sink) :=
  settle_induction (fun _ h => keeps.turn sink h) holds

theorem requestStop {session : Session} (holds : Holds (session :: sessions) opening p) :
    Holds sessions opening (p.requestStop session) := by
  obtain ⟨ready, woken, self, kept⟩ :=
    wake_eq session.number (p.modify session.number fun d => { d with stopAsked := true })
  rw [Pool.requestStop, woken]
  exact keeps.stop self kept holds

theorem finish (sink : Sink σ) (session : Session) (holds : Holds sessions opening p) :
    Holds sessions opening (p.finish t.recorded sink session).2.2 := by
  rcases p.finish_cases t.recorded sink session with
    ⟨_, same⟩ | ⟨_, ⟨d, outcome, there, phase, same⟩ | same⟩ <;> rw [same]
  · exact holds
  · exact keeps.close there phase (keeps.settle sink holds)
  · exact keeps.settle sink holds

theorem turns (sink : Sink σ) (numbers : List Nat) (holds : Holds sessions opening p) :
    Holds sessions opening (p.turns t.recorded sink numbers) := by
  induction numbers generalizing p with
  | nil => exact holds
  | cons n later ih => exact ih (keeps.turn sink (keeps.queue (fun _ mem => mem_pick mem) holds))

/-- A session is opened while the others keep what holds. -/
theorem openWhile {meanwhile : Pool (Recorded τ) σ → Pool (Recorded τ) σ}
    (others : ∀ {opening q}, Holds sessions opening q → Holds sessions opening (meanwhile q))
    (gvkKey : String) (scope : Scope) (holds : Holds sessions [] p) :
    let (opening, p') := p.openWhile t.recorded meanwhile gvkKey scope
    Holds (opening.sessions sessions) [] p' := by
  have asked := keeps.asks scope holds
  unfold Pool.openWhile
  rcases answer : t.recorded.subscribe scope p.transport with ⟨h | f | _, x⟩
    <;> rw [answer] at asked
  · exact keeps.spawn gvkKey scope ⟨p.transport.state, congrArg Prod.fst answer⟩ (others asked)
  · exact others asked
  · exact others asked

theorem openSession (sink : Sink σ) (gvkKey : String) (scope : Scope)
    (holds : Holds sessions [] p) :
    let (opening, p') := p.openSession t.recorded sink gvkKey scope
    Holds (opening.sessions sessions) [] p' := by
  have others : ∀ {opening q}, Holds sessions opening q →
      Holds sessions opening (goOn t.recorded sink q) :=
    fun holds => goOn_kept (fun _ h => keeps.turn sink h) holds
  have opened := keeps.openWhile others gvkKey scope holds
  unfold Pool.openSession
  rcases result : p.openWhile t.recorded (goOn t.recorded sink) gvkKey scope with
    ⟨session | f | _, q⟩ <;>
    rw [result] at opened
  · exact opened
  · exact opened
  · exact keeps.settle sink opened

omit keeps in
/-- What is kept together, since each is. -/
theorem and {Holds' : List Session → List Handle → Pool (Recorded τ) σ → Prop}
    (keeps : Keeps t env Holds) (keeps' : Keeps t env Holds') :
    Keeps t env (fun sessions opening p => Holds sessions opening p ∧
      Holds' sessions opening p) where
  advance := fun sink ready there both =>
    ⟨keeps.advance sink ready there both.1, keeps'.advance sink ready there both.2⟩
  skip := fun ready missing both =>
    ⟨keeps.skip ready missing both.1, keeps'.skip ready missing both.2⟩
  asks := fun scope both => ⟨keeps.asks scope both.1, keeps'.asks scope both.2⟩
  spawn := fun gvkKey scope answered both =>
    ⟨keeps.spawn gvkKey scope answered both.1, keeps'.spawn gvkKey scope answered both.2⟩
  stop := fun self kept both => ⟨keeps.stop self kept both.1, keeps'.stop self kept both.2⟩
  close := fun there phase both => ⟨keeps.close there phase both.1, keeps'.close there phase both.2⟩
  queue := fun kept both => ⟨keeps.queue kept both.1, keeps'.queue kept both.2⟩
  sink := fun y both => ⟨keeps.sink y both.1, keeps'.sink y both.2⟩
  outside := fun change both => ⟨keeps.outside change both.1, keeps'.outside change both.2⟩

omit keeps in
theorem of_iff {Holds' : List Session → List Handle → Pool (Recorded τ) σ → Prop}
    (keeps : Keeps t env Holds)
    (same : ∀ sessions opening p, Holds sessions opening p ↔ Holds' sessions opening p) :
    Keeps t env Holds' := by
  have equal : Holds = Holds' := funext fun sessions => funext fun opening => funext fun p =>
    propext (same sessions opening p)
  exact equal ▸ keeps

end Keeps

end Pool

end WatchDispatch.Watch
