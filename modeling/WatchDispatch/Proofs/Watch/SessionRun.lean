import WatchDispatch.Watch.Pool

/-!
# Runs of one session

An owner opens a session and does with it what it likes: it asks for a stop, waits, closes, drops
the session or gives a wait up. Between any two of these the delivery takes steps, one at a time or
until nothing moves, and others change the states of transport and sink as they like. The transport
notes its calls, so that what the session asked of it can be said without looking into the session.
An answer that comes late is a step that is taken late.
-/

namespace WatchDispatch.Watch

variable {τ σ : Type}

inductive TransportCall where
  | subscribe (scope : Scope) (answer : Subscribed)
  | unsubscribe (h : Handle) (result : Released)
  | next (h : Handle) (item : Item)

/-- The state of a transport with the calls that it took, latest first. -/
structure Recorded (τ : Type) where
  state : τ
  calls : List TransportCall

/-- The transport that notes its calls and otherwise does the same. -/
def Transport.recorded (t : Transport τ) : Transport (Recorded τ) where
  subscribe scope x :=
    let (answer, state) := t.subscribe scope x.state
    (answer, ⟨state, .subscribe scope answer :: x.calls⟩)
  unsubscribe h x :=
    let (result, state) := t.unsubscribe h x.state
    (result, ⟨state, .unsubscribe h result :: x.calls⟩)
  next h x :=
    let (item, state) := t.next h x.state
    (item, ⟨state, .next h item :: x.calls⟩)
  abandon h x := { x with state := t.abandon h x.state }
  suspends := t.suspends
  work x := t.work x.state
  breakdown := t.breakdown

namespace Pool

/-- A turn changes nothing but the queue, or one delivery takes a step. -/
theorem turn_cases (t : Transport τ) (sink : Sink σ) (p : Pool τ σ) :
    (∃ ready, p.turn t sink = { p with ready }) ∨
    ∃ n others d, p.deliveries[n]? = some d ∧
      p.turn t sink = p.advance n others (d.step t sink p.transport p.sink) := by
  unfold turn
  cases ready : p.ready with
  | nil => exact Or.inl ⟨[], by simp [← ready]⟩
  | cons n others =>
    cases there : p.deliveries[n]? with
    | none => exact Or.inl ⟨others, by simp [there]⟩
    | some d => exact Or.inr ⟨n, others, d, there, by simp [there]⟩

/-- What every turn keeps, deliveries keep that run until nothing moves. -/
theorem settle_induction {P : Pool τ σ → Prop} {t : Transport τ} {sink : Sink σ}
    (turn : ∀ p, P p → P (p.turn t sink)) {p : Pool τ σ} (start : P p) : P (p.settle t sink) := by
  have kept : ∀ fuel (p : Pool τ σ), P p → P (p.run t sink fuel) := by
    intro fuel
    induction fuel with
    | zero => exact fun _ h => h
    | succ fuel ih =>
      intro p h
      unfold run
      split
      · exact h
      · exact ih _ (turn p h)
  exact kept _ p start

theorem mem_pick {n m : Nat} {p : Pool τ σ} (mem : m ∈ p.ready) : m ∈ (p.pick n).ready := by
  by_cases same : m = n
  · exact same ▸ List.mem_cons_self
  · exact List.mem_cons_of_mem _ ((List.mem_erase_of_ne same).mpr mem)

/-- What every turn keeps, deliveries keep that go on while a transport is asked. -/
theorem goOn_kept {P : Pool τ σ → Prop} {t : Transport τ} {sink : Sink σ}
    (turn : ∀ p, P p → P (p.turn t sink)) {p : Pool τ σ} (start : P p) : P (p.goOn t sink) := by
  unfold goOn
  split
  · exact settle_induction turn start
  · exact start

/-- Running starts no deliveries. -/
theorem settle_length (t : Transport τ) (sink : Sink σ) (p : Pool τ σ) :
    (p.settle t sink).deliveries.length = p.deliveries.length := by
  refine settle_induction (P := fun q => q.deliveries.length = p.deliveries.length) ?_ rfl
  intro q same
  rcases q.turn_cases t sink with ⟨ready, moved⟩ | ⟨n, others, d, -, moved⟩
  · rw [moved]
    exact same
  · rw [moved]
    simpa [advance] using same

section Answers

variable {t : Transport τ} {meanwhile : Pool τ σ → Pool τ σ} {gvkKey : String} {scope : Scope}
    {p : Pool τ σ}

theorem openWhile_refused_iff {f : Fault} : (p.openWhile t meanwhile gvkKey scope).1 = .refused f ↔
    (t.subscribe scope p.transport).1 = .refused f := by
  unfold openWhile
  dsimp only
  cases (t.subscribe scope p.transport).1 <;> simp

theorem openWhile_pending_iff : (p.openWhile t meanwhile gvkKey scope).1 = .pending ↔
    (t.subscribe scope p.transport).1 = .unanswered := by
  unfold openWhile
  dsimp only
  cases (t.subscribe scope p.transport).1 <;> simp

end Answers

/-- The supervisor takes a fault, and nothing else changes. -/
theorem takeReport_snd (p : Pool τ σ) : ∃ reports, p.takeReport.2 = { p with reports } := by
  unfold takeReport
  split
  · exact ⟨_, rfl⟩
  · exact ⟨p.reports, rfl⟩

/-- A refused subscription opens no session. -/
theorem openSession_of_refused {t : Transport τ} {sink : Sink σ} {gvkKey : String} {scope : Scope}
    {p : Pool τ σ} {f : Fault} {x : τ} (refused : t.subscribe scope p.transport = (.refused f, x)) :
    (p.openSession t sink gvkKey scope).1 = .refused f ∧
      (p.openSession t sink gvkKey scope).2.deliveries.length = p.deliveries.length := by
  unfold openSession abandonPending openWhile goOn
  simp only [refused, true_and]
  split
  · rw [settle_length]
  · rfl

theorem settle_of_idle (t : Transport τ) (sink : Sink σ) {p : Pool τ σ} (idle : p.ready = []) :
    p.settle t sink = p := by
  unfold settle
  cases p.budget t <;> simp [run, idle]

end Pool

inductive Happening (τ σ : Type) where
  | requestStop
  | drop
  | finish
  | close
  /-- The owner gives up a wait for the end before anything moved. -/
  | abandonFinish
  /-- The delivery is put into the queue. -/
  | wake
  /-- The delivery takes a step, if it is its turn. -/
  | turn
  | settle
  /-- Others change the states of transport and sink. -/
  | elsewhere (x : τ) (y : σ)

/-- The owner of one session over a transport that notes its calls. -/
structure Owner (τ σ : Type) where
  session : Session
  pool : Pool (Recorded τ) σ

namespace Owner

/-- Opens a session over a transport that has taken no calls. -/
def open? (t : Transport τ) (sink : Sink σ) (gvkKey : String) (scope : Scope) (x : τ) (y : σ) :
    Option (Owner τ σ) :=
  match (Pool.start ⟨x, []⟩ y).openSession t.recorded sink gvkKey scope with
  | (.opened session, pool) => some ⟨session, pool⟩
  | _ => none

def perform (t : Transport τ) (sink : Sink σ) (o : Owner τ σ) : Happening τ σ → Owner τ σ
  | .requestStop | .drop => { o with pool := o.pool.requestStop o.session }
  | .finish =>
    let (_, session, pool) := o.pool.finish t.recorded sink o.session
    ⟨session, pool⟩
  | .close =>
    let (_, session, pool) := o.pool.close t.recorded sink o.session
    ⟨session, pool⟩
  | .abandonFinish => { o with session := { o.session with joined := true } }
  | .wake => { o with pool := o.pool.wake o.session.number }
  | .turn => { o with pool := o.pool.turn t.recorded sink }
  | .settle => { o with pool := o.pool.settle t.recorded sink }
  | .elsewhere x y =>
    { o with pool := { o.pool with transport := { o.pool.transport with state := x }, sink := y } }

/-- The owner after a run, latest happening first. -/
def after (t : Transport τ) (sink : Sink σ) (o : Owner τ σ) : List (Happening τ σ) → Owner τ σ
  | [] => o
  | happening :: earlier => (o.after t sink earlier).perform t sink happening

/-- The calls that the transport took, latest first. -/
def calls (o : Owner τ σ) : List TransportCall := o.pool.transport.calls

def state (o : Owner τ σ) : SessionState := o.pool.state o.session

def isRunning (o : Owner τ σ) : Bool := o.pool.isRunning

/-- A run stays with the delivery that the session was opened for. -/
theorem perform_number (t : Transport τ) (sink : Sink σ) (o : Owner τ σ)
    (happening : Happening τ σ) :
    (o.perform t sink happening).session.number = o.session.number := by
  have finish : ∀ p : Pool (Recorded τ) σ,
      (p.finish t.recorded sink o.session).2.1.number = o.session.number := by
    intro p
    unfold Pool.finish
    split
    · rfl
    · dsimp only
      split <;> rfl
  cases happening with
  | finish => exact finish _
  | close => exact finish _
  | _ => rfl

theorem after_number (t : Transport τ) (sink : Sink σ) (o : Owner τ σ)
    (run : List (Happening τ σ)) :
    (o.after t sink run).session.number = o.session.number := by
  induction run with
  | nil => rfl
  | cons happening earlier ih => exact (perform_number t sink _ happening).trans ih

end Owner

end WatchDispatch.Watch
