import WatchDispatch.Proofs.Watch.PoolInvariants

/-!
# Attended deliveries

A delivery goes on only as long as somebody attends to it: the owner of its session, or a stop that
was asked for and waits for its turn. So nobody goes on unattended once all sessions were asked to
stop, and whoever waits then sees all deliveries end, whatever the transport makes of it.
-/

namespace WatchDispatch.Watch

variable {τ σ ε : Type}

theorem Delivery.phase_of_ended {d : Delivery} (ended : d.isRunning = false) :
    ∃ outcome, d.phase = .ended outcome := by
  cases phase : d.phase with
  | ended outcome => exact ⟨outcome, rfl⟩
  | _ => simp [isRunning, phase] at ended

section Moves

variable {d d' : Delivery} {calls : List TransportCall} {handed : List (Event × Handled)}
  {acts : List Act} {turn : Turn}

/-- A delivery goes on only if it went on before and was not asked to stop. -/
theorem Move.goesOn (move : Move d d' calls handed acts turn) (running : d'.isRunning = true) :
    d.isRunning = true ∧ d.stopAsked = false := by
  cases move with
  | finished phase => simp [Delivery.isRunning, phase] at running
  | stop => simp [Delivery.isRunning] at running
  | giveUp => simp [Delivery.isRunning] at running
  | _ => simp_all [Delivery.isRunning]

/-- A delivery that has ended or was asked to stop leaves the queue. -/
theorem Move.rests (move : Move d d' calls handed acts turn)
    (finished : d.isRunning = false ∨ d.stopAsked = true) : turn = .rest := by
  cases move with
  | busy phase asked => simp [Delivery.isRunning, phase, asked] at finished
  | hand phase asked => simp [Delivery.isRunning, phase, asked] at finished
  | expire _ _ phase asked => simp [Delivery.isRunning, phase, asked] at finished
  | renew phase asked => simp [Delivery.isRunning, phase, asked] at finished
  | _ => rfl

end Moves

/-- A delivery that goes on belongs to a session with one of these numbers, or it was asked to stop
and has its turn before it. -/
structure Pool.Attended (numbers : List Nat) (p : Pool τ σ) : Prop where
  queued : ∀ n d, p.deliveries[n]? = some d → d.isRunning = true → d.stopAsked = true → n ∈ p.ready
  owned : ∀ n d, p.deliveries[n]? = some d → d.isRunning = true → d.stopAsked = true ∨ n ∈ numbers

/-- These sessions are open: each has a delivery of its own that was not asked to stop, and nobody
has waited for its end. -/
structure Pool.Manned (sessions : List Session) (p : Pool τ σ) : Prop where
  distinct : (sessions.map Session.number).Nodup
  each : ∀ session ∈ sessions, session.joined = false ∧
    ∃ d, p.deliveries[session.number]? = some d ∧ d.scope = session.scope ∧ d.stopAsked = false

def Pool.Over (p : Pool τ σ) : Prop := ∀ d ∈ p.deliveries, d.isRunning = false

namespace Pool

variable {t : Transport τ} {env : ε → Recorded τ → Recorded τ} {numbers : List Nat}
  {p : Pool (Recorded τ) σ}

theorem Attended.mono {numbers' : List Nat} (attended : p.Attended numbers)
    (more : ∀ n ∈ numbers, n ∈ numbers') : p.Attended numbers' :=
  ⟨attended.queued, fun n d there running => (attended.owned n d there running).imp_right (more n)⟩

theorem Attended.advance (t : Transport τ) (sink : Sink σ) (attended : p.Attended numbers) {n : Nat}
    {others : List Nat} {d : Delivery} (ready : p.ready = n :: others)
    (there : p.deliveries[n]? = some d) :
    (p.advance n others (d.step t.recorded sink p.transport p.sink)).Attended numbers := by
  obtain ⟨calls, handed, -, -, -, move⟩ := d.step_moves t sink p.transport p.sink
  refine ⟨?_, ?_⟩
  · intro m e found running asked
    rcases getElem?_advance_cases there found with ⟨rfl, rfl⟩ | ⟨other, old⟩
    · -- One that was asked to stop has ended by its turn, so it need not be queued again.
      rw [move.stopAsked_eq, (move.goesOn running).2] at asked
      cases asked
    · have mem := attended.queued m e old running asked
      rw [ready] at mem
      exact mem_requeue ((List.mem_cons.mp mem).resolve_left other)
  · intro m e found running
    rcases getElem?_advance_cases there found with ⟨rfl, rfl⟩ | ⟨_, old⟩
    · rw [move.stopAsked_eq]
      exact attended.owned m d there (move.goesOn running).1
    · exact attended.owned m e old running

theorem Attended.skip (attended : p.Attended numbers) {n : Nat} {others : List Nat}
    (ready : p.ready = n :: others) (missing : p.deliveries[n]? = none) :
    ({ p with ready := others } : Pool (Recorded τ) σ).Attended numbers := by
  refine ⟨?_, attended.owned⟩
  intro m e found running asked
  have mem := attended.queued m e found running asked
  rw [ready] at mem
  rcases List.mem_cons.mp mem with rfl | mem
  · rw [missing] at found
    cases found
  · exact mem

theorem Attended.turn (attended : p.Attended numbers) (t : Transport τ) (sink : Sink σ) :
    (p.turn t.recorded sink).Attended numbers :=
  turn_kept (P := fun q => q.Attended numbers) (fun ready there h => h.advance t sink ready there)
    (fun ready missing h => h.skip ready missing) attended

theorem Attended.settle (attended : p.Attended numbers) (t : Transport τ) (sink : Sink σ) :
    (p.settle t.recorded sink).Attended numbers :=
  settle_induction (fun _ h => h.turn t sink) attended

theorem Attended.stop {n : Nat} {ready : List Nat} (self : n ∈ ready)
    (kept : ∀ m ∈ p.ready, m ∈ ready) (attended : p.Attended (n :: numbers)) :
    ({ p.modify n (fun d => { d with stopAsked := true }) with ready } :
      Pool (Recorded τ) σ).Attended
      numbers := by
  refine ⟨?_, ?_⟩
  · intro m e found running asked
    rcases getElem?_modify_cases found with ⟨_, old⟩ | ⟨rfl, _⟩
    · exact kept m (attended.queued m e old running asked)
    · exact self
  · intro m e found running
    rcases getElem?_modify_cases found with ⟨other, old⟩ | ⟨_, d, old, rfl⟩
    · exact (attended.owned m e old running).imp_right fun mem =>
        (List.mem_cons.mp mem).resolve_left other
    · exact .inl rfl

theorem Attended.queue {ready : List Nat} (kept : ∀ n ∈ p.ready, n ∈ ready)
    (attended : p.Attended numbers) : ({ p with ready } : Pool (Recorded τ) σ).Attended numbers :=
  ⟨fun n d there running asked => kept n (attended.queued n d there running asked), attended.owned⟩

theorem Attended.publishClosed (n : Nat) (attended : p.Attended numbers) :
    (p.publishClosed n).Attended numbers := by
  refine ⟨?_, ?_⟩
  · intro m e found running asked
    rcases getElem?_modify_cases found with ⟨_, old⟩ | ⟨rfl, d, old, rfl⟩
    · exact attended.queued m e old running asked
    · exact attended.queued m d old running asked
  · intro m e found running
    rcases getElem?_modify_cases found with ⟨_, old⟩ | ⟨rfl, d, old, rfl⟩
    · exact attended.owned m e old running
    · exact attended.owned m d old running

theorem Attended.spawn (gvkKey : String) (scope : Scope) (h : Handle)
    (attended : p.Attended numbers) :
    (p.spawn gvkKey scope h).2.Attended (numbers ++ [(p.spawn gvkKey scope h).1.number]) := by
  refine ⟨?_, ?_⟩
  · intro m e found running asked
    rcases getElem?_spawn_cases found with ⟨_, old⟩ | ⟨_, rfl⟩
    · exact List.mem_append_left _ (attended.queued m e old running asked)
    · cases asked
  · intro m e found running
    rcases getElem?_spawn_cases found with ⟨_, old⟩ | ⟨rfl, _⟩
    · exact (attended.owned m e old running).imp_right (List.mem_append_left _)
    · exact .inr (List.mem_append_right _ (List.mem_singleton_self _))

theorem keeps_attended (t : Transport τ) (env : ε → Recorded τ → Recorded τ) :
    Keeps t env (fun sessions _ (p : Pool (Recorded τ) σ) =>
      p.Attended (sessions.map Session.number)) where
  advance := fun sink ready there attended => attended.advance t sink ready there
  skip := fun ready missing attended => attended.skip ready missing
  asks := fun _ attended => ⟨attended.queued, attended.owned⟩
  spawn := fun {_ _ h} gvkKey scope _ attended => by
    rw [List.map_append]
    exact attended.spawn gvkKey scope h
  stop := fun self kept attended => attended.stop self kept
  close := fun {_ _ _ n _ _} _ _ attended => attended.publishClosed n
  queue := fun kept attended => attended.queue kept
  sink := fun _ attended => ⟨attended.queued, attended.owned⟩
  outside := fun _ attended => ⟨attended.queued, attended.owned⟩

/-- Nobody has waited for the end of an open session. -/
theorem keeps_waiting (t : Transport τ) (env : ε → Recorded τ → Recorded τ) :
    Keeps t env (fun sessions _ (_ : Pool (Recorded τ) σ) => ∀ session ∈ sessions,
      session.joined = false) where
  advance := fun _ _ _ waiting => waiting
  skip := fun _ _ waiting => waiting
  asks := fun _ waiting => waiting
  spawn := fun _ _ _ waiting session mem => by
    rcases List.mem_append.mp mem with old | new
    · exact waiting session old
    · rw [List.mem_singleton.mp new]
      rfl
  stop := fun _ _ waiting session mem => waiting session (List.mem_cons_of_mem _ mem)
  close := fun _ _ waiting => waiting
  queue := fun _ waiting => waiting
  sink := fun _ waiting => waiting
  outside := fun _ waiting => waiting

/-- A change that asks for no stop leaves the sessions open. -/
theorem Manned.inside {sessions : List Session} {p : Pool τ σ} (manned : p.Manned sessions) :
    ∀ session ∈ sessions, session.number < p.deliveries.length := by
  intro session mem
  obtain ⟨-, d, there, -⟩ := manned.each session mem
  exact (List.getElem?_eq_some_iff.mp there).1

theorem Manned.of_deliveries {sessions : List Session} {p q : Pool τ σ} (manned : p.Manned sessions)
    (kept : ∀ (n : Nat) d, p.deliveries[n]? = some d →
      ∃ e, q.deliveries[n]? = some e ∧ e.scope = d.scope ∧ e.stopAsked = d.stopAsked) :
    q.Manned sessions := by
  refine ⟨manned.distinct, ?_⟩
  intro session mem
  obtain ⟨waiting, d, there, scope, unasked⟩ := manned.each session mem
  obtain ⟨e, found, same, still⟩ := kept session.number d there
  exact ⟨waiting, e, found, same.trans scope, still.trans unasked⟩

theorem keeps_manned (t : Transport τ) (env : ε → Recorded τ → Recorded τ) :
    Keeps t env (fun sessions _ (p : Pool (Recorded τ) σ) => p.Manned sessions) where
  advance := fun {_ _ p n others d} sink _ there manned => by
    obtain ⟨calls, handed, -, -, -, move⟩ := d.step_moves t sink p.transport p.sink
    refine manned.of_deliveries ?_
    intro m e old
    by_cases same : m = n
    · subst same
      obtain rfl : d = e := Option.some.inj (there.symm.trans old)
      exact ⟨_, getElem?_advance_self there, move.own_eq.2, move.stopAsked_eq⟩
    · exact ⟨e, (getElem?_advance_of_ne same).trans old, rfl, rfl⟩
  skip := fun _ _ manned => ⟨manned.distinct, manned.each⟩
  asks := fun _ manned => ⟨manned.distinct, manned.each⟩
  spawn := fun {sessions p h} gvkKey scope _ manned => by
    have inside : ∀ session ∈ sessions, session.number < p.deliveries.length := by
      intro session mem
      obtain ⟨_, d, there, _⟩ := manned.each session mem
      exact (List.getElem?_eq_some_iff.mp there).1
    refine ⟨?_, ?_⟩
    · rw [List.map_append]
      refine List.nodup_append.mpr ⟨manned.distinct, List.nodup_singleton _, ?_⟩
      intro n mem m new
      obtain ⟨session, there, rfl⟩ := List.mem_map.mp mem
      rw [List.mem_singleton.mp new]
      exact Nat.ne_of_lt (inside session there)
    · intro session mem
      rcases List.mem_append.mp mem with old | new
      · obtain ⟨waiting, d, there, owned⟩ := manned.each session old
        exact ⟨waiting, d, (List.getElem?_append_left (inside session old)).trans there, owned⟩
      · rw [List.mem_singleton.mp new]
        exact ⟨rfl, _, List.getElem?_concat_length, rfl, rfl⟩
  stop := fun {session sessions _ p _} _ _ manned => by
    obtain ⟨other, distinct⟩ := List.nodup_cons.mp manned.distinct
    refine ⟨distinct, ?_⟩
    intro s mem
    obtain ⟨waiting, d, there, owned⟩ := manned.each s (List.mem_cons_of_mem _ mem)
    have apart : s.number ≠ session.number := fun same => other (same ▸ List.mem_map_of_mem mem)
    exact ⟨waiting, d, (getElem?_modify_of_ne apart).trans there, owned⟩
  close := fun {_ _ p n _ _} _ _ manned => by
    refine manned.of_deliveries ?_
    intro m e old
    by_cases same : m = n
    · subst same
      exact ⟨_, getElem?_modify_self old, rfl, rfl⟩
    · exact ⟨e, (getElem?_modify_of_ne same).trans old, rfl, rfl⟩
  queue := fun _ manned => ⟨manned.distinct, manned.each⟩
  sink := fun _ manned => ⟨manned.distinct, manned.each⟩
  outside := fun _ manned => ⟨manned.distinct, manned.each⟩

/-! ## The end -/

/-- With no session left, a delivery has ended or was asked to stop. -/
theorem Attended.quiet {p : Pool τ σ} (attended : p.Attended []) {n : Nat} {d : Delivery}
    (there : p.deliveries[n]? = some d) : d.isRunning = false ∨ d.stopAsked = true := by
  cases running : d.isRunning with
  | false => exact .inl rfl
  | true => exact .inr ((attended.owned n d there running).resolve_right List.not_mem_nil)

theorem Attended.over_of_idle (attended : p.Attended []) (idle : p.ready = []) : p.Over := by
  intro d mem
  obtain ⟨n, there⟩ := List.mem_iff_getElem?.mp mem
  cases running : d.isRunning with
  | false => rfl
  | true =>
    have asked := (attended.owned n d there running).resolve_right List.not_mem_nil
    have waits := attended.queued n d there running asked
    rw [idle] at waits
    cases waits

/-- With all deliveries asked to stop, a turn shortens the queue. -/
theorem Attended.turn_ready (attended : p.Attended []) (t : Transport τ) (sink : Sink σ) {n : Nat}
    {others : List Nat} (ready : p.ready = n :: others) :
    (p.turn t.recorded sink).ready = others := by
  unfold Pool.turn
  cases there : p.deliveries[n]? with
  | none => simp [ready, there]
  | some d =>
    obtain ⟨calls, handed, -, -, -, move⟩ := d.step_moves t sink p.transport p.sink
    simp [ready, there, Pool.advance, move.rests (attended.quiet there), requeue]

/-- Once all deliveries that go on were asked to stop, the queue is empty before the fuel is used
up. -/
theorem Attended.run_idle (t : Transport τ) (sink : Sink σ) (fuel : Nat) (attended : p.Attended [])
    (enough : p.ready.length ≤ fuel) : (p.run t.recorded sink fuel).ready = [] := by
  induction fuel generalizing p with
  | zero => exact List.length_eq_zero_iff.mp (Nat.le_zero.mp enough)
  | succ fuel ih =>
    unfold run
    cases ready : p.ready with
    | nil => exact ready
    | cons n others =>
      have shorter := attended.turn_ready t sink ready
      refine ih (attended.turn t sink) ?_
      rw [shorter]
      rw [ready] at enough
      exact Nat.le_of_succ_le_succ enough

theorem Attended.settle_idle (attended : p.Attended []) (t : Transport τ) (sink : Sink σ) :
    (p.settle t.recorded sink).ready = [] :=
  attended.run_idle t sink _ (Nat.le_add_left _ _)

theorem Attended.settle_over (attended : p.Attended []) (t : Transport τ) (sink : Sink σ) :
    (p.settle t.recorded sink).Over :=
  (attended.settle t sink).over_of_idle (attended.settle_idle t sink)

/-- A pool stays over once it is, whoever takes a turn. -/
theorem Over.turn (isOver : p.Over) (t : Transport (Recorded τ)) (sink : Sink σ) :
    (p.turn t sink).Over := by
  rcases p.turn_cases t sink with ⟨ready, same⟩ | ⟨n, others, d, there, moved⟩
  · rw [same]
    exact isOver
  · have ended := isOver d (List.mem_of_getElem? there)
    rw [moved, d.step_of_ended t sink p.transport p.sink ended]
    intro e mem
    rcases List.mem_or_eq_of_mem_set mem with old | rfl
    · exact isOver e old
    · exact ended

theorem Over.settle (isOver : p.Over) (t : Transport (Recorded τ)) (sink : Sink σ) :
    (p.settle t sink).Over :=
  settle_induction (fun _ h => h.turn t sink) isOver

theorem Over.publishClosed {p : Pool τ σ} (isOver : p.Over) (n : Nat) :
    (p.publishClosed n).Over := by
  intro e mem
  obtain ⟨m, found⟩ := List.mem_iff_getElem?.mp mem
  rcases getElem?_modify_cases found with ⟨_, old⟩ | ⟨_, d, old, rfl⟩
  · exact isOver e (List.mem_of_getElem? old)
  · exact isOver d (List.mem_of_getElem? old)

end Pool

end WatchDispatch.Watch
