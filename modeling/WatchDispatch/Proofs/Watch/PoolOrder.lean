import WatchDispatch.Proofs.Watch.Attended

/-!
# Pools in order

A pool whose deliveries hold what its transport has lent stays in order, whoever takes the next turn
and whichever sessions are opened, asked to stop or waited for. Whoever waits for the end of its
sessions sees it, and no session fails to close.
-/

namespace WatchDispatch.Watch

variable {τ σ ε : Type}

def Pool.held (p : Pool τ σ) : List Handle := p.deliveries.flatMap (fun d => d.phase.held.toList)

/-- The deliveries hold what is out, apart from what is granted to a session that is being opened. A
delivery that goes on belongs to a session with one of these numbers, or it was asked to stop and
has its turn before it. -/
structure Pool.InOrder (Owes : List Handle → Recorded τ → Prop) (numbers : List Nat)
    (opening : List Handle) (p : Pool (Recorded τ) σ) : Prop where
  owes : Owes (opening ++ p.held) p.transport
  clean : ∀ d ∈ p.deliveries, d.phase.Clean
  queued : ∀ n d, p.deliveries[n]? = some d → d.isRunning = true → d.stopAsked = true → n ∈ p.ready
  owned : ∀ n d, p.deliveries[n]? = some d → d.isRunning = true → d.stopAsked = true ∨ n ∈ numbers

/-- What one place of a list contributes can be put in front. -/
theorem flatMap_set_perm {α β : Type} (f : α → List β) {l : List α} {n : Nat} {a : α}
    (there : l[n]? = some a) : ∃ rest, (l.flatMap f).Perm (f a ++ rest) ∧
      ∀ b, ((l.set n b).flatMap f).Perm (f b ++ rest) := by
  induction l generalizing n with
  | nil => cases there
  | cons first l ih =>
    cases n with
    | zero =>
      obtain rfl : first = a := Option.some.inj there
      exact ⟨l.flatMap f, .refl _, fun b => .refl _⟩
    | succ n =>
      obtain ⟨rest, before, after⟩ := ih there
      refine ⟨f first ++ rest, ?_, fun b => ?_⟩
      · exact (before.append_left (f first)).trans (List.perm_append_comm_assoc _ _ _)
      · exact ((after b).append_left (f first)).trans (List.perm_append_comm_assoc _ _ _)

namespace Pool

variable {t : Transport τ} {Owes : List Handle → Recorded τ → Prop} {numbers : List Nat}
  {opening : List Handle} {p : Pool (Recorded τ) σ}

theorem InOrder.attended (order : p.InOrder Owes numbers opening) : p.Attended numbers :=
  ⟨order.queued, order.owned⟩

theorem InOrder.of_attended (owes : Owes (opening ++ p.held) p.transport)
    (clean : ∀ d ∈ p.deliveries, d.phase.Clean) (attended : p.Attended numbers) :
    p.InOrder Owes numbers opening :=
  ⟨owes, clean, attended.queued, attended.owned⟩

theorem InOrder.advance (lends : t.recorded.Lends Owes) (sink : Sink σ)
    (order : p.InOrder Owes numbers opening) {n : Nat} {others : List Nat} {d : Delivery}
    (ready : p.ready = n :: others) (there : p.deliveries[n]? = some d) :
    (p.advance n others (d.step t.recorded sink p.transport p.sink)).InOrder Owes numbers
      opening := by
  obtain ⟨rest, before, after⟩ := flatMap_set_perm (fun d => d.phase.held.toList) there
  -- What the delivery holds comes first, what the others hold is the same before and after.
  have frame : ∀ held : List Handle, (opening ++ (held ++ rest)).Perm (held ++ (opening ++ rest)) :=
    fun held => List.perm_append_comm_assoc _ _ _
  have owes := lends.perm ((before.append_left opening).trans (frame _)) order.owes
  have clean := order.clean d (List.mem_of_getElem? there)
  obtain ⟨owes', clean'⟩ := d.step_inOrder lends p.sink sink owes clean
  refine .of_attended ?_ ?_ (order.attended.advance t sink ready there)
  · exact lends.perm ((((after _).append_left opening).trans (frame _)).symm) owes'
  · intro e mem
    rcases List.mem_or_eq_of_mem_set mem with old | rfl
    · exact order.clean e old
    · exact clean'

/-- A change that leaves the phases alone leaves what is held alone. -/
theorem held_modify (n : Nat) (change : Delivery → Delivery)
    (phase : ∀ d, (change d).phase = d.phase) (p : Pool τ σ) :
    (p.modify n change).held = p.held := by
  have same : ∀ (deliveries : List Delivery) (n : Nat),
      (deliveries.modify n change).flatMap (fun d => d.phase.held.toList) =
        deliveries.flatMap (fun d => d.phase.held.toList) := by
    intro deliveries
    induction deliveries with
    | nil => simp
    | cons d deliveries ih =>
      intro n
      cases n with
      | zero => simp [phase]
      | succ n => simp [ih]
  exact same p.deliveries n

theorem forall_phase_modify {P : Phase → Prop} {n : Nat} {change : Delivery → Delivery}
    (phase : ∀ d, (change d).phase = d.phase) (all : ∀ d ∈ p.deliveries, P d.phase) :
    ∀ d ∈ (p.modify n change).deliveries, P d.phase := by
  intro e mem
  obtain ⟨m, found⟩ := List.mem_iff_getElem?.mp mem
  rcases getElem?_modify_cases found with ⟨_, old⟩ | ⟨_, d, old, rfl⟩
  · exact all e (List.mem_of_getElem? old)
  · rw [phase]
    exact all d (List.mem_of_getElem? old)

/-- A granted subscription is handed over to the delivery of a new session. -/
theorem held_spawn (gvkKey : String) (scope : Scope) (h : Handle) (p : Pool τ σ) :
    (p.spawn gvkKey scope h).2.held = p.held ++ [h] := by
  simp [spawn, held, Phase.held]

/-- Whatever happens to a pool leaves it in order, if the surroundings leave what is out alone. -/
theorem keeps_inOrder {env : ε → Recorded τ → Recorded τ} (lends : t.recorded.Lends Owes)
    (harmless : ∀ change held x, Owes held x → Owes held (env change x)) :
    Keeps t env (fun sessions opening (p : Pool (Recorded τ) σ) =>
      p.InOrder Owes (sessions.map Session.number) opening) where
  advance := fun sink ready there order => order.advance lends sink ready there
  skip := fun ready missing order =>
    .of_attended order.owes order.clean (order.attended.skip ready missing)
  asks := fun scope order => { order with owes := lends.grants scope order.owes }
  spawn := fun {_ p h} gvkKey scope _ order => by
    rw [List.map_append]
    refine .of_attended ?_ ?_ (order.attended.spawn gvkKey scope h)
    · rw [held_spawn, List.nil_append]
      exact lends.perm List.perm_append_comm order.owes
    · intro e mem
      rcases List.mem_append.mp mem with old | new
      · exact order.clean e old
      · rw [List.mem_singleton.mp new]
        trivial
  stop := fun {session _ _ p _} self kept order => by
    have held := held_modify session.number (fun d => { d with stopAsked := true }) (fun _ => rfl) p
    exact .of_attended (held ▸ order.owes) (forall_phase_modify (fun _ => rfl) order.clean)
      (order.attended.stop self kept)
  close := fun {_ _ p n _ _} _ _ order => by
    have held := held_modify n (fun d => { d with state := .closed }) (fun _ => rfl) p
    exact .of_attended (held ▸ order.owes) (forall_phase_modify (fun _ => rfl) order.clean)
      (order.attended.publishClosed n)
  queue := fun kept order =>
    { order with
      queued := fun n d there running asked => kept n (order.queued n d there running asked) }
  sink := fun _ order => { order with owes := order.owes }
  outside := fun change order => { order with owes := harmless change _ _ order.owes }

end Pool

end WatchDispatch.Watch
