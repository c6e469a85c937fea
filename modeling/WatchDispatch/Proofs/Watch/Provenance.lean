import WatchDispatch.Proofs.Watch.StepsAtScope

/-!
# Where events come from

A delivery hands on what it has read from subscriptions that were granted for its own scope, and
nothing else: this is kept by all that happens to a pool, whatever the transport answers. What each
operation of a transport keeps is kept as well.
-/

namespace WatchDispatch.Watch

variable {τ σ ε : Type}

/-- A transport grants a subscription under the scope that was asked for. -/
def Transport.NamesScopes (t : Transport τ) : Prop :=
  ∀ scope h, t.Answers (.subscribe scope (.granted h)) → h.scope = scope

/-- The events that a delivery has handed on, latest first. -/
def handedBy (journal : List (Nat × Act)) (n : Nat) : List Event :=
  (diary journal n).filterMap Act.event?

theorem mem_handedBy {journal : List (Nat × Act)} {n : Nat} {e : Event} :
    e ∈ handedBy journal n ↔ (n, .delivered e) ∈ journal := by
  have tells : ∀ act, Act.event? act = some e ↔ act = .delivered e := by
    intro act
    cases act <;> simp [Act.event?]
  simp [handedBy, diary, tells]

/-- What is read and what was handed on comes from subscriptions that were granted for the scope of
the delivery. -/
structure Pool.Traced (opening : List Handle) (p : Pool (Recorded τ) σ) : Prop where
  opened : ∀ h ∈ opening, .subscribe h.scope (.granted h) ∈ p.transport.calls
  reads : ∀ (n : Nat) (d : Delivery) h, p.deliveries[n]? = some d → d.phase = .watching h →
    .subscribe d.scope (.granted h) ∈ p.transport.calls
  delivered : ∀ n e, (n, .delivered e) ∈ p.journal → ∃ (d : Delivery) (h : Handle),
    p.deliveries[n]? = some d ∧ .subscribe d.scope (.granted h) ∈ p.transport.calls ∧
      .next h (.event e) ∈ p.transport.calls

section Moves

variable {d d' : Delivery} {calls : List TransportCall} {handed : List (Event × Handled)}
  {acts : List Act} {turn : Turn} (move : Move d d' calls handed acts turn)

include move

/-- A delivery reads on from the subscription that it has, or from one that it was just granted. -/
theorem Move.reads {h : Handle} (reads : d'.phase = .watching h) :
    d.phase = .watching h ∨ .subscribe d.scope (.granted h) ∈ calls := by
  cases move with
  | renew =>
    cases reads
    exact .inr List.mem_cons_self
  | idle | busy | hand | finished | wait => exact .inl reads
  | _ => cases reads

/-- What a delivery hands on it has just read. -/
theorem Move.delivers {e : Event} (mem : .delivered e ∈ acts) :
    ∃ h, d.phase = .watching h ∧ .next h (.event e) ∈ calls := by
  cases move with
  | hand phase =>
    cases List.mem_singleton.mp mem
    exact ⟨_, phase, List.mem_cons_self⟩
  | escalate result phase _ fatal =>
    cases fatal with
    | crash =>
      obtain rfl : e = _ := by simpa using mem
      exact ⟨_, phase, by simp⟩
    | _ => simp at mem
  | escalateCrash phase _ fatal =>
    cases fatal with
    | crash =>
      obtain rfl : e = _ := by simpa using mem
      exact ⟨_, phase, by simp⟩
    | _ => simp at mem
  | _ => simp at mem

end Moves

namespace Pool

/-- A change that keeps the calls, the scopes of the deliveries and what they read leaves it
traced. -/
theorem Traced.modify {opening : List Handle} {p p' : Pool (Recorded τ) σ}
    (traced : p.Traced opening) (n : Nat) (change : Delivery → Delivery)
    (scope : ∀ d, (change d).scope = d.scope) (phase : ∀ d, (change d).phase = d.phase)
    (deliveries : p'.deliveries = (p.modify n change).deliveries)
    (calls : p'.transport.calls = p.transport.calls)
    (journal : ∀ n e, (n, .delivered e) ∈ p'.journal → (n, .delivered e) ∈ p.journal) :
    p'.Traced opening where
  opened := by
    rw [calls]
    exact traced.opened
  reads := by
    intro m e h found reads
    rw [deliveries] at found
    rw [calls]
    rcases getElem?_modify_cases found with ⟨_, old⟩ | ⟨rfl, d, old, rfl⟩
    · exact traced.reads m e h old reads
    · rw [scope]
      exact traced.reads m d h old ((phase d).symm.trans reads)
  delivered := by
    intro m e mem
    obtain ⟨d, h, there, granted, read⟩ := traced.delivered m e (journal m e mem)
    rw [deliveries, calls]
    by_cases same : m = n
    · subst same
      exact ⟨change d, h, getElem?_modify_self there, scope d ▸ granted, read⟩
    · exact ⟨d, h, (getElem?_modify_of_ne same).trans there, granted, read⟩

/-- Whatever happens to a pool, its events can be traced. -/
theorem keeps_traced {t : Transport τ} (names : t.NamesScopes) {env : ε → Recorded τ → Recorded τ}
    (notes : ∀ change x, (env change x).calls = x.calls) :
    Keeps t env (fun _ opening (p : Pool (Recorded τ) σ) => p.Traced opening) where
  advance := fun {_ opening p n others d} sink _ there traced => by
    obtain ⟨calls, handed, recorded, -, -, move⟩ := d.step_moves t sink p.transport p.sink
    have scope := move.own_eq.2
    have before : ∀ call ∈ p.transport.calls,
        call ∈ (d.step t.recorded sink p.transport p.sink).transport.calls :=
      fun call mem => recorded ▸ List.mem_append_right calls mem
    have now : ∀ call ∈ calls, call ∈ (d.step t.recorded sink p.transport p.sink).transport.calls :=
      fun call mem => recorded ▸ List.mem_append_left _ mem
    refine ⟨fun h mem => before _ (traced.opened h mem), ?_, ?_⟩
    · intro m e h found reads
      rcases getElem?_advance_cases there found with ⟨rfl, rfl⟩ | ⟨_, old⟩
      · rw [scope]
        rcases move.reads reads with reading | granted
        · exact before _ (traced.reads m d h there reading)
        · exact now _ granted
      · exact before _ (traced.reads m e h old reads)
    · intro m e mem
      simp only [advance, List.mem_append, List.mem_reverse, List.mem_map, Prod.mk.injEq] at mem
      rcases mem with ⟨act, new, rfl, rfl⟩ | old
      · obtain ⟨h, reading, read⟩ := move.delivers new
        refine ⟨_, h, getElem?_advance_self there, ?_, now _ read⟩
        rw [scope]
        exact before _ (traced.reads n d h there reading)
      · obtain ⟨d', h, found, granted, read⟩ := traced.delivered m e old
        by_cases same : m = n
        · subst same
          obtain rfl : d = d' := Option.some.inj (there.symm.trans found)
          exact ⟨_, h, getElem?_advance_self there, scope ▸ before _ granted, before _ read⟩
        · exact ⟨d', h, (getElem?_advance_of_ne same).trans found, before _ granted, before _ read⟩
  skip := fun _ _ traced => { traced with }
  asks := fun {_ p} scope traced => by
    have later : ∀ call ∈ p.transport.calls,
        call ∈ (t.recorded.subscribe scope p.transport).2.calls :=
      fun call mem => List.mem_cons_of_mem _ mem
    refine ⟨?_, fun n d h there reads => later _ (traced.reads n d h there reads), ?_⟩
    · intro h mem
      rcases answer : t.subscribe scope p.transport.state with ⟨h' | f | _, state⟩ <;>
        simp only [Transport.recorded, answer, Subscribed.handles, List.mem_singleton,
          List.not_mem_nil] at mem
      subst mem
      have named := names scope h ⟨p.transport.state, congrArg Prod.fst answer⟩
      rw [named]
      simp [Transport.recorded, answer]
    · intro n e mem
      obtain ⟨d, h, there, granted, read⟩ := traced.delivered n e mem
      exact ⟨d, h, there, later _ granted, later _ read⟩
  spawn := fun {_ p h} gvkKey scope answers traced => by
    refine ⟨fun _ mem => (by cases mem), ?_, ?_⟩
    · intro m e g found reads
      rcases getElem?_spawn_cases found with ⟨_, old⟩ | ⟨rfl, rfl⟩
      · exact traced.reads m e g old reads
      · cases reads
        have opened := traced.opened h List.mem_cons_self
        rwa [names scope h answers] at opened
    · intro m e mem
      have old : (m, .delivered e) ∈ p.journal := by simpa [spawn] using mem
      obtain ⟨d, g, there, granted, read⟩ := traced.delivered m e old
      refine ⟨d, g, ?_, granted, read⟩
      have inside : m < p.deliveries.length := (List.getElem?_eq_some_iff.mp there).1
      simpa [spawn, List.getElem?_append_left inside] using there
  stop := fun {session _ _ _ _} _ _ traced =>
    traced.modify session.number (fun d => { d with stopAsked := true }) (fun _ => rfl)
      (fun _ => rfl) rfl
      rfl (fun _ _ mem => mem)
  close := fun {_ _ _ n _ _} _ _ traced => by
    refine traced.modify n (fun d => { d with state := .closed }) (fun _ => rfl)
      (fun _ => rfl) rfl rfl ?_
    intro m e mem
    simpa [publishClosed, Pool.modify] using mem
  queue := fun _ traced => { traced with }
  sink := fun _ traced => { traced with }
  outside := fun {_ _ p} change traced => by
    have same := notes change p.transport
    exact ⟨same ▸ traced.opened, same ▸ traced.reads, same ▸ traced.delivered⟩

/-- What the operations of a transport and the surroundings keep is kept by all that happens to a
pool. -/
theorem keeps_transport {t : Transport τ} {env : ε → Recorded τ → Recorded τ}
    {P : Recorded τ → Prop} (subscribe : ∀ scope x, P x → P (t.recorded.subscribe scope x).2)
    (unsubscribe : ∀ h x, P x → P (t.recorded.unsubscribe h x).2)
    (next : ∀ h x, P x → P (t.recorded.next h x).2)
    (abandon : ∀ h x, P x → P (t.recorded.abandon h x))
    (outside : ∀ change x, P x → P (env change x)) :
    Keeps t env (fun _ _ (p : Pool (Recorded τ) σ) => P p.transport) where
  advance := fun {_ _ p _ _ d} sink _ _ holds =>
    d.step_transport_kept sink p.sink (subscribe d.scope) (fun h _ => unsubscribe h)
      (fun h _ => next h)
      (fun h _ => abandon h) holds
  skip := fun _ _ holds => holds
  asks := fun scope holds => subscribe scope _ holds
  spawn := fun _ _ _ holds => holds
  stop := fun _ _ holds => holds
  close := fun _ _ holds => holds
  queue := fun _ holds => holds
  sink := fun _ holds => holds
  outside := fun change holds => outside change _ holds

end Pool

end WatchDispatch.Watch
