import WatchDispatch.Proofs.Watch.SessionRun

/-!
# Pools with one delivery

A session that is alone in its pool keeps what its steps keep: whatever holds between a delivery and
the state of its transport, and is kept by a step and by a stop that is asked for, holds after every
run.
-/

namespace WatchDispatch.Watch

variable {τ σ : Type}

/-- What holds between a delivery and its transport is kept by all that a pool does to the
delivery. -/
structure Delivery.Keeps (t : Transport τ) (sink : Sink σ) (R : Delivery → τ → Prop) : Prop where
  step : ∀ {d x} y, R d x → R (d.step t sink x y).delivery (d.step t sink x y).transport
  ask : ∀ {d x}, R d x → R { d with stopAsked := true } x
  close : ∀ {d x outcome}, d.phase = .ended outcome → R d x → R { d with state := .closed } x

/-- The pool has one delivery, and this holds between it and the transport. -/
def Pool.Alone (R : Delivery → τ → Prop) (p : Pool τ σ) : Prop :=
  ∃ d, p.deliveries = [d] ∧ R d p.transport

namespace Pool.Alone

variable {t : Transport τ} {sink : Sink σ} {R : Delivery → τ → Prop} {p : Pool τ σ}

theorem turn (keeps : Delivery.Keeps t sink R) (alone : p.Alone R) : (p.turn t sink).Alone R := by
  obtain ⟨d, only, holds⟩ := alone
  rcases p.turn_cases t sink with ⟨ready, same⟩ | ⟨n, others, d', there, moved⟩
  · rw [same]
    exact ⟨d, only, holds⟩
  · rw [only] at there
    obtain ⟨rfl, rfl⟩ : n = 0 ∧ d = d' := by simpa [List.getElem?_singleton] using there
    rw [moved]
    exact ⟨_, by simp [advance, only], keeps.step p.sink holds⟩

theorem settle (keeps : Delivery.Keeps t sink R) (alone : p.Alone R) : (p.settle t sink).Alone R :=
  settle_induction (fun _ h => h.turn keeps) alone

theorem wake (alone : p.Alone R) (n : Nat) : (p.wake n).Alone R := by
  unfold Pool.wake
  split
  · exact alone
  · exact alone

theorem requestStop (keeps : Delivery.Keeps t sink R) (alone : p.Alone R) (s : Session) :
    (p.requestStop s).Alone R := by
  obtain ⟨d, only, holds⟩ := alone
  apply Alone.wake
  cases number : s.number with
  | zero => exact ⟨{ d with stopAsked := true }, by simp [modify, only], keeps.ask holds⟩
  | succ n => exact ⟨d, by simp [modify, only], holds⟩

theorem finish (keeps : Delivery.Keeps t sink R) (alone : p.Alone R) (s : Session) :
    (p.finish t sink s).2.2.Alone R := by
  unfold Pool.finish
  split
  · exact alone
  · obtain ⟨d, only, holds⟩ := alone.settle keeps
    dsimp only
    split
    next outcome ended =>
      have ended : ([d][s.number]?).map Delivery.phase = some (.ended outcome) := only ▸ ended
      cases number : s.number with
      | succ n => simp [number] at ended
      | zero =>
        have phase : d.phase = .ended outcome := by simpa [number] using ended
        exact ⟨{ d with state := .closed },
          by simp [publishClosed, modify, only], keeps.close phase holds⟩
    next => exact ⟨d, only, holds⟩

end Pool.Alone

namespace Owner

variable {t : Transport τ} {sink : Sink σ} {R : Delivery → Recorded τ → Prop} {o : Owner τ σ}

/-- Whatever others may do to the transport has to keep the relation too. -/
theorem perform_alone (keeps : Delivery.Keeps t.recorded sink R) (alone : o.pool.Alone R)
    (happening : Happening τ σ) (elsewhere : ∀ x y, happening = .elsewhere x y →
      ∀ d, R d o.pool.transport → R d { o.pool.transport with state := x }) :
    (o.perform t sink happening).pool.Alone R := by
  cases happening with
  | requestStop => exact alone.requestStop keeps o.session
  | drop => exact alone.requestStop keeps o.session
  | finish => exact alone.finish keeps o.session
  | close => exact (alone.requestStop keeps o.session).finish keeps o.session
  | abandonFinish => exact alone
  | wake => exact alone.wake o.session.number
  | turn => exact alone.turn keeps
  | settle => exact alone.settle keeps
  | elsewhere x y =>
    obtain ⟨d, only, holds⟩ := alone
    exact ⟨d, only, elsewhere x y rfl d holds⟩

/-- A session that is opened reads what was granted, and it has its turn. -/
theorem open?_of_granted {gvkKey : String} {scope : Scope} {x state : τ} {y : σ} {h : Handle}
    (granted : t.subscribe scope x = (.granted h, state)) :
    open? t sink gvkKey scope x y = some ⟨⟨0, scope, false⟩,
      ⟨⟨state, [.subscribe scope (.granted h)]⟩, y,
        [⟨gvkKey, scope, false, .active, .watching h⟩], [0],
        [(0, .published .active), (0, .subscribed h)], some []⟩⟩ := by
  -- Nobody is queued yet, so nothing moves while the subscription is made.
  have idle : ∀ p : Pool (Recorded τ) σ, p.ready = [] → p.goOn t.recorded sink = p := by
    intro p ready
    unfold Pool.goOn
    split
    · exact Pool.settle_of_idle t.recorded sink ready
    · rfl
  have asked : t.recorded.subscribe scope ⟨x, []⟩ =
      (.granted h, ⟨state, [.subscribe scope (.granted h)]⟩) := by
    simp [Transport.recorded, granted]
  unfold open? Pool.openSession Pool.openWhile
  simp only [Pool.start, asked, idle]
  rfl

theorem open?_eq {gvkKey : String} {scope : Scope} {x : τ} {y : σ}
    (opened : open? t sink gvkKey scope x y = some o) :
    ∃ h state, t.subscribe scope x = (.granted h, state) ∧ o = ⟨⟨0, scope, false⟩,
      ⟨⟨state, [.subscribe scope (.granted h)]⟩, y,
        [⟨gvkKey, scope, false, .active, .watching h⟩], [0],
        [(0, .published .active), (0, .subscribed h)], some []⟩⟩ := by
  rcases answer : t.subscribe scope x with ⟨h | f | _, state⟩
  · rw [open?_of_granted answer] at opened
    exact ⟨h, state, rfl, (Option.some.inj opened).symm⟩
  · simp [open?, Pool.openSession, Pool.openWhile, Pool.abandonPending,
      Transport.recorded, Pool.start, answer] at opened
  · simp [open?, Pool.openSession, Pool.openWhile, Pool.abandonPending,
      Transport.recorded, Pool.start, answer] at opened

end Owner

end WatchDispatch.Watch
