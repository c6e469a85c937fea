import WatchDispatch.Proofs.Watch.SessionRun

/-!
# Pools come to rest

A transport dwindles if every item that it gives uses up some of its work and nothing adds to it.
Over such a transport every turn lowers the budget of a pool: an item is used up, a subscription is
renewed, or a delivery leaves the queue. So the budget is fuel enough, and deliveries that run until
nothing moves really come to rest.
-/

namespace WatchDispatch.Watch

variable {τ σ : Type}

/-- In the states `Holds` the work of a transport never grows, and every item but an end uses some
up. -/
structure Transport.Dwindles (t : Transport τ) (Holds : τ → Prop) : Prop where
  subscribe : ∀ {x} scope, Holds x →
    Holds (t.subscribe scope x).2 ∧ t.work (t.subscribe scope x).2 ≤ t.work x
  unsubscribe : ∀ {x} h, Holds x → Holds (t.unsubscribe h x).2 ∧
    t.work (t.unsubscribe h x).2 ≤ t.work x
  abandon : ∀ {x} h, Holds x → Holds (t.abandon h x) ∧ t.work (t.abandon h x) ≤ t.work x
  next : ∀ {x} h, Holds x → Holds (t.next h x).2 ∧ t.work (t.next h x).2 ≤ t.work x
  uses : ∀ {x} h, Holds x → (t.next h x).1 ≠ .idle → (t.next h x).1 ≠ .ended →
    t.work (t.next h x).2 < t.work x

/-- A transport that notes its calls dwindles as it did. -/
theorem Transport.Dwindles.recorded {t : Transport τ} {Holds : τ → Prop}
    (dwindles : t.Dwindles Holds) : t.recorded.Dwindles (fun x => Holds x.state) :=
  ⟨dwindles.subscribe, dwindles.unsubscribe, dwindles.abandon, dwindles.next, dwindles.uses⟩

/-- What a delivery adds to the budget of its pool if it goes on as said. -/
def Delivery.share (d : Delivery) (turn : Turn) : Nat :=
  d.isRenewing.toNat + (if turn = .rest then 0 else 1)

/-- The step of a delivery that waited in state `x` lowers the budget. -/
structure Step.Lowers (t : Transport τ) (Holds : τ → Prop) (d : Delivery) (x : τ) (s : Step τ σ) :
    Prop where
  holds : Holds s.transport
  budget : 2 * t.work s.transport + s.delivery.share s.turn < 2 * t.work x + d.share .again

namespace Delivery

section Steps

variable {t : Transport τ} {Holds : τ → Prop} (dwindles : t.Dwindles Holds) (d : Delivery)
    (h : Handle)
  {x x' : τ} (y : σ)

include dwindles

/-- A delivery that ends with its subscription given back leaves the queue. -/
theorem release_lowers (holds : Holds x') (less : t.work x' ≤ t.work x) (s : Step τ σ)
    (transport : s.transport = t.abandon h (t.unsubscribe h x').2) (turn : s.turn = .rest)
    (ended : s.delivery.isRenewing = false) : s.Lowers t Holds d x := by
  obtain ⟨given, lessGiven⟩ := dwindles.unsubscribe h holds
  obtain ⟨forgotten, lessForgotten⟩ := dwindles.abandon h given
  refine ⟨transport ▸ forgotten, ?_⟩
  simp only [share, transport, turn, ended, if_true]
  have apart : Turn.again ≠ .rest := by simp
  simp only [apart, if_false, Bool.toNat_false]
  omega

theorem escalate_lowers (f : Fault) (before : List Act) (holds : Holds x')
    (less : t.work x' ≤ t.work x) : (d.escalate t h f before x' y).Lowers t Holds d x := by
  apply release_lowers dwindles d h holds less
  · unfold escalate
    dsimp only
    split <;> rfl
  · unfold escalate
    dsimp only
    split <;> rfl
  · unfold escalate
    dsimp only
    split <;> rfl

theorem expire_lowers (phase : d.phase = .watching h) (holds : Holds x')
    (less : t.work x' < t.work x) : (d.expire t h x' y).Lowers t Holds d x := by
  obtain ⟨given, lessGiven⟩ := dwindles.unsubscribe h holds
  have ends := release_lowers dwindles d h holds (Nat.le_of_lt less)
    (⟨{ d with state := .starting, phase := .ended .aborted },
      t.abandon h (t.unsubscribe h x').2, y,
      [.published .starting, .released h .crashed], .rest⟩ : Step τ σ) rfl rfl rfl
  have renews : ∀ acts,
    (⟨{ d with state := .starting, phase := .renewing h }, (t.unsubscribe h x').2, y,
      acts, .again⟩ : Step τ σ).Lowers t Holds d x := by
    intro acts
    refine ⟨given, ?_⟩
    simp [share, isRenewing, phase]
    omega
  rcases released : t.unsubscribe h x' with ⟨_ | f | _, state⟩ <;> rw [released] at ends renews
  · simpa only [expire, released] using renews _
  · simpa only [expire, released] using renews _
  · simpa only [expire, released] using ends

theorem renew_lowers (phase : d.phase = .renewing h) (holds : Holds x) :
    (d.renew t h x y).Lowers t Holds d x := by
  obtain ⟨asked, lessAsked⟩ := dwindles.subscribe d.scope holds
  rcases answer : t.subscribe d.scope x with ⟨fresh | f | _, x'⟩ <;>
    rw [answer] at asked lessAsked <;> dsimp only at asked lessAsked
  · obtain ⟨forgotten, lessForgotten⟩ := dwindles.abandon h asked
    simp only [renew, answer]
    refine ⟨forgotten, ?_⟩
    have goes : (if t.suspends then Turn.pause else .again) ≠ .rest := by split <;> simp
    simp [share, isRenewing, phase, goes]
    omega
  · obtain ⟨forgotten, lessForgotten⟩ := dwindles.abandon h asked
    simp only [renew, answer]
    refine ⟨forgotten, ?_⟩
    simp [share, isRenewing, phase]
    omega
  · simp only [renew, answer]
    refine ⟨asked, ?_⟩
    simp [share, isRenewing, phase]
    omega

theorem take_lowers (sink : Sink σ) (phase : d.phase = .watching h) (holds : Holds x) :
    (d.take t sink h x y).Lowers t Holds d x := by
  obtain ⟨read, lessRead⟩ := dwindles.next h holds
  have uses := dwindles.uses h holds
  have goesOn : ∀ {x' y' acts turn}, Holds x' → t.work x' < t.work x →
      (⟨d, x', y', acts, turn⟩ : Step τ σ).Lowers t Holds d x := by
    intro x' y' acts turn holds less
    refine ⟨holds, ?_⟩
    by_cases rests : turn = .rest <;> simp [share, rests] <;> omega
  rcases taken : t.next h x with ⟨e | ⟨reason | reason⟩ | _ | _ | _, x'⟩ <;>
    rw [taken] at read lessRead uses <;> dsimp only at read lessRead uses
  · have less := uses (by simp) (by simp)
    rcases handled : sink e y with ⟨_ | message, y'⟩
    · simpa only [take, taken, handled] using goesOn read less
    · simpa only [take, taken, handled] using
        escalate_lowers dwindles d h y' (crashFault message) [.delivered e] read lessRead
  · have less := uses (by simp) (by simp)
    simpa only [take, taken] using expire_lowers dwindles d h y phase read less
  · simpa only [take, taken] using escalate_lowers dwindles d h y (.failed reason) [] read lessRead
  · simpa only [take, taken] using escalate_lowers dwindles d h y endFault [] read lessRead
  · simp only [take, taken]
    refine ⟨read, ?_⟩
    simp [share]
    omega
  · have less := uses (by simp) (by simp)
    simpa only [take, taken] using goesOn read less

theorem step_lowers (sink : Sink σ) (holds : Holds x) : (d.step t sink x y).Lowers t Holds d x := by
  have stays : (⟨d, x, y, [], .rest⟩ : Step τ σ).Lowers t Holds d x := by
    refine ⟨holds, ?_⟩
    simp [share]
  have stopped : ∀ h, (d.stopRenewal t h x y).Lowers t Holds d x := by
    intro h
    obtain ⟨forgotten, lessForgotten⟩ := dwindles.abandon h holds
    refine ⟨forgotten, ?_⟩
    simp [share, stopRenewal, isRenewing]
    omega
  unfold step
  cases phase : d.phase with
  | watching h =>
    dsimp only
    split
    · exact release_lowers dwindles d h holds (Nat.le_refl _) _ rfl rfl rfl
    · exact take_lowers dwindles d h y sink phase holds
  | renewing h =>
    dsimp only
    split
    · exact stopped h
    · exact renew_lowers dwindles d h y phase holds
  | awaiting h =>
    dsimp only
    split
    · exact stopped h
    · exact stays
  | ended outcome => exact stays

end Steps

end Delivery

namespace Pool

variable {t : Transport τ} {Holds : τ → Prop} {p : Pool τ σ}

/-- Every turn lowers the budget. -/
theorem turn_lowers (dwindles : t.Dwindles Holds) (sink : Sink σ) (holds : Holds p.transport)
    (queued : p.ready ≠ []) :
    Holds (p.turn t sink).transport ∧ (p.turn t sink).budget t < p.budget t := by
  obtain ⟨n, others, ready⟩ := List.exists_cons_of_ne_nil queued
  unfold turn
  rw [ready]
  dsimp only
  cases there : p.deliveries[n]? with
  | none =>
    refine ⟨holds, ?_⟩
    simp only [budget, ready, List.length_cons]
    omega
  | some d =>
    obtain ⟨inside, here⟩ := List.getElem?_eq_some_iff.mp there
    obtain ⟨kept, lower⟩ := d.step_lowers dwindles p.sink sink holds
    refine ⟨kept, ?_⟩
    dsimp only
    generalize d.step t sink p.transport p.sink = s at lower ⊢
    -- One place of the list changes, and the queue after the step has as many places as the step
    -- says.
    have before : (p.deliveries.set n s.delivery).countP Delivery.isRenewing + d.isRenewing.toNat =
        p.deliveries.countP Delivery.isRenewing + s.delivery.isRenewing.toNat := by
      have least := List.boole_getElem_le_countP (p := Delivery.isRenewing) inside
      rw [List.countP_set inside, here]
      rw [here] at least
      have one : ∀ b : Bool, (if b = true then 1 else 0) = b.toNat := by decide
      rw [one] at least ⊢
      rw [one]
      omega
    have queue : (requeue n others s.turn).length =
        others.length + (if s.turn = .rest then 0 else 1) := by
      cases s.turn <;> simp [requeue]
    simp only [Delivery.share] at lower
    simp only [budget, advance, ready, ← List.countP_eq_length_filter, List.length_cons]
    have apart : Turn.again ≠ .rest := by simp
    rw [if_neg apart] at lower
    omega

/-- Deliveries that run until nothing moves come to rest, and the budget is fuel enough for it. -/
theorem settle_rests (dwindles : t.Dwindles Holds) (sink : Sink σ) (holds : Holds p.transport) :
    Holds (p.settle t sink).transport ∧ (p.settle t sink).ready = [] := by
  have rests : ∀ fuel (p : Pool τ σ), Holds p.transport → p.budget t ≤ fuel →
      Holds (p.run t sink fuel).transport ∧ (p.run t sink fuel).ready = [] := by
    intro fuel
    induction fuel with
    | zero =>
      intro p holds enough
      have none : p.ready.length = 0 := by
        unfold budget at enough
        omega
      exact ⟨holds, List.eq_nil_of_length_eq_zero none⟩
    | succ fuel ih =>
      intro p holds enough
      unfold run
      split
      next idle => exact ⟨holds, List.isEmpty_iff.mp idle⟩
      next queued =>
        obtain ⟨kept, lower⟩ := turn_lowers dwindles sink holds (by simpa using queued)
        exact ih _ kept (by omega)
  exact rests _ p holds (Nat.le_refl _)

/-- A pool takes turns until the queue is empty. -/
inductive Settles (t : Transport τ) (sink : Sink σ) : Pool τ σ → Pool τ σ → Prop
  | rest (p : Pool τ σ) : p.ready = [] → Settles t sink p p
  | turn (p q : Pool τ σ) : p.ready ≠ [] → Settles t sink (p.turn t sink) q → Settles t sink p q

theorem settles_settle (dwindles : t.Dwindles Holds) (sink : Sink σ) (holds : Holds p.transport) :
    Settles t sink p (p.settle t sink) := by
  have settles : ∀ fuel (p : Pool τ σ), (p.run t sink fuel).ready = [] →
      Settles t sink p (p.run t sink fuel) := by
    intro fuel
    induction fuel with
    | zero =>
      intro p idle
      exact .rest p idle
    | succ fuel ih =>
      intro p idle
      unfold run at idle ⊢
      split at idle
      next none =>
        rw [if_pos none]
        exact .rest p idle
      next some =>
        rw [if_neg some]
        exact .turn p _ (fun none => some (by rw [none]; rfl)) (ih _ idle)
  exact settles _ p (settle_rests dwindles sink holds).2

end Pool

end WatchDispatch.Watch
