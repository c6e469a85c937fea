import WatchDispatch.Proofs.Watch.Balance

/-!
# Outstanding subscriptions

A transport lends subscriptions. It is enough to say, for a state and a list of handles, that
exactly these are out: what each operation does to the list is the whole interface between a
transport and the deliveries that share it. A step changes only what its delivery holds itself, and
no subscription is refused when it is given back.
-/

namespace WatchDispatch.Watch

variable {τ σ : Type}

def Subscribed.handles : Subscribed → List Handle
  | .granted h => [h]
  | _ => []

/-- `Owes held x` says that in state `x` exactly the subscriptions `held` are out. -/
structure Transport.Lends (t : Transport τ) (Owes : List Handle → τ → Prop) : Prop where
  perm : ∀ {held held' x}, held.Perm held' → Owes held x → Owes held' x
  grants : ∀ {held x} scope, Owes held x →
    Owes ((t.subscribe scope x).1.handles ++ held) (t.subscribe scope x).2
  takesBack : ∀ {h held x}, Owes (h :: held) x →
    (t.unsubscribe h x).1 = .released ∧ Owes held (t.unsubscribe h x).2
  reads : ∀ {held x} h, Owes held x → Owes held (t.next h x).2
  forgets : ∀ {held x} h, Owes held x → Owes held (t.abandon h x)

/-- The phase is not the end of a delivery whose subscription was not taken back. -/
def Phase.Clean : Phase → Prop
  | .ended (.releaseFailed _) | .ended .aborted => False
  | _ => True

def Step.InOrder (Owes : List Handle → τ → Prop) (others : List Handle) (s : Step τ σ) : Prop :=
  Owes (s.delivery.phase.held.toList ++ others) s.transport ∧ s.delivery.phase.Clean

namespace Delivery

section Lends

variable {t : Transport τ} {Owes : List Handle → τ → Prop} (lends : t.Lends Owes) (d : Delivery)
  {h : Handle} {others : List Handle} {x : τ} (y : σ)

include lends

theorem stop_inOrder (owes : Owes (h :: others) x) : (d.stop t h x y).InOrder Owes others := by
  obtain ⟨released, owes⟩ := lends.takesBack owes
  simp only [Step.InOrder, stop, released]
  exact ⟨lends.forgets h owes, trivial⟩

theorem stopRenewal_inOrder (owes : Owes others x) :
    (d.stopRenewal t h x y).InOrder Owes others := by
  simp only [Step.InOrder, stopRenewal]
  exact ⟨lends.forgets h owes, trivial⟩

theorem escalate_inOrder (f : Fault) (before : List Act) (owes : Owes (h :: others) x) :
    (d.escalate t h f before x y).InOrder Owes others := by
  obtain ⟨released, owes⟩ := lends.takesBack owes
  simp only [Step.InOrder, escalate, released]
  exact ⟨lends.forgets h owes, trivial⟩

theorem expire_inOrder (owes : Owes (h :: others) x) : (d.expire t h x y).InOrder Owes others := by
  obtain ⟨released, owes⟩ := lends.takesBack owes
  simp only [Step.InOrder, expire, released]
  exact ⟨owes, trivial⟩

theorem renew_inOrder (owes : Owes others x) : (d.renew t h x y).InOrder Owes others := by
  have granted := lends.grants d.scope owes
  rcases answer : t.subscribe d.scope x with ⟨fresh | f | _, x'⟩ <;> rw [answer] at granted
  · simp only [Step.InOrder, renew, answer]
    exact ⟨lends.forgets h granted, trivial⟩
  · simp only [Step.InOrder, renew, answer]
    exact ⟨lends.forgets h granted, trivial⟩
  · simp only [Step.InOrder, renew, answer]
    exact ⟨granted, trivial⟩

theorem take_inOrder (sink : Sink σ) (phase : d.phase = .watching h) (owes : Owes (h :: others) x) :
    (d.take t sink h x y).InOrder Owes others := by
  have read := lends.reads h owes
  have stays : ∀ {y' : σ} {acts turn}, Owes (h :: others) (t.next h x).2 →
      (⟨d, (t.next h x).2, y', acts, turn⟩ : Step τ σ).InOrder Owes others := by
    intro y' acts turn owes
    simp only [Step.InOrder, phase]
    exact ⟨owes, trivial⟩
  rcases taken : t.next h x with ⟨e | ⟨reason | reason⟩ | _ | _ | _, x'⟩ <;>
    rw [taken] at read stays
  · rcases handled : sink e y with ⟨_ | message, y'⟩
    · simpa only [take, taken, handled] using stays read
    · simpa only [take, taken, handled] using
        escalate_inOrder lends d y' (crashFault message) [.delivered e] read
  · simpa only [take, taken] using expire_inOrder lends d y read
  · simpa only [take, taken] using escalate_inOrder lends d y (.failed reason) [] read
  · simpa only [take, taken] using escalate_inOrder lends d y endFault [] read
  · simpa only [take, taken] using stays read
  · simpa only [take, taken] using stays read

/-- A step changes what the delivery holds itself, and never fails to give a subscription back. -/
theorem step_inOrder (sink : Sink σ) (owes : Owes (d.phase.held.toList ++ others) x)
    (clean : d.phase.Clean) : (d.step t sink x y).InOrder Owes others := by
  unfold step
  cases phase : d.phase with
  | watching h =>
    rw [phase] at owes
    dsimp only
    split
    · exact stop_inOrder lends d y owes
    · exact take_inOrder lends d y sink phase owes
  | renewing h =>
    rw [phase] at owes
    dsimp only
    split
    · exact stopRenewal_inOrder lends d y owes
    · exact renew_inOrder lends d y owes
  | awaiting h =>
    rw [phase] at owes
    dsimp only
    split
    · exact stopRenewal_inOrder lends d y owes
    · simp only [Step.InOrder, phase]
      exact ⟨owes, trivial⟩
  | ended outcome =>
    rw [phase] at owes clean
    simp only [Step.InOrder, phase]
    exact ⟨owes, clean⟩

end Lends

end Delivery

end WatchDispatch.Watch
