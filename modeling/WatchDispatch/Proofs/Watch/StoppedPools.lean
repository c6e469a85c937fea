import WatchDispatch.Proofs.Watch.Diaries

/-!
# Pools that were asked to stop

What a delivery still does once it was asked to stop depends on where it stands and on nothing else:
it gives back what it holds, or it gives a renewal up, and ends. So when all deliveries of a pool
were asked to stop, the pool comes to rest with all of them ended. On the way the transport takes
nothing but subscriptions that are given back, and nothing is reported.
-/

namespace WatchDispatch.Watch

variable {τ σ : Type}

/-- From a phase in which it was asked to stop to that of its end, a delivery does this, latest act
first. -/
inductive Phase.WindsDown (phase : Phase) : Phase → List Act → Prop
  | still : phase.WindsDown phase []
  | release {h} (result) : phase = .watching h →
      phase.WindsDown (.ended (Released.outcome result)) [.released h result, .published .closed]
  | giveUp {h} : phase = .renewing h ∨ phase = .awaiting h →
      phase.WindsDown (.ended .stopped) [.published .closed]

def Act.isAsk : Act → Bool
  | .subscribed _ | .refused _ | .unanswered => true
  | _ => false

/-- Who winds down asks for nothing. -/
theorem Phase.WindsDown.asks_nothing {phase phase' : Phase} {since : List Act}
    (winds : phase.WindsDown phase' since) : ∀ act ∈ since, act.isAsk = false := by
  cases winds <;> simp [Act.isAsk]

theorem Phase.WindsDown.obtained_eq {phase phase' : Phase} {since : List Act}
    (winds : phase.WindsDown phase' since) : obtained since = [] := by
  cases winds <;> rfl

def TransportCall.IsRelease (call : TransportCall) : Prop :=
  ∃ h result, call = .unsubscribe h result

section Moves

variable {phase : Phase} {d d' : Delivery} {calls : List TransportCall}
  {handed : List (Event × Handled)} {acts since : List Act} {turn : Turn}

/-- All that is left to do for a delivery that has ended or was asked to stop. -/
theorem Move.winds (move : Move d d' calls handed acts turn)
    (quiet : d.isRunning = false ∨ d.stopAsked = true) :
    d.phase.WindsDown d'.phase acts.reverse ∧ (∀ call ∈ calls, call.IsRelease) ∧
    Act.reports acts = [] := by
  cases move with
  | finished => exact ⟨.still, by simp, rfl⟩
  | wait => exact ⟨.still, by simp, rfl⟩
  | @stop h result phase => exact ⟨.release result phase, by simp [TransportCall.IsRelease], rfl⟩
  | giveUp phase => exact ⟨.giveUp phase, by simp, rfl⟩
  | _ phase asked => simp_all [Delivery.isRunning]

theorem Phase.WindsDown.move (winds : phase.WindsDown d.phase since)
    (move : Move d d' calls handed acts turn) (quiet : d.isRunning = false ∨ d.stopAsked = true) :
    phase.WindsDown d'.phase (acts.reverse ++ since) ∧ (∀ call ∈ calls, call.IsRelease) ∧
      Act.reports acts = [] := by
  obtain ⟨onward, releases, silent⟩ := move.winds quiet
  refine ⟨?_, releases, silent⟩
  -- A delivery that has ended does nothing more, so only the first move counts.
  have rests : ∀ {outcome}, d.phase = .ended outcome →
      phase.WindsDown d'.phase (acts.reverse ++ since) := by
    intro outcome ended
    obtain ⟨rfl, -, -, rfl⟩ := move.eq_of_ended (by simp [Delivery.isRunning, ended])
    exact winds
  generalize now : d.phase = phase' at winds
  cases winds with
  | still => simpa [now] using onward
  | release result => exact rests now
  | giveUp => exact rests now

end Moves

/-- The other pool is this one after its deliveries went on winding down. -/
structure Pool.WindsDown (p q : Pool (Recorded τ) σ) : Prop where
  length : q.deliveries.length = p.deliveries.length
  each : ∀ n e, q.deliveries[n]? = some e → ∃ d since, p.deliveries[n]? = some d ∧
    d.phase.WindsDown e.phase since ∧ diary q.journal n = since ++ diary p.journal n
  calls : ∃ later, q.transport.calls = later ++ p.transport.calls ∧ ∀ call ∈ later, call.IsRelease
  journal : ∃ later, q.journal = later ++ p.journal ∧ ∀ entry ∈ later, entry.2.isAsk = false
  reports : q.reports = p.reports

namespace Pool

variable {p q : Pool (Recorded τ) σ}

theorem WindsDown.refl (p : Pool (Recorded τ) σ) : p.WindsDown p :=
  ⟨rfl, fun _ e there => ⟨e, [], there, .still, rfl⟩, ⟨[], rfl, by simp⟩, ⟨[], rfl, by simp⟩, rfl⟩

theorem WindsDown.advance (winds : p.WindsDown q) (attended : q.Attended []) (t : Transport τ)
    (sink : Sink σ) {n : Nat} {others : List Nat} {e : Delivery}
    (there : q.deliveries[n]? = some e) :
    p.WindsDown (q.advance n others (e.step t.recorded sink q.transport q.sink)) := by
  obtain ⟨calls, handed, recorded, -, -, move⟩ := e.step_moves t sink q.transport q.sink
  obtain ⟨d, since, before, wound, told⟩ := winds.each n e there
  obtain ⟨onward, releases, silent⟩ := wound.move move (attended.quiet there)
  refine ⟨?_, ?_, ?_, ?_, ?_⟩
  · simpa [Pool.advance] using winds.length
  · intro m e' found
    rw [diary_advance]
    rcases getElem?_advance_cases there found with ⟨rfl, rfl⟩ | ⟨other, old⟩
    · refine ⟨d, _, before, onward, ?_⟩
      rw [if_pos rfl, told, List.append_assoc]
    · rw [if_neg other]
      exact winds.each m e' old
  · obtain ⟨later, split, all⟩ := winds.calls
    refine ⟨calls ++ later, ?_, ?_⟩
    · rw [Pool.advance, recorded, split, List.append_assoc]
    · intro call mem
      rcases List.mem_append.mp mem with new | old
      · exact releases call new
      · exact all call old
  · obtain ⟨later, split, none⟩ := winds.journal
    refine ⟨_ ++ later, by rw [Pool.advance, split, List.append_assoc], ?_⟩
    intro entry mem
    rcases List.mem_append.mp mem with new | old
    · obtain ⟨act, there, rfl⟩ := List.mem_map.mp (List.mem_reverse.mp new)
      exact onward.asks_nothing act (List.mem_append_left _ (List.mem_reverse.mpr there))
    · exact none entry old
  · rw [Pool.advance, silent, winds.reports]
    simp

theorem Attended.settle_winds (attended : p.Attended []) (t : Transport τ) (sink : Sink σ) :
    p.WindsDown (p.settle t.recorded sink) := by
  have both : (p.settle t.recorded sink).Attended [] ∧ p.WindsDown (p.settle t.recorded sink) := by
    refine settle_induction (P := fun q => q.Attended [] ∧ p.WindsDown q) ?_ ⟨attended, .refl p⟩
    rintro q ⟨attended, winds⟩
    exact turn_kept (P := fun q => q.Attended [] ∧ p.WindsDown q)
      (fun ready there both => ⟨both.1.advance t sink ready there,
        both.2.advance both.1 t sink there⟩)
      (fun ready missing both => ⟨both.1.skip ready missing, { both.2 with }⟩) ⟨attended, winds⟩
  exact both.2

end Pool

end WatchDispatch.Watch
