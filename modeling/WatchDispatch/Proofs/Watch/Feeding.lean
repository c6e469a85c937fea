import WatchDispatch.Proofs.Watch.Escalation
import WatchDispatch.Proofs.Watch.PoolInvariants
import WatchDispatch.Proofs.Watch.Undisturbed

/-!
# What a sink is fed

All that a pool does to its sink is to hand it events, and it notes each of them. So its sink is in
the state in which the events of the journal, taken in their order, have left it, whoever delivered
them.
-/

namespace WatchDispatch.Watch

variable {τ σ : Type}

/-- The events that a journal tells of, latest first. -/
def handedOn (journal : List (Nat × Act)) : List Event :=
  journal.filterMap (fun entry => entry.2.event?)

theorem handedOn_append (later earlier : List (Nat × Act)) :
    handedOn (later ++ earlier) = handedOn later ++ handedOn earlier := List.filterMap_append

/-- A move notes the event that it hands on. -/
theorem Move.events_eq {d d' : Delivery} {calls : List TransportCall}
    {handed : List (Event × Handled)} {acts : List Act} {turn : Turn}
    (move : Move d d' calls handed acts turn) (n : Nat) :
    handedOn (acts.map (n, ·)).reverse = handed.map Prod.fst := by
  cases move with
  | escalate result _ _ fatal => cases fatal <;> rfl
  | escalateCrash _ _ fatal => cases fatal <;> rfl
  | _ => rfl

theorem Takes.handed_reverse {sink : Sink σ} {y y' : σ} {handed : List (Event × Handled)}
    (takes : Takes sink y handed y') : handed.reverse = handed := by
  cases takes <;> rfl

namespace Pool

/-- Since the pool was as it was before, its sink took the events that were noted, and nothing
else. -/
def Fed (sink : Sink σ) (before p : Pool τ σ) : Prop :=
  ∃ since, p.journal = since ++ before.journal ∧
    p.sink = sink.takeAll (handedOn since).reverse before.sink

variable {sink : Sink σ}

theorem Fed.refl (sink : Sink σ) (p : Pool τ σ) : Fed sink p p := ⟨[], rfl, rfl⟩

theorem Fed.trans {p q r : Pool τ σ} (fed : Fed sink p q) (onward : Fed sink q r) :
    Fed sink p r := by
  obtain ⟨earlier, noted, took⟩ := fed
  obtain ⟨later, noted', took'⟩ := onward
  refine ⟨later ++ earlier, by rw [noted', noted, List.append_assoc], ?_⟩
  rw [took', took, handedOn_append, List.reverse_append, Sink.takeAll_append]

/-- Notes that tell of no event leave the sink alone. -/
theorem Fed.silent {p q : Pool τ σ} (notes : List (Nat × Act))
    (noted : q.journal = notes ++ p.journal) (none : handedOn notes = []) (same : q.sink = p.sink) :
    Fed sink p q := by
  refine ⟨notes, noted, ?_⟩
  rw [none, same]
  rfl

theorem fed_advance (t : Transport τ) (sink : Sink σ) (p : Pool (Recorded τ) σ) (n : Nat)
    (others : List Nat) (d : Delivery) :
    Fed sink p (p.advance n others (d.step t.recorded sink p.transport p.sink)) := by
  obtain ⟨calls, handed, -, -, takes, move⟩ := d.step_moves t sink p.transport p.sink
  refine ⟨_, rfl, ?_⟩
  rw [move.events_eq n, ← List.map_reverse, takes.handed_reverse]
  exact takes.eq_takeAll

theorem fed_turn (t : Transport τ) (sink : Sink σ) (p : Pool (Recorded τ) σ) :
    Fed sink p (p.turn t.recorded sink) := by
  apply turn_kept (P := fun q => Fed sink p q)
  · intro q n others d _ _ fed
    exact fed.trans (fed_advance t sink q n others d)
  · intro q n others _ _ fed
    exact fed
  · exact .refl sink p

theorem fed_settle (t : Transport τ) (sink : Sink σ) (p : Pool (Recorded τ) σ) :
    Fed sink p (p.settle t.recorded sink) := by
  apply settle_induction (P := fun q => Fed sink p q)
  · intro q fed
    exact fed.trans (fed_turn t sink q)
  · exact .refl sink p

theorem fed_requestStop (sink : Sink σ) (s : Session) (p : Pool τ σ) :
    Fed sink p (p.requestStop s) := by
  obtain ⟨ready, woken, -, -⟩ :=
    wake_eq s.number (p.modify s.number fun d => { d with stopAsked := true })
  rw [requestStop, woken]
  exact .silent [] rfl rfl rfl

theorem fed_finish (t : Transport τ) (sink : Sink σ) (s : Session) (p : Pool (Recorded τ) σ) :
    Fed sink p (p.finish t.recorded sink s).2.2 := by
  have settled := fed_settle t sink p
  rcases p.finish_cases t.recorded sink s with ⟨_, same⟩ | ⟨_, ⟨d, outcome, -, -, same⟩ | same⟩
    <;> rw [same]
  · exact .refl sink p
  · exact settled.trans (.silent [(s.number, .published .closed)] rfl rfl rfl)
  · exact settled

theorem fed_openSession (t : Transport τ) (sink : Sink σ) (gvkKey : String) (scope : Scope)
    (p : Pool (Recorded τ) σ) : Fed sink p (p.openSession t.recorded sink gvkKey scope).2 := by
  have meanwhile : ∀ q : Pool (Recorded τ) σ,
      Fed sink q (if t.recorded.suspends then q.settle t.recorded sink else q) := by
    intro q
    split
    · exact fed_settle t sink q
    · exact .refl sink q
  have asked : ∀ x, Fed sink p { p with transport := x } := fun x => .silent [] rfl rfl rfl
  unfold openSession abandonPending openWhile goOn
  rcases t.recorded.subscribe scope p.transport with ⟨h | f | _, x⟩
  · exact ((asked x).trans (meanwhile _)).trans (.silent [_, _] rfl rfl rfl)
  · exact (asked x).trans (meanwhile _)
  · exact ((asked x).trans (meanwhile _)).trans (fed_settle t sink _)

end Pool

end WatchDispatch.Watch
