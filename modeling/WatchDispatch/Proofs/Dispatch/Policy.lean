import WatchDispatch.Proofs.Dispatch.History

/-!
# Which events reach the dispatcher

The stores of a source decide nothing that its history does not say already: an event is handed on
exactly if it is due after the last mark of its resource. A resource whose deletion was asked for is
always due. A resource that is reported deleted without that is due only beyond its last mark.
-/

namespace WatchDispatch.Dispatch

open Watch

namespace Source

variable {τ : Type}

theorem mem_gate_keys_iff (s : Source τ) (unmarked : s.gate = Gate.empty) (history : List Input)
    (u : Uid) : u ∈ (s.after history).gate.keys ↔ (s.lastMark u history).isSome := by
  rw [Table.mem_keys_iff, s.gate_eq_lastMark unmarked history u]

end Source

/-- The dispatch policy over a history of events and deregistrations, for any dispatcher: an event
is handed on once if it is due after the last mark that the history shows, and not at all otherwise;
the gate holds these marks and nothing else; forgetting a resource calls nobody, and leaves every
other resource as it was in both stores. -/
theorem dispatch_follows_history {τ : Type} (c : Configuration) (d : Dispatcher) (x : τ)
    (history : List Input) :
    let start := Source.make c d x
    let s := start.after history
    (∀ e, (s.onEvent e).2.calls =
      (if Due c (start.lastMark e.snapshot.uid history) e then
        [⟨e.action, e.snapshot, .ofConfiguration c, some e.snapshot,
          start.lastMark e.snapshot.uid history⟩]
      else []) ++ s.calls) ∧
    (∀ u, s.gate.get? u = start.lastMark u history) ∧
    (∀ u, u ∈ s.gate.keys ↔ (start.lastMark u history).isSome) ∧
    (∀ u, (s.deregister u).calls = s.calls) ∧
    (∀ u v, (s.deregister u).gate.get? v = if v = u then none else s.gate.get? v) ∧
    ∀ u v, (s.deregister u).cache.get? v = if v = u then none else s.cache.get? v := by
  intro start s
  have config : s.config = c := start.after_config history
  have marks : ∀ u, s.gate.get? u = start.lastMark u history := start.gate_eq_lastMark rfl history
  refine ⟨?_, marks, start.mem_gate_keys_iff rfl history, s.deregister_calls, s.deregister_gate,
    s.deregister_cache⟩
  intro e
  have calls := s.onEvent_calls e
  rw [Source.callFor, Source.handle, marks, config] at calls
  exact calls

/-- The dispatcher crashes at generation 2, which therefore leaves no mark. -/
example :
    let d : Dispatcher :=
      fun _ call => if call.snapshot.generation = 2 then .crashed none else .done
    let history := [2, 1].map fun g => Input.event ⟨.modified, Sample.snapshot g false⟩
    (Source.make Sample.configuration d ()).lastMark default history = some 1 := by decide

/-- The event says that a resource is deleted, or that its deletion was asked for. -/
def ReportsDeletion (e : Event) : Prop :=
  e.action = .deleted ∨ (e.action = .added ∨ e.action = .modified) ∧ e.snapshot.isDeleting = true

instance (e : Event) : Decidable (ReportsDeletion e) := inferInstanceAs (Decidable (_ ∨ _))

theorem ReportsDeletion.due_iff {e : Event} (deletion : ReportsDeletion e) (c : Configuration)
    (last : Option UInt64) :
    Due c last e ↔ e.snapshot.isDeleting = true ∨
      ¬ (c.generationAware = true ∧ ∃ g ∈ last, e.snapshot.generation ≤ g) := by
  have noError : e.action ≠ .error := by
    rcases deletion with action | ⟨action | action, _⟩ <;> simp [action]
  simp only [Due, noError, ne_eq, not_false_eq_true, true_and, not_and, not_exists, UInt64.not_le]
  constructor
  · rintro (unaware | deleting | newer)
    · exact Or.inr (fun aware => by simp [unaware] at aware)
    · exact Or.inl deleting
    · exact Or.inr (fun _ g mem => newer g mem)
  · rintro (deleting | newer)
    · exact Or.inr (Or.inl deleting)
    · cases aware : c.generationAware with
      | false => exact Or.inl rfl
      | true => exact Or.inr (Or.inr (newer aware))

/-- A deletion is handed on once, whatever the gate holds, if the resource shows that its deletion
was asked for. If it does not show that, the event is taken like any other: it is passed over if the
controller looks at generations and one not below is marked. -/
theorem deletion_handed_on {τ : Type} (s : Source τ) (e : Event) (deletion : ReportsDeletion e) :
    (e.snapshot.isDeleting = true → (s.onEvent e).2.calls = s.callFor e :: s.calls) ∧
    (e.snapshot.isDeleting = false → (s.onEvent e).2.calls =
      if s.config.generationAware = true ∧
        ∃ g ∈ s.gate.get? e.snapshot.uid, e.snapshot.generation ≤ g then s.calls
      else s.callFor e :: s.calls) := by
  have due := deletion.due_iff s.config (s.gate.get? e.snapshot.uid)
  rw [s.onEvent_calls]
  constructor
  · intro deleting
    rw [if_pos (due.mpr (Or.inl deleting))]
    rfl
  · intro unmarked
    simp only [unmarked, Bool.false_eq_true, false_or] at due
    by_cases recorded : s.config.generationAware = true ∧
        ∃ g ∈ s.gate.get? e.snapshot.uid, e.snapshot.generation ≤ g
    · rw [if_pos recorded, if_neg (fun h => due.mp h recorded)]
      rfl
    · rw [if_neg recorded, if_pos (due.mpr recorded)]
      rfl

/-- A resource with mark 5 is deleted at generation 5, its deletion asked for before. -/
theorem deletion_handed_on_at_mark :
    let s := Sample.source.after [.event ⟨.added, Sample.snapshot 5 false⟩]
    let e : Event := ⟨.deleted, Sample.snapshot 5 true⟩
    ReportsDeletion e ∧ s.gate.get? default = some 5 ∧
      (s.onEvent e).2.calls = s.callFor e :: s.calls :=
  ⟨by decide, by decide, (deletion_handed_on _ _ (by decide)).1 rfl⟩

/-- Not every deletion is handed on: the same resource, deleted without having been asked for it. -/
theorem deletion_not_always_handed_on :
    ¬ ∀ (c : Configuration) (d : Dispatcher) (history : List Input) (e : Event), ReportsDeletion e →
      let s := (Source.make c d ()).after history
      (s.onEvent e).2.calls.length = s.calls.length + 1 := by
  intro always
  have once := always Sample.configuration (fun _ _ => .done)
    [.event ⟨.added, Sample.snapshot 5 false⟩] ⟨.deleted, Sample.snapshot 5 false⟩ (by decide)
  exact absurd once (by decide)

end WatchDispatch.Dispatch
