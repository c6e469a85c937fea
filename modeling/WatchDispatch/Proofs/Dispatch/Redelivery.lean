import WatchDispatch.Proofs.Dispatch.History

/-!
# Redelivered generations

Once a resource is marked, what comes later with the same or an older generation stays away from the
dispatcher as long as the mark stands. A mark can be set back: a resource whose deletion was asked
for is never passed over, so a late event of that kind replaces the mark by an older one. Nothing
else lowers it.
-/

namespace WatchDispatch.Dispatch

open Watch

namespace Source

variable {τ : Type}

/-- A mark that an event leaves is above the one before, unless the deletion of its resource was
asked for. -/
theorem Marks.raises {s : Source τ} {e : Event} (marks : s.Marks e)
    (unmarked : e.snapshot.isDeleting = false) {g : UInt64}
    (before : s.gate.get? e.snapshot.uid = some g) : g < e.snapshot.generation := by
  obtain ⟨aware, _, _, hands⟩ := marks
  obtain ⟨_, unaware | deleting | newer⟩ := (s.hands_iff e).mp hands
  · rw [aware] at unaware
    cases unaware
  · rw [unmarked] at deleting
    cases deleting
  · exact newer g before

/-- A resource that is marked stays marked as long as it is not forgotten. -/
theorem after_marked (s : Source τ) {u : Uid} {first : UInt64} (start : s.gate.get? u = some first)
    (history : List Input) (kept : .gone u ∉ history) :
    ∃ g, (s.after history).gate.get? u = some g := by
  rw [s.after_gate history u kept, start]
  exact ⟨_, Option.or_some⟩

/-- In a history of a marked resource, a mark below a bound that held at first was set back by an
event of the resource after its deletion had been asked for. -/
theorem exists_setBack (s : Source τ) {u : Uid} {bound first : UInt64}
    (start : s.gate.get? u = some first) (above : bound ≤ first) :
    ∀ (history : List Input) {g : UInt64}, .gone u ∉ history →
      (s.after history).gate.get? u = some g → g < bound →
      ∃ later e earlier, history = later ++ .event e :: earlier ∧ e.snapshot.uid = u ∧
        e.snapshot.isDeleting = true ∧ (s.after earlier).Marks e ∧
        e.snapshot.generation < bound := by
  intro history
  induction history with
  | nil =>
    intro g _ found low
    have same : first = g := Option.some.inj (start.symm.trans found)
    exact absurd (same ▸ above) (UInt64.not_le.mpr low)
  | cons input earlier ih =>
    intro g kept found low
    obtain ⟨here, before⟩ := not_or.mp (fun mem => kept (List.mem_cons.mpr mem))
    -- An input that leaves the mark alone hands the question on to the history before it.
    have carry : ∀ {m}, (s.after earlier).gate.get? u = some m → m < bound →
        ∃ later e older, input :: earlier = later ++ .event e :: older ∧ e.snapshot.uid = u ∧
          e.snapshot.isDeleting = true ∧ (s.after older).Marks e ∧
          e.snapshot.generation < bound := by
      intro m mark lower
      obtain ⟨later, e, older, split, rest⟩ := ih before mark lower
      exact ⟨input :: later, e, older, by rw [split]; rfl, rest⟩
    cases input with
    | gone v =>
      have other : u ≠ v := fun same => here (same ▸ rfl)
      rw [after, tell, deregister_gate, if_neg other] at found
      exact carry found low
    | event e =>
      rw [after, tell, onEvent_gate] at found
      by_cases marks : e.snapshot.uid = u ∧ (s.after earlier).Marks e
      · rw [if_pos marks] at found
        obtain rfl : e.snapshot.generation = g := Option.some.inj found
        cases deleting : e.snapshot.isDeleting with
        | true => exact ⟨[], e, earlier, rfl, marks.1, deleting, marks.2, low⟩
        | false =>
          obtain ⟨m, mark⟩ := s.after_marked start earlier before
          have raised := marks.2.raises deleting (marks.1 ▸ mark)
          exact carry mark (UInt64.lt_trans raised low)
      · rw [if_neg marks] at found
        exact carry found low

end Source

/-- A resource was marked by `first` and not forgotten since. A later event of it that is not of a
newer generation, its deletion not asked for, is handed on exactly if it reports no error and the
resource has been marked again since, last with a generation below that of the event. That takes an
event of the resource after its deletion was asked for, with a generation below that of the
event. -/
theorem redelivery_handed_on_iff {τ : Type} (s : Source τ) (first : Event) (between : List Input)
    (e : Event) (marked : s.Marks first) (same : e.snapshot.uid = first.snapshot.uid)
    (kept : .gone first.snapshot.uid ∉ between)
    (handled : e.snapshot.generation ≤ first.snapshot.generation)
    (unmarked : e.snapshot.isDeleting = false) :
    let t := (s.onEvent first).2
    ((t.after between).Hands e ↔ e.action ≠ .error ∧
      ∃ g ∈ t.lastMark e.snapshot.uid between, g < e.snapshot.generation) ∧
    ((t.after between).Hands e → ∃ later back earlier,
      between = later ++ .event back :: earlier ∧ back.snapshot.uid = e.snapshot.uid ∧
      back.snapshot.isDeleting = true ∧ (t.after earlier).Marks back ∧
      back.snapshot.generation < e.snapshot.generation) := by
  intro t
  rw [← same] at kept
  have start : t.gate.get? e.snapshot.uid = some first.snapshot.generation := by
    rw [s.onEvent_gate, if_pos ⟨same.symm, marked⟩]
  have aware : (t.after between).config.generationAware = true := by
    rw [t.after_config]
    exact marked.1
  have held := t.after_gate between e.snapshot.uid kept
  rw [start] at held
  have hands : (t.after between).Hands e ↔ e.action ≠ .error ∧
      ∀ g ∈ (t.after between).gate.get? e.snapshot.uid, g < e.snapshot.generation := by
    rw [Source.hands_iff, Due, aware, unmarked]
    simp
  constructor
  · rw [hands, held]
    cases last : t.lastMark e.snapshot.uid between with
    | none => simpa using fun _ => handled
    | some g => simp
  · intro handed
    obtain ⟨_, low⟩ := hands.mp handed
    obtain ⟨g, mark⟩ := t.after_marked start between kept
    exact t.exists_setBack start handled between kept mark (low g mark)

/-- Generation 4 comes after generation 5 and is handed on, since generation 3 came in between from
a resource whose deletion had been asked for. -/
theorem redelivery_handed_on_after_set_back :
    let first : Event := ⟨.added, Sample.snapshot 5 false⟩
    let between : List Input := [.event ⟨.modified, Sample.snapshot 3 true⟩]
    let e : Event := ⟨.modified, Sample.snapshot 4 false⟩
    Sample.source.Marks first ∧ e.snapshot.generation ≤ first.snapshot.generation ∧
      ((Sample.source.onEvent first).2.after between).Hands e :=
  ⟨by decide, by decide,
    (redelivery_handed_on_iff _ _ _ _ (by decide) rfl (by simp) (by decide) rfl).1.mpr
      ⟨by decide, 3, by decide, by decide⟩⟩

/-- Marked generations can come back: not every later event with one of them is passed over. -/
theorem redelivery_not_always_passed_over :
    ¬ ∀ (s : Source Unit) (first : Event) (between : List Input) (e : Event), s.Marks first →
      e.snapshot.uid = first.snapshot.uid → .gone first.snapshot.uid ∉ between →
      e.snapshot.generation ≤ first.snapshot.generation → e.snapshot.isDeleting = false →
      ¬ ((s.onEvent first).2.after between).Hands e := by
  intro never
  have passedOver := never Sample.source ⟨.added, Sample.snapshot 5 false⟩
    [.event ⟨.modified, Sample.snapshot 3 true⟩] ⟨.modified, Sample.snapshot 4 false⟩
      (by decide) rfl (by simp) (by decide) rfl
  exact passedOver (by decide)

end WatchDispatch.Dispatch
