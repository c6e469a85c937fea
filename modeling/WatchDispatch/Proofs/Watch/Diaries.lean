import WatchDispatch.Proofs.Watch.Escalation
import WatchDispatch.Proofs.Watch.PoolOrder

/-!
# What each delivery has done

The diary of a delivery is its part of the journal. What a delivery has obtained and given back and
how it ended can be read off its diary, whoever shares the pool with it; and the journal tells all
that the transport was asked to grant and to take back.
-/

namespace WatchDispatch.Watch

variable {τ σ ε : Type}

/-- What a journal tells of one delivery, latest first. -/
def diary (journal : List (Nat × Act)) (n : Nat) : List Act :=
  (journal.filter (fun entry => entry.1 = n)).map Prod.snd

/-- The subscriptions that acts obtained, in the order of the acts. -/
def obtained (acts : List Act) : List Handle :=
  acts.filterMap (fun
    | .subscribed h => some h
    | _ => none)

def releases (acts : List Act) : List (Handle × Released) :=
  acts.filterMap (fun
    | .released h result => some (h, result)
    | _ => none)

/-- The subscriptions that the calls gave back, with what came of it. -/
def unsubscribes (calls : List TransportCall) : List (Handle × Released) :=
  calls.filterMap (fun
    | .unsubscribe h result => some (h, result)
    | _ => none)

@[simp] theorem diary_append (later earlier : List (Nat × Act)) (n : Nat) :
    diary (later ++ earlier) n = diary later n ++ diary earlier n := by
  simp [diary]

@[simp] theorem obtained_append (later earlier : List Act) :
    obtained (later ++ earlier) = obtained later ++ obtained earlier := List.filterMap_append

@[simp] theorem releases_append (later earlier : List Act) :
    releases (later ++ earlier) = releases later ++ releases earlier := List.filterMap_append

@[simp] theorem unsubscribes_append (later earlier : List TransportCall) :
    unsubscribes (later ++ earlier) = unsubscribes later ++ unsubscribes earlier :=
  List.filterMap_append

theorem granted_append (later earlier : List TransportCall) :
    granted (later ++ earlier) = granted later ++ granted earlier := List.filterMap_append

/-- The acts of a move tell what it was granted and what it gave back. -/
theorem Move.told {d d' : Delivery} {calls : List TransportCall} {handed : List (Event × Handled)}
    {acts : List Act} {turn : Turn} (move : Move d d' calls handed acts turn) :
    granted calls = obtained acts.reverse ∧ unsubscribes calls = releases acts.reverse := by
  cases move with
  | escalate result _ _ fatal => cases fatal <;> exact ⟨rfl, rfl⟩
  | escalateCrash _ _ fatal => cases fatal <;> exact ⟨rfl, rfl⟩
  | _ => exact ⟨rfl, rfl⟩

/-! ## Each delivery and its diary -/

/-- This holds between each delivery and its diary, and nobody else has written in the journal. -/
structure Pool.Writes (R : Delivery → List Act → Prop) (p : Pool τ σ) : Prop where
  each : ∀ n d, p.deliveries[n]? = some d → R d (diary p.journal n)
  begun : ∀ entry ∈ p.journal, entry.1 < p.deliveries.length

namespace Pool

theorem diary_advance (p : Pool τ σ) (n : Nat) (others : List Nat) (s : Step τ σ) (m : Nat) :
    diary (p.advance n others s).journal m =
      if m = n then s.acts.reverse ++ diary p.journal n else diary p.journal m := by
  by_cases same : m = n
  · subst same
    simp [diary, advance, List.filter_map, Function.comp_def]
  · simp [diary, advance, List.filter_map, Function.comp_def, same, Ne.symm same]

theorem diary_publishClosed (p : Pool τ σ) (n m : Nat) :
    diary (p.publishClosed n).journal m =
      if m = n then .published .closed :: diary p.journal n else diary p.journal m := by
  by_cases same : m = n
  · subst same
    simp [diary, publishClosed, modify]
  · simp [diary, publishClosed, modify, same, Ne.symm same]

theorem diary_spawn (gvkKey : String) (scope : Scope) (h : Handle) (p : Pool τ σ) (m : Nat) :
    diary (p.spawn gvkKey scope h).2.journal m =
      if m = p.deliveries.length then .published .active :: .subscribed h :: diary p.journal m
      else diary p.journal m := by
  by_cases same : m = p.deliveries.length
  · subst same
    simp [diary, spawn]
  · simp [diary, spawn, same, Ne.symm same]

/-- A delivery that is yet to begin has done nothing. -/
theorem Writes.diary_of_le {R : Delivery → List Act → Prop} {p : Pool τ σ} (writes : p.Writes R)
    {n : Nat} (outside : p.deliveries.length ≤ n) : diary p.journal n = [] := by
  refine List.map_eq_nil_iff.mpr (List.filter_eq_nil_iff.mpr ?_)
  intro entry mem
  have inside := writes.begun entry mem
  simp only [decide_eq_true_eq]
  omega

end Pool

/-- What holds between a delivery and its diary is kept by all that a pool does to the delivery. -/
structure Habit (R : Delivery → List Act → Prop) : Prop where
  opened : ∀ gvkKey scope h,
    R ⟨gvkKey, scope, false, .active, .watching h⟩ [.published .active, .subscribed h]
  move : ∀ {d d' calls handed acts turn diary}, Move d d' calls handed acts turn → R d diary →
    R d' (acts.reverse ++ diary)
  ask : ∀ {d diary}, R d diary → R { d with stopAsked := true } diary
  close : ∀ {d diary outcome}, d.phase = .ended outcome → R d diary →
    R { d with state := .closed } (.published .closed :: diary)

theorem Habit.keeps {R : Delivery → List Act → Prop} (habit : Habit R) (t : Transport τ)
    (env : ε → Recorded τ → Recorded τ) :
    Pool.Keeps t env (fun _ _ (p : Pool (Recorded τ) σ) => p.Writes R) where
  advance := fun {_ _ p n others d} sink _ there writes => by
    obtain ⟨calls, handed, -, -, -, move⟩ := d.step_moves t sink p.transport p.sink
    refine ⟨?_, ?_⟩
    · intro m e found
      rw [Pool.diary_advance]
      rcases Pool.getElem?_advance_cases there found with ⟨rfl, rfl⟩ | ⟨other, old⟩
      · rw [if_pos rfl]
        exact habit.move move (writes.each m d there)
      · rw [if_neg other]
        exact writes.each m e old
    · intro entry mem
      have inside : n < p.deliveries.length := (List.getElem?_eq_some_iff.mp there).1
      simp only [Pool.advance, List.mem_append, List.mem_reverse, List.mem_map] at mem
      simp only [Pool.advance, List.length_set]
      rcases mem with ⟨act, _, rfl⟩ | old
      · exact inside
      · exact writes.begun entry old
  skip := fun _ _ writes => ⟨writes.each, writes.begun⟩
  asks := fun _ writes => ⟨writes.each, writes.begun⟩
  spawn := fun {_ p h} gvkKey scope _ writes => by
    refine ⟨?_, ?_⟩
    · intro m e found
      rw [Pool.diary_spawn]
      rcases Pool.getElem?_spawn_cases found with ⟨inside, old⟩ | ⟨rfl, rfl⟩
      · rw [if_neg (Nat.ne_of_lt inside)]
        exact writes.each m e old
      · rw [if_pos rfl, writes.diary_of_le (Nat.le_refl _)]
        exact habit.opened gvkKey scope h
    · intro entry mem
      simp only [Pool.spawn, List.mem_cons] at mem
      simp only [Pool.spawn, List.length_append, List.length_singleton]
      rcases mem with rfl | rfl | old
      · exact Nat.lt_succ_self _
      · exact Nat.lt_succ_self _
      · exact Nat.lt_succ_of_lt (writes.begun entry old)
  stop := fun {_ _ _ p _} _ _ writes => by
    refine ⟨?_, ?_⟩
    · intro m e found
      rcases Pool.getElem?_modify_cases found with ⟨_, old⟩ | ⟨rfl, d, old, rfl⟩
      · exact writes.each m e old
      · exact habit.ask (writes.each _ d old)
    · simpa [Pool.modify] using writes.begun
  close := fun {_ _ p n d _} there phase writes => by
    refine ⟨?_, ?_⟩
    · intro m e found
      rw [Pool.diary_publishClosed]
      rcases Pool.getElem?_modify_cases found with ⟨other, old⟩ | ⟨rfl, e, old, rfl⟩
      · rw [if_neg other]
        exact writes.each m e old
      · obtain rfl : d = e := Option.some.inj (there.symm.trans old)
        rw [if_pos rfl]
        exact habit.close phase (writes.each _ d there)
    · intro entry mem
      simp only [Pool.publishClosed, Pool.modify, List.mem_cons, List.length_modify] at mem ⊢
      rcases mem with rfl | old
      · exact (List.getElem?_eq_some_iff.mp there).1
      · exact writes.begun entry old
  queue := fun _ writes => ⟨writes.each, writes.begun⟩
  sink := fun _ writes => ⟨writes.each, writes.begun⟩
  outside := fun _ writes => ⟨writes.each, writes.begun⟩

/-! ## Faithful deliveries -/

/-- A delivery holds what it has obtained and not given back. It ended with a crash exactly if a
subscription could not be given back for one; unless it was asked to stop, it ended otherwise only
with a fatal fault. -/
structure Delivery.Faithful (d : Delivery) (diary : List Act) : Prop where
  obtained : obtained diary = d.phase.held.toList ++ (releases diary).map Prod.fst
  crashed : d.phase = .ended .aborted ↔ ∃ h, .released h .crashed ∈ diary
  unasked : d.stopAsked = false → ∀ outcome, d.phase = .ended outcome → outcome = .escalated ∨
    outcome = .aborted

section Moves

variable {d d' : Delivery} {calls : List TransportCall} {handed : List (Event × Handled)}
  {acts : List Act} {turn : Turn} (move : Move d d' calls handed acts turn)

include move

theorem Move.held_eq : Watch.obtained acts.reverse ++ d.phase.held.toList =
    d'.phase.held.toList ++ (releases acts.reverse).map Prod.fst := by
  cases move with
  | escalate result phase _ fatal => rw [phase]; cases fatal <;> rfl
  | escalateCrash phase _ fatal => rw [phase]; cases fatal <;> rfl
  | stop result phase => rw [phase]; rfl
  | giveUp phase => rcases phase with phase | phase <;> rw [phase] <;> rfl
  | expire reason result phase => rw [phase]; rfl
  | expireCrash reason phase => rw [phase]; rfl
  | renew phase => rw [phase]; rfl
  | refuse phase => rw [phase]; rfl
  | unanswered phase => rw [phase]; rfl
  | _ => simp [Watch.obtained, releases]

theorem Move.aborted_iff : d'.phase = .ended .aborted ↔
    (∃ h, .released h .crashed ∈ acts) ∨ d.phase = .ended .aborted := by
  cases move with
  | escalate result phase _ fatal whole => cases fatal <;> simp [phase, Ne.symm whole]
  | escalateCrash phase _ fatal => cases fatal <;> simp
  | stop result phase => cases result <;> simp [Released.outcome, phase]
  | giveUp phase => rcases phase with phase | phase <;> simp [phase]
  | expire reason result phase _ whole => simp [phase, Ne.symm whole]
  | _ => simp_all

theorem Move.ending {outcome : Outcome} (unasked : d.stopAsked = false)
    (ended : d'.phase = .ended outcome) :
    outcome = .escalated ∨ outcome = .aborted ∨ d.phase = .ended outcome := by
  cases move with
  | stop result phase asked => simp [asked] at unasked
  | giveUp phase asked => simp [asked] at unasked
  | _ => simp_all

end Moves

theorem habit_faithful : Habit Delivery.Faithful where
  opened := fun gvkKey scope h => ⟨rfl, by simp, by simp⟩
  move := fun {d d' calls handed acts turn diary} move faithful => by
    obtain ⟨obtained, crashed, unasked⟩ := faithful
    refine ⟨?_, ?_, ?_⟩
    · rw [obtained_append, obtained, releases_append, List.map_append, ← List.append_assoc,
        move.held_eq, List.append_assoc]
    · simp only [move.aborted_iff, crashed, List.mem_append, List.mem_reverse, exists_or]
    · intro still outcome ended
      rw [move.stopAsked_eq] at still
      rcases move.ending still ended with escalated | aborted | before
      · exact .inl escalated
      · exact .inr aborted
      · exact unasked still outcome before
  ask := fun faithful => ⟨faithful.obtained, faithful.crashed, by simp⟩
  close := fun phase faithful =>
    ⟨faithful.obtained, by simpa using faithful.crashed, faithful.unasked⟩

/-! ## The whole journal -/

/-- The journal tells all that the transport granted, apart from what is granted to a session that
is being opened, and all that it was asked to take back. -/
structure Pool.Booked (opening : List Handle) (p : Pool (Recorded τ) σ) : Prop where
  grants : (granted p.transport.calls).Perm (opening ++ obtained (p.journal.map Prod.snd))
  released : unsubscribes p.transport.calls = releases (p.journal.map Prod.snd)

theorem Pool.keeps_booked (t : Transport τ) {env : ε → Recorded τ → Recorded τ}
    (notes : ∀ change x, (env change x).calls = x.calls) :
    Keeps t env (fun _ opening (p : Pool (Recorded τ) σ) => p.Booked opening) where
  advance := fun {_ opening p n others d} sink _ _ booked => by
    obtain ⟨calls, handed, recorded, -, -, move⟩ := d.step_moves t sink p.transport p.sink
    obtain ⟨grants, released⟩ := move.told
    have acts :
      ((p.advance n others (d.step t.recorded sink p.transport p.sink)).journal.map Prod.snd) =
        (d.step t.recorded sink p.transport p.sink).acts.reverse ++ p.journal.map Prod.snd := by
      simp [Pool.advance, Function.comp_def]
    refine ⟨?_, ?_⟩
    · rw [acts, Pool.advance, recorded, granted_append, obtained_append, grants]
      exact (booked.grants.append_left _).trans (List.perm_append_comm_assoc _ _ _)
    · rw [acts, Pool.advance, recorded, unsubscribes_append, releases_append, released,
        booked.released]
  skip := fun _ _ booked => ⟨booked.grants, booked.released⟩
  asks := fun {_ p} scope booked => by
    refine ⟨?_, booked.released⟩
    have before := booked.grants
    rcases answer : t.subscribe scope p.transport.state with ⟨h | f | _, state⟩ <;>
      simpa [Transport.recorded, answer, granted, Subscribed.handles] using before
  spawn := fun gvkKey scope _ booked => ⟨booked.grants, booked.released⟩
  stop := fun _ _ booked => ⟨booked.grants, booked.released⟩
  close := fun _ _ booked => ⟨booked.grants, booked.released⟩
  queue := fun _ booked => ⟨booked.grants, booked.released⟩
  sink := fun _ booked => ⟨booked.grants, booked.released⟩
  outside := fun {_ _ p} change booked => by
    refine ⟨?_, ?_⟩
    · rw [notes]
      exact booked.grants
    · rw [notes]
      exact booked.released

/-- What holds of every pool with these open sessions. -/
structure Pool.Governed (sessions : List Session) (opening : List Handle)
    (p : Pool (Recorded τ) σ) : Prop where
  attended : p.Attended (sessions.map Session.number)
  manned : p.Manned sessions
  faithful : p.Writes Delivery.Faithful
  booked : p.Booked opening

theorem Pool.keeps_governed (t : Transport τ) {env : ε → Recorded τ → Recorded τ}
    (notes : ∀ change x, (env change x).calls = x.calls) :
    Keeps t env (Governed : List Session → List Handle → Pool (Recorded τ) σ → Prop) := by
  have all :=
    (((keeps_attended t env).and (keeps_manned t env)).and (habit_faithful.keeps t env)).and
    (keeps_booked (σ := σ) t notes)
  refine all.of_iff ?_
  intro sessions opening p
  exact ⟨fun ⟨⟨⟨attended, manned⟩, faithful⟩, booked⟩ => ⟨attended, manned, faithful, booked⟩,
    fun governed => ⟨⟨⟨governed.attended, governed.manned⟩, governed.faithful⟩, governed.booked⟩⟩

/-- All that was noted in the other pool is noted in this one too. -/
structure Pool.Recalls (p before : Pool (Recorded τ) σ) : Prop where
  calls : ∃ later, p.transport.calls = later ++ before.transport.calls
  journal : ∃ later, p.journal = later ++ before.journal

theorem Pool.keeps_recalls (t : Transport τ) {env : ε → Recorded τ → Recorded τ}
    (notes : ∀ change x, (env change x).calls = x.calls) (before : Pool (Recorded τ) σ) :
    Keeps t env (fun _ _ (p : Pool (Recorded τ) σ) => p.Recalls before) where
  advance := fun {_ _ p n others d} sink _ _ recalls => by
    obtain ⟨calls, handed, recorded, -, -, -⟩ := d.step_moves t sink p.transport p.sink
    obtain ⟨⟨later, split⟩, acts, journal⟩ := recalls
    refine ⟨⟨calls ++ later, ?_⟩, ?_⟩
    · rw [Pool.advance, recorded, split, List.append_assoc]
    · rw [Pool.advance, journal, ← List.append_assoc]
      exact ⟨_, rfl⟩
  skip := fun _ _ recalls => ⟨recalls.calls, recalls.journal⟩
  asks := fun {_ p} scope recalls => by
    obtain ⟨⟨later, before⟩, journal⟩ := recalls
    exact ⟨⟨.subscribe scope (t.subscribe scope p.transport.state).1 :: later, by
      simp [Transport.recorded, before]⟩, journal⟩
  spawn := fun gvkKey scope _ recalls => by
    obtain ⟨calls, acts, journal⟩ := recalls
    exact ⟨calls, _ :: _ :: acts, by rw [spawn, journal]; rfl⟩
  stop := fun _ _ recalls => ⟨recalls.calls, recalls.journal⟩
  close := fun _ _ recalls => by
    obtain ⟨calls, acts, journal⟩ := recalls
    exact ⟨calls, _ :: acts, by rw [publishClosed, modify, journal]; rfl⟩
  queue := fun _ recalls => ⟨recalls.calls, recalls.journal⟩
  sink := fun _ recalls => ⟨recalls.calls, recalls.journal⟩
  outside := fun {_ _ p} change recalls => by
    refine ⟨?_, recalls.journal⟩
    rw [notes]
    exact recalls.calls

end WatchDispatch.Watch
