import WatchDispatch.Proofs.Daemon.Endings

/-!
# First come, first served

The daemon that runs is one of those that may be conducted: whoever has waited longest has the next
turn, and the daemon looks when something is there or when nothing moves any more. It starts its
source as the source is started without a schedule, and it never stops waiting while something can
still happen.
-/

namespace WatchDispatch

open Cluster Dispatch Watch

variable {τ σ : Type} {t : Transport τ}

namespace Watch.Pool

theorem pick_of_ready {p : Pool τ σ} {n : Nat} {others : List Nat} (ready : p.ready = n :: others) :
    p.pick n = p := by
  have same : n :: p.ready.erase n = p.ready := by rw [ready, List.erase_cons_head]
  rw [pick, same]

/-- To take turns first come, first served, is to run. -/
theorem turns_firstCome (t : Transport τ) (sink : Sink σ) (fuel : Nat) (p : Pool τ σ) :
    p.turns t sink (p.firstCome t sink (fun _ => false) fuel) = p.run t sink fuel := by
  induction fuel generalizing p with
  | zero => rfl
  | succ fuel ih =>
    unfold firstCome run
    cases ready : p.ready with
    | nil => rfl
    | cons n others =>
      rw [← ih (p.turn t sink)]
      simp [turns, pick_of_ready ready]

/-- With the whole budget, turns end only when they are to stop or when nothing moves. -/
theorem firstCome_rests {Holds : τ → Prop} (dwindles : t.Dwindles Holds) (sink : Sink σ)
    (stops : Pool τ σ → Bool) {p : Pool τ σ} (holds : Holds p.transport) :
    let last := p.turns t sink (p.firstCome t sink stops (p.budget t))
    stops last = true ∨ last.ready = [] := by
  -- Every turn lowers the budget, and an empty budget leaves nothing in the queue.
  have enough : ∀ fuel (p : Pool τ σ), Holds p.transport → p.budget t ≤ fuel →
      let last := p.turns t sink (p.firstCome t sink stops fuel)
      stops last = true ∨ last.ready = [] := by
    intro fuel
    induction fuel with
    | zero =>
      intro p _ spent
      refine .inr (List.eq_nil_of_length_eq_zero ?_)
      change p.ready.length = 0
      unfold budget at spent
      omega
    | succ fuel ih =>
      intro p holds spent
      unfold firstCome
      cases ready : p.ready with
      | nil => exact .inr ready
      | cons n others =>
        dsimp only
        split
        next stopped => exact .inl stopped
        next =>
          obtain ⟨kept, lower⟩ := turn_lowers dwindles sink holds (by simp [ready])
          rw [turns, pick_of_ready ready]
          exact ih _ kept (Nat.le_of_lt_succ (Nat.lt_of_lt_of_le lower spent))
  exact enough _ p holds (Nat.le_refl _)

end Watch.Pool

namespace Daemon

variable {env : String → Option String} {server : Server} {ns : String}

/-- First come, first served, a source is started as it is without a schedule. -/
theorem startAmid_firstCome (a : Api) (after : Option Nat) (source : Source ApiState) :
    source.startAmid a.transport (firstCome after a.transport).toSchedule =
    source.start a.transport := by
  have opens : Source.openAmid a.transport (firstCome after a.transport).toSchedule =
      Source.openSession a.transport := by
    funext s scope
    have others : ∀ pool : Pool ApiState Stores, pool.turns a.transport s.sink
        ((firstCome after a.transport).meanwhile { s with pool }) = pool.goOn a.transport s.sink :=
      fun pool => pool.turns_firstCome a.transport s.sink (pool.budget a.transport)
    have answered := openAmid_ne_pending a (firstCome after a.transport).toSchedule s scope
    unfold Source.openSession Pool.openSession
    have same : s.openAmid a.transport (firstCome after a.transport).toSchedule scope =
        s.pool.openWhile a.transport (fun pool => pool.turns a.transport s.sink
          ((firstCome after a.transport).meanwhile { s with pool })) s.config.gvkKey scope := rfl
    rw [funext others] at same
    rw [← same]
    rcases opened : s.openAmid a.transport (firstCome after a.transport).toSchedule scope with
      ⟨session | f | _, pool⟩
    · rfl
    · rfl
    · exact absurd (congrArg Prod.fst opened) answered
  unfold Source.startAmid Source.start
  rw [opens]
  rfl

theorem served_turns (t : Transport ApiState) (source : Source ApiState) (numbers : List Nat)
    {others : List Moment} (none : others.filterMap Moment.turn? = []) :
    served t source (numbers.map .turn ++ others) = source.turns t numbers := by
  have all : Moment.turn? ∘ Moment.turn = some := rfl
  rw [served, List.filterMap_append, List.filterMap_map, all, List.filterMap_some, none,
    List.append_nil]

theorem heard_turns (numbers : List Nat) (others : List Moment) :
    heard (numbers.map .turn ++ others) = heard others := by
  have none : (numbers.map Moment.turn).findSome? Moment.interrupt? = none := by
    simp [List.findSome?_eq_none_iff, Moment.interrupt?]
  rw [heard, List.findSome?_append, none, Option.none_or, heard]

/-- If the last look decides nothing, nothing moves and nothing is there. -/
theorem waiting_at_rest {a : Api} {after : Option Nat} {started : Source ApiState}
    (numbered : Numbered started.pool.transport)
    (none : ∀ cause,
      ¬ Decides a.transport started ((firstCome after a.transport).waiting started) cause) :
    let left := served a.transport started ((firstCome after a.transport).waiting started)
    left.pool.ready = [] ∧ reported left = Option.none ∧ interrupted after left.pool = false := by
  intro left
  let numbers := started.pool.firstCome a.transport started.sink (stirred after)
    (started.pool.budget a.transport)
  let last := started.turns a.transport numbers
  let come : List Moment := if interrupted after last.pool then [.interrupt .signal] else []
  have turnless : come.filterMap Moment.turn? = [] ∧
      (come ++ [Moment.look .fault]).filterMap Moment.turn? = [] := by
    unfold come
    split <;> exact ⟨rfl, rfl⟩
  have moments : (firstCome after a.transport).waiting started =
      numbers.map .turn ++ come ++ [.look .fault] := rfl
  have quiet := (quiet_or_decides a.transport started _).resolve_right
    fun ⟨cause, decides⟩ => none cause decides
  obtain ⟨silent, unheard⟩ := quiet _ _ [] moments
  rw [served_turns a.transport started numbers turnless.1] at silent
  have undisturbed : interrupted after last.pool = false := by
    by_contra disturbed
    rw [Bool.not_eq_false] at disturbed
    rw [heard_turns] at unheard
    simp [come, disturbed, heard, Moment.interrupt?] at unheard
  have same : left = last := by
    change served a.transport started ((firstCome after a.transport).waiting started) = last
    rw [moments, List.append_assoc]
    exact served_turns a.transport started numbers turnless.2
  have rests := Pool.firstCome_rests (transport_dwindles a) started.sink (stirred after) numbered
  have unstirred : stirred after last.pool = false := by
    rw [stirred, takeReport_fst, undisturbed, Bool.or_false]
    exact Option.isSome_eq_false_iff.mpr (Option.isNone_iff_eq_none.mpr silent)
  rw [same]
  refine ⟨rests.resolve_left fun stopped => ?_, silent, undisturbed⟩
  exact absurd stopped (Bool.not_eq_true _ ▸ unstirred)

/-- The daemon that runs waits for ever only with nothing that moves and nothing that it waits
for. -/
theorem run_waits_at_rest [UidErrors] (plural : PluralNamed env server) {after : Option Nat}
    (waits : (run env (.reachable server ns) after).ending = .waiting) :
    ∃ left, (run env (.reachable server ns) after).left = some left ∧ left.pool.ready = [] ∧
      reported left = none ∧ interrupted after left.pool = false := by
  rcases givesUp_or_serves env server ns (firstCome after) with ⟨e, givesUp⟩ | ⟨a, started, serves⟩
  · cases waits.symm.trans (conduct_of_givesUp plural givesUp).1
  · rcases (conduct_of_serves plural serves).2 with ⟨cause, -, exits, -⟩ | ⟨none, -, left⟩
    · cases waits.symm.trans exits
    · obtain ⟨rests, silent, undisturbed⟩ := waiting_at_rest serves.opened.1.numbered none
      exact ⟨_, left, rests, silent, undisturbed⟩

end Daemon

end WatchDispatch
