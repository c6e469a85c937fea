import WatchDispatch.Proofs.Dispatch.SourceRun
import WatchDispatch.Proofs.Watch.PoolInvariants

/-!
# Invariants of sources

What is kept by each single change of a pool holds of a source at every point of every run: after
starts that were completed, failed or given up, and after all sessions were closed or dropped.
-/

namespace WatchDispatch.Dispatch

open Watch

variable {τ ε : Type}

namespace Source

/-- This holds of the pool of the source and its open sessions, with nothing being opened. -/
def Kept (Holds : List Session → List Handle → Pool (Recorded τ) Stores → Prop)
    (s : Source (Recorded τ)) : Prop := Holds s.sessions [] s.pool

variable {t : Transport τ} {env : ε → Recorded τ → Recorded τ}
  {Holds : List Session → List Handle → Pool (Recorded τ) Stores → Prop}
  (keeps : Pool.Keeps t env Holds) {sessions rest : List Session} {opening : List Handle}
  {p : Pool (Recorded τ) Stores} {s : Source (Recorded τ)}

include keeps

theorem requestStops_kept (holds : Holds (sessions ++ rest) opening p) :
    Holds rest opening (requestStops sessions p) := by
  induction sessions generalizing p with
  | nil => exact holds
  | cons session more ih => exact ih (keeps.requestStop holds)

theorem finishAll_kept (sink : Sink Stores) (sessions : List Session)
    (holds : Holds rest opening p) :
    Holds rest opening (finishAll t.recorded sink sessions p).2 := by
  induction sessions generalizing p with
  | nil => exact holds
  | cons session more ih => exact ih (keeps.finish sink session holds)

theorem Kept.stopped (kept : s.Kept Holds) : Holds [] [] (requestStops s.sessions s.pool) :=
  requestStops_kept keeps (by rwa [List.append_nil])

theorem Kept.closeWhile {meanwhile : Pool (Recorded τ) Stores → Pool (Recorded τ) Stores}
    (others : ∀ {p}, Holds [] [] p → Holds [] [] (meanwhile p)) (kept : s.Kept Holds) :
    (s.closeWhile t.recorded meanwhile).2.Kept Holds :=
  finishAll_kept keeps s.sink s.sessions (others (Kept.stopped keeps kept))

theorem Kept.close (kept : s.Kept Holds) : (s.close t.recorded).2.Kept Holds :=
  Kept.closeWhile keeps id kept

theorem Kept.closeAmid (schedule : Schedule (Recorded τ)) (kept : s.Kept Holds) :
    (s.closeAmid t.recorded schedule).2.Kept Holds :=
  Kept.closeWhile keeps (keeps.turns s.sink _) kept

omit keeps in
/-- Sessions are opened one by one, in a way that keeps what holds. -/
theorem Kept.openEach {opens : Source (Recorded τ) → Scope → Opening × Pool (Recorded τ) Stores}
    {closes : Source (Recorded τ) → Nat × Source (Recorded τ)}
    (opened : ∀ {s : Source (Recorded τ)} (scope : Scope), s.Kept Holds →
      Holds ((opens s scope).1.sessions s.sessions) [] (opens s scope).2)
    (closed : ∀ {s : Source (Recorded τ)}, s.Kept Holds → (closes s).2.Kept Holds)
    (scopes : List Scope) (kept : s.Kept Holds) :
    (openEach opens closes scopes s).2.Kept Holds := by
  induction scopes generalizing s with
  | nil => exact kept
  | cons scope more ih =>
    have opened := opened scope kept
    unfold Source.openEach
    rcases answer : opens s scope with ⟨session | f | _, pool⟩ <;> rw [answer] at opened
    · exact ih opened
    · exact closed opened
    · exact opened

theorem Kept.openAll (scopes : List Scope) (kept : s.Kept Holds) :
    (openAll t.recorded scopes s).2.Kept Holds :=
  Kept.openEach (fun {s} scope kept => keeps.openSession s.sink s.config.gvkKey scope kept)
    (Kept.close keeps) scopes kept

theorem Kept.turns (numbers : List Nat) (kept : s.Kept Holds) :
    (s.turns t.recorded numbers).Kept Holds :=
  keeps.turns s.sink numbers kept

theorem Kept.openAllAmid (schedule : Schedule (Recorded τ)) (scopes : List Scope)
    (kept : s.Kept Holds) : (openAllAmid t.recorded schedule scopes s).2.Kept Holds := by
  refine Kept.openEach (fun {s} scope kept => ?_) (Kept.closeAmid keeps schedule) scopes kept
  exact keeps.openWhile (keeps.turns s.sink _) s.config.gvkKey scope (Kept.turns keeps _ kept)

theorem Kept.start (kept : s.Kept Holds) : (s.start t.recorded).2.Kept Holds := by
  rw [start_eq]
  split
  · exact Kept.openAll keeps _ kept
  · exact kept

theorem Kept.tick (kept : s.Kept Holds) (tick : Tick ε) :
    (s.tick t.recorded env tick).Kept Holds := by
  cases tick with
  | pick n => exact keeps.queue (fun _ mem => Pool.mem_pick mem) kept
  | turn => exact keeps.turn s.sink kept
  | settle => exact keeps.settle s.sink kept
  | outside change => exact keeps.outside change kept

theorem Kept.perform (kept : s.Kept Holds) (deed : Deed ε) :
    (s.perform t.recorded env deed).Kept Holds := by
  cases deed with
  | start => exact Kept.start keeps kept
  | abandonStart opened =>
    simp only [Source.perform]
    split
    · exact Kept.openAll keeps _ kept
    · exact kept
  | close => exact Kept.close keeps kept
  | drop => exact Kept.stopped keeps kept
  | onEvent e => exact keeps.sink _ kept
  | deregister uid => exact keeps.sink _ kept
  | tick tick => exact Kept.tick keeps kept tick

theorem Kept.deeds (kept : s.Kept Holds) (run : List (Deed ε)) :
    (s.deeds t.recorded env run).Kept Holds := by
  induction run with
  | nil => exact kept
  | cons deed earlier ih => exact Kept.perform keeps ih deed

omit keeps in
/-- What holds while the surroundings change in certain ways only is kept by each run in which they
do. -/
theorem Kept.deeds_of {Way : ε → Prop}
    (keeps : Pool.Keeps t (fun change : { change // Way change } => env change.1) Holds)
    (kept : s.Kept Holds) {run : List (Deed ε)}
    (ways : ∀ change, .tick (.outside change) ∈ run → Way change) :
    (s.deeds t.recorded env run).Kept Holds := by
  induction run with
  | nil => exact kept
  | cons deed earlier ih =>
    have before := ih fun change mem => ways change (List.mem_cons_of_mem _ mem)
    cases deed with
    | start => exact Kept.perform keeps before .start
    | abandonStart opened => exact Kept.perform keeps before (.abandonStart opened)
    | close => exact Kept.perform keeps before .close
    | drop => exact Kept.perform keeps before .drop
    | onEvent e => exact Kept.perform keeps before (.onEvent e)
    | deregister uid => exact Kept.perform keeps before (.deregister uid)
    | tick tick =>
      cases tick with
      | pick n => exact Kept.perform keeps before (.tick (.pick n))
      | turn => exact Kept.perform keeps before (.tick .turn)
      | settle => exact Kept.perform keeps before (.tick .settle)
      | outside change =>
        exact Kept.tick keeps before (.outside ⟨change, ways change List.mem_cons_self⟩)

end Source

end WatchDispatch.Dispatch
