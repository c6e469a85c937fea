import WatchDispatch.Proofs.Dispatch.History
import WatchDispatch.Proofs.Dispatch.Replay
import WatchDispatch.Proofs.Dispatch.SourceInvariants
import WatchDispatch.Proofs.Watch.Attended
import WatchDispatch.Proofs.Watch.LifeCycle
import WatchDispatch.Proofs.Watch.DeedsAtScope

/-!
# Sessions are isolated from each other

The sessions of a source share their transport, their stores, the counter of subscriptions and the
supervisor. Still, what happens at one scope is nothing to the sessions of another one: it leaves
them as they are, and two runs of a source that differ in what happens at one scope only are the
same to the others, up to the numbers of their subscriptions.
-/

namespace WatchDispatch.Dispatch

open Watch

inductive Stroke where
  | start
  | close
  | drop
  | onEvent (e : Event)
  | deregister (uid : Uid)
  /-- The feed of a scope is filled or ended by hand, or the scope is told how to answer. -/
  | feed (scope : Scope) (step : FeedStep)
  /-- This delivery takes a step if it is one of the scope. -/
  | turn (scope : Scope) (n : Nat)
  /-- All deliveries run until nothing moves. -/
  | settle

/-- The stroke happens at this scope, and the owner of the source has no part in it. -/
def Stroke.isAt (a : Scope) : Stroke → Bool
  | .feed scope _ | .turn scope _ => scope = a
  | _ => false

/-- All deliveries have come to rest, and nothing else has happened since. -/
def hasSettled : List Stroke → Bool
  | [] | .settle :: _ => true
  | _ => false

/-- The stroke is nothing to other scopes: it happens at this one, or deliveries run that have come
to rest already. -/
def Stroke.isMute (a : Scope) (before : List Stroke) : Stroke → Bool
  | .settle => hasSettled before
  | stroke => stroke.isAt a

/-- What of a run happens elsewhere than at this scope. -/
def outline (a : Scope) : List Stroke → List Stroke
  | [] => []
  | stroke :: earlier =>
    if stroke.isMute a (outline a earlier) then outline a earlier else stroke :: outline a earlier

namespace Source

def stroke (s : Source (Recorded Feeds)) : Stroke → Source (Recorded Feeds)
  | .start => (s.start Feeds.recorded).2
  | .close => (s.close Feeds.recorded).2
  | .drop => s.drop
  | .onEvent e => (s.onEvent e).2
  | .deregister uid => s.deregister uid
  | .feed scope step => { s with pool := s.pool.feed scope step }
  | .turn scope n =>
    if s.pool.isAt scope n then { s with pool := (s.pool.pick n).turn Feeds.recorded s.sink } else s
  | .settle => s.settle Feeds.recorded

/-- The source after strokes, latest stroke first. -/
def strokes (s : Source (Recorded Feeds)) : List Stroke → Source (Recorded Feeds)
  | [] => s
  | stroke :: earlier => (s.strokes earlier).stroke stroke

def StartsWell (s : Source (Recorded Feeds)) : List Stroke → Prop
  | [] => True
  | stroke :: earlier => s.StartsWell earlier ∧
    (stroke = .start → (s.strokes earlier).sessions = [] →
      ((s.strokes earlier).start Feeds.recorded).1 = .started)

/-! ## What strokes keep -/

theorem Kept.stroke {Holds : List Session → List Handle → Pool (Recorded Feeds) Stores → Prop}
    (keeps : Pool.Keeps Feeds.transport Recorded.become Holds) {s : Source (Recorded Feeds)}
    (kept : s.Kept Holds) (stroke : Stroke) : (s.stroke stroke).Kept Holds := by
  cases stroke with
  | start => exact Kept.start keeps kept
  | close => exact Kept.close keeps kept
  | drop => exact Kept.stopped keeps kept
  | onEvent e => exact keeps.sink _ kept
  | deregister uid => exact keeps.sink _ kept
  | feed scope step => exact keeps.feed kept scope step
  | turn scope n =>
    simp only [Source.stroke]
    split
    · exact keeps.turn s.sink (keeps.queue (fun _ mem => Pool.mem_pick mem) kept)
    · exact kept
  | settle => exact keeps.settle s.sink kept

theorem Kept.strokes {Holds : List Session → List Handle → Pool (Recorded Feeds) Stores → Prop}
    (keeps : Pool.Keeps Feeds.transport Recorded.become Holds) {s : Source (Recorded Feeds)}
    (kept : s.Kept Holds) (run : List Stroke) : (s.strokes run).Kept Holds := by
  induction run with
  | nil => exact kept
  | cons stroke earlier ih => exact Kept.stroke keeps ih stroke

variable {s s' : Source (Recorded Feeds)} {a b : Scope} {r : Renaming} {ids : List Nat}

/-! ## Strokes at one scope -/

/-- A stroke at another scope goes on beside this one. -/
theorem stroke_beside (tidy : s.pool.Tidy b ids) (other : b ≠ a) {stroke : Stroke}
    (own : stroke.isAt a = true) :
    ∃ pool, s.stroke stroke = { s with pool } ∧ s.pool.Beside b ids pool := by
  cases stroke with
  | feed scope step =>
    obtain rfl : scope = a := of_decide_eq_true own
    exact ⟨_, rfl, Pool.feed_beside tidy (Ne.symm other) step⟩
  | turn scope n =>
    obtain rfl : scope = a := of_decide_eq_true own
    simp only [stroke]
    split
    next here =>
      have inside := Pool.isAt_lt here
      have away : s.pool.isAt b n = false := by
        obtain ⟨d, there, at'⟩ := Pool.exists_of_isAt here
        rw [← Bool.not_eq_true, Pool.isAt_iff there, at']
        exact Ne.symm other
      have picked := Pool.pick_beside tidy inside away
      refine ⟨_, rfl, picked.trans (Pool.turn_beside s.sink picked.tidy rfl ?_)⟩
      exact away
    next => exact ⟨s.pool, rfl, .refl tidy⟩
  | _ => cases own

theorem mute_beside (tidy : s.pool.Tidy b ids) (other : b ≠ a) {before : List Stroke}
    (rests : hasSettled before = true → s.pool.waiting b = []) {stroke : Stroke}
    (mute : stroke.isMute a before = true) :
    ∃ pool, s.stroke stroke = { s with pool } ∧ s.pool.Beside b ids pool := by
  cases stroke with
  | settle => exact ⟨_, rfl, (tidy.settles s.sink).beside tidy (rests mute)⟩
  | feed scope step => exact stroke_beside tidy other mute
  | turn scope n => exact stroke_beside tidy other mute
  | _ => cases mute

/-! ## The same stroke in two runs -/

theorem openAll_cons_of_started {scope : Scope} {more : List Scope}
    (started : (openAll Feeds.recorded (scope :: more) s).1 = .started) :
    ∃ session pool, s.pool.openSession Feeds.recorded s.sink s.config.gvkKey scope =
    (.opened session, pool) ∧
      openAll Feeds.recorded (scope :: more) s =
        openAll Feeds.recorded more { s with sessions := s.sessions ++ [session], pool } := by
  rcases opened : s.pool.openSession Feeds.recorded s.sink s.config.gvkKey scope with
    ⟨session | f | _, pool⟩
  · exact ⟨session, pool, rfl, by rw [openAll_cons, opened]⟩
  · rw [openAll_cons, opened] at started
    cases started
  · rw [openAll_cons, opened] at started
    cases started

theorem start_of_none (none : s.sessions = []) :
    s.start Feeds.recorded = openAll Feeds.recorded s.config.target.watchScopes s := by
  rw [start_eq, if_pos]
  exact List.isEmpty_iff.mpr none

theorem start_of_some (some : s.sessions ≠ []) :
    s.start Feeds.recorded = (.failed .alreadyStarted, s) := by
  rw [start_eq, if_neg]
  exact fun none => some (List.isEmpty_iff.mp none)

section Pools

variable {p p' : Pool (Recorded Feeds) Stores} {sink : Sink Stores}

theorem alike_requestStops {sessions : List Session} (alike : p.Alike b r p')
    (inside : ∀ session ∈ sessions, session.number < p.deliveries.length) :
    (requestStops sessions p).Alike b r (requestStops sessions p') := by
  induction sessions generalizing p p' with
  | nil => exact alike
  | cons session more ih =>
    apply ih (alike.requestStop (inside session List.mem_cons_self))
    intro other mem
    have same : (p.requestStop session).deliveries.length = p.deliveries.length := by
      simp [Pool.requestStop, Pool.wake_deliveries, Pool.modify]
    rw [same]
    exact inside other (List.mem_cons_of_mem _ mem)

theorem alike_finishAll (alike : p.Alike b r p') (calm : ∀ e y, (sink e y).1 = .done)
    (sessions : List Session) :
    ∃ r', (finishAll Feeds.recorded sink sessions p).2.Alike b r'
      (finishAll Feeds.recorded sink sessions p').2 := by
  induction sessions generalizing p p' r with
  | nil => exact ⟨r, alike⟩
  | cons session more ih =>
    obtain ⟨r', finished⟩ := alike.finish calm session
    exact ih finished

end Pools

/-- Two sources differ in their pools only, and these are alike at this scope, up to the names of
subscriptions. -/
structure Alike (b : Scope) (r : Renaming) (s s' : Source (Recorded Feeds)) : Prop where
  calm : ∀ calls call, s.dispatcher calls call = .done
  rest : s' = { s with pool := s'.pool }
  pool : s.pool.Alike b r s'.pool

namespace Alike

theorem config_eq (alike : s.Alike b r s') : s'.config = s.config := by rw [alike.rest]

theorem sessions_eq (alike : s.Alike b r s') : s'.sessions = s.sessions := by rw [alike.rest]

theorem sink_calm (alike : s.Alike b r s') : ∀ e y, (s.sink e y).1 = .done :=
  fun e y => Stores.deliver_done alike.calm e y

theorem exists_pool (alike : s.Alike b r s') :
    ∃ pool', s' = { s with pool := pool' } ∧ s.pool.Alike b r pool' :=
  ⟨s'.pool, alike.rest, alike.pool⟩

/-- The pools of two sources that are alike go on alike. -/
theorem onward (alike : s.Alike b r s') {r' : Renaming} {sessions : List Session}
    {pool pool' : Pool (Recorded Feeds) Stores} (same : pool.Alike b r' pool') :
    Source.Alike b r' { s with sessions, pool } { s with sessions, pool := pool' } :=
  ⟨alike.calm, rfl, same⟩

theorem beside_left (alike : s.Alike b r s') {pool : Pool (Recorded Feeds) Stores}
    (beside : s.pool.Beside b r.lefts pool) : Source.Alike b r { s with pool } s' := by
  obtain ⟨pool', rfl, same⟩ := alike.exists_pool
  exact alike.onward (same.beside_left beside)

theorem beside_right (alike : s.Alike b r s') {pool : Pool (Recorded Feeds) Stores}
    (beside : s'.pool.Beside b r.rights pool) : s.Alike b r { s' with pool } := by
  obtain ⟨pool', rfl, same⟩ := alike.exists_pool
  exact alike.onward (same.beside_right beside)

theorem elsewhere (alike : s.Alike b r s') (other : b ≠ a) {stroke : Stroke}
    (own : stroke.isAt a = true) : (s.stroke stroke).Alike b r (s'.stroke stroke) := by
  obtain ⟨pool, after, beside⟩ := stroke_beside alike.pool.left other own
  obtain ⟨pool', after', beside'⟩ := stroke_beside alike.pool.right other own
  rw [after, after']
  exact (alike.beside_left beside).beside_right beside'

theorem close (alike : s.Alike b r s') (manned : s.pool.Manned s.sessions) :
    ∃ r', (s.close Feeds.recorded).2.Alike b r' (s'.close Feeds.recorded).2 := by
  obtain ⟨pool', rfl, same⟩ := alike.exists_pool
  have stopped := alike_requestStops same manned.inside
  obtain ⟨r', finished⟩ := alike_finishAll stopped alike.sink_calm s.sessions
  exact ⟨r', alike.onward finished⟩

theorem drop (alike : s.Alike b r s') (manned : s.pool.Manned s.sessions) :
    s.drop.Alike b r s'.drop := by
  obtain ⟨pool', rfl, same⟩ := alike.exists_pool
  exact alike.onward (alike_requestStops same manned.inside)

theorem openAll {scopes : List Scope} (alike : s.Alike b r s')
    (started : (Source.openAll Feeds.recorded scopes s).1 = .started)
    (started' : (Source.openAll Feeds.recorded scopes s').1 = .started) :
    ∃ r', (Source.openAll Feeds.recorded scopes s).2.Alike b r'
      (Source.openAll Feeds.recorded scopes s').2 := by
  induction scopes generalizing s s' r with
  | nil => exact ⟨r, alike⟩
  | cons scope more ih =>
    obtain ⟨pool', rfl, same⟩ := alike.exists_pool
    obtain ⟨session, pool, opened, onward⟩ := openAll_cons_of_started started
    obtain ⟨session', pool', opened', onward'⟩ := openAll_cons_of_started started'
    obtain ⟨rfl, r', same⟩ := same.openSession opened opened'
    rw [onward] at started ⊢
    rw [onward'] at started' ⊢
    exact ih (alike.onward same) started started'

/-- What happens to both sources takes them from alike to alike. -/
theorem stroke (alike : s.Alike b r s') (manned : s.pool.Manned s.sessions) (stroke : Stroke)
    (starts : stroke = .start → s.sessions = [] → (s.start Feeds.recorded).1 = .started)
    (starts' : stroke = .start → s'.sessions = [] → (s'.start Feeds.recorded).1 = .started) :
    ∃ r', (s.stroke stroke).Alike b r' (s'.stroke stroke) := by
  cases stroke with
  | start =>
    have sessions := alike.sessions_eq
    have config := alike.config_eq
    by_cases none : s.sessions = []
    · have none' := sessions.trans none
      have started := starts rfl none
      have started' := starts' rfl none'
      rw [start_of_none none] at started
      rw [start_of_none none', config] at started'
      rw [Source.stroke, Source.stroke, start_of_none none, start_of_none none', config]
      exact alike.openAll started started'
    · rw [Source.stroke, Source.stroke, start_of_some none, start_of_some (sessions ▸ none)]
      exact ⟨r, alike⟩
  | close => exact alike.close manned
  | drop => exact ⟨r, alike.drop manned⟩
  | onEvent e =>
    obtain ⟨pool', rfl, same⟩ := alike.exists_pool
    exact ⟨r, alike.onward (same.sink _ _)⟩
  | deregister uid =>
    obtain ⟨pool', rfl, same⟩ := alike.exists_pool
    exact ⟨r, alike.onward (same.sink _ _)⟩
  | settle =>
    obtain ⟨pool', rfl, same⟩ := alike.exists_pool
    obtain ⟨r', settled⟩ := same.settle alike.sink_calm
    exact ⟨r', alike.onward settled⟩
  | feed scope step =>
    by_cases here : scope = b
    · subst here
      obtain ⟨pool', rfl, same⟩ := alike.exists_pool
      exact ⟨r, alike.onward (same.feed step)⟩
    · exact ⟨r, alike.elsewhere (Ne.symm here) (decide_eq_true rfl)⟩
  | turn scope n =>
    by_cases here : scope = b
    · subst here
      obtain ⟨pool', rfl, same⟩ := alike.exists_pool
      simp only [Source.stroke, congrFun same.isAt_eq n]
      split
      next own =>
        obtain ⟨r', turned⟩ := (same.pick (Pool.isAt_lt own)).turn alike.sink_calm rfl rfl own
        exact ⟨r', alike.onward turned⟩
      next => exact ⟨r, alike⟩
    · exact ⟨r, alike.elsewhere (Ne.symm here) (decide_eq_true rfl)⟩

end Alike

/-! ## Whole runs -/

theorem outline_cons_of_mute {earlier : List Stroke} {stroke : Stroke}
    (mute : stroke.isMute a (outline a earlier) = true) :
    outline a (stroke :: earlier) = outline a earlier := by
  rw [outline, if_pos mute]

theorem outline_cons {earlier : List Stroke} {stroke : Stroke}
    (mute : stroke.isMute a (outline a earlier) = false) :
    outline a (stroke :: earlier) = stroke :: outline a earlier := by
  rw [outline, mute, if_neg Bool.false_ne_true]

theorem outline_length_le (a : Scope) (later run : List Stroke) :
    (outline a run).length ≤ (outline a (later ++ run)).length := by
  induction later with
  | nil => exact Nat.le_refl _
  | cons stroke later ih =>
    rw [List.cons_append]
    cases mute : stroke.isMute a (outline a (later ++ run)) with
    | true => rwa [outline_cons_of_mute mute]
    | false =>
      rw [outline_cons mute]
      exact Nat.le_succ_of_le ih

/-- Two runs are alike at this scope, and its deliveries rest if all have come to rest. -/
def AlikeAfter (a b : Scope) (s s' : Source (Recorded Feeds)) (run run' : List Stroke) : Prop :=
  ∃ r, (s.strokes run).Alike b r (s'.strokes run') ∧
    (hasSettled (outline a run) = true → (s.strokes run).pool.waiting b = [])

namespace AlikeAfter

variable {run run' : List Stroke} {stroke : Stroke}

theorem mute_left (after : AlikeAfter a b s s' run run') (other : b ≠ a)
    (mute : stroke.isMute a (outline a run) = true) : AlikeAfter a b s s' (stroke :: run) run' := by
  obtain ⟨r, alike, rests⟩ := after
  obtain ⟨pool, moved, beside⟩ := mute_beside alike.pool.left other rests mute
  refine ⟨r, ?_, ?_⟩
  · rw [strokes, moved]
    exact alike.beside_left beside
  · intro settled
    rw [outline_cons_of_mute mute] at settled
    rw [strokes, moved]
    exact beside.waiting.trans (rests settled)

theorem mute_right (after : AlikeAfter a b s s' run run') (other : b ≠ a)
    (same : outline a run = outline a run') (mute : stroke.isMute a (outline a run') = true) :
    AlikeAfter a b s s' run (stroke :: run') := by
  obtain ⟨r, alike, rests⟩ := after
  have rests' : hasSettled (outline a run') = true → (s'.strokes run').pool.waiting b = [] := by
    intro settled
    rw [← same] at settled
    exact alike.pool.waiting.trans (rests settled)
  obtain ⟨pool, moved, beside⟩ := mute_beside alike.pool.right other rests' mute
  refine ⟨r, ?_, rests⟩
  rw [strokes, moved]
  exact alike.beside_right beside

theorem both (after : AlikeAfter a b s s' run run') (manned : s.pool.Manned s.sessions)
    (mute : stroke.isMute a (outline a run) = false) (starts : s.StartsWell (stroke :: run))
    (starts' : s'.StartsWell (stroke :: run')) :
    AlikeAfter a b s s' (stroke :: run) (stroke :: run') := by
  obtain ⟨r, alike, -⟩ := after
  have manned : (s.strokes run).pool.Manned (s.strokes run).sessions :=
    Kept.strokes (Pool.keeps_manned Feeds.transport Recorded.become) manned run
  obtain ⟨r', onward⟩ := alike.stroke manned stroke starts.2 starts'.2
  refine ⟨r', onward, ?_⟩
  rw [outline_cons mute]
  intro settled
  cases stroke with
  | settle =>
    obtain ⟨-, rests⟩ :=
      Pool.settle_rests Feeds.dwindles.recorded (s.strokes run).sink alike.pool.left.feeds.numbered
    change ((s.strokes run).pool.settle Feeds.recorded (s.strokes run).sink).ready.filter _ = []
    rw [rests]
    rfl
  | _ => cases settled

end AlikeAfter

/-- Two runs with the same outline. -/
theorem alikeAfter (alike : s.Alike b r s') (manned : s.pool.Manned s.sessions)
    (idle : s.pool.ready = []) (other : b ≠ a) {run run' : List Stroke}
    (same : outline a run = outline a run') (starts : s.StartsWell run)
    (starts' : s'.StartsWell run') : AlikeAfter a b s s' run run' := by
  -- Mute strokes of either run are taken one at a time, the others in both runs at once.
  induction run generalizing run' with
  | nil =>
    induction run' with
    | nil =>
      refine ⟨r, alike, fun _ => ?_⟩
      rw [strokes, Pool.waiting, idle]
      rfl
    | cons stroke earlier ih =>
      cases mute : stroke.isMute a (outline a earlier) with
      | true =>
        rw [outline_cons_of_mute mute] at same
        exact (ih same starts'.1).mute_right other same mute
      | false =>
        rw [outline_cons mute] at same
        cases same
  | cons stroke earlier ih =>
    cases mute : stroke.isMute a (outline a earlier) with
    | true =>
      rw [outline_cons_of_mute mute] at same
      exact (ih same starts.1 starts').mute_left other mute
    | false =>
      induction run' with
      | nil =>
        rw [outline_cons mute] at same
        cases same
      | cons stroke' earlier' ih' =>
        cases mute' : stroke'.isMute a (outline a earlier') with
        | true =>
          rw [outline_cons_of_mute mute'] at same
          exact (ih' same starts'.1).mute_right other same mute'
        | false =>
          rw [outline_cons mute, outline_cons mute'] at same
          obtain ⟨rfl, before⟩ := List.cons_eq_cons.mp same
          exact (ih before starts.1 starts'.1).both manned mute starts starts'

/-- What more happens at this scope only goes on beside the others. -/
theorem strokes_beside {run : List Stroke} (tidy : (s.strokes run).pool.Tidy b ids)
    (rests : hasSettled (outline a run) = true → (s.strokes run).pool.waiting b = [])
    (other : b ≠ a) {later : List Stroke} (same : outline a (later ++ run) = outline a run) :
    ∃ pool, s.strokes (later ++ run) = { s.strokes run with pool } ∧
    (s.strokes run).pool.Beside b ids pool := by
  induction later with
  | nil => exact ⟨_, rfl, .refl tidy⟩
  | cons stroke later ih =>
    rw [List.cons_append] at same ⊢
    cases mute : stroke.isMute a (outline a (later ++ run)) with
    | false =>
      have longer := congrArg List.length same
      have grown := outline_length_le a later run
      rw [outline_cons mute, List.length_cons] at longer
      omega
    | true =>
      rw [outline_cons_of_mute mute] at same
      obtain ⟨pool, moved, beside⟩ := ih same
      have tidy' : (s.strokes (later ++ run)).pool.Tidy b ids := by
        rw [moved]
        exact beside.tidy
      have rests' : hasSettled (outline a (later ++ run)) = true →
          (s.strokes (later ++ run)).pool.waiting b = [] := by
        intro settled
        rw [same] at settled
        rw [moved]
        exact beside.waiting.trans (rests settled)
      obtain ⟨pool', onward, further⟩ := mute_beside tidy' other rests' mute
      rw [moved] at onward further
      exact ⟨pool', by rw [strokes, moved, onward], beside.trans further⟩

/-- A source that begins is like itself. -/
theorem alike_make (c : Configuration) {d : Dispatcher} (calm : ∀ calls call, d calls call = .done)
    (b : Scope) :
    (make c d (⟨Feeds.start, []⟩ : Recorded Feeds)).Alike b [] (make c d ⟨Feeds.start, []⟩) := by
  have apart : Feeds.start.Apart b [] := by
    refine ⟨⟨List.nodup_nil, ?_⟩, ?_, ?_⟩
    · rintro feed ⟨⟩
    · rintro i ⟨⟩
    · rintro scope i ⟨⟩
  have tidy : (Pool.start (⟨Feeds.start, []⟩ : Recorded Feeds) Stores.empty).Tidy b [] := by
    refine ⟨apart, ?_, ?_, ?_⟩
    · rintro d ⟨⟩
    · rintro n ⟨⟩
    · rintro entry ⟨⟩
  have feeds : Feeds.start.Alike b [] Feeds.start := by
    refine ⟨?_, apart, apart, .none, rfl, rfl, ?_⟩
    · rintro p ⟨⟩
    · rintro i i' ⟨⟩
  refine ⟨calm, rfl, tidy, tidy, ⟨feeds, .nil⟩, ?_, rfl, fun _ _ => .nil, rfl⟩
  intro n
  exact .none

/-! ## Isolation -/

/-- Nothing has happened at this scope since the source was `before`. -/
structure SparesAt (b : Scope) (before s : Source (Recorded Feeds)) : Prop where
  sessions : s.sessions = before.sessions
  deliveries : ∀ n, before.pool.isAt b n = true → s.pool.deliveries[n]? = before.pool.deliveries[n]?
  diaries : ∀ n, before.pool.isAt b n = true → diary s.pool.journal n = diary before.pool.journal n
  reports : s.pool.reportsAt b = before.pool.reportsAt b
  calls : s.pool.transport.callsAt b = before.pool.transport.callsAt b

/-- What the sessions of this scope have done in two sources is the same, up to the names of
subscriptions. -/
structure SameAt (b : Scope) (s s' : Source (Recorded Feeds)) : Prop where
  sessions : s'.sessions = s.sessions
  scopes : ∀ n, s'.pool.isAt b n = s.pool.isAt b n
  events : ∀ n, s.pool.isAt b n = true →
    (diary s'.pool.journal n).filterMap Act.event? = (diary s.pool.journal n).filterMap Act.event?
  shown : ∀ n, s.pool.isAt b n = true →
    shown (diary s'.pool.journal n) = shown (diary s.pool.journal n)
  faults : ∀ n, s.pool.isAt b n = true →
    Act.reports (diary s'.pool.journal n) = Act.reports (diary s.pool.journal n)
  states : ∀ session ∈ s.sessions, session.scope = b → s'.pool.state session = s.pool.state session
  reports : s'.pool.reportsAt b = s.pool.reportsAt b
  calls : ∃ r : Renaming, r.OneToOne ∧
    List.Forall₂ (TransportCall.Renamed b r) (s.pool.transport.callsAt b)
      (s'.pool.transport.callsAt b) ∧
    ∀ n, s.pool.isAt b n = true →
      List.Forall₂ (Act.Renamed b r) (diary s.pool.journal n) (diary s'.pool.journal n)

theorem sparesAt_of_beside {pool : Pool (Recorded Feeds) Stores}
    (beside : s.pool.Beside b ids pool) : SparesAt b s { s with pool } := by
  refine ⟨rfl, ?_, beside.diaries, beside.reports, beside.transport.calls⟩
  intro n here
  obtain ⟨d, there, scope⟩ := Pool.exists_of_isAt here
  obtain ⟨e, found, -, same⟩ := beside.deliveries.found there
  rw [found, there, same scope]

theorem Alike.sameAt (alike : s.Alike b r s') (manned : s.pool.Manned s.sessions) :
    SameAt b s s' := by
  refine ⟨alike.sessions_eq, congrFun alike.pool.isAt_eq, ?_, ?_, ?_, ?_, alike.pool.reports, ?_⟩
  · intro n here
    apply Act.filterMap_of_renamed _ (alike.pool.diaries n here)
    rintro _ _ (_ | _ | _ | _ | _ | _ | _) <;> rfl
  · intro n here
    apply congrArg (· ++ [SessionState.starting])
    apply Act.filterMap_of_renamed _ (alike.pool.diaries n here)
    rintro _ _ (_ | _ | _ | _ | _ | _ | _) <;> rfl
  · intro n here
    exact Act.reports_of_renamed (alike.pool.diaries n here)
  · intro session mem own
    obtain ⟨-, d, there, scope, -⟩ := manned.each session mem
    obtain ⟨e, found, -, related⟩ := alike.pool.deliveries.found there
    rw [Pool.state, Pool.state, Pool.delivery?, Pool.delivery?, there, found]
    exact (related (scope.trans own)).state
  · exact ⟨r, alike.pool.transport.feeds.oneToOne, alike.pool.transport.calls, alike.pool.diaries⟩

end Source

/-- Two runs of a source over feeds have the same outline if they differ only in what happens at one
scope: what its feed brings, how it answers, and when its deliveries have their turns. Then they are
the same at every other scope, provided that the dispatcher never crashes and the source opens all
its sessions when it is started: the sessions there are handed the same events, show the same
states, report the same fatal faults and make the same calls, up to the names of subscriptions. And
what more happens at the one scope alone, a fatal fault, say, leaves the others as they are. -/
theorem sessions_isolated (c : Configuration) (d : Dispatcher)
    (calm : ∀ calls call, d calls call = .done) (a : Scope) (run run' : List Stroke)
    (same : outline a run = outline a run')
    (starts : (Source.make c d (⟨Feeds.start, []⟩ : Recorded Feeds)).StartsWell run)
    (starts' : (Source.make c d (⟨Feeds.start, []⟩ : Recorded Feeds)).StartsWell run') :
    let begun := Source.make c d (⟨Feeds.start, []⟩ : Recorded Feeds)
    ∀ b, b ≠ a → (begun.strokes run).SameAt b (begun.strokes run') ∧
      ∀ later, outline a (later ++ run) = outline a run →
        (begun.strokes run).SparesAt b (begun.strokes (later ++ run)) := by
  intro begun b other
  have alike : begun.Alike b [] begun := Source.alike_make c calm b
  have manned : begun.pool.Manned begun.sessions := by
    refine ⟨List.nodup_nil, ?_⟩
    rintro session ⟨⟩
  obtain ⟨r, both, rests⟩ := Source.alikeAfter alike manned rfl other same starts starts'
  have manned := Source.Kept.strokes (Pool.keeps_manned Feeds.transport Recorded.become) manned run
  refine ⟨both.sameAt manned, ?_⟩
  intro later outlined
  obtain ⟨pool, onward, beside⟩ := Source.strokes_beside both.pool.left rests other outlined
  rw [onward]
  exact Source.sparesAt_of_beside beside

namespace Sample

/-- A source for two namespaces, whose dispatcher always returns. -/
def neighbours : Source (Recorded Feeds) :=
  Source.make { configuration with target := .ofNames ["a", "b"] } (fun _ _ => .done)
    ⟨Feeds.start, []⟩

/-- The watch of a namespace brings something, and all sessions run. -/
def brings (ns : String) (items : List (Fault ⊕ Event)) : List Stroke :=
  [.settle, .feed (.named ns) (.push items)]

/-- The watch of `a` expires, and fails after it was renewed. -/
def trouble : List Stroke :=
  brings "a" [.inl (.failed "gone")] ++ brings "a" [.inl (.expired "too old")]

/-- The watch of `b` brings a change and expires. -/
def change : List Stroke :=
  brings "b" [.inr ⟨.modified, snapshot 2 false⟩, .inl (.expired "too old")]

theorem startsWell_brings {s : Source (Recorded Feeds)} {run : List Stroke}
    (starts : s.StartsWell run) (ns : String) (items : List (Fault ⊕ Event)) :
    s.StartsWell (brings ns items ++ run) := by
  refine ⟨⟨starts, ?_⟩, ?_⟩
  · rintro ⟨⟩
  · rintro ⟨⟩

theorem startsWell_neighbours : neighbours.StartsWell [.settle, .start] := by
  refine ⟨⟨trivial, fun _ _ => rfl⟩, ?_⟩
  rintro ⟨⟩

end Sample

/-- The session of `a` has ended, and the one of `b` goes on under another number than it would have
had. -/
theorem sessions_isolated_from_fatal_fault :
    let run := Sample.change ++ Sample.trouble ++ [.settle, .start]
    let run' := Sample.change ++ [.settle, .start]
    outline (.named "a") run = outline (.named "a") run' ∧
    Sample.neighbours.StartsWell run ∧ Sample.neighbours.StartsWell run' ∧
    (Sample.neighbours.strokes run).states = [(.named "a", .closed), (.named "b", .active)] ∧
    granted ((Sample.neighbours.strokes run).pool.transport.callsAt (.named "b")) =
      [⟨4, .named "b"⟩, ⟨2, .named "b"⟩] ∧
    granted ((Sample.neighbours.strokes run').pool.transport.callsAt (.named "b")) =
      [⟨3, .named "b"⟩, ⟨2, .named "b"⟩] ∧
    (Sample.neighbours.strokes run).SameAt (.named "b") (Sample.neighbours.strokes run') := by
  intro run run'
  have outlined : outline (.named "a") run = outline (.named "a") run' := rfl
  have starts' : Sample.neighbours.StartsWell run' :=
    Sample.startsWell_brings Sample.startsWell_neighbours "b" _
  have troubled : Sample.neighbours.StartsWell (Sample.trouble ++ [.settle, .start]) :=
    Sample.startsWell_brings (Sample.startsWell_brings Sample.startsWell_neighbours "a" _) "a" _
  have starts : Sample.neighbours.StartsWell run := Sample.startsWell_brings troubled "b" _
  have isolated :=
    sessions_isolated { Sample.configuration with target := .ofNames ["a", "b"] } (fun _ _ => .done)
    (fun _ _ => rfl) (.named "a") run run' outlined starts starts'
  exact ⟨outlined, starts, starts', rfl, rfl, rfl, (isolated (.named "b") (by decide)).1⟩

end WatchDispatch.Dispatch
