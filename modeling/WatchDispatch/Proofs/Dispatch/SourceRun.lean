import WatchDispatch.Dispatch.Source
import WatchDispatch.Proofs.Watch.Course

/-!
# Runs of a source

The owner of a source starts, closes and drops it, gives a start up, and hands in events on its own.
Between two of these deeds the deliveries take their turns in any order or run until nothing moves,
and the surroundings change the state of the transport; a source that is left alone sees nothing but
such ticks. If it has one session that goes on, it follows the course of that session.
-/

namespace WatchDispatch

open Watch

variable {τ σ ε : Type}

namespace Watch

/-- The surroundings put a state in the place of another; the notes stay. -/
def Recorded.become (state : τ) (x : Recorded τ) : Recorded τ := { x with state }

theorem Recorded.become_calls (state : τ) (x : Recorded τ) :
    (Recorded.become state x).calls = x.calls := rfl

theorem Pool.Shows.pick {p : Pool (Recorded τ) σ} {n : Nat} {v : View σ} (shows : p.Shows n v)
    (m : Nat) : (p.pick m).Shows n v :=
  { shows with queued := fun queued => Pool.mem_pick (shows.queued queued) }

end Watch

namespace Dispatch

/-- What happens to a source that is left alone, with the changes `ε` of the surroundings. -/
inductive Tick (ε : Type) where
  | pick (n : Nat)
  | turn
  | settle
  | outside (change : ε)

inductive Deed (ε : Type) where
  | start
  /-- A start is given up after so many sessions were opened. -/
  | abandonStart (opened : Nat)
  | close
  /-- The source is dropped, or a close is given up. -/
  | drop
  | onEvent (e : Event)
  | deregister (uid : Uid)
  | tick (tick : Tick ε)

namespace Source

def tick (t : Transport τ) (env : ε → τ → τ) (s : Source τ) : Tick ε → Source τ
  | .pick n => { s with pool := s.pool.pick n }
  | .turn => { s with pool := s.pool.turn t s.sink }
  | .settle => s.settle t
  | .outside change => { s with pool := { s.pool with transport := env change s.pool.transport } }

/-- The source after ticks, latest tick first. -/
def ticks (t : Transport τ) (env : ε → τ → τ) (s : Source τ) : List (Tick ε) → Source τ
  | [] => s
  | tick :: earlier => (s.ticks t env earlier).tick t env tick

def perform (t : Transport τ) (env : ε → τ → τ) (s : Source τ) : Deed ε → Source τ
  | .start => (s.start t).2
  | .abandonStart opened =>
    if s.sessions.isEmpty then (openAll t (s.config.target.watchScopes.take opened) s).2 else s
  | .close => (s.close t).2
  | .drop => s.drop
  | .onEvent e => (s.onEvent e).2
  | .deregister uid => s.deregister uid
  | .tick tick => s.tick t env tick

/-- The source after deeds, latest deed first. -/
def deeds (t : Transport τ) (env : ε → τ → τ) (s : Source τ) : List (Deed ε) → Source τ
  | [] => s
  | deed :: earlier => (s.deeds t env earlier).perform t env deed

theorem turns_append (t : Transport τ) (s : Source τ) (numbers later : List Nat) :
    s.turns t (numbers ++ later) = (s.turns t numbers).turns t later := by
  induction numbers generalizing s with
  | nil => rfl
  | cons n numbers ih => exact ih { s with pool := (s.pool.pick n).turn t s.sink }

theorem openAll_cons (t : Transport τ) (scope : Scope) (rest : List Scope) (s : Source τ) :
    openAll t (scope :: rest) s =
      match s.pool.openSession t s.sink s.config.gvkKey scope with
      | (.opened session, pool) =>
          openAll t rest { s with sessions := s.sessions ++ [session], pool }
      | (.refused f, pool) => (.failed (.subscribing scope f), (close t { s with pool }).2)
      | (.pending, pool) => (.pending, { s with pool }) := rfl

theorem start_eq (t : Transport τ) (s : Source τ) : s.start t =
    if s.sessions.isEmpty then openAll t s.config.target.watchScopes s
    else (.failed .alreadyStarted, s) := rfl

/-- The source over a transport that begins to note its calls. -/
def recorded (s : Source τ) : Source (Recorded τ) where
  config := s.config
  dispatcher := s.dispatcher
  sessions := s.sessions
  pool := ⟨⟨s.pool.transport, []⟩, s.pool.sink, s.pool.deliveries, s.pool.ready, s.pool.journal,
    s.pool.reports⟩

/-- A source that is left alone over a transport that notes its calls. -/
def leftAlone (t : Transport τ) (s : Source τ) (run : List (Tick τ)) : Source (Recorded τ) :=
  s.recorded.ticks t.recorded Recorded.become run

theorem tick_own (t : Transport τ) (env : ε → τ → τ) (s : Source τ) (tick : Tick ε) :
    (s.tick t env tick).sessions = s.sessions ∧ (s.tick t env tick).sink = s.sink := by
  cases tick <;> exact ⟨rfl, rfl⟩

theorem ticks_own (t : Transport τ) (env : ε → τ → τ) (s : Source τ) (run : List (Tick ε)) :
    (s.ticks t env run).sessions = s.sessions ∧ (s.ticks t env run).sink = s.sink := by
  induction run with
  | nil => exact ⟨rfl, rfl⟩
  | cons tick earlier ih =>
    obtain ⟨sessions, sink⟩ := tick_own t env (s.ticks t env earlier) tick
    exact ⟨sessions.trans ih.1, sink.trans ih.2⟩

section OneSession

variable {s : Source (Recorded τ)} {n : Nat} {v : View Stores}

/-- A tick is part of the course of a session. Nobody else changes the stores, and no stop is asked
for. -/
theorem tick_course (shows : s.pool.Shows n v) (t : Transport τ) (tick : Tick τ) :
    ∃ v', (s.tick t.recorded Recorded.become tick).pool.Shows n v' ∧
      View.Course t s.sink (fun y y' => y = y') v v' ∧
      v'.delivery.stopAsked = v.delivery.stopAsked := by
  cases tick with
  | pick m => exact ⟨v, shows.pick m, .refl, rfl⟩
  | turn => exact shows.turn t s.sink _
  | settle => exact shows.settle t s.sink _
  | outside x => exact ⟨v, { shows with calls := shows.calls }, .refl, rfl⟩

theorem ticks_course (shows : s.pool.Shows n v) (t : Transport τ) (run : List (Tick τ)) :
    ∃ v', (s.ticks t.recorded Recorded.become run).pool.Shows n v' ∧
      View.Course t s.sink (fun y y' => y = y') v v' ∧
      v'.delivery.stopAsked = v.delivery.stopAsked := by
  induction run with
  | nil => exact ⟨v, shows, .refl, rfl⟩
  | cons tick earlier ih =>
    obtain ⟨v', before, course, asked⟩ := ih
    have sink := (ticks_own t.recorded Recorded.become s earlier).2
    obtain ⟨v'', after, onward, also⟩ := tick_course before t tick
    rw [sink] at onward
    exact ⟨v'', after, course.trans onward, also.trans asked⟩

end OneSession

end Source

end Dispatch

end WatchDispatch
