import WatchDispatch.Proofs.Dispatch.Closing

/-!
# Sources in order

Whatever is done to a source over a transport that lends its subscriptions, its deliveries hold what
is out, and no session fails to close. Closing a source sees all its sessions end.
-/

namespace WatchDispatch.Dispatch

open Watch

variable {τ ε : Type} {t : Transport τ} {Owes : List Handle → Recorded τ → Prop}

namespace Source

/-- The pool is in order, and nobody has waited for the end of an open session yet. -/
structure InOrder (Owes : List Handle → Recorded τ → Prop) (s : Source (Recorded τ)) : Prop where
  pool : s.pool.InOrder Owes (s.sessions.map Session.number) []
  waiting : ∀ session ∈ s.sessions, session.joined = false

def Harmless (Owes : List Handle → Recorded τ → Prop) (env : ε → Recorded τ → Recorded τ) : Prop :=
  ∀ change held x, Owes held x → Owes held (env change x)

/-- What is in order and waits stays so. -/
theorem keeps_order {env : ε → Recorded τ → Recorded τ} (lends : t.recorded.Lends Owes)
    (harmless : Harmless Owes env) :
    Pool.Keeps t env (fun sessions opening (p : Pool (Recorded τ) Stores) =>
      p.InOrder Owes (sessions.map Session.number) opening ∧
      ∀ session ∈ sessions, session.joined = false) :=
  (Pool.keeps_inOrder lends harmless).and (Pool.keeps_waiting t env)

/-- The order of a source that nobody disturbs. -/
theorem keeps_order_undisturbed (lends : t.recorded.Lends Owes) :
    Pool.Keeps t (fun (_ : Unit) x => x) (fun sessions opening (p : Pool (Recorded τ) Stores) =>
      p.InOrder Owes (sessions.map Session.number) opening ∧
      ∀ session ∈ sessions, session.joined = false) :=
  keeps_order lends (fun _ _ _ owes => owes)

variable {s : Source (Recorded τ)}

theorem InOrder.kept (order : s.InOrder Owes) : s.Kept (fun sessions opening p =>
    p.InOrder Owes (sessions.map Session.number) opening ∧
    ∀ session ∈ sessions, session.joined = false) :=
  ⟨order.pool, order.waiting⟩

/-- In a pool at rest whose deliveries have all ended and given back what they held, no session
fails to close. -/
theorem finishAll_of_clean (t : Transport τ) (sink : Sink Stores) (sessions : List Session)
    {p : Pool (Recorded τ) Stores} (idle : p.ready = []) (isOver : p.Over)
    (clean : ∀ d ∈ p.deliveries, d.phase.Clean) :
    (finishAll t.recorded sink sessions p).1 = 0 ∧
    (finishAll t.recorded sink sessions p).2.Over := by
  induction sessions generalizing p with
  | nil => exact ⟨rfl, isOver⟩
  | cons session rest ih =>
    have settled : p.settle t.recorded sink = p := Pool.settle_of_idle t.recorded sink idle
    unfold finishAll
    rcases p.finish_cases t.recorded sink session with
      ⟨_, same⟩ | ⟨_, ⟨d, outcome, there, phase, same⟩ | same⟩ <;> rw [same]
    · exact ih idle isOver clean
    · rw [settled] at there
      obtain ⟨count, after⟩ := ih (p := (p.settle t.recorded sink).publishClosed session.number)
        (settled.symm ▸ idle) ((isOver.settle t.recorded sink).publishClosed session.number)
        (Pool.forall_phase_modify (fun _ => rfl) (settled.symm ▸ clean))
      have whole := clean d (List.mem_of_getElem? there)
      rw [phase] at whole
      refine ⟨?_, after⟩
      cases outcome with
      | stopped => exact count
      | escalated => exact count
      | releaseFailed f => exact whole.elim
      | aborted => exact whole.elim
    · rw [settled]
      exact ih idle isOver clean

/-- A pool whose sessions were all asked to stop stays in order. -/
theorem stopped_turns (lends : t.recorded.Lends Owes) (sink : Sink Stores) (numbers : List Nat)
    {p : Pool (Recorded τ) Stores} (order : p.InOrder Owes [] []) :
    (p.turns t.recorded sink numbers).InOrder Owes [] [] ∧
      (p.settle t.recorded sink).InOrder Owes [] [] := by
  have keeps := Pool.keeps_inOrder (σ := Stores) lends fun (_ : Unit) _ _ owes => owes
  have none : p.InOrder Owes (([] : List Session).map Session.number) [] := order
  exact ⟨keeps.turns sink numbers none, keeps.settle sink none⟩

/-- Whatever the deliveries do between the requests to stop and the first wait, if it keeps them in
order. -/
theorem InOrder.closeWhile (lends : t.recorded.Lends Owes) (order : s.InOrder Owes)
    {meanwhile : Pool (Recorded τ) Stores → Pool (Recorded τ) Stores}
    (others : ∀ {p}, p.InOrder Owes [] [] → (meanwhile p).InOrder Owes [] []) :
    (s.closeWhile t.recorded meanwhile).1 = 0 ∧ (s.closeWhile t.recorded meanwhile).2.InOrder Owes ∧
      (s.sessions ≠ [] → (s.closeWhile t.recorded meanwhile).2.pool.Over) := by
  have keeps := keeps_order_undisturbed lends
  have asked := others (Kept.stopped keeps order.kept).1
  obtain ⟨after, waiting⟩ := Kept.closeWhile keeps (fun both => ⟨others both.1, both.2⟩) order.kept
  by_cases none : s.sessions = []
  · exact ⟨by simp [Source.closeWhile, none, finishAll], ⟨after,
      waiting⟩, fun some => absurd none some⟩
  · have settled := (stopped_turns lends s.sink [] asked).2
    have attended := asked.attended
    obtain ⟨count, isOver⟩ := finishAll_of_clean t s.sink s.sessions (attended.settle_idle t s.sink)
      (attended.settle_over t s.sink) settled.clean
    rw [← finishAll_settle t s.sink attended none order.waiting] at count isOver
    exact ⟨count, ⟨after, waiting⟩, fun _ => isOver⟩

theorem InOrder.close (lends : t.recorded.Lends Owes) (order : s.InOrder Owes) :
    (s.close t.recorded).1 = 0 ∧ (s.close t.recorded).2.InOrder Owes ∧
      (s.sessions ≠ [] → (s.close t.recorded).2.pool.Over) := order.closeWhile lends id

theorem InOrder.turns (lends : t.recorded.Lends Owes) (order : s.InOrder Owes)
    (numbers : List Nat) : (s.turns t.recorded numbers).InOrder Owes := by
  obtain ⟨pool, waiting⟩ := Kept.turns (keeps_order_undisturbed lends) numbers order.kept
  exact ⟨pool, waiting⟩

theorem InOrder.closeAmid (lends : t.recorded.Lends Owes) (order : s.InOrder Owes)
    (schedule : Schedule (Recorded τ)) :
    (s.closeAmid t.recorded schedule).1 = 0 ∧ (s.closeAmid t.recorded schedule).2.InOrder Owes ∧
      (s.sessions ≠ [] → (s.closeAmid t.recorded schedule).2.pool.Over) := by
  exact order.closeWhile lends fun order => (stopped_turns lends s.sink _ order).1

theorem InOrder.deeds {env : ε → Recorded τ → Recorded τ} (lends : t.recorded.Lends Owes)
    (harmless : Harmless Owes env) (order : s.InOrder Owes) (run : List (Deed ε)) :
    (s.deeds t.recorded env run).InOrder Owes := by
  obtain ⟨pool, waiting⟩ := Kept.deeds (keeps_order lends harmless) order.kept run
  exact ⟨pool, waiting⟩

/-! ## Starting -/

section Opens

variable {opens : Source τ → Scope → Opening × Pool τ Stores} {closes : Source τ → Nat × Source τ}

/-- Once sessions are open for some scopes, the others are opened from there. -/
theorem openEach_append {s s' : Source τ} {earlier : List Scope} (rest : List Scope)
    (opened : openEach opens closes earlier s = (.started, s')) :
    openEach opens closes (earlier ++ rest) s = openEach opens closes rest s' := by
  induction earlier generalizing s with
  | nil =>
    obtain rfl : s = s' := congrArg Prod.snd opened
    rfl
  | cons scope more ih =>
    rw [openEach] at opened
    rw [List.cons_append, openEach]
    rcases answer : opens s scope with ⟨session | f | _, pool⟩ <;> rw [answer] at opened <;>
      dsimp only at opened
    · exact ih opened
    · cases congrArg Prod.fst opened
    · cases congrArg Prod.fst opened

theorem openEach_sessions {s s' : Source τ} {scopes : List Scope}
    (opened : openEach opens closes scopes s = (.started, s')) :
    s'.sessions.length = s.sessions.length + scopes.length := by
  induction scopes generalizing s with
  | nil =>
    obtain rfl : s = s' := congrArg Prod.snd opened
    rfl
  | cons scope more ih =>
    rw [openEach] at opened
    rcases answer : opens s scope with ⟨session | f | _, pool⟩ <;> rw [answer] at opened <;>
      dsimp only at opened
    · rw [ih opened]
      simp only [List.length_append, List.length_cons, List.length_nil]
      omega
    · cases congrArg Prod.fst opened
    · cases congrArg Prod.fst opened

/-- If every opening is answered, either all scopes are opened or one of them is the first to be
refused. -/
theorem openEach_cases (answers : ∀ s scope, (opens s scope).1 ≠ .pending)
    (closes : Source τ → Nat × Source τ) (scopes : List Scope) (s : Source τ) :
    (∃ after, openEach opens closes scopes s = (.started, after)) ∨
    ∃ earlier scope rest opened f, scopes = earlier ++ scope :: rest ∧
      openEach opens closes earlier s = (.started, opened) ∧
      (opens opened scope).1 = .refused f := by
  induction scopes generalizing s with
  | nil => exact .inl ⟨s, rfl⟩
  | cons scope more ih =>
    have answered := answers s scope
    rcases answer : opens s scope with ⟨session | f | _, pool⟩
    · have onward : ∀ scopes, openEach opens closes (scope :: scopes) s =
          openEach opens closes scopes { s with sessions := s.sessions ++ [session], pool } := by
        intro scopes
        rw [openEach, answer]
      rw [onward]
      rcases ih { s with sessions := s.sessions ++ [session], pool } with all |
        ⟨earlier, refused, rest, opened, f, split, before, refusal⟩
      · exact .inl all
      · refine .inr ⟨scope :: earlier, refused, rest, opened, f, by rw [split]; rfl, ?_, refusal⟩
        rw [onward]
        exact before
    · exact .inr ⟨[], scope, more, s, f, rfl, rfl, congrArg Prod.fst answer⟩
    · exact absurd (congrArg Prod.fst answer) answered

end Opens

/-- Sessions are opened and closed in a way that keeps sources in order. A refusal starts nothing
that is not closed again. -/
structure Orderly (Owes : List Handle → Recorded τ → Prop)
    (opens : Source (Recorded τ) → Scope → Opening × Pool (Recorded τ) Stores)
    (closes : Source (Recorded τ) → Nat × Source (Recorded τ)) : Prop where
  opened : ∀ {s : Source (Recorded τ)} (scope : Scope), s.InOrder Owes →
    InOrder Owes { s with
      sessions := (opens s scope).1.sessions s.sessions
      pool := (opens s scope).2 }
  refused : ∀ {s : Source (Recorded τ)} {scope f pool}, opens s scope = (.refused f, pool) →
    s.pool.Over → pool.Over
  closed : ∀ {s : Source (Recorded τ)}, s.InOrder Owes → (closes s).2.sessions = [] ∧
    (closes s).2.InOrder Owes ∧ (s.sessions ≠ [] ∨ s.pool.Over → (closes s).2.pool.Over)

namespace Orderly

variable {opens : Source (Recorded τ) → Scope → Opening × Pool (Recorded τ) Stores}
  {closes : Source (Recorded τ) → Nat × Source (Recorded τ)}

theorem openEach (orderly : Orderly Owes opens closes) (scopes : List Scope)
    (order : s.InOrder Owes) : (Source.openEach opens closes scopes s).2.InOrder Owes := by
  induction scopes generalizing s with
  | nil => exact order
  | cons scope more ih =>
    have opened := orderly.opened scope order
    unfold Source.openEach
    rcases answer : opens s scope with ⟨session | f | _, pool⟩ <;> rw [answer] at opened
    · exact ih opened
    · exact (orderly.closed opened).2.1
    · exact opened

/-- A scope that is refused fails the start and closes the sessions that were opened before. -/
theorem openEach_refused (orderly : Orderly Owes opens closes) (order : s.InOrder Owes)
    {s' : Source (Recorded τ)} {earlier : List Scope} (rest : List Scope) {scope : Scope}
    {f : Fault} (before : Source.openEach opens closes earlier s = (.started, s'))
    (refused : (opens s' scope).1 = .refused f) :
    let after := Source.openEach opens closes (earlier ++ scope :: rest) s
    after.1 = .failed (.subscribing scope f) ∧ after.2.sessions = [] ∧ after.2.InOrder Owes ∧
      (earlier ≠ [] ∨ s.pool.Over → after.2.pool.Over) := by
  intro after
  have reached : after = Source.openEach opens closes (scope :: rest) s' := openEach_append _ before
  have kept : s'.InOrder Owes := by
    have kept := orderly.openEach earlier order
    rwa [before] at kept
  have opened := orderly.opened scope kept
  rcases answer : opens s' scope with ⟨ending, pool⟩
  rw [answer] at opened refused
  obtain rfl : ending = .refused f := refused
  have closes : after = (.failed (.subscribing scope f), (closes { s' with pool }).2) := by
    rw [reached, Source.openEach, answer]
  obtain ⟨none, closed, finished⟩ := orderly.closed opened
  rw [closes]
  refine ⟨rfl, none, closed, fun quiet => finished ?_⟩
  by_cases first : earlier = []
  · -- Nothing was opened before, so nothing has to be closed.
    subst first
    obtain rfl : s = s' := congrArg Prod.snd before
    exact .inr (orderly.refused answer (quiet.resolve_left fun some => some rfl))
  · refine .inl fun empty => first (List.eq_nil_of_length_eq_zero ?_)
    have count := openEach_sessions before
    have empty : s'.sessions = [] := empty
    rw [empty, List.length_nil] at count
    omega

end Orderly

/-- A refused subscription leaves a pool over that was, if the others do. -/
theorem over_openWhile {p : Pool (Recorded τ) Stores} {t : Transport (Recorded τ)} (isOver : p.Over)
    {meanwhile : Pool (Recorded τ) Stores → Pool (Recorded τ) Stores}
    (others : ∀ {q}, q.Over → (meanwhile q).Over) {gvkKey : String} {scope : Scope} {f : Fault}
    {pool : Pool (Recorded τ) Stores}
    (refused : p.openWhile t meanwhile gvkKey scope = (.refused f, pool)) : pool.Over := by
  have asked : ({ p with transport := (t.subscribe scope p.transport).2 } :
      Pool (Recorded τ) Stores).Over := isOver
  unfold Pool.openWhile at refused
  rcases answer : t.subscribe scope p.transport with ⟨h | g | _, x⟩ <;> rw [answer] at refused asked
  · cases congrArg Prod.fst refused
  · have same : pool = _ := (congrArg Prod.snd refused).symm
    exact same ▸ others asked
  · cases congrArg Prod.fst refused

theorem over_turns {p : Pool (Recorded τ) Stores} (isOver : p.Over) (t : Transport (Recorded τ))
    (sink : Sink Stores) (numbers : List Nat) : (p.turns t sink numbers).Over := by
  induction numbers generalizing p with
  | nil => exact isOver
  | cons n later ih => exact ih (Pool.Over.turn (p := p.pick n) isOver t sink)

/-- Without sessions, closing does nothing but to let the deliveries go on. -/
theorem closeWhile_of_none (t : Transport τ) {s : Source τ} (none : s.sessions = [])
    (meanwhile : Pool τ Stores → Pool τ Stores) :
    s.closeWhile t meanwhile = (0, { s with sessions := [], pool := meanwhile s.pool }) := by
  simp [Source.closeWhile, none, requestStops, finishAll]

theorem orderly (lends : t.recorded.Lends Owes) :
    Orderly Owes (openSession t.recorded) (Source.close t.recorded) where
  opened := fun {s} scope order =>
    have opened := (keeps_order_undisturbed lends).openSession s.sink s.config.gvkKey
      scope order.kept
    ⟨opened.1, opened.2⟩
  refused := by
    intro s scope f pool refused isOver
    have others : ∀ {q : Pool (Recorded τ) Stores}, q.Over → (q.goOn t.recorded s.sink).Over :=
      fun isOver => Pool.goOn_kept (fun _ isOver => isOver.turn t.recorded s.sink) isOver
    unfold openSession Pool.openSession at refused
    rcases answer : s.pool.openWhile t.recorded (Pool.goOn t.recorded s.sink)
      s.config.gvkKey scope with ⟨session | g | _, q⟩ <;> rw [answer] at refused
    · cases congrArg Prod.fst refused
    · exact over_openWhile isOver others (answer.trans refused)
    · cases congrArg Prod.fst refused
  closed := by
    intro s order
    obtain ⟨-, closed, finished⟩ := order.close lends
    refine ⟨rfl, closed, fun quiet => ?_⟩
    by_cases none : s.sessions = []
    · rw [Source.close, closeWhile_of_none t.recorded none]
      exact quiet.resolve_left fun some => some none
    · exact finished none

theorem orderly_amid (lends : t.recorded.Lends Owes) (schedule : Schedule (Recorded τ)) :
    Orderly Owes (openAmid t.recorded schedule) (closeAmid t.recorded schedule) where
  opened := fun {s} scope order =>
    have keeps := keeps_order_undisturbed lends
    have opened := keeps.openWhile (keeps.turns s.sink _) s.config.gvkKey scope
      (order.turns lends _).kept
    ⟨opened.1, opened.2⟩
  refused := by
    intro s scope f pool refused isOver
    unfold openAmid at refused
    exact over_openWhile (over_turns isOver t.recorded s.sink _)
      (fun {q} isOver => over_turns isOver t.recorded s.sink _) refused
  closed := by
    intro s order
    obtain ⟨-, closed, finished⟩ := order.closeAmid lends schedule
    refine ⟨rfl, closed, fun quiet => ?_⟩
    by_cases none : s.sessions = []
    · rw [closeAmid, closeWhile_of_none t.recorded none]
      exact over_turns (quiet.resolve_left fun some => some none) t.recorded s.sink _
    · exact finished none

/-- A source that does not run holds nothing. -/
theorem InOrder.owes_of_over (order : s.InOrder Owes) (finished : s.pool.isRunning = false) :
    Owes [] s.pool.transport := by
  have none : s.pool.held = [] := by
    refine List.flatMap_eq_nil_iff.mpr ?_
    intro d mem
    have ended : d.isRunning = false := by simpa using List.any_eq_false.mp finished d mem
    rw [d.held_of_ended ended]
    rfl
  exact none ▸ order.pool.owes

end Source

end WatchDispatch.Dispatch
