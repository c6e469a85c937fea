import WatchDispatch.Proofs.Dispatch.Closing
import WatchDispatch.Proofs.Scope.Targets
import WatchDispatch.Proofs.Watch.Openings

/-!
# Starting a source

A start opens one session per scope, in order. It succeeds as a whole, or it fails with the first
refusal and takes back all that it has opened.
-/

namespace WatchDispatch

namespace Dispatch

open Watch

variable {τ : Type} {t : Transport τ}

def AllGranted (requests : List (Scope × Subscribed)) : Prop :=
  ∀ entry ∈ requests, ∃ h, entry.2 = .granted h

namespace Source

inductive Ends (t : Transport τ) (n : Nat) (scopes : List Scope) :
    List (Scope × Subscribed) → Start × Source (Recorded τ) → Prop
  | started {requests after} : requests.map Prod.fst = scopes → AllGranted requests →
      after.sessions.map Session.scope = scopes → Ends t n scopes requests (.started, after)
  | failed {earlier scope rest} (f : Fault) (opened : Source (Recorded τ)) :
      scopes = earlier.map Prod.fst ++ scope :: rest → AllGranted earlier → opened.Governed →
      opened.sessions.map Session.scope = earlier.map Prod.fst →
      opened.pool.deliveries.length = n + opened.sessions.length →
      Ends t n scopes (earlier ++ [(scope, .refused f)])
        (.failed (.subscribing scope f), (opened.close t.recorded).2)
  | pending {earlier scope rest after} : scopes = earlier.map Prod.fst ++ scope :: rest →
      AllGranted earlier → Ends t n scopes (earlier ++ [(scope, .unanswered)]) (.pending, after)

/-- Closing asks for nothing more. -/
theorem Governed.close_asked {s : Source (Recorded τ)} {before : Pool (Recorded τ) Stores}
    {requests : List (Scope × Subscribed)} {calls : List TransportCall} {acts : List (Nat × Act)}
    (governed : s.Governed) (asked : before.Asked requests calls acts s.pool) :
    ∃ calls acts, before.Asked requests calls acts (s.close t.recorded).2.pool := by
  by_cases none : s.sessions = []
  · have same : (s.close t.recorded).2.pool =
      s.pool := by simp [close, closeWhile, none, requestStops, finishAll]
    rw [same]
    exact ⟨calls, acts, asked⟩
  · have winds := (governed.winds t).1
    obtain ⟨transport, -, journal, -⟩ := showClosed_same s.sessions (s.wound t)
    obtain ⟨later, noted, nothing⟩ := winds.journal
    rw [noted, ← List.append_assoc] at journal
    rw [close_eq t governed none]
    refine asked.onward (transport ▸ winds.calls) ⟨_, journal, ?_⟩
    intro entry mem
    rcases List.mem_append.mp mem with shown | old
    · obtain ⟨session, -, rfl⟩ := List.mem_map.mp shown
      rfl
    · exact nothing entry old

/-- Closing reports nothing. -/
theorem Governed.close_reports {s : Source (Recorded τ)} (governed : s.Governed) :
    (s.close t.recorded).2.pool.reports = s.pool.reports := by
  by_cases none : s.sessions = []
  · simp [close, closeWhile, none, requestStops, finishAll]
  · rw [close_eq t governed none, (showClosed_same s.sessions (s.wound t)).2.1]
    exact (governed.winds t).1.reports

theorem openAll_ends {before : Pool (Recorded τ) Stores} (scopes : List Scope)
    {s : Source (Recorded τ)} {requests : List (Scope × Subscribed)} {calls : List TransportCall}
    {acts : List (Nat × Act)} (governed : s.Governed)
    (asking : before.Asking requests calls acts s.pool) (granted : AllGranted requests)
    (distinct : ((requests.map Prod.fst).reverse ++ scopes).Nodup)
    (sessions : s.sessions.map Session.scope = (requests.map Prod.fst).reverse)
    (length : s.pool.deliveries.length = before.deliveries.length + s.sessions.length) :
    ∃ all calls acts, before.Asked all calls acts (openAll t.recorded scopes s).2.pool ∧
      Ends t before.deliveries.length ((requests.map Prod.fst).reverse ++ scopes) all.reverse
        (openAll t.recorded scopes s) := by
  -- The requests grow with the scopes that are still to be opened.
  induction scopes generalizing s requests calls acts with
  | nil =>
    refine ⟨requests, calls, acts, asking.toAsked, ?_⟩
    rw [List.append_nil]
    refine .started List.map_reverse ?_ sessions
    intro entry mem
    exact granted entry (List.mem_reverse.mp mem)
  | cons scope more ih =>
    have fresh : scope ∉ requests.map Prod.fst := by
      intro mem
      exact (List.nodup_append.mp distinct).2.2 scope (List.mem_reverse.mpr mem) scope
        List.mem_cons_self rfl
    have earlier : (requests.reverse.map Prod.fst) = (requests.map Prod.fst).reverse :=
      List.map_reverse
    have allBefore : AllGranted requests.reverse :=
      fun entry mem => granted entry (List.mem_reverse.mp mem)
    obtain ⟨answer, calls, acts, after, decides⟩ :=
      asking.openSession t s.sink s.config.gvkKey fresh
    have kept := (Pool.keeps_governed t Recorded.become_calls).openSession s.sink s.config.gvkKey
      scope governed
    have grown := Pool.openSession_length t.recorded s.sink s.config.gvkKey scope s.pool
    rw [openAll_cons]
    rcases result : s.pool.openSession t.recorded s.sink s.config.gvkKey scope with
      ⟨session | f | _, pool⟩ <;> rw [result] at after decides kept grown
    · cases answer with
      | granted h =>
        have further := ih (s := { s with sessions := s.sessions ++ [session], pool }) kept after
        simp only [List.map_cons, List.reverse_cons, List.append_assoc, List.singleton_append]
          at further
        refine further ?_ distinct ?_ ?_
        · intro entry mem
          rcases List.mem_cons.mp mem with rfl | old
          · exact ⟨h, rfl⟩
          · exact granted entry old
        · rw [List.map_append, sessions, List.map_singleton, show session.scope = scope
            from decides]
        · simp only [List.length_append, List.length_singleton]
          omega
      | _ => cases decides
    · cases answer with
      | refused g =>
        obtain rfl : g = f := decides
        have opened : ({ s with pool } : Source (Recorded τ)).Governed := kept
        obtain ⟨calls, acts, closed⟩ := opened.close_asked (t := t) after.toAsked
        refine ⟨(scope, .refused g) :: requests, calls, acts, closed, ?_⟩
        rw [List.reverse_cons]
        exact .failed g { s with pool } (congrArg (· ++ scope :: more) earlier.symm)
          allBefore opened (sessions.trans earlier.symm) (grown.trans length)
      | _ => cases decides
    · cases answer with
      | unanswered =>
        refine ⟨(scope, .unanswered) :: requests, calls, acts, after.toAsked, ?_⟩
        rw [List.reverse_cons]
        exact .pending (congrArg (· ++ scope :: more) earlier.symm) allBefore
      | _ => cases decides

/-! ## After a start -/

def Deed.starts {ε : Type} : Deed ε → Bool
  | .start | .abandonStart _ => true
  | _ => false

theorem sessions_deeds {ε : Type} (t : Transport τ) (env : ε → τ → τ) {s : Source τ}
    (none : s.sessions = []) {later : List (Deed ε)} (idle : later.any Deed.starts = false) :
    (s.deeds t env later).sessions = [] := by
  induction later with
  | nil => exact none
  | cons deed earlier ih =>
    rw [List.any_cons, Bool.or_eq_false_iff] at idle
    have before := ih idle.2
    cases deed with
    | start => cases idle.1
    | abandonStart opened => cases idle.1
    | close => rfl
    | drop => rfl
    | onEvent e => exact before
    | deregister uid => exact before
    | tick tick => exact (tick_own t env _ tick).1.trans before

/-- Sessions are opened for scopes in their order, and those that are left have the first ones. -/
theorem openAll_scopes (t : Transport τ) (scopes : List Scope) (s : Source τ) :
    (openAll t scopes s).2.config = s.config ∧
      (openAll t scopes s).2.sessions.map Session.scope <+: s.sessions.map Session.scope ++
      scopes := by
  induction scopes generalizing s with
  | nil => exact ⟨rfl, List.prefix_append _ _⟩
  | cons scope more ih =>
    have own : ∀ session pool, s.pool.openSession t s.sink s.config.gvkKey scope =
      (.opened session, pool) →
        session.scope = scope := by
      intro session pool opened
      unfold Pool.openSession Pool.abandonPending Pool.openWhile at opened
      cases answer : (t.subscribe scope s.pool.transport).1 <;> simp only [answer] at opened <;>
        cases opened
      rfl
    rw [openAll_cons]
    rcases answer : s.pool.openSession t s.sink s.config.gvkKey scope with ⟨session | f | _, pool⟩
    · obtain ⟨config, opened⟩ := ih { s with sessions := s.sessions ++ [session], pool }
      rw [List.map_append, List.map_singleton, own session pool answer, List.append_assoc] at opened
      exact ⟨config, opened⟩
    · exact ⟨rfl, List.nil_prefix⟩
    · exact ⟨rfl, List.prefix_append _ _⟩

/-- Whatever is done to a source, its open sessions are for the first ones of the scopes that it
targets. -/
theorem scopes_deeds {ε : Type} (t : Transport τ) (env : ε → τ → τ) {s : Source τ}
    (none : s.sessions = []) (run : List (Deed ε)) : (s.deeds t env run).config = s.config ∧
      (s.deeds t env run).sessions.map Session.scope <+: s.config.target.watchScopes := by
  induction run with
  | nil => exact ⟨rfl, by simp [deeds, none]⟩
  | cons deed earlier ih =>
    obtain ⟨config, before⟩ := ih
    have opens : ∀ scopes, scopes <+: s.config.target.watchScopes →
      (s.deeds t env earlier).sessions = [] →
        (openAll t scopes (s.deeds t env earlier)).2.config = s.config ∧
        (openAll t scopes (s.deeds t env earlier)).2.sessions.map Session.scope <+:
          s.config.target.watchScopes := by
      intro scopes first closed
      obtain ⟨same, opened⟩ := openAll_scopes t scopes (s.deeds t env earlier)
      rw [closed] at opened
      exact ⟨same.trans config, opened.trans first⟩
    cases deed with
    | start =>
      simp only [deeds, perform, start_eq]
      split
      next closed => exact opens _ (config ▸ List.prefix_rfl) (List.isEmpty_iff.mp closed)
      next => exact ⟨config, before⟩
    | abandonStart opened =>
      simp only [deeds, perform]
      split
      next closed =>
        exact opens _ (config ▸ List.take_prefix _ _) (List.isEmpty_iff.mp closed)
      next => exact ⟨config, before⟩
    | close => exact ⟨config, List.nil_prefix⟩
    | drop => exact ⟨config, List.nil_prefix⟩
    | onEvent e => exact ⟨config, before⟩
    | deregister uid => exact ⟨config, before⟩
    | tick tick => cases tick <;> exact ⟨config, before⟩

theorem openAll_ne_alreadyStarted (t : Transport τ) (scopes : List Scope) (s : Source τ) :
    (openAll t scopes s).1 ≠ .failed .alreadyStarted := by
  induction scopes generalizing s with
  | nil => exact nofun
  | cons scope more ih =>
    rw [openAll_cons]
    rcases s.pool.openSession t s.sink s.config.gvkKey scope with ⟨session | f | _, pool⟩
    · exact ih _
    · simp
    · simp

/-- What is left of a start that failed after it had opened sessions for the scopes `earlier`;
`acts` is what was noted since. -/
structure RolledBack (t : Transport τ) (s after : Source (Recorded τ)) (earlier : List Scope)
    (acts : List (Nat × Act)) : Prop where
  sessions : after.sessions = []
  /-- The deliveries that the start began have ended. -/
  ended : ∀ n e, s.pool.deliveries.length ≤ n → after.pool.deliveries[n]? = some e →
    e.isRunning = false
  /-- They have given back what they obtained, subscription by subscription. -/
  returned : ∀ n, s.pool.deliveries.length ≤ n →
    obtained (diary acts n) = (releases (diary acts n)).map Prod.fst
  /-- The sessions for the earlier scopes were closed, and that reported nothing. -/
  closing : ∃ opened : Source (Recorded τ), opened.sessions.map Session.scope = earlier ∧
    after = (opened.close t.recorded).2 ∧ after.pool.reports = opened.pool.reports
  /-- Whatever else is done to the source then, it can be started again. -/
  again : ∀ later : List (Deed τ), later.any Deed.starts = false →
    ((after.deeds t.recorded Recorded.become later).start t.recorded).1 ≠ .failed .alreadyStarted

/-- The start of a source without sessions. `requests` are the requests for subscriptions that it
made to open sessions, in order; `calls` is what the transport took meanwhile, and `acts` what was
noted. -/
structure Attempt (s : Source (Recorded τ)) (t : Transport τ) (result : Start × Source (Recorded τ))
    (requests : List (Scope × Subscribed)) (calls : List TransportCall) (acts : List (Nat × Act)) :
    Prop where
  /-- These were the first requests for their scopes; all others renewed subscriptions of deliveries
  that the start had begun. -/
  asked : s.pool.Asked requests.reverse calls acts result.2.pool
  inOrder : requests.map Prod.fst <+: s.config.target.watchScopes
  /-- All that was granted was obtained by a delivery that the start began. -/
  granted : (granted calls).Perm (obtained (acts.map Prod.snd))
  own : ∀ n, n < s.pool.deliveries.length → obtained (diary acts n) = []
  /-- All that the transport took back was given back by a delivery. -/
  released : unsubscribes calls = releases (acts.map Prod.snd)
  started : result.1 = .started ↔
    requests.map Prod.fst = s.config.target.watchScopes ∧ AllGranted requests
  opened : result.1 = .started → result.2.sessions.map Session.scope = s.config.target.watchScopes ∧
    result.2.pool.Manned result.2.sessions
  failed : ∀ e, result.1 = .failed e ↔ ∃ scope f, e = .subscribing scope f ∧
    (scope, .refused f) ∈ requests
  rolledBack : ∀ scope f, result.1 = .failed (.subscribing scope f) →
    ∃ earlier, requests = earlier ++ [(scope, .refused f)] ∧ AllGranted earlier ∧
      RolledBack t s result.2 (earlier.map Prod.fst) acts

theorem Ends.inOrder {n : Nat} {scopes : List Scope} {requests : List (Scope × Subscribed)}
    {result : Start × Source (Recorded τ)} (ends : Ends t n scopes requests result) :
    requests.map Prod.fst <+: scopes := by
  cases ends with
  | started same => exact ⟨[], by rw [same, List.append_nil]⟩
  | @failed earlier scope rest f opened split => exact ⟨rest, by simp [split]⟩
  | @pending earlier scope rest after split => exact ⟨rest, by simp [split]⟩

theorem Ends.started_iff {n : Nat} {scopes : List Scope} {requests : List (Scope × Subscribed)}
    {result : Start × Source (Recorded τ)} (ends : Ends t n scopes requests result) :
    result.1 = .started ↔ requests.map Prod.fst = scopes ∧ AllGranted requests := by
  cases ends with
  | started same granted => exact ⟨fun _ => ⟨same, granted⟩, fun _ => rfl⟩
  | @failed earlier scope rest f opened split =>
    refine ⟨fun same => (by cases same), fun ⟨_, granted⟩ => ?_⟩
    obtain ⟨h, same⟩ := granted (scope, .refused f) (by simp)
    cases same
  | @pending earlier scope rest after split =>
    refine ⟨fun same => (by cases same), fun ⟨_, granted⟩ => ?_⟩
    obtain ⟨h, same⟩ := granted (scope, .unanswered) (by simp)
    cases same

theorem Ends.failed_iff {n : Nat} {scopes : List Scope} {requests : List (Scope × Subscribed)}
    {result : Start × Source (Recorded τ)} (ends : Ends t n scopes requests result)
    (e : WatchError) :
    result.1 = .failed e ↔ ∃ scope f, e = .subscribing scope f ∧
    (scope, .refused f) ∈ requests := by
  have refused : ∀ {earlier : List (Scope × Subscribed)} {scope f}, AllGranted earlier →
      (scope, .refused f) ∉ earlier := by
    intro earlier scope f granted mem
    obtain ⟨h, same⟩ := granted _ mem
    cases same
  cases ends with
  | started same granted =>
    exact ⟨fun same => (by cases same), fun ⟨_, _, _, mem⟩ => absurd mem (refused granted)⟩
  | @failed earlier scope rest f opened split granted =>
    constructor
    · intro same
      cases same
      exact ⟨scope, f, rfl, by simp⟩
    · rintro ⟨scope', f', rfl, mem⟩
      rcases List.mem_append.mp mem with old | new
      · exact absurd old (refused granted)
      · cases List.mem_singleton.mp new
        rfl
  | @pending earlier scope rest after split granted =>
    refine ⟨fun same => (by cases same), fun ⟨scope', f', _, mem⟩ => ?_⟩
    rcases List.mem_append.mp mem with old | new
    · exact absurd old (refused granted)
    · cases List.mem_singleton.mp new

theorem Ends.sessions_of_started {n : Nat} {scopes : List Scope}
    {requests : List (Scope × Subscribed)} {result : Start × Source (Recorded τ)}
    (ends : Ends t n scopes requests result) (started : result.1 = .started) :
    result.2.sessions.map Session.scope = scopes := by
  cases ends with
  | started same granted sessions => exact sessions
  | failed => cases started
  | pending => cases started

/-- A start that failed did so at its last request and has closed what it had opened. -/
theorem Ends.closed_of_failed {n : Nat} {scopes : List Scope} {requests : List (Scope × Subscribed)}
    {result : Start × Source (Recorded τ)} (ends : Ends t n scopes requests result) {scope : Scope}
    {f : Fault} (failed : result.1 = .failed (.subscribing scope f)) :
    ∃ earlier, ∃ opened : Source (Recorded τ), requests = earlier ++ [(scope, .refused f)] ∧
      AllGranted earlier ∧ opened.Governed ∧
      opened.sessions.map Session.scope = earlier.map Prod.fst ∧
      result.2 = (opened.close t.recorded).2 := by
  cases ends with
  | started => cases failed
  | pending => cases failed
  | @failed earlier scope' rest f' opened split granted governed sessions =>
    cases failed
    exact ⟨earlier, opened, rfl, granted, governed, sessions, rfl⟩

/-- A start that failed has closed the sessions that it had opened, so its deliveries have ended. -/
theorem Ends.ended {n : Nat} {scopes : List Scope} {requests : List (Scope × Subscribed)}
    {result : Start × Source (Recorded τ)} (ends : Ends t n scopes requests result)
    {error : WatchError} (failed : result.1 = .failed error) {m : Nat} {e : Delivery} (new : n ≤ m)
    (there : result.2.pool.deliveries[m]? = some e) : e.isRunning = false := by
  cases ends with
  | started => cases failed
  | pending => cases failed
  | @failed earlier scope rest f opened split granted governed sessions length =>
    by_cases none : opened.sessions = []
    · have same : (opened.close t.recorded).2.pool = opened.pool := by
        simp [close, closeWhile, none, requestStops, finishAll]
      have inside := (List.getElem?_eq_some_iff.mp (same ▸ there)).1
      rw [none, List.length_nil] at length
      omega
    · have phases := (showClosed_same opened.sessions (opened.wound t)).2.2.2
      rw [close_eq t governed none] at there
      have here := congrArg (fun phases => phases[m]?) phases
      simp only [List.getElem?_map, there] at here
      obtain ⟨d, found, same⟩ := Option.map_eq_some_iff.mp here.symm
      have rests := (governed.winds t).2 d (List.mem_of_getElem? found)
      simpa [Delivery.isRunning, same] using rests

/-- Without sessions no delivery is left that could go on. -/
theorem Governed.attended_nil {s : Source (Recorded τ)} (governed : s.Governed)
    (none : s.sessions = []) : s.pool.Attended [] := by
  have attended := governed.attended
  rwa [none] at attended

/-- What holds of every source and of the deliveries from before is kept by a start. -/
theorem start_kept {s : Source (Recorded τ)} (governed : s.Governed) (none : s.sessions = []) :
    (s.start t.recorded).2.Governed ∧ s.pool.Spares (s.start t.recorded).2.pool := by
  have spares : s.Kept (fun _ _ p => s.pool.Spares p) := (governed.attended_nil none).spares
  exact ⟨Kept.start (Pool.keeps_governed t Recorded.become_calls) governed,
    Kept.start (Pool.keeps_spares t Recorded.become s.pool) spares⟩

theorem start_ends {s : Source (Recorded τ)} (governed : s.Governed) (none : s.sessions = []) :
    ∃ requests calls acts, s.pool.Asked requests calls acts (s.start t.recorded).2.pool ∧
      Ends t s.pool.deliveries.length s.config.target.watchScopes requests.reverse
        (s.start t.recorded) := by
  have starts : s.start t.recorded = openAll t.recorded s.config.target.watchScopes s := by
    simp [start_eq, none]
  rw [starts]
  refine openAll_ends s.config.target.watchScopes governed
    (governed.attended_nil none).asking ?_ ?_ ?_ ?_
  · intro entry mem
    cases mem
  · simpa using s.config.target.watchScopes_nodup
  · simp [none]
  · simp [none]

/-- The start of a source without sessions opens one for each scope, or takes all back. -/
theorem Governed.attempt {s : Source (Recorded τ)} (governed : s.Governed)
    (none : s.sessions = []) :
    ∃ requests calls acts, s.Attempt t (s.start t.recorded) requests calls acts := by
  obtain ⟨after, spares⟩ := start_kept (t := t) governed none
  obtain ⟨requests, calls, acts, asked, ends⟩ := start_ends (t := t) governed none
  have ⟨taken, noted, _, _⟩ := asked
  have apart : ∀ n, diary (s.start t.recorded).2.pool.journal n =
      diary acts n ++ diary s.pool.journal n := by
    intro n
    rw [noted, diary_append]
  refine ⟨requests.reverse, calls, acts, requests.reverse_reverse.symm ▸ asked,
    ends.inOrder, ?_, ?_, ?_, ends.started_iff, ?_, ends.failed_iff, ?_⟩
  · -- What was granted before was obtained before.
    have grants := after.booked.grants
    rw [taken, noted, granted_append, List.map_append, obtained_append, List.nil_append] at grants
    exact (List.perm_append_right_iff _).mp
      (grants.trans (governed.booked.grants.symm.append_left _))
  · intro n old
    have same := spares.obtained n old
    rw [apart, obtained_append] at same
    exact List.append_left_eq_self.mp same
  · have released := after.booked.released
    rw [taken, noted, unsubscribes_append, List.map_append, releases_append,
      governed.booked.released] at released
    exact List.append_cancel_right released
  · intro started
    exact ⟨ends.sessions_of_started started, after.manned⟩
  · intro scope f failed
    obtain ⟨earlier, opened, last, granted, kept, scopes, closed⟩ := ends.closed_of_failed failed
    refine ⟨earlier, last, granted, ?_⟩
    have empty : (s.start t.recorded).2.sessions = [] := congrArg Source.sessions closed
    have ended := fun n e new there => ends.ended (m := n) (e := e) failed new there
    refine ⟨empty, ended, ?_, ⟨opened, scopes, closed, ?_⟩, ?_⟩
    · intro n new
      have told : diary (s.start t.recorded).2.pool.journal n = diary acts n := by
        rw [apart, governed.faithful.diary_of_le new, List.append_nil]
      cases there : (s.start t.recorded).2.pool.deliveries[n]? with
      | none =>
        rw [← told, after.faithful.diary_of_le (List.getElem?_eq_none_iff.mp there)]
        rfl
      | some e =>
        have account := (after.faithful.each n e there).obtained
        rw [e.held_of_ended (ended n e new there), told] at account
        exact account
    · rw [closed]
      exact kept.close_reports
    · intro later idle
      have still := sessions_deeds t.recorded Recorded.become empty idle
      rw [start_eq, if_pos (by simp [still])]
      exact openAll_ne_alreadyStarted t.recorded _ _

end Source

/-- The start of a source, after whatever was done to it, does nothing if there are sessions
already. Otherwise it asks for one subscription per scope, in order, and for no scope after one that
is refused. It succeeds exactly if all are granted, and then there is one session per scope. If one
is refused, it fails with that scope and fault: all that the start has obtained is given back, once,
whatever the transport makes of it, no session is left, the closing reports nothing, and the source
can be started again. -/
theorem start_all_or_nothing {τ : Type} (t : Transport τ) (c : Configuration) (d : Dispatcher)
    (x : τ) (run : List (Deed τ)) :
    let s := (Source.make c d ⟨x, []⟩).deeds t.recorded Recorded.become run
    (s.sessions ≠ [] → s.start t.recorded = (.failed .alreadyStarted, s)) ∧
    (s.sessions = [] → ∃ requests calls acts,
      s.Attempt t (s.start t.recorded) requests calls acts) := by
  intro s
  have governed : s.Governed := Source.governed_deeds t Recorded.become_calls c d x run
  refine ⟨?_, governed.attempt⟩
  intro some
  simp [Source.start_eq, some]

namespace Sample

/-- A transport that grants one subscription, refuses all others and fails to take the first one
back. -/
def stingy : Transport Nat where
  subscribe scope n := if n = 0 then (.granted ⟨0, scope⟩, 1) else (.refused (.failed "no more"), n)
  unsubscribe _ n := (.failed (.failed "kept"), n)
  next _ n := (.idle, n)
  abandon _ n := n
  suspends := false
  work _ := 0
  breakdown := panicked

def twoNamespaces : Source (Recorded Nat) :=
  Source.make ⟨"w", "widgets.example.com", "example.com/v1/Widget", "f", true,
    .ofNames ["a", "b"], default⟩
    (fun _ _ => .done) ⟨0, []⟩

end Sample

/-- The refusal is told, and not that the first subscription could not be given back. -/
example :
    let s := Sample.twoNamespaces.start Sample.stingy.recorded
    s.1 = .failed (.subscribing (.named "b") (.failed "no more")) ∧ s.2.sessions.length = 0 ∧
      returned s.2.pool.transport.calls = [⟨0, .named "a"⟩] :=
  ⟨rfl, by decide, by decide⟩

end Dispatch

end WatchDispatch
