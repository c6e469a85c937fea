import WatchDispatch.Proofs.Dispatch.History
import WatchDispatch.Proofs.Dispatch.SourceRun
import WatchDispatch.Proofs.Watch.Feeding

/-!
# What the stores of a source hold

A source is told of events in two ways: its sessions deliver them, and its owner hands them in.
Either way they go through the same stores, so a run of the source is a history. The cache holds
what this history tells last of each resource, whatever the gate and the dispatcher make of it, and
no mark is kept for a resource that the cache does not know.
-/

namespace WatchDispatch.Dispatch

open Watch

variable {τ ε : Type}

/-- The snapshot of a resource that a history told last, since it was forgotten last. -/
def lastSnapshot (u : Uid) : List Input → Option Snapshot
  | [] => none
  | .gone v :: earlier => if v = u then none else lastSnapshot u earlier
  | .event e :: earlier => if e.snapshot.uid = u then some e.snapshot else lastSnapshot u earlier

theorem uid_of_lastSnapshot {u : Uid} {history : List Input} {snapshot : Snapshot}
    (last : lastSnapshot u history = some snapshot) : snapshot.uid = u := by
  induction history with
  | nil => cases last
  | cons input earlier ih =>
    cases input with
    | gone v =>
      rw [lastSnapshot] at last
      split at last
      · cases last
      · exact ih last
    | event e =>
      rw [lastSnapshot] at last
      split at last
      next same =>
        cases last
        exact same
      next => exact ih last

namespace Stores

variable (c : Configuration) (d : Dispatcher)

def tell (s : Stores) : Input → Stores
  | .event e => (s.deliver c d e).2
  | .gone uid => s.deregister uid

/-- The stores after a history, latest input first. -/
def after (s : Stores) : List Input → Stores
  | [] => s
  | input :: earlier => (s.after earlier).tell c d input

theorem after_append (s : Stores) (later earlier : List Input) :
    s.after c d (later ++ earlier) = (s.after c d earlier).after c d later := by
  induction later with
  | nil => rfl
  | cons input later ih => simp only [List.cons_append, after, ih]

/-- Events that sessions deliver are told like any others. -/
theorem takeAll_eq_after (s : Stores) (events : List Event) :
    (pipeline c d).takeAll events.reverse s = s.after c d (events.map .event) := by
  induction events with
  | nil => rfl
  | cons e earlier ih =>
    rw [List.reverse_cons, Sink.takeAll_append, ih]
    rfl

/-! ## One input -/

variable {c d}

theorem tell_event_cache (s : Stores) (e : Event) (u : Uid) :
    (s.tell c d (.event e)).cache.get? u =
      if u = e.snapshot.uid then some e.snapshot else s.cache.get? u := by
  rw [tell, deliver_cache, Cache.get?_upsert]

theorem tell_gone_cache (s : Stores) (v u : Uid) :
    (s.tell c d (.gone v)).cache.get? u = if u = v then none else s.cache.get? u :=
  Table.get?_erase s.cache v u

/-- A mark is left by an event only, at its own resource, and only if the controller looks at
generations. -/
theorem tell_gate_cases (s : Stores) (input : Input) (u : Uid) :
    (s.tell c d input).gate.get? u = none ∨
      (s.tell c d input).gate.get? u = s.gate.get? u ∧ (∀ v, input = .gone v → v ≠ u) ∨
      c.generationAware = true ∧ ∃ e, input = .event e ∧ e.snapshot.uid = u := by
  cases input with
  | gone v =>
    have erased : (s.tell c d (.gone v)).gate.get? u = if u = v then none else s.gate.get? u :=
      Table.get?_erase s.gate v u
    by_cases same : u = v
    · exact .inl (by rw [erased, if_pos same])
    · refine .inr (.inl ⟨by rw [erased, if_neg same], ?_⟩)
      rintro w ⟨⟩ rfl
      exact same rfl
  | event e =>
    have kept : ∀ v, Input.event e = .gone v → v ≠ u := by
      rintro v ⟨⟩
    rw [tell, deliver_gate]
    split
    · rw [Gate.get?_mark]
      split
      next both =>
        rw [Bool.and_eq_true] at both
        exact .inr (.inr ⟨both.1.1, e, rfl, both.2.symm⟩)
      next => exact .inr (.inl ⟨rfl, kept⟩)
    · exact .inr (.inl ⟨rfl, kept⟩)

/-- The dispatcher is called while the cache holds the snapshot that it is called with. -/
theorem deliver_eq_dispatch (s : Stores) (e : Event) (passes : s.passes c e = true) :
    ∃ during : Stores, during.cache.get? e.snapshot.uid = some e.snapshot ∧
      ∀ d, s.deliver c d e = during.dispatch c d e := by
  refine ⟨s.keep e.snapshot, ?_, fun d => s.deliver_of_passes c d e passes⟩
  exact (Cache.get?_upsert s.cache e.snapshot e.snapshot.uid).trans (if_pos rfl)

/-! ## Whole histories -/

variable (c d)

theorem cache_after (history : List Input) (u : Uid) :
    (empty.after c d history).cache.get? u = lastSnapshot u history := by
  induction history with
  | nil => rfl
  | cons input earlier ih =>
    cases input with
    | event e => simp only [after, tell_event_cache, lastSnapshot, ih, eq_comm]
    | gone v => simp only [after, tell_gone_cache, lastSnapshot, ih, eq_comm]

theorem isSome_cache_of_gate (history : List Input) (u : Uid)
    (marked : ((empty.after c d history).gate.get? u).isSome = true) :
    ((empty.after c d history).cache.get? u).isSome = true := by
  induction history with
  | nil => cases marked
  | cons input earlier ih =>
    rcases (empty.after c d earlier).tell_gate_cases (c := c) (d := d) input u with
      none | ⟨same, kept⟩ | ⟨-, e, rfl, here⟩
    · rw [after, none] at marked
      cases marked
    · rw [after, same] at marked
      cases input with
      | gone v =>
        rw [after, tell_gone_cache, if_neg (Ne.symm (kept v rfl))]
        exact ih marked
      | event e =>
        rw [after, tell_event_cache]
        split
        · rfl
        · exact ih marked
    · rw [after, tell_event_cache, if_pos here.symm]
      rfl

theorem gate_after_of_unaware (unaware : c.generationAware = false) (history : List Input) :
    (empty.after c d history).gate = Gate.empty := by
  refine Table.ext_get? fun u => ?_
  induction history with
  | nil => rfl
  | cons input earlier ih =>
    rcases (empty.after c d earlier).tell_gate_cases (c := c) (d := d) input u with
      none | ⟨same, -⟩ | ⟨aware, -⟩
    · exact none
    · exact same.trans ih
    · rw [unaware] at aware
      cases aware

/-- What each call of the dispatcher found in the cache is the snapshot that it was called with. -/
theorem held_of_mem_calls (history : List Input) :
    ∀ call ∈ (empty.after c d history).calls, call.held = some call.snapshot := by
  induction history with
  | nil =>
    intro call mem
    cases mem
  | cons input earlier ih =>
    cases input with
    | gone v => exact ih
    | event e =>
      intro call mem
      rw [after, tell, deliver_calls_of_due, List.mem_append] at mem
      rcases mem with new | old
      · split at new
        · rw [List.mem_singleton.mp new]
        · cases new
      · exact ih call old

end Stores

/-! ## Runs as histories -/

def Deed.inputs : Deed ε → List Input
  | .onEvent e => [.event e]
  | .deregister uid => [.gone uid]
  | _ => []

namespace Source

/-- What a source was told in a run, latest first: by its owner, and by its sessions as far as the
journal grew. -/
def told (t : Transport τ) (env : ε → τ → τ) (s : Source τ) : List (Deed ε) → List Input
  | [] => []
  | deed :: earlier =>
    let before := (s.deeds t env earlier).pool.journal
    let after := (s.deeds t env (deed :: earlier)).pool.journal
    deed.inputs ++ (handedOn (after.take (after.length - before.length))).map .event ++
      s.told t env earlier

/-- All of a source but its sessions and its pool. -/
def SameOwner (s s' : Source τ) : Prop := s'.config = s.config ∧ s'.dispatcher = s.dispatcher

variable {t : Transport τ} {s : Source (Recorded τ)}

/-- What a source does takes its pool on as its sink is fed, and leaves all but its sessions
alone. -/
def Goes (s s' : Source (Recorded τ)) : Prop := SameOwner s s' ∧ Pool.Fed s.sink s.pool s'.pool

theorem Goes.trans {s s' s'' : Source (Recorded τ)} (goes : Goes s s') (onward : Goes s' s'') :
    Goes s s'' := by
  obtain ⟨⟨config, dispatcher⟩, fed⟩ := goes
  obtain ⟨⟨config', dispatcher'⟩, fed'⟩ := onward
  have sink : s'.sink = s.sink := by rw [Source.sink, config, dispatcher, Source.sink]
  exact ⟨⟨config'.trans config, dispatcher'.trans dispatcher⟩, fed.trans (sink ▸ fed')⟩

theorem fed_requestStops (sink : Sink Stores) (sessions : List Session) (p : Pool τ Stores) :
    Pool.Fed sink p (requestStops sessions p) := by
  induction sessions generalizing p with
  | nil => exact .refl sink p
  | cons session more ih => exact (Pool.fed_requestStop sink session p).trans (ih _)

theorem fed_finishAll (t : Transport τ) (sink : Sink Stores) (sessions : List Session)
    (p : Pool (Recorded τ) Stores) : Pool.Fed sink p (finishAll t.recorded sink sessions p).2 := by
  induction sessions generalizing p with
  | nil => exact .refl sink p
  | cons session more ih => exact (Pool.fed_finish t sink session p).trans (ih _)

theorem goes_close (t : Transport τ) (s : Source (Recorded τ)) : Goes s (s.close t.recorded).2 :=
  ⟨⟨rfl, rfl⟩, (fed_requestStops s.sink s.sessions s.pool).trans
    (fed_finishAll t s.sink s.sessions _)⟩

theorem goes_openAll (t : Transport τ) (scopes : List Scope) (s : Source (Recorded τ)) :
    Goes s (openAll t.recorded scopes s).2 := by
  induction scopes generalizing s with
  | nil => exact ⟨⟨rfl, rfl⟩, .refl s.sink s.pool⟩
  | cons scope more ih =>
    have fed := s.pool.fed_openSession t s.sink s.config.gvkKey scope
    rw [openAll_cons]
    rcases answer : s.pool.openSession t.recorded s.sink s.config.gvkKey scope with
      ⟨session | f | _, pool⟩ <;>
      rw [answer] at fed
    · have goes : Goes s { s with sessions := s.sessions ++ [session], pool } := ⟨⟨rfl, rfl⟩, fed⟩
      exact goes.trans (ih _)
    · have goes : Goes s { s with pool } := ⟨⟨rfl, rfl⟩, fed⟩
      exact goes.trans (goes_close t _)
    · exact ⟨⟨rfl, rfl⟩, fed⟩

/-- A deed of which the owner tells nothing. -/
theorem goes_perform (t : Transport τ) (env : ε → Recorded τ → Recorded τ) (s : Source (Recorded τ))
    {deed : Deed ε} (silent : deed.inputs = []) : Goes s (s.perform t.recorded env deed) := by
  have stays : Goes s s := ⟨⟨rfl, rfl⟩, .refl s.sink s.pool⟩
  cases deed with
  | onEvent e => cases silent
  | deregister uid => cases silent
  | start =>
    simp only [perform, start_eq]
    split
    · exact goes_openAll t _ s
    · exact stays
  | abandonStart opened =>
    simp only [perform]
    split
    · exact goes_openAll t _ s
    · exact stays
  | close => exact goes_close t s
  | drop => exact ⟨⟨rfl, rfl⟩, fed_requestStops s.sink s.sessions s.pool⟩
  | tick tick =>
    cases tick with
    | pick n => exact ⟨⟨rfl, rfl⟩, .silent [] rfl rfl rfl⟩
    | turn => exact ⟨⟨rfl, rfl⟩, Pool.fed_turn t s.sink s.pool⟩
    | settle => exact ⟨⟨rfl, rfl⟩, Pool.fed_settle t s.sink s.pool⟩
    | outside change => exact ⟨⟨rfl, rfl⟩, .silent [] rfl rfl rfl⟩

/-- A deed tells the stores what its owner says and what the journal notes meanwhile. -/
theorem perform_stores (t : Transport τ) (env : ε → Recorded τ → Recorded τ)
    (s : Source (Recorded τ)) (deed : Deed ε) :
    SameOwner s (s.perform t.recorded env deed) ∧
    ∃ since, (s.perform t.recorded env deed).pool.journal = since ++ s.pool.journal ∧
      (s.perform t.recorded env deed).pool.sink =
        s.pool.sink.after s.config s.dispatcher (deed.inputs ++ (handedOn since).map .event) := by
  by_cases silent : deed.inputs = []
  · obtain ⟨own, since, noted, took⟩ := goes_perform t env s silent
    refine ⟨own, since, noted, took.trans ?_⟩
    rw [silent, List.nil_append]
    exact s.pool.sink.takeAll_eq_after s.config s.dispatcher (handedOn since)
  · cases deed with
    | onEvent e => exact ⟨⟨rfl, rfl⟩, [], rfl, rfl⟩
    | deregister uid => exact ⟨⟨rfl, rfl⟩, [], rfl, rfl⟩
    | _ => exact absurd rfl silent

/-- The stores of a source are in the state in which the history of its run leaves them. -/
theorem deeds_stores (t : Transport τ) (env : ε → Recorded τ → Recorded τ) (s : Source (Recorded τ))
    (run : List (Deed ε)) :
    SameOwner s (s.deeds t.recorded env run) ∧
    (s.deeds t.recorded env run).pool.sink =
      s.pool.sink.after s.config s.dispatcher (s.told t.recorded env run) := by
  induction run with
  | nil => exact ⟨⟨rfl, rfl⟩, rfl⟩
  | cons deed earlier ih =>
    obtain ⟨⟨config, dispatcher⟩, stores⟩ := ih
    obtain ⟨⟨config', dispatcher'⟩, since, noted, told⟩ :=
      perform_stores t env (s.deeds t.recorded env earlier) deed
    refine ⟨⟨config'.trans config, dispatcher'.trans dispatcher⟩, ?_⟩
    have grown : (s.deeds t.recorded env (deed :: earlier)).pool.journal.take
        ((s.deeds t.recorded env (deed :: earlier)).pool.journal.length -
          (s.deeds t.recorded env earlier).pool.journal.length) = since := by
      rw [deeds, noted, List.length_append, Nat.add_sub_cancel, List.take_left]
    rw [Source.told, grown, Stores.after_append, ← stores, ← config, ← dispatcher]
    exact told

end Source

/-- The cache of a source, after whatever was done to it, holds the snapshot that each resource was
told with last since it was deregistered last, by a session or by the owner, whatever became of the
event. The dispatcher is called while the cache holds the snapshot of the call. The snapshots are
listed once for each resource. No mark is kept for a resource that is not cached, and none at all
unless the controller looks at generations. -/
theorem cache_holds_latest {τ : Type} (t : Transport τ) (c : Configuration) (d : Dispatcher) (x : τ)
    (run : List (Deed τ)) :
    let start := Source.make c d (⟨x, []⟩ : Recorded τ)
    let s := start.deeds t.recorded Recorded.become run
    (∀ u, s.cache.get? u = lastSnapshot u (start.told t.recorded Recorded.become run)) ∧
    (∀ e, s.Hands e → ∃ during : Stores, during.cache.get? e.snapshot.uid = some e.snapshot ∧
      ∀ d, s.pool.sink.deliver c d e = during.dispatch c d e) ∧
    (∀ call ∈ s.calls, call.held = some call.snapshot ∧
      call.cached = some call.snapshot.generation) ∧
    (∀ u, s.cache.snapshots.filter (fun snapshot => snapshot.uid = u) = (s.cache.get? u).toList) ∧
    s.cache.size = s.cache.snapshots.length ∧
    (s.cache.isEmpty = true ↔ s.cache.snapshots = []) ∧
    (∀ u, (s.gate.get? u).isSome = true → (s.cache.get? u).isSome = true) ∧
    (c.generationAware = false → s.gate = Gate.empty) := by
  intro start s
  obtain ⟨⟨config, -⟩, stores⟩ := start.deeds_stores t Recorded.become run
  have holds : s.pool.sink = Stores.empty.after c d (start.told t.recorded Recorded.become run) :=
    stores
  have cache : ∀ u, s.cache.get? u =
      lastSnapshot u (start.told t.recorded Recorded.become run) := by
    intro u
    rw [Source.cache, holds]
    exact Stores.cache_after c d _ u
  have own : ∀ u snapshot, s.cache.get? u = some snapshot → snapshot.uid = u := by
    intro u snapshot there
    exact uid_of_lastSnapshot ((cache u).symm.trans there)
  refine ⟨cache, ?_, ?_, ?_, ?_, ?_, ?_, ?_⟩
  · intro e hands
    have due := (s.hands_iff e).mp hands
    have config : s.config = c := config
    rw [config] at due
    exact s.pool.sink.deliver_eq_dispatch e ((passes_iff_due c e s.pool.sink).mpr due)
  · intro call mem
    rw [Source.calls, holds] at mem
    have held := Stores.held_of_mem_calls c d _ call mem
    exact ⟨held, congrArg (Option.map Snapshot.generation) held⟩
  · intro u
    exact Table.filter_values_eq own fun snapshot => decide_eq_true_iff
  · exact (List.length_map _).symm
  · simp [Table.isEmpty, Cache.snapshots, Table.values]
  · rw [Source.gate, Source.cache, holds]
    exact Stores.isSome_cache_of_gate c d _
  · intro unaware
    rw [Source.gate, holds]
    exact Stores.gate_after_of_unaware c d unaware _

end WatchDispatch.Dispatch
