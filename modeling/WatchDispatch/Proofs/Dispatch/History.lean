import WatchDispatch.Dispatch.Source

/-!
# Histories of a source

A history lists what a source was told, latest input first: events and deregistrations. An event is
completed if the dispatcher was called for it and returned; it marks its resource if, besides, the
controller looks at generations and the resource carries the finalizer. Both are read off the calls
and the results that can be observed, and `lastMark` reads the generation marked last off the
history alone. The gate is not mentioned in any of them; that it agrees with `lastMark` is proved
below.
-/

namespace WatchDispatch.Dispatch

open Watch

inductive Input where
  | event (e : Event)
  /-- The deletion of a resource is complete. -/
  | gone (uid : Uid)

/-- Whether an event is handed on when the resource was last marked with this generation. -/
def Due (c : Configuration) (last : Option UInt64) (e : Event) : Prop :=
  e.action ≠ .error ∧ (c.generationAware = false ∨ e.snapshot.isDeleting = true ∨
    ∀ g ∈ last, g < e.snapshot.generation)

instance (c : Configuration) (last : Option UInt64) (e : Event) : Decidable (Due c last e) :=
  inferInstanceAs (Decidable (_ ∧ _))

theorem passes_iff_due (c : Configuration) (e : Event) (s : Stores) :
    s.passes c e = true ↔ Due c (s.gate.get? e.snapshot.uid) e := by
  cases h : s.gate.get? e.snapshot.uid with
  | none => simp [Stores.passes, Gate.passesOver, Due, h]
  | some last =>
    simp only [Stores.passes, Gate.passesOver, Due, h, Option.mem_some_iff, forall_eq',
      Bool.and_eq_true, bne_iff_ne, Bool.not_eq_true', Bool.and_eq_false_imp, ne_eq]
    cases c.generationAware <;> cases e.snapshot.isDeleting <;> simp

theorem Stores.deliver_calls_of_due (s : Stores) (c : Configuration) (d : Dispatcher) (e : Event) :
    (s.deliver c d e).2.calls =
      (if Due c (s.gate.get? e.snapshot.uid) e then
        [⟨e.action, e.snapshot, .ofConfiguration c, some e.snapshot, s.gate.get? e.snapshot.uid⟩]
      else []) ++ s.calls := by
  have cached : (s.cache.upsert e.snapshot).get? e.snapshot.uid = some e.snapshot := by
    simp [Cache.get?_upsert]
  rw [deliver_calls]
  simp [passes_iff_due, callFor, keep, cached]

namespace Source

variable {τ : Type}

/-- The calls of the dispatcher so far, latest first. -/
def calls (s : Source τ) : List Call := s.pool.sink.calls

def gate (s : Source τ) : Gate := s.pool.sink.gate

def cache (s : Source τ) : Cache := s.pool.sink.cache

def callFor (s : Source τ) (e : Event) : Call :=
  ⟨e.action, e.snapshot, s.handle, some e.snapshot, s.gate.get? e.snapshot.uid⟩

def tell (s : Source τ) : Input → Source τ
  | .event e => (s.onEvent e).2
  | .gone uid => s.deregister uid

def after (s : Source τ) : List Input → Source τ
  | [] => s
  | input :: earlier => (s.after earlier).tell input

def Hands (s : Source τ) (e : Event) : Prop := s.calls.length < (s.onEvent e).2.calls.length

instance (s : Source τ) (e : Event) : Decidable (s.Hands e) :=
  inferInstanceAs (Decidable (_ < _))

/-- The dispatcher would be called for the event, and would return. -/
def Completes (s : Source τ) (e : Event) : Prop := (s.onEvent e).1 = .done ∧ s.Hands e

instance (s : Source τ) (e : Event) : Decidable (s.Completes e) :=
  inferInstanceAs (Decidable (_ ∧ _))

/-- The event would be completed, and its generation counts as handled. -/
def Marks (s : Source τ) (e : Event) : Prop :=
  s.config.generationAware = true ∧ e.snapshot.hasFinalizer s.config.finalizer = true ∧
  s.Completes e

instance (s : Source τ) (e : Event) : Decidable (s.Marks e) :=
  inferInstanceAs (Decidable (_ ∧ _))

/-- The generation that a resource was marked with last, since it was forgotten last. -/
def lastMark (s : Source τ) (u : Uid) : List Input → Option UInt64
  | [] => none
  | .gone v :: earlier => if v = u then none else s.lastMark u earlier
  | .event e :: earlier =>
    if e.snapshot.uid = u ∧ (s.after earlier).Marks e then some e.snapshot.generation
    else s.lastMark u earlier

/-! ## One input -/

@[simp] theorem deregister_calls (s : Source τ) (u : Uid) : (s.deregister u).calls = s.calls := rfl

theorem tell_config (s : Source τ) (input : Input) : (s.tell input).config = s.config := by
  cases input <;> rfl

/-- An event that is due leads to one call, any other to none. -/
theorem onEvent_calls (s : Source τ) (e : Event) :
    (s.onEvent e).2.calls =
      (if Due s.config (s.gate.get? e.snapshot.uid) e then [s.callFor e] else []) ++ s.calls :=
  s.pool.sink.deliver_calls_of_due s.config s.dispatcher e

theorem onEvent_cache (s : Source τ) (e : Event) (u : Uid) :
    (s.onEvent e).2.cache.get? u = if u = e.snapshot.uid then some e.snapshot
    else s.cache.get? u := by
  have cache := s.pool.sink.deliver_cache s.config s.dispatcher e
  have found := Cache.get?_upsert s.pool.sink.cache e.snapshot u
  rw [← cache] at found
  exact found

theorem hands_iff (s : Source τ) (e : Event) :
    s.Hands e ↔ Due s.config (s.gate.get? e.snapshot.uid) e := by
  unfold Hands
  rw [onEvent_calls]
  by_cases due : Due s.config (s.gate.get? e.snapshot.uid) e <;> simp [due]

/-- An event changes the gate exactly if it marks its resource. -/
theorem onEvent_gate (s : Source τ) (e : Event) (u : Uid) :
    (s.onEvent e).2.gate.get? u =
      if e.snapshot.uid = u ∧ s.Marks e then some e.snapshot.generation else s.gate.get? u := by
  have due : s.pool.sink.passes s.config e = true ↔ Due s.config (s.gate.get? e.snapshot.uid) e :=
    passes_iff_due s.config e s.pool.sink
  have gate : (s.onEvent e).2.gate =
      if s.Completes e then s.gate.mark e.snapshot s.config.generationAware s.config.finalizer
      else s.gate := by
    simp only [Completes, hands_iff, ← due]
    exact s.pool.sink.deliver_gate s.config s.dispatcher e
  rw [gate]
  by_cases completes : s.Completes e
  · rw [if_pos completes, Gate.get?_mark]
    by_cases same : u = e.snapshot.uid
    · simp [Marks, completes, same]
    · simp [same, Ne.symm same]
  · simp [Marks, completes]

theorem deregister_gate (s : Source τ) (u v : Uid) :
    (s.deregister u).gate.get? v = if v = u then none else s.gate.get? v :=
  Table.get?_erase s.gate u v

theorem deregister_cache (s : Source τ) (u v : Uid) :
    (s.deregister u).cache.get? v = if v = u then none else s.cache.get? v :=
  Table.get?_erase s.cache u v

/-! ## Whole histories -/

theorem after_config (s : Source τ) (history : List Input) :
    (s.after history).config = s.config := by
  induction history with
  | nil => rfl
  | cons input earlier ih => exact ((s.after earlier).tell_config input).trans ih

/-- The gate holds the last mark of the history; where there is none, what it held before. -/
theorem after_gate (s : Source τ) (history : List Input) (u : Uid) (kept : .gone u ∉ history) :
    (s.after history).gate.get? u = (s.lastMark u history).or (s.gate.get? u) := by
  induction history with
  | nil => rfl
  | cons input earlier ih =>
    obtain ⟨here, before⟩ := not_or.mp (fun mem => kept (List.mem_cons.mpr mem))
    cases input with
    | event e =>
      simp only [after, tell, lastMark, onEvent_gate, ih before]
      split <;> simp
    | gone v =>
      have other : v ≠ u := fun same => here (same ▸ rfl)
      simp only [after, tell, lastMark, deregister_gate, ih before, if_neg other, if_neg other.symm]

/-- The gate of a source that starts without marks holds what the history says. -/
theorem gate_eq_lastMark (s : Source τ) (unmarked : s.gate = Gate.empty) (history : List Input)
    (u : Uid) : (s.after history).gate.get? u = s.lastMark u history := by
  induction history with
  | nil => simp [after, lastMark, unmarked, Gate.empty]
  | cons input earlier ih =>
    cases input with
    | event e => simp only [after, tell, lastMark, onEvent_gate, ih]
    | gone v => simp only [after, tell, lastMark, deregister_gate, ih, eq_comm]

end Source

/-! ## A sample -/

namespace Sample

/-- A controller that looks at generations and puts the finalizer `f` on its resources. -/
def configuration : Configuration :=
  ⟨"widgets", "widgets.example.com", "example.com/v1/Widget", "f", true, .all, ⟨"Widgets", none⟩⟩

/-- A resource with the finalizer, its deletion asked for or not. -/
def snapshot (generation : UInt64) (deleting : Bool) : Snapshot where
  identity := ⟨default, none, "r", "Widget"⟩
  generation
  deletion :=
    if deleting then
    some ⟨default, 0, 0, 0, 0, by decide, by decide, by decide, by decide, by decide⟩
    else none
  finalizers := ["f"]
  payload := .object []

/-- A source whose dispatcher always returns. -/
def source : Source Unit := Source.make configuration (fun _ _ => .done) ()

end Sample

end WatchDispatch.Dispatch
