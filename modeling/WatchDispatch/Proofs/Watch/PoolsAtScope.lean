import WatchDispatch.Proofs.Watch.PoolInvariants
import WatchDispatch.Proofs.Watch.StepsAtScope

/-!
# Pools at one scope

Of a pool over feeds only a part is about one scope: its deliveries, their order in the queue, their
diaries and reports, and its feeds in the transport. Whatever else happens in the pool leaves this
part as it is; and in two pools whose parts are alike, what happens to the scope has the same
effect, up to the names of subscriptions.
-/

namespace WatchDispatch.Watch

variable {τ σ : Type} {b : Scope} {r : Renaming} {ids ids' : List Nat}

/-! ## Deliveries in pairs -/

/-- Place by place the deliveries have the same scopes, and those of this scope are related. -/
def Pairs (b : Scope) (R : Delivery → Delivery → Prop) (ds es : List Delivery) : Prop :=
  ∀ n : Nat, Option.Rel (fun d e => e.scope = d.scope ∧ (d.scope = b → R d e)) ds[n]? es[n]?

namespace Pairs

variable {R S : Delivery → Delivery → Prop} {ds ds' es es' : List Delivery} {n : Nat}
    {d e : Delivery}

theorem refl (ds : List Delivery) : Pairs b Eq ds ds := by
  intro n
  cases ds[n]? with
  | none => exact .none
  | some d => exact .some ⟨rfl, fun _ => rfl⟩

theorem mono (pairs : Pairs b R ds es) (more : ∀ d e, R d e → S d e) : Pairs b S ds es := by
  intro n
  rcases rel_cases (pairs n) with ⟨left, right⟩ | ⟨d, e, left, right, scope, related⟩
    <;> rw [left, right]
  · exact .none
  · exact .some ⟨scope, fun here => more d e (related here)⟩

theorem found (pairs : Pairs b R ds es) (there : ds[n]? = some d) :
    ∃ e, es[n]? = some e ∧ e.scope = d.scope ∧ (d.scope = b → R d e) := by
  have pair := pairs n
  rw [there] at pair
  rcases rel_cases pair with ⟨outside, -⟩ | ⟨_, e, same, found, both⟩
  · cases outside
  · cases same
    exact ⟨e, found, both⟩

theorem absent (pairs : Pairs b R ds es) (outside : ds[n]? = none) : es[n]? = none := by
  have pair := pairs n
  rw [outside] at pair
  rcases rel_cases pair with ⟨-, outside'⟩ | ⟨_, _, found, -⟩
  · exact outside'
  · cases found

theorem length_eq (pairs : Pairs b R ds es) : es.length = ds.length := by
  apply Nat.le_antisymm
  · exact List.getElem?_eq_none_iff.mp (pairs.absent (List.getElem?_eq_none (Nat.le_refl _)))
  · apply List.getElem?_eq_none_iff.mp
    cases there : ds[es.length]? with
    | none => rfl
    | some d =>
      obtain ⟨e, found, -⟩ := pairs.found there
      rw [List.getElem?_eq_none (Nat.le_refl _)] at found
      cases found

/-- The first side changes beside the scope. -/
theorem left (pairs : Pairs b R ds es) (beside : Pairs b Eq ds ds') : Pairs b R ds' es := by
  intro n
  cases there : ds[n]? with
  | none =>
    rw [beside.absent there, pairs.absent there]
    exact .none
  | some d =>
    obtain ⟨d', new, scope, same⟩ := beside.found there
    obtain ⟨e, found, scope', related⟩ := pairs.found there
    rw [new, found]
    refine .some ⟨scope'.trans scope.symm, fun here => ?_⟩
    have own : d.scope = b := scope.symm.trans here
    exact same own ▸ related own

/-- The second side changes beside the scope. -/
theorem right (pairs : Pairs b R ds es) (beside : Pairs b Eq es es') : Pairs b R ds es' := by
  intro n
  cases there : ds[n]? with
  | none =>
    rw [beside.absent (pairs.absent there)]
    exact .none
  | some d =>
    obtain ⟨e, found, scope, related⟩ := pairs.found there
    obtain ⟨e', new, scope', same⟩ := beside.found found
    rw [new]
    refine .some ⟨scope'.trans scope, fun here => ?_⟩
    exact same (scope.trans here) ▸ related here

theorem set_beside (there : ds[n]? = some d) (other : d.scope ≠ b) (scope : e.scope = d.scope) :
    Pairs b Eq ds (ds.set n e) := by
  intro m
  by_cases same : n = m
  · subst same
    have inside : n < ds.length := (List.getElem?_eq_some_iff.mp there).1
    rw [there, List.getElem?_set_self inside]
    exact .some ⟨scope, fun here => absurd here other⟩
  · rw [List.getElem?_set_ne same]
    exact refl ds m

theorem set (pairs : Pairs b R ds es) (scope : e.scope = d.scope) (related : d.scope = b → R d e)
    (n : Nat) : Pairs b R (ds.set n d) (es.set n e) := by
  intro m
  by_cases same : n = m
  · subst same
    rw [List.getElem?_set, List.getElem?_set, pairs.length_eq, if_pos rfl, if_pos rfl]
    split
    · exact .some ⟨scope, related⟩
    · exact .none
  · rw [List.getElem?_set_ne same, List.getElem?_set_ne same]
    exact pairs m

theorem modify {change : Delivery → Delivery} (pairs : Pairs b R ds es)
    (scope : ∀ d, (change d).scope = d.scope) (related : ∀ d e, R d e → R (change d) (change e))
    (n : Nat) : Pairs b R (ds.modify n change) (es.modify n change) := by
  intro m
  simp only [List.getElem?_modify]
  rcases rel_cases (pairs m) with ⟨left, right⟩ | ⟨d, e, left, right, same, both⟩
    <;> rw [left, right]
  · exact .none
  · refine .some ?_
    split
    · rw [scope, scope]
      exact ⟨same, fun here => related d e (both here)⟩
    · exact ⟨same, both⟩

theorem modify_beside {change : Delivery → Delivery} (scope : ∀ d, (change d).scope = d.scope)
    (other : ∀ d, ds[n]? = some d → d.scope ≠ b) : Pairs b Eq ds (ds.modify n change) := by
  intro m
  simp only [List.getElem?_modify]
  by_cases same : n = m
  · subst same
    cases there : ds[n]? with
    | none => exact .none
    | some d =>
      rw [Option.map_eq_map, Option.map_some, if_pos rfl]
      exact .some ⟨scope d, fun here => absurd here (other d there)⟩
  · simp only [same, if_false, Option.map_eq_map, Option.map_id']
    exact refl ds m

theorem concat (pairs : Pairs b R ds es) (scope : e.scope = d.scope)
    (related : d.scope = b → R d e) : Pairs b R (ds ++ [d]) (es ++ [e]) := by
  intro m
  rw [List.getElem?_append, List.getElem?_append, pairs.length_eq]
  split
  · exact pairs m
  · rw [List.getElem?_singleton, List.getElem?_singleton]
    split
    · exact .some ⟨scope, related⟩
    · exact .none

end Pairs

theorem Move.reports_scope {d d' : Delivery} {calls : List TransportCall}
    {handed : List (Event × Handled)} {acts : List Act} {turn : Turn}
    (move : Move d d' calls handed acts turn) : ∀ f ∈ Act.reports acts, f.scope = d.scope := by
  cases move with
  | escalate result _ _ fatal =>
    intro f mem
    cases fatal <;> obtain rfl := List.mem_singleton.mp mem <;> rfl
  | escalateCrash _ _ fatal =>
    intro f mem
    cases fatal <;> cases mem
  | refuse =>
    intro f mem
    obtain rfl := List.mem_singleton.mp mem
    rfl
  | _ =>
    intro f mem
    cases mem

namespace Pool

/-! ## The part of a pool that is about one scope -/

def isAt (b : Scope) (p : Pool τ σ) (n : Nat) : Bool :=
  (p.deliveries[n]?).any (fun d => d.scope = b)

def waiting (b : Scope) (p : Pool τ σ) : List Nat := p.ready.filter (p.isAt b)

/-- The fatal faults of this scope that the supervisor has not taken yet. -/
def reportsAt (b : Scope) (p : Pool τ σ) : Option (List FatalFault) :=
  p.reports.map (fun faults => faults.filter (fun f => f.scope = b))

theorem isAt_iff {p : Pool τ σ} {n : Nat} {d : Delivery} (there : p.deliveries[n]? = some d) :
    p.isAt b n = true ↔ d.scope = b := by
  simp [isAt, there]

theorem exists_of_isAt {p : Pool τ σ} {n : Nat} (here : p.isAt b n = true) :
    ∃ d, p.deliveries[n]? = some d ∧ d.scope = b := by
  cases there : p.deliveries[n]? with
  | none => simp [isAt, there] at here
  | some d => exact ⟨d, rfl, (isAt_iff there).mp here⟩

theorem isAt_advance {p : Pool τ σ} {n : Nat} {d : Delivery} (there : p.deliveries[n]? = some d)
    (others : List Nat) {s : Step τ σ} (scope : s.delivery.scope = d.scope) :
    (p.advance n others s).isAt b = p.isAt b := by
  funext m
  by_cases same : m = n
  · subst same
    rw [isAt, getElem?_advance_self there, isAt, there]
    simp [scope]
  · rw [isAt, getElem?_advance_of_ne same, isAt]

theorem isAt_of_pairs {R : Delivery → Delivery → Prop} {p q : Pool τ σ}
    (pairs : Pairs b R p.deliveries q.deliveries) : q.isAt b = p.isAt b := by
  funext n
  unfold isAt
  rcases rel_cases (pairs n) with ⟨left, right⟩ | ⟨d, e, left, right, scope, _⟩
  · rw [left, right]
  · simp [left, right, scope]

variable {p p' q q' : Pool (Recorded Feeds) σ} {n : Nat} {others others' : List Nat} {d : Delivery}
  {s s' : Step (Recorded Feeds) σ}

/-- The scope has these numbers, its deliveries have no others and other deliveries none of them,
and all that is queued or written in the journal stands for a delivery. -/
structure Tidy (b : Scope) (ids : List Nat) (p : Pool (Recorded Feeds) σ) : Prop where
  feeds : p.transport.state.Apart b ids
  filed : ∀ d ∈ p.deliveries, d.Filed b ids p.transport.state
  queued : ∀ n ∈ p.ready, n < p.deliveries.length
  written : ∀ entry ∈ p.journal, entry.1 < p.deliveries.length

/-- What became of a pool by happenings that have left the part of this scope as it was. -/
structure Beside (b : Scope) (ids : List Nat) (p q : Pool (Recorded Feeds) σ) : Prop where
  tidy : q.Tidy b ids
  transport : p.transport.Beside b ids q.transport
  deliveries : Pairs b Eq p.deliveries q.deliveries
  waiting : q.waiting b = p.waiting b
  diaries : ∀ n, p.isAt b n = true → diary q.journal n = diary p.journal n
  reports : q.reportsAt b = p.reportsAt b

/-- The parts of this scope are alike in two pools, up to the names of subscriptions. -/
structure Alike (b : Scope) (r : Renaming) (p p' : Pool (Recorded Feeds) σ) : Prop where
  left : p.Tidy b r.lefts
  right : p'.Tidy b r.rights
  transport : p.transport.Alike b r p'.transport
  deliveries : Pairs b (Delivery.Renamed b r) p.deliveries p'.deliveries
  waiting : p'.waiting b = p.waiting b
  diaries : ∀ n, p.isAt b n = true →
    List.Forall₂ (Act.Renamed b r) (diary p.journal n) (diary p'.journal n)
  reports : p'.reportsAt b = p.reportsAt b

theorem Beside.refl (tidy : p.Tidy b ids) : p.Beside b ids p :=
  ⟨tidy, .refl tidy.feeds, .refl _, rfl, fun _ _ => rfl, rfl⟩

theorem Beside.trans (beside : p.Beside b ids q) (onward : q.Beside b ids q') :
    p.Beside b ids q' where
  tidy := onward.tidy
  transport := beside.transport.trans onward.transport
  deliveries := beside.deliveries.right onward.deliveries
  waiting := onward.waiting.trans beside.waiting
  diaries := fun n here =>
    (onward.diaries n ((congrFun (isAt_of_pairs beside.deliveries) n).trans here)).trans
      (beside.diaries n here)
  reports := onward.reports.trans beside.reports

theorem Alike.isAt_eq (alike : p.Alike b r p') : p'.isAt b = p.isAt b :=
  isAt_of_pairs alike.deliveries

theorem Alike.beside_left (alike : p.Alike b r p') (beside : p.Beside b r.lefts q) :
    q.Alike b r p' where
  left := beside.tidy
  right := alike.right
  transport := alike.transport.beside_left beside.transport
  deliveries := alike.deliveries.left beside.deliveries
  waiting := alike.waiting.trans beside.waiting.symm
  diaries := fun n here => by
    have there : p.isAt b n = true := (congrFun (isAt_of_pairs beside.deliveries) n).symm.trans here
    rw [beside.diaries n there]
    exact alike.diaries n there
  reports := alike.reports.trans beside.reports.symm

theorem Alike.beside_right (alike : p.Alike b r p') (beside : p'.Beside b r.rights q) :
    p.Alike b r q where
  left := alike.left
  right := beside.tidy
  transport := alike.transport.beside_right beside.transport
  deliveries := alike.deliveries.right beside.deliveries
  waiting := beside.waiting.trans alike.waiting
  diaries := fun n here => by
    rw [beside.diaries n ((congrFun alike.isAt_eq n).trans here)]
    exact alike.diaries n here
  reports := beside.reports.trans alike.reports

/-- A queue with the same deliveries of the scope. -/
theorem queue_beside (tidy : p.Tidy b ids) {ready : List Nat}
    (queued : ∀ n ∈ ready, n < p.deliveries.length) (same : ready.filter (p.isAt b) = p.waiting b) :
    p.Beside b ids { p with ready } :=
  ⟨{ tidy with queued }, .refl tidy.feeds, .refl _, same, fun _ _ => rfl, rfl⟩

theorem Alike.ready_eq (alike : p.Alike b r p') :
    p'.ready.filter (p.isAt b) = p.ready.filter (p.isAt b) := by
  rw [← alike.isAt_eq]
  exact alike.waiting.trans (congrArg (p.ready.filter ·) alike.isAt_eq.symm)

theorem Alike.queue (alike : p.Alike b r p') {ready ready' : List Nat}
    (queued : ∀ n ∈ ready, n < p.deliveries.length)
    (queued' : ∀ n ∈ ready', n < p'.deliveries.length)
    (same : ready'.filter (p.isAt b) = ready.filter (p.isAt b)) :
    Pool.Alike b r { p with ready } { p' with ready := ready' } :=
  { alike with
    left := { alike.left with queued }
    right := { alike.right with queued := queued' }
    waiting := (congrArg (ready'.filter ·) alike.isAt_eq).trans same }

theorem Alike.sink (alike : p.Alike b r p') (y y' : σ) :
    Pool.Alike b r { p with sink := y } { p' with sink := y' } :=
  { alike with
    left := ⟨alike.left.feeds, alike.left.filed, alike.left.queued, alike.left.written⟩
    right := ⟨alike.right.feeds, alike.right.filed, alike.right.queued, alike.right.written⟩ }

/-! ## Steps -/

theorem turn_eq (t : Transport τ) (sink : Sink σ) {p : Pool τ σ} (ready : p.ready = n :: others)
    (there : p.deliveries[n]? = some d) :
    p.turn t sink = p.advance n others (d.step t sink p.transport p.sink) := by
  simp [turn, ready, there]

/-- A pool stays tidy by a step that gives numbers to the scope only if they are new. -/
theorem Tidy.advance (tidy : p.Tidy b ids) (ready : p.ready = n :: others)
    (there : p.deliveries[n]? = some d) (feeds : s.transport.state.Apart b ids')
    (later : p.transport.state.nextId ≤ s.transport.state.nextId) (more : ids ⊆ ids')
    (fresh : ∀ i ∈ ids', i ∈ ids ∨ p.transport.state.nextId ≤ i)
    (own : s.delivery.Filed b ids' s.transport.state) : (p.advance n others s).Tidy b ids' := by
  have inside : n < p.deliveries.length := (List.getElem?_eq_some_iff.mp there).1
  refine ⟨feeds, ?_, ?_, ?_⟩
  · intro e mem
    rcases List.mem_or_eq_of_mem_set mem with old | rfl
    · exact (tidy.filed e old).grow later more fresh
    · exact own
  · intro m mem
    have queued : m ∈ p.ready := by
      rw [ready]
      cases turn : s.turn <;> simp only [Pool.advance, requeue, turn] at mem
      · exact mem
      · exact List.mem_cons.mpr ((List.mem_append.mp mem).symm.imp_left List.mem_singleton.mp)
      · exact List.mem_cons_of_mem _ mem
    simpa [Pool.advance] using tidy.queued m queued
  · intro entry mem
    simp only [Pool.advance, List.mem_append, List.mem_reverse, List.mem_map, List.length_set]
      at mem ⊢
    rcases mem with ⟨act, _, rfl⟩ | old
    · exact inside
    · exact tidy.written entry old

theorem waiting_of_ready_other (ready : p.ready = n :: others) (other : p.isAt b n = false) :
    p.waiting b = others.filter (p.isAt b) := by
  simp [waiting, ready, other]

theorem waiting_of_ready (ready : p.ready = n :: others) (here : p.isAt b n = true) :
    p.waiting b = n :: others.filter (p.isAt b) := by
  simp [waiting, ready, here]

theorem advance_beside (sink : Sink σ) (tidy : p.Tidy b ids) (ready : p.ready = n :: others)
    (there : p.deliveries[n]? = some d) (other : d.scope ≠ b) :
    p.Beside b ids (p.advance n others (d.step Feeds.recorded sink p.transport p.sink)) := by
  have notAt : p.isAt b n = false := by
    rw [← Bool.not_eq_true, isAt_iff there]
    exact other
  obtain ⟨calls, handed, -, -, -, move⟩ := d.step_moves Feeds.transport sink p.transport p.sink
  obtain ⟨beside, filed⟩ :=
    d.step_beside sink p.sink other (tidy.filed d (List.mem_of_getElem? there)) tidy.feeds
  have pairs : Pairs b Eq p.deliveries
      (p.deliveries.set n (d.step Feeds.recorded sink p.transport p.sink).delivery) :=
    .set_beside there other move.own_eq.2
  refine ⟨?_, beside, pairs, ?_, ?_, ?_⟩
  · exact tidy.advance ready there beside.feeds.apart beside.feeds.later (List.Subset.refl ids)
      (fun _ => .inl) filed
  · have same :
        (p.advance n others (d.step Feeds.recorded sink p.transport p.sink)).isAt b = p.isAt b :=
      isAt_of_pairs pairs
    rw [waiting_of_ready_other ready notAt, waiting, same]
    simp only [Pool.advance]
    cases (d.step Feeds.recorded sink p.transport p.sink).turn <;> simp [requeue, notAt]
  · intro m here
    rw [diary_advance, if_neg]
    rintro rfl
    rw [notAt] at here
    cases here
  · have none : (Act.reports (d.step Feeds.recorded sink p.transport p.sink).acts).filter
        (fun f => f.scope = b) = [] := by
      apply List.filter_eq_nil_iff.mpr
      intro f mem
      rw [move.reports_scope f mem]
      simpa using other
    simp [reportsAt, Pool.advance, Function.comp_def, none]

/-- The same delivery of the scope takes its turn in both pools. -/
theorem Alike.turn (alike : p.Alike b r p') {sink : Sink σ} (calm : ∀ e y, (sink e y).1 = .done)
    (ready : p.ready = n :: others) (ready' : p'.ready = n :: others') (here : p.isAt b n = true) :
    ∃ r', (p.turn Feeds.recorded sink).Alike b r' (p'.turn Feeds.recorded sink) := by
  have here' : p'.isAt b n = true := (congrFun alike.isAt_eq n).trans here
  obtain ⟨d, there, scope⟩ := exists_of_isAt here
  obtain ⟨d', there', same, related⟩ := alike.deliveries.found there
  have renamed : d.Renamed b r d' := related scope
  have scope' : d'.scope = b := same.trans scope
  obtain ⟨r', grows, step⟩ := renamed.step alike.transport p.sink p'.sink calm
  have queue : others'.filter (p.isAt b) = others.filter (p.isAt b) := by
    have same := alike.ready_eq
    rw [ready, ready', List.filter_cons_of_pos here, List.filter_cons_of_pos here] at same
    exact List.cons_injective same
  have later := d.step_nextId sink p.transport p.sink
  have later' := d'.step_nextId sink p'.transport p'.sink
  rw [turn_eq Feeds.recorded sink ready there, turn_eq Feeds.recorded sink ready' there']
  generalize d.step Feeds.recorded sink p.transport p.sink = s at step later ⊢
  generalize d'.step Feeds.recorded sink p'.transport p'.sink = s' at step later' ⊢
  have pairs : Pairs b (Delivery.Renamed b r') (p.deliveries.set n s.delivery)
      (p'.deliveries.set n s'.delivery) :=
    (alike.deliveries.mono fun _ _ old => old.mono grows.more).set
      (step.delivery.scope'.trans step.delivery.scope.symm) (fun _ => step.delivery) n
  have isAt : (p.advance n others s).isAt b = p.isAt b :=
    isAt_advance there others (step.delivery.scope.trans scope.symm)
  have isAt' : (p'.advance n others' s').isAt b = p.isAt b :=
    (isAt_advance there' others' (step.delivery.scope'.trans scope'.symm)).trans alike.isAt_eq
  refine ⟨r', ?_, ?_, step.transport, pairs, ?_, ?_, ?_⟩
  · apply alike.left.advance ready there step.transport.feeds.left later
      grows.lefts_subset grows.lefts
    intro h own
    obtain ⟨at', mem⟩ := step.delivery.phase.names_left own
    exact ⟨at'.trans step.delivery.scope.symm, ⟨fun _ => step.delivery.scope, fun _ => mem⟩,
      step.transport.feeds.left.below _ mem⟩
  · apply alike.right.advance ready' there' step.transport.feeds.right later' grows.rights_subset
      grows.rights
    intro h own
    obtain ⟨at', mem⟩ := step.delivery.phase.names_right own
    exact ⟨at'.trans step.delivery.scope'.symm, ⟨fun _ => step.delivery.scope', fun _ => mem⟩,
      step.transport.feeds.right.below _ mem⟩
  · simp only [Pool.waiting, isAt, isAt']
    simp only [Pool.advance, step.turn]
    cases s.turn <;> simp [requeue, here, queue]
  · intro m at'
    rw [diary_advance, diary_advance]
    rw [isAt] at at'
    have old := (alike.diaries m at').imp fun _ _ old => old.mono grows.more
    split
    next same =>
      subst same
      exact List.rel_append (List.rel_reverse step.acts) old
    next => exact old
  · have same := alike.reports
    simp only [reportsAt, Pool.advance, Option.map_map, Function.comp_def, List.filter_append,
      Act.reports_of_renamed step.acts] at same ⊢
    cases reports : p.reports <;> cases reports' : p'.reports <;> simp_all

/-- A delivery of another scope takes its turn. -/
theorem turn_beside (sink : Sink σ) (tidy : p.Tidy b ids) (ready : p.ready = n :: others)
    (other : p.isAt b n = false) : p.Beside b ids (p.turn Feeds.recorded sink) := by
  have inside : n < p.deliveries.length := tidy.queued n (by simp [ready])
  have there : p.deliveries[n]? = some p.deliveries[n] := List.getElem?_eq_getElem inside
  rw [turn_eq Feeds.recorded sink ready there]
  apply advance_beside sink tidy ready there
  intro here
  rw [(isAt_iff there).mpr here] at other
  cases other

/-! ## Coming to rest -/

/-- If no delivery of the scope waits, the others come to rest beside it. -/
theorem Settles.beside {sink : Sink σ} (settles : Settles Feeds.recorded sink p q)
    (tidy : p.Tidy b ids) (rests : p.waiting b = []) : p.Beside b ids q := by
  induction settles with
  | rest p idle => exact .refl tidy
  | turn p q busy settles ih =>
    obtain ⟨n, others, ready⟩ := List.exists_cons_of_ne_nil busy
    have other : p.isAt b n = false := by
      have none := List.filter_eq_nil_iff.mp rests n (by simp [ready])
      simpa using none
    have beside := turn_beside sink tidy ready other
    exact beside.trans (ih beside.tidy (beside.waiting.trans rests))

/-- Some delivery of the scope waits, and the turns before its own are beside the scope. -/
theorem Settles.reaches {sink : Sink σ} (settles : Settles Feeds.recorded sink p q)
    (tidy : p.Tidy b ids) {waiting : List Nat} (waits : p.waiting b = n :: waiting) :
    ∃ m others, p.Beside b ids m ∧ m.ready = n :: others ∧
      Settles Feeds.recorded sink (m.turn Feeds.recorded sink) q := by
  induction settles with
  | rest p idle =>
    rw [Pool.waiting, idle] at waits
    cases waits
  | turn p q busy settles ih =>
    obtain ⟨k, others, ready⟩ := List.exists_cons_of_ne_nil busy
    cases own : p.isAt b k with
    | true =>
      rw [waiting_of_ready ready own] at waits
      obtain ⟨rfl, _⟩ := List.cons_eq_cons.mp waits
      exact ⟨p, others, .refl tidy, ready, settles⟩
    | false =>
      have beside := turn_beside sink tidy ready own
      obtain ⟨m, others, onward, first, rest⟩ := ih beside.tidy (beside.waiting.trans waits)
      exact ⟨m, others, beside.trans onward, first, rest⟩

/-- Pools whose parts are alike come to rest with parts that are alike, in whatever order the others
take turns. -/
theorem Alike.settles {sink : Sink σ} (calm : ∀ e y, (sink e y).1 = .done) (alike : p.Alike b r p')
    (settles : Settles Feeds.recorded sink p q) (settles' : Settles Feeds.recorded sink p' q') :
    ∃ r', q.Alike b r' q' := by
  -- Along the turns of the first pool: at one of the scope, the second pool goes on to the same
  -- one.
  induction settles generalizing r p' with
  | rest p idle =>
    have rests : p'.waiting b = [] := by
      rw [alike.waiting, Pool.waiting, idle]
      rfl
    exact ⟨r, alike.beside_right (settles'.beside alike.right rests)⟩
  | turn p q busy _ ih =>
    obtain ⟨n, others, ready⟩ := List.exists_cons_of_ne_nil busy
    cases own : p.isAt b n with
    | false => exact ih (alike.beside_left (turn_beside sink alike.left ready own)) settles'
    | true =>
      have waits := alike.waiting.trans (waiting_of_ready ready own)
      obtain ⟨m, others', beside, ready', rest⟩ := settles'.reaches alike.right waits
      obtain ⟨r', turned⟩ := (alike.beside_right beside).turn calm ready ready' own
      exact ih turned rest

theorem Tidy.settles (tidy : p.Tidy b ids) (sink : Sink σ) :
    Settles Feeds.recorded sink p (p.settle Feeds.recorded sink) :=
  settles_settle Feeds.dwindles.recorded sink tidy.feeds.numbered

theorem Alike.settle (alike : p.Alike b r p') {sink : Sink σ} (calm : ∀ e y, (sink e y).1 = .done) :
    ∃ r', (p.settle Feeds.recorded sink).Alike b r' (p'.settle Feeds.recorded sink) :=
  alike.settles calm (alike.left.settles sink) (alike.right.settles sink)

end Pool

end WatchDispatch.Watch
