import WatchDispatch.Proofs.Dispatch.SourceRun
import WatchDispatch.Proofs.Watch.PoolsAtScope

/-!
# What is done at one scope

Owners open, stop and close sessions, and the surroundings fill the feeds of the scopes by hand.
What is done to one scope is done beside the others; and done in two pools whose parts are alike, it
leaves them alike.
-/

namespace WatchDispatch.Watch

variable {τ σ : Type} {b scope : Scope} {r r' : Renaming} {ids ids' : List Nat}

theorem Feeds.perform_nextId (scope : Scope) (x : Feeds) (step : FeedStep) :
    (x.perform scope step).nextId = x.nextId := by
  cases step with
  | push items =>
    rcases Feeds.push_cases scope items x with same | ⟨i, -, same⟩
    · exact congrArg Feeds.nextId same
    · rw [Feeds.perform, same, Feeds.modify]
  | retire => exact Feeds.retire_nextId scope x
  | rule rule => rfl
  | mode mode => rfl

/-- The feed whose readers have something to see after a step. -/
def FeedStep.touches (scope : Scope) (x : Feeds) : FeedStep → Option Nat
  | .push _ | .retire => x.current scope
  | .rule _ | .mode _ => none

theorem FeedStep.current_of_touches {x : Feeds} {step : FeedStep} {id : Nat}
    (touched : step.touches scope x = some id) : x.current scope = some id := by
  cases step with
  | push | retire => exact touched
  | rule | mode => cases touched

theorem FeedStep.touches_alike {x x' : Feeds} (alike : x.Alike b r x') (step : FeedStep) :
    Option.Rel (fun id id' => (id, id') ∈ r) (step.touches b x) (step.touches b x') := by
  cases step with
  | push | retire => exact alike.current
  | rule | mode => exact .none

def Delivery.reads (id : Nat) (d : Delivery) : Bool :=
  match d.phase with
  | .watching h => h.id = id
  | _ => false

theorem Delivery.Renamed.reads_iff {d d' : Delivery} (renamed : d.Renamed b r d')
    (oneToOne : r.OneToOne) {id id' : Nat} (pair : (id, id') ∈ r) :
    d.reads id = true ↔ d'.reads id' = true := by
  have phases := renamed.phase
  unfold reads
  cases phase : d.phase <;> cases phase' : d'.phase <;> rw [phase, phase'] at phases
    <;> cases phases
  case watching.watching.watching h h' names =>
    simpa using oneToOne (h.id, h'.id) names.pair (id, id') pair

namespace Pool

variable {p p' q q' : Pool (Recorded Feeds) σ} {n : Nat} {sink : Sink σ}

/-- A step is taken on the feed of a scope by hand; those who read it are woken. -/
def feed (scope : Scope) (step : FeedStep) (p : Pool (Recorded Feeds) σ) :
    Pool (Recorded Feeds) σ :=
  let fed :=
    { p with transport := Recorded.become (p.transport.state.perform scope step) p.transport }
  match step.touches scope p.transport.state with
  | some id => fed.wakeReaders id
  | none => fed

def showEnd (n : Nat) (p : Pool τ σ) : Pool τ σ :=
  if (p.deliveries[n]?).all Delivery.isRunning then p else p.publishClosed n

/-! ## The queue -/

theorem wake_queue (n : Nat) (p : Pool τ σ) :
    p.wake n = { p with ready := if n ∈ p.ready then p.ready else p.ready ++ [n] } := by
  unfold wake
  by_cases mem : n ∈ p.ready <;> simp [mem]

theorem wake_deliveries (n : Nat) (p : Pool τ σ) : (p.wake n).deliveries = p.deliveries := by
  rw [wake_queue]

theorem filter_woken (here : Nat → Bool) (n : Nat) (queue : List Nat) :
    (if n ∈ queue then queue else queue ++ [n]).filter here =
      if here n = true ∧ n ∉ queue.filter here then queue.filter here ++ [n]
      else queue.filter here := by
  by_cases mem : n ∈ queue <;> by_cases own : here n = true <;> simp [mem, own]

theorem Tidy.wake (tidy : p.Tidy b ids) (inside : n < p.deliveries.length) :
    ∀ m ∈ (if n ∈ p.ready then p.ready else p.ready ++ [n]), m < p.deliveries.length := by
  intro m mem
  split at mem
  · exact tidy.queued m mem
  · rcases List.mem_append.mp mem with old | new
    · exact tidy.queued m old
    · exact List.mem_singleton.mp new ▸ inside

theorem Tidy.pick (tidy : p.Tidy b ids) (inside : n < p.deliveries.length) :
    ∀ m ∈ n :: p.ready.erase n, m < p.deliveries.length := by
  intro m mem
  rcases List.mem_cons.mp mem with rfl | old
  · exact inside
  · exact tidy.queued m (List.mem_of_mem_erase old)

theorem wake_beside (tidy : p.Tidy b ids) (inside : n < p.deliveries.length)
    (other : p.isAt b n = false) : p.Beside b ids (p.wake n) := by
  rw [wake_queue]
  apply queue_beside tidy (tidy.wake inside)
  rw [filter_woken, if_neg]
  · rfl
  · rintro ⟨here, -⟩
    rw [other] at here
    cases here

theorem Alike.wake (alike : p.Alike b r p') (inside : n < p.deliveries.length) :
    (p.wake n).Alike b r (p'.wake n) := by
  rw [wake_queue, wake_queue]
  apply alike.queue
  · exact alike.left.wake inside
  · exact alike.right.wake (alike.deliveries.length_eq ▸ inside)
  · rw [filter_woken, filter_woken, alike.ready_eq]

theorem pick_beside (tidy : p.Tidy b ids) (inside : n < p.deliveries.length)
    (other : p.isAt b n = false) : p.Beside b ids (p.pick n) := by
  have absent : n ∉ p.ready.filter (p.isAt b) := by simp [other]
  apply queue_beside tidy (tidy.pick inside)
  rw [List.filter_cons, other, if_neg Bool.false_ne_true, ← List.erase_filter,
    List.erase_of_not_mem absent]
  rfl

theorem Alike.pick (alike : p.Alike b r p') (inside : n < p.deliveries.length) :
    (p.pick n).Alike b r (p'.pick n) := by
  apply alike.queue
  · exact alike.left.pick inside
  · exact alike.right.pick (alike.deliveries.length_eq ▸ inside)
  · rw [List.filter_cons, List.filter_cons, ← List.erase_filter, ← List.erase_filter,
      alike.ready_eq]

/-! ## Stops and ends -/

theorem Tidy.modify (tidy : p.Tidy b ids) {change : Delivery → Delivery}
    (scope : ∀ d, (change d).scope = d.scope) (phase : ∀ d, (change d).phase = d.phase) (n : Nat) :
    (p.modify n change).Tidy b ids := by
  refine ⟨tidy.feeds, ?_, ?_, ?_⟩
  · intro e mem
    obtain ⟨m, there⟩ := List.mem_iff_getElem?.mp mem
    rcases getElem?_modify_cases there with ⟨_, old⟩ | ⟨rfl, d, old, rfl⟩
    · exact tidy.filed e (List.mem_of_getElem? old)
    · intro h own
      rw [phase] at own
      rw [scope]
      exact tidy.filed d (List.mem_of_getElem? old) h own
  · intro m mem
    simpa [Pool.modify] using tidy.queued m mem
  · intro entry mem
    simpa [Pool.modify] using tidy.written entry mem

theorem isAt_modify {change : Delivery → Delivery} (scope : ∀ d, (change d).scope = d.scope)
    (n : Nat) (p : Pool τ σ) : (p.modify n change).isAt b = p.isAt b := by
  funext m
  by_cases same : m = n
  · subst same
    cases there : p.deliveries[m]? with
    | none => simp [isAt, Pool.modify, there]
    | some d =>
      rw [isAt, getElem?_modify_self there, isAt, there]
      simp [scope]
  · rw [isAt, getElem?_modify_of_ne same, isAt]

theorem modify_beside (tidy : p.Tidy b ids) {change : Delivery → Delivery}
    (scope : ∀ d, (change d).scope = d.scope) (phase : ∀ d, (change d).phase = d.phase)
    (other : p.isAt b n = false) : p.Beside b ids (p.modify n change) := by
  have pairs : Pairs b Eq p.deliveries (p.deliveries.modify n change) := by
    apply Pairs.modify_beside scope
    intro d there here
    rw [(isAt_iff there).mpr here] at other
    cases other
  refine ⟨tidy.modify scope phase n, .refl tidy.feeds, pairs, ?_, fun _ _ => rfl, rfl⟩
  exact congrArg (p.ready.filter ·) (isAt_modify scope n p)

theorem Alike.modify (alike : p.Alike b r p') {change : Delivery → Delivery}
    (scope : ∀ d, (change d).scope = d.scope) (phase : ∀ d, (change d).phase = d.phase)
    (related : ∀ d e, d.Renamed b r e → (change d).Renamed b r (change e)) (n : Nat) :
    (p.modify n change).Alike b r (p'.modify n change) := by
  have isAt : (p.modify n change).isAt b = p.isAt b := isAt_modify scope n p
  have isAt' : (p'.modify n change).isAt b = p.isAt b :=
    (isAt_modify scope n p').trans alike.isAt_eq
  refine { alike with
    left := alike.left.modify scope phase n, right := alike.right.modify scope phase n
    deliveries := alike.deliveries.modify scope related n, waiting := ?_, diaries := ?_ }
  · simp only [Pool.waiting, isAt, isAt']
    exact alike.ready_eq
  · intro m here
    rw [isAt] at here
    exact alike.diaries m here

theorem Alike.requestStop (alike : p.Alike b r p') {session : Session}
    (inside : session.number < p.deliveries.length) :
    (p.requestStop session).Alike b r (p'.requestStop session) := by
  have asked : (p.modify session.number (fun d => { d with stopAsked := true })).Alike b r
      (p'.modify session.number (fun d => { d with stopAsked := true })) := by
    apply alike.modify
    · exact fun _ => rfl
    · exact fun _ => rfl
    · exact fun _ _ old => { old with stopAsked := rfl }
  apply asked.wake
  simpa [Pool.modify] using inside

theorem Tidy.publishClosed (tidy : p.Tidy b ids) (inside : n < p.deliveries.length) :
    (p.publishClosed n).Tidy b ids := by
  have shown : (p.modify n (fun d => { d with state := .closed })).Tidy b ids := by
    apply tidy.modify
    · exact fun _ => rfl
    · exact fun _ => rfl
  refine { shown with written := ?_ }
  intro entry mem
  rcases List.mem_cons.mp mem with rfl | old
  · simpa [Pool.publishClosed, Pool.modify] using inside
  · exact shown.written entry old

theorem isAt_lt {p : Pool τ σ} (here : p.isAt b n = true) : n < p.deliveries.length := by
  obtain ⟨d, there, -⟩ := exists_of_isAt here
  exact (List.getElem?_eq_some_iff.mp there).1

theorem Alike.publishClosed (alike : p.Alike b r p') (here : p.isAt b n = true) :
    (p.publishClosed n).Alike b r (p'.publishClosed n) := by
  have here' : p'.isAt b n = true := (congrFun alike.isAt_eq n).trans here
  have shown : (p.modify n (fun d => { d with state := .closed })).Alike b r
      (p'.modify n (fun d => { d with state := .closed })) := by
    apply alike.modify
    · exact fun _ => rfl
    · exact fun _ => rfl
    · exact fun _ _ old => { old with state := rfl }
  refine { shown with
    left := alike.left.publishClosed (isAt_lt here),
    right := alike.right.publishClosed (isAt_lt here')
    diaries := ?_ }
  intro m own
  rw [diary_publishClosed, diary_publishClosed]
  have old := shown.diaries m own
  split
  next same =>
    subst same
    exact .cons (.published .closed) old
  next => exact old

theorem showEnd_beside (tidy : p.Tidy b ids) (other : p.isAt b n = false) :
    p.Beside b ids (p.showEnd n) := by
  unfold showEnd
  cases there : p.deliveries[n]? with
  | none => exact .refl tidy
  | some d =>
    have inside : n < p.deliveries.length := (List.getElem?_eq_some_iff.mp there).1
    have shown : p.Beside b ids (p.modify n (fun d => { d with state := .closed })) :=
      modify_beside tidy (fun _ => rfl) (fun _ => rfl) other
    split
    · exact .refl tidy
    · refine { shown with tidy := tidy.publishClosed inside, diaries := ?_ }
      intro m here
      rw [diary_publishClosed, if_neg]
      rintro rfl
      rw [other] at here
      cases here

theorem Alike.showEnd (alike : p.Alike b r p') (n : Nat) :
    (p.showEnd n).Alike b r (p'.showEnd n) := by
  cases here : p.isAt b n with
  | false =>
    have here' : p'.isAt b n = false := (congrFun alike.isAt_eq n).trans here
    exact (alike.beside_left (showEnd_beside alike.left here)).beside_right
      (showEnd_beside alike.right here')
  | true =>
    obtain ⟨d, there, scope⟩ := exists_of_isAt here
    obtain ⟨d', there', -, related⟩ := alike.deliveries.found there
    have running : d'.isRunning = d.isRunning := (related scope).isRunning_eq
    unfold Pool.showEnd
    rw [there, there', Option.all_some, Option.all_some, running]
    split
    · exact alike
    · exact alike.publishClosed here

theorem finish_pool (t : Transport τ) (sink : Sink σ) (session : Session) (p : Pool τ σ) :
    (p.finish t sink session).2.2 =
      if session.joined then p else (p.settle t sink).showEnd session.number := by
  unfold finish
  split
  · rfl
  · unfold showEnd delivery? Delivery.isRunning
    cases there : (p.settle t sink).deliveries[session.number]? with
    | none => simp [there]
    | some d => cases phase : d.phase <;> simp [there, phase]

theorem Alike.finish (alike : p.Alike b r p') (calm : ∀ e y, (sink e y).1 = .done)
    (session : Session) :
    ∃ r', (p.finish Feeds.recorded sink session).2.2.Alike b r'
      (p'.finish Feeds.recorded sink session).2.2 := by
  rw [finish_pool, finish_pool]
  split
  · exact ⟨r, alike⟩
  · obtain ⟨r', rested⟩ := alike.settle calm
    exact ⟨r', rested.showEnd session.number⟩

/-! ## Surroundings -/

theorem Tidy.outside (tidy : p.Tidy b ids) {x : Recorded Feeds} (feeds : x.state.Apart b ids')
    (later : p.transport.state.nextId ≤ x.state.nextId) (more : ids ⊆ ids')
    (fresh : ∀ i ∈ ids', i ∈ ids ∨ p.transport.state.nextId ≤ i) :
    Pool.Tidy b ids' { p with transport := x } :=
  ⟨feeds, fun d mem => (tidy.filed d mem).grow later more fresh, tidy.queued, tidy.written⟩

theorem outside_beside (tidy : p.Tidy b ids) {x : Recorded Feeds}
    (beside : p.transport.Beside b ids x) : p.Beside b ids { p with transport := x } := by
  have after : Pool.Tidy b ids { p with transport := x } :=
    tidy.outside beside.feeds.apart beside.feeds.later (List.Subset.refl ids) (fun _ => .inl)
  exact ⟨after, beside, .refl _, rfl, fun _ _ => rfl, rfl⟩

theorem Alike.outside (alike : p.Alike b r p') {x x' : Recorded Feeds} (transport : x.Alike b r' x')
    (grows : r.Extends r' p.transport.state.nextId p'.transport.state.nextId)
    (later : p.transport.state.nextId ≤ x.state.nextId)
    (later' : p'.transport.state.nextId ≤ x'.state.nextId) :
    Pool.Alike b r' { p with transport := x } { p' with transport := x' } where
  left := alike.left.outside transport.feeds.left later grows.lefts_subset grows.lefts
  right := alike.right.outside transport.feeds.right later' grows.rights_subset grows.rights
  transport := transport
  deliveries := alike.deliveries.mono fun _ _ old => old.mono grows.more
  waiting := alike.waiting
  diaries := fun n here => (alike.diaries n here).imp fun _ _ old => old.mono grows.more
  reports := alike.reports

def readers (id : Nat) (p : Pool τ σ) : List Nat :=
  (List.range' 0 p.deliveries.length).filter (fun n => (p.deliveries[n]?).any (Delivery.reads id))

theorem wakeReaders_eq (id : Nat) (p : Pool τ σ) :
    p.wakeReaders id = (p.readers id).foldl (fun q n => q.wake n) p := by
  have numbered : p.deliveries.zipIdx.filter (fun entry => entry.1.reads id) =
      p.deliveries.zipIdx.filter ((fun n => (p.deliveries[n]?).any (Delivery.reads id)) ∘
        Prod.snd) := by
    apply List.filter_congr
    intro entry mem
    rw [Function.comp_apply, List.mem_zipIdx_iff_getElem?.mp mem, Option.any_some]
  have woken : p.wakeReaders id =
      p.deliveries.zipIdx.foldl (fun q entry => if entry.1.reads id = true then q.wake entry.2
        else q) p := by
    unfold wakeReaders
    congr 1
    funext q entry
    cases phase : entry.1.phase <;> simp [Delivery.reads, phase]
  rw [woken, ← List.foldl_filter, numbered, readers, ← List.zipIdx_map_snd, List.filter_map,
    List.foldl_map]

theorem mem_readers {id : Nat} {p : Pool τ σ} (mem : n ∈ p.readers id) :
    ∃ d, p.deliveries[n]? = some d ∧ d.reads id = true :=
  (Option.any_eq_true _ _).mp (List.mem_filter.mp mem).2

theorem handle_of_reads {d : Delivery} {id : Nat} (reads : d.reads id = true) :
    ∃ h, d.phase.handle? = some h ∧ h.id = id := by
  cases phase : d.phase with
  | watching h => exact ⟨h, rfl, by simpa [Delivery.reads, phase] using reads⟩
  | _ => simp [Delivery.reads, phase] at reads

/-- What outsiders and the queue leave alone, is left alone by all that is done to feeds by hand. -/
theorem Keeps.feed {Holds : List Session → List Handle → Pool (Recorded Feeds) σ → Prop}
    (keeps : Keeps Feeds.transport Recorded.become Holds) {sessions : List Session}
    {opening : List Handle} (holds : Holds sessions opening p) (scope : Scope) (step : FeedStep) :
    Holds sessions opening (p.feed scope step) := by
  have fed := keeps.outside (p.transport.state.perform scope step) holds
  unfold Pool.feed
  split
  next id _ =>
    rw [wakeReaders_eq]
    apply List.foldlRecOn
    · exact fed
    · intro q holds n _
      obtain ⟨ready, woken, -, kept⟩ := wake_eq n q
      rw [woken]
      exact keeps.queue kept holds
  next => exact fed

/-- Those that read a feed of the scope are deliveries of the scope. -/
theorem Tidy.scope_of_reads (tidy : p.Tidy b ids) {id : Nat} {d : Delivery} (mem : d ∈ p.deliveries)
    (reads : d.reads id = true) : id ∈ ids ↔ d.scope = b := by
  obtain ⟨h, own, rfl⟩ := handle_of_reads reads
  exact (tidy.filed d mem h own).2.1

theorem wakeReaders_beside (tidy : p.Tidy b ids) {id : Nat} (outside : id ∉ ids) :
    p.Beside b ids (p.wakeReaders id) := by
  rw [wakeReaders_eq]
  apply List.foldlRecOn
  · exact .refl tidy
  · intro q beside n mem
    obtain ⟨d, there, reads⟩ := mem_readers mem
    have inside : n < q.deliveries.length := by
      rw [beside.deliveries.length_eq]
      exact (List.getElem?_eq_some_iff.mp there).1
    have other : q.isAt b n = false := by
      rw [isAt_of_pairs beside.deliveries, ← Bool.not_eq_true, isAt_iff there,
        ← tidy.scope_of_reads (List.mem_of_getElem? there) reads]
      exact outside
    exact beside.trans (wake_beside beside.tidy inside other)

/-- Feeds that correspond to each other have the same readers. -/
theorem Alike.readers_eq (alike : p.Alike b r p') {id id' : Nat} (pair : (id, id') ∈ r) :
    p'.readers id' = p.readers id := by
  rw [readers, readers, alike.deliveries.length_eq]
  apply List.filter_congr
  intro n _
  rcases rel_cases (alike.deliveries n) with ⟨left, right⟩ | ⟨d, d', left, right, scope, related⟩
  · rw [left, right]
    rfl
  · rw [left, right, Option.any_some, Option.any_some, Bool.eq_iff_iff]
    constructor
    · intro reads
      have own := (alike.right.scope_of_reads (List.mem_of_getElem? right) reads).mp
        (Renaming.mem_rights pair)
      exact ((related (scope.symm.trans own)).reads_iff alike.transport.feeds.oneToOne pair).mpr
        reads
    · intro reads
      have own :=
        (alike.left.scope_of_reads (List.mem_of_getElem? left) reads).mp (Renaming.mem_lefts pair)
      exact ((related own).reads_iff alike.transport.feeds.oneToOne pair).mp reads

theorem Alike.wakeReaders (alike : p.Alike b r p') {id id' : Nat} (pair : (id, id') ∈ r) :
    (p.wakeReaders id).Alike b r (p'.wakeReaders id') := by
  rw [wakeReaders_eq, wakeReaders_eq, alike.readers_eq pair]
  have inside : ∀ n ∈ p.readers id, n < p.deliveries.length := by
    intro n mem
    obtain ⟨d, there, -⟩ := mem_readers mem
    exact (List.getElem?_eq_some_iff.mp there).1
  generalize p.readers id = numbers at inside
  induction numbers generalizing p p' with
  | nil => exact alike
  | cons n more ih =>
    apply ih (alike.wake (inside n List.mem_cons_self))
    intro m mem
    rw [wake_deliveries]
    exact inside m (List.mem_cons_of_mem n mem)

/-- What is done to the feed of another scope by hand. -/
theorem feed_beside (tidy : p.Tidy b ids) (other : scope ≠ b) (step : FeedStep) :
    p.Beside b ids (p.feed scope step) := by
  have fed : p.Beside b ids
      { p with transport := Recorded.become (p.transport.state.perform scope step) p.transport } :=
    outside_beside tidy ⟨(Feeds.Beside.refl tidy.feeds).perform other step, rfl⟩
  unfold feed
  cases touched : step.touches scope p.transport.state with
  | none => exact fed
  | some id =>
    have current := FeedStep.current_of_touches touched
    have outside : id ∉ ids := fun mem => other ((tidy.feeds.filled scope id current).2.mp mem)
    exact fed.trans (wakeReaders_beside fed.tidy outside)

/-- What is done to the feed of the scope by hand. -/
theorem Alike.feed (alike : p.Alike b r p') (step : FeedStep) :
    (p.feed b step).Alike b r (p'.feed b step) := by
  have fed : Pool.Alike b r
      { p with transport := Recorded.become (p.transport.state.perform b step) p.transport }
      { p' with
        transport := Recorded.become (p'.transport.state.perform b step) p'.transport } := by
    apply alike.outside
    · exact ⟨alike.transport.feeds.perform step, alike.transport.calls⟩
    · exact .refl r _ _
    · exact Nat.le_of_eq (Feeds.perform_nextId b p.transport.state step).symm
    · exact Nat.le_of_eq (Feeds.perform_nextId b p'.transport.state step).symm
  unfold Pool.feed
  rcases rel_cases (FeedStep.touches_alike alike.transport.feeds step) with
    ⟨left, right⟩ | ⟨id, id', left, right, pair⟩
  · simp only [left, right]
    exact fed
  · simp only [left, right]
    exact fed.wakeReaders pair

/-! ## Openings -/

/-- A session is opened only if the subscription is granted. -/
theorem granted_of_opened {gvkKey : String} {session : Session}
    (opened : p.openSession Feeds.recorded sink gvkKey scope = (.opened session, q)) :
    ∃ h x, Feeds.recorded.subscribe scope p.transport = (.granted h, x) ∧
      (session, q) = Pool.spawn gvkKey scope h { p with transport := x } := by
  unfold openSession abandonPending openWhile goOn at opened
  rcases answer : Feeds.recorded.subscribe scope p.transport with ⟨h | f | _, x⟩
    <;> rw [answer] at opened
  · obtain ⟨answer, pool⟩ := Prod.mk.inj opened
    exact ⟨h, x, rfl, Prod.ext (Opening.opened.inj answer).symm pool.symm⟩
  · cases (Prod.mk.inj opened).1
  · cases (Prod.mk.inj opened).1

theorem Tidy.spawn (tidy : p.Tidy b ids) (gvkKey : String) {h : Handle}
    (own : h.scope = scope ∧ (h.id ∈ ids ↔ scope = b) ∧ h.id < p.transport.state.nextId) :
    (p.spawn gvkKey scope h).2.Tidy b ids := by
  refine ⟨tidy.feeds, ?_, ?_, ?_⟩
  · intro d mem
    rcases List.mem_append.mp mem with old | new
    · exact tidy.filed d old
    · obtain rfl := List.mem_singleton.mp new
      rintro g ⟨⟩
      exact own
  · intro n mem
    simp only [Pool.spawn, List.length_append, List.length_singleton]
    rcases List.mem_append.mp mem with old | new
    · exact Nat.lt_succ_of_lt (tidy.queued n old)
    · rw [List.mem_singleton.mp new]
      exact Nat.lt_succ_self _
  · intro entry mem
    simp only [Pool.spawn, List.length_append, List.length_singleton, List.mem_cons] at mem ⊢
    rcases mem with rfl | rfl | old
    · exact Nat.lt_succ_self _
    · exact Nat.lt_succ_self _
    · exact Nat.lt_succ_of_lt (tidy.written entry old)

theorem isAt_spawn (gvkKey : String) (scope : Scope) (h : Handle) (p : Pool τ σ) (n : Nat) :
    (p.spawn gvkKey scope h).2.isAt b n = if n = p.deliveries.length then decide (scope = b)
    else p.isAt b n := by
  rcases Nat.lt_trichotomy n p.deliveries.length with inside | rfl | outside
  · rw [if_neg (Nat.ne_of_lt inside), isAt, Pool.spawn, List.getElem?_append_left inside, isAt]
  · simp [isAt, Pool.spawn]
  · have absent : p.deliveries[n]? = none := List.getElem?_eq_none (Nat.le_of_lt outside)
    have after : (p.spawn gvkKey scope h).2.deliveries[n]? = none := by
      apply List.getElem?_eq_none
      simp only [Pool.spawn, List.length_append, List.length_singleton]
      omega
    rw [if_neg (Nat.ne_of_gt outside), isAt, after, isAt, absent]

theorem waiting_spawn (gvkKey : String) (scope : Scope) (h : Handle) {p : Pool τ σ}
    (queued : ∀ n ∈ p.ready, n < p.deliveries.length) :
    (p.spawn gvkKey scope h).2.waiting b =
      p.waiting b ++ if scope = b then [p.deliveries.length] else [] := by
  have before : p.ready.filter ((p.spawn gvkKey scope h).2.isAt b) = p.waiting b := by
    apply List.filter_congr
    intro n mem
    rw [isAt_spawn, if_neg (Nat.ne_of_lt (queued n mem))]
  have own : (p.spawn gvkKey scope h).2.isAt b p.deliveries.length = decide (scope = b) := by
    rw [isAt_spawn, if_pos rfl]
  calc (p.spawn gvkKey scope h).2.waiting b
      = (p.ready ++ [p.deliveries.length]).filter ((p.spawn gvkKey scope h).2.isAt b) := rfl
    _ = p.waiting b ++ if scope = b then [p.deliveries.length] else [] := by
        rw [List.filter_append, before, List.filter_singleton, own]
        by_cases here : scope = b <;> simp [here]

theorem Tidy.diary_eq_nil (tidy : p.Tidy b ids) : diary p.journal p.deliveries.length = [] := by
  have writes : p.Writes (fun _ _ => True) := ⟨fun _ _ _ => trivial, tidy.written⟩
  exact writes.diary_of_le (Nat.le_refl _)

/-- Deliveries of the same scope are started in both pools. -/
theorem Alike.spawn (alike : p.Alike b r p') (gvkKey : String) {h h' : Handle}
    (own : h.scope = scope ∧ (h.id ∈ r.lefts ↔ scope = b) ∧ h.id < p.transport.state.nextId)
    (own' : h'.scope = scope ∧ (h'.id ∈ r.rights ↔ scope = b) ∧ h'.id < p'.transport.state.nextId)
    (names : scope = b → r.Names b h h') :
    (p.spawn gvkKey scope h).2.Alike b r (p'.spawn gvkKey scope h').2 := by
  have length := alike.deliveries.length_eq
  refine ⟨alike.left.spawn gvkKey own, alike.right.spawn gvkKey own', alike.transport, ?_, ?_, ?_,
    alike.reports⟩
  · apply alike.deliveries.concat
    · rfl
    · exact fun here => ⟨rfl, here, here, rfl, rfl, .watching (names here)⟩
  · rw [waiting_spawn gvkKey scope h alike.left.queued,
      waiting_spawn gvkKey scope h' alike.right.queued, alike.waiting, length]
  · intro n here
    rw [isAt_spawn] at here
    rw [diary_spawn, diary_spawn, length]
    split at here
    next new =>
      subst new
      rw [if_pos rfl, if_pos rfl, alike.left.diary_eq_nil, ← length, alike.right.diary_eq_nil]
      exact .cons (.published .active) (.cons (.subscribed (names (of_decide_eq_true here))) .nil)
    next old =>
      rw [if_neg old, if_neg old]
      exact alike.diaries n here

/-- A session of the same scope is opened over both pools. -/
theorem Alike.openSession (alike : p.Alike b r p') {gvkKey : String} {session session' : Session}
    (opened : p.openSession Feeds.recorded sink gvkKey scope = (.opened session, q))
    (opened' : p'.openSession Feeds.recorded sink gvkKey scope = (.opened session', q')) :
    session' = session ∧ ∃ r', q.Alike b r' q' := by
  obtain ⟨h, x, granted, started⟩ := granted_of_opened opened
  obtain ⟨h', x', granted', started'⟩ := granted_of_opened opened'
  obtain ⟨rfl, rfl⟩ := Prod.mk.inj started
  obtain ⟨rfl, rfl⟩ := Prod.mk.inj started'
  obtain ⟨rfl, next⟩ := Delivery.granted_eq granted
  obtain ⟨rfl, next'⟩ := Delivery.granted_eq granted'
  have same :
    (Pool.spawn gvkKey scope ⟨p'.transport.state.nextId, scope⟩ { p' with transport := x' }).1 =
      (Pool.spawn gvkKey scope ⟨p.transport.state.nextId, scope⟩ { p with transport := x }).1 := by
    simp only [Pool.spawn, alike.deliveries.length_eq]
  refine ⟨same, ?_⟩
  have later : p.transport.state.nextId < x.state.nextId := by omega
  have later' : p'.transport.state.nextId < x'.state.nextId := by omega
  by_cases here : scope = b
  · subst here
    obtain ⟨r', grows, answered, asked⟩ := alike.transport.subscribe
    rw [granted, granted'] at answered asked
    cases answered with
    | granted names =>
      have asking := alike.outside asked grows (Nat.le_of_lt later) (Nat.le_of_lt later')
      refine ⟨r', asking.spawn gvkKey ?_ ?_ fun _ => names⟩
      · exact ⟨rfl, ⟨fun _ => rfl, fun _ => Renaming.mem_lefts names.pair⟩, later⟩
      · exact ⟨rfl, ⟨fun _ => rfl, fun _ => Renaming.mem_rights names.pair⟩, later'⟩
  · have asked := (Recorded.Beside.refl alike.left.feeds).subscribe here
    have asked' := (Recorded.Beside.refl alike.right.feeds).subscribe here
    rw [granted] at asked
    rw [granted'] at asked'
    have asking := (alike.beside_left (outside_beside alike.left asked)).beside_right
      (outside_beside alike.right asked')
    refine ⟨r, asking.spawn gvkKey ?_ ?_ fun own => absurd own here⟩
    · exact ⟨rfl, ⟨fun mem => absurd mem alike.left.feeds.next_notMem, fun own => absurd own here⟩,
        later⟩
    · exact ⟨rfl, ⟨fun mem => absurd mem alike.right.feeds.next_notMem, fun own => absurd own here⟩,
        later'⟩

end Pool

end WatchDispatch.Watch
