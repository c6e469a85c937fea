import WatchDispatch.Proofs.Watch.StoppedPools

/-!
# Sessions that are opened one after the other

While sessions are being opened, those that are open already may expire and subscribe again. Their
calls are told apart by the scopes: a scope that is asked for the first time is asked for to open
its session, and all other requests renew a subscription that expired. Deliveries from before have
ended or were asked to stop, and obtain nothing more.
-/

namespace WatchDispatch.Watch

variable {τ σ ε : Type}

/-- The requests for subscriptions among the calls, with their answers. -/
def asks (calls : List TransportCall) : List (Scope × Subscribed) :=
  calls.filterMap (fun
    | .subscribe scope answer => some (scope, answer)
    | _ => none)

/-- How often a journal tells that a delivery that had done something before asked for a
subscription. -/
def renewals : List (Nat × Act) → Nat
  | [] => 0
  | entry :: earlier =>
    renewals earlier + if entry.2.isAsk = true ∧ entry.1 ∈ earlier.map Prod.fst then 1 else 0

/-- Of requests, latest first, the first one for each scope, in the same order. -/
def firstAsked : List (Scope × Subscribed) → List (Scope × Subscribed)
  | [] => []
  | entry :: earlier =>
    if entry.1 ∈ (firstAsked earlier).map Prod.fst then firstAsked earlier
    else entry :: firstAsked earlier

theorem asks_append (later earlier : List TransportCall) :
    asks (later ++ earlier) = asks later ++ asks earlier := List.filterMap_append

/-- Requests for scopes that were asked for before are none of the first ones. -/
theorem firstAsked_append {later earlier : List (Scope × Subscribed)}
    (again : ∀ entry ∈ later, entry.1 ∈ (firstAsked earlier).map Prod.fst) :
    firstAsked (later ++ earlier) = firstAsked earlier := by
  induction later with
  | nil => rfl
  | cons entry later ih =>
    have rest := ih fun other mem => again other (List.mem_cons_of_mem _ mem)
    rw [List.cons_append, firstAsked, rest, if_pos (again entry List.mem_cons_self)]

theorem renewals_append {later earlier : List (Nat × Act)}
    (again : ∀ entry ∈ later, entry.2.isAsk = true → entry.1 ∈ earlier.map Prod.fst) :
    renewals (later ++ earlier) = renewals earlier + later.countP (fun entry => entry.2.isAsk) := by
  induction later with
  | nil => rfl
  | cons entry later ih =>
    have rest := ih fun other mem => again other (List.mem_cons_of_mem _ mem)
    have before : entry.2.isAsk = true → entry.1 ∈ (later ++ earlier).map Prod.fst := by
      intro asks
      rw [List.map_append]
      exact List.mem_append_right _ (again entry List.mem_cons_self asks)
    rw [List.cons_append, renewals, rest, List.countP_cons, Nat.add_assoc]
    by_cases asks : entry.2.isAsk = true
    · rw [if_pos ⟨asks, before asks⟩, if_pos asks]
    · rw [if_neg fun both => asks both.1, if_neg asks]

/-- What asks for nothing renews nothing. -/
theorem renewals_append_of_not {later earlier : List (Nat × Act)}
    (nothing : ∀ entry ∈ later, entry.2.isAsk = false) :
    renewals (later ++ earlier) = renewals earlier := by
  have none : later.countP (fun entry => entry.2.isAsk) = 0 :=
    List.countP_eq_zero.mpr fun entry mem => by simp [nothing entry mem]
  have again : ∀ entry ∈ later, entry.2.isAsk = true → entry.1 ∈ earlier.map Prod.fst := by
    intro entry mem asks
    rw [nothing entry mem] at asks
    cases asks
  rw [renewals_append again, none, Nat.add_zero]

section Moves

variable {d d' : Delivery} {calls : List TransportCall} {handed : List (Event × Handled)}
  {acts : List Act} {turn : Turn} (move : Move d d' calls handed acts turn)

include move

/-- A delivery asks only for its own scope, and it notes each request. -/
theorem Move.asks_own : (∀ entry ∈ asks calls, entry.1 = d.scope) ∧
    (asks calls).length = acts.countP Act.isAsk := by
  cases move with
  | escalate result phase _ fatal => cases fatal <;> exact ⟨fun _ mem => (by cases mem), rfl⟩
  | escalateCrash phase _ fatal => cases fatal <;> exact ⟨fun _ mem => (by cases mem), rfl⟩
  | renew => exact ⟨by simp [asks], rfl⟩
  | refuse => exact ⟨by simp [asks], rfl⟩
  | unanswered => exact ⟨by simp [asks], rfl⟩
  | _ => exact ⟨fun _ mem => (by cases mem), rfl⟩

/-- Only a delivery that goes on asks for anything. -/
theorem Move.running_of_asks (some : acts.countP Act.isAsk ≠ 0) :
    d.isRunning = true ∧ d.stopAsked = false := by
  have quiet : d.isRunning = false ∨ d.stopAsked = true → acts.countP Act.isAsk = 0 := by
    intro quiet
    refine List.countP_eq_zero.mpr ?_
    intro act mem
    simp [(move.winds quiet).1.asks_nothing act (List.mem_reverse.mpr mem)]
  cases running : d.isRunning with
  | false => exact absurd (quiet (.inl running)) some
  | true =>
    cases asked : d.stopAsked with
    | true => exact absurd (quiet (.inr asked)) some
    | false => exact ⟨rfl, rfl⟩

end Moves

namespace Pool

/-! ## What was asked for since -/

/-- Since the pool was as it was before, the transport took these calls and these acts were noted.
The first request for each scope is one of `requests`, latest first; all others were made by
deliveries that had begun since and renewed their subscriptions. -/
structure Asked (before : Pool (Recorded τ) σ) (requests : List (Scope × Subscribed))
    (calls : List TransportCall) (acts : List (Nat × Act)) (p : Pool (Recorded τ) σ) : Prop where
  taken : p.transport.calls = calls ++ before.transport.calls
  noted : p.journal = acts ++ before.journal
  first : firstAsked (asks calls) = requests
  others : (asks calls).length = requests.length + renewals acts

/-- Deliveries that go on will ask for nothing but the same scopes. -/
structure Asking (before : Pool (Recorded τ) σ) (requests : List (Scope × Subscribed))
    (calls : List TransportCall) (acts : List (Nat × Act)) (p : Pool (Recorded τ) σ) : Prop
    extends before.Asked requests calls acts p where
  own : ∀ n d, p.deliveries[n]? = some d → d.isRunning = true → d.stopAsked = false →
    d.scope ∈ requests.map Prod.fst ∧ n ∈ acts.map Prod.fst
  begun : ∀ n ∈ acts.map Prod.fst, n < p.deliveries.length

variable {before p : Pool (Recorded τ) σ} {requests : List (Scope × Subscribed)}
  {calls : List TransportCall} {acts : List (Nat × Act)}

/-- A pool without sessions asks for nothing on its own. -/
theorem Attended.asking (attended : p.Attended []) : p.Asking [] [] [] p := by
  refine ⟨⟨rfl, rfl, rfl, rfl⟩, ?_, fun n mem => (by cases mem)⟩
  intro n d there running unasked
  rw [(attended.owned n d there running).resolve_right List.not_mem_nil] at unasked
  cases unasked

theorem Asking.advance (t : Transport τ) (sink : Sink σ)
    (asked : before.Asking requests calls acts p) {n : Nat} {others : List Nat} {d : Delivery}
    (there : p.deliveries[n]? = some d) :
    ∃ calls acts, before.Asking requests calls acts
      (p.advance n others (d.step t.recorded sink p.transport p.sink)) := by
  obtain ⟨later, handed, recorded, -, -, move⟩ := d.step_moves t sink p.transport p.sink
  obtain ⟨own, counted⟩ := move.asks_own
  have active : ∀ act ∈ (d.step t.recorded sink p.transport p.sink).acts, act.isAsk = true →
      d.scope ∈ requests.map Prod.fst ∧ n ∈ acts.map Prod.fst := by
    intro act mem asks
    have some := (List.countP_pos_iff (p := Act.isAsk)).mpr ⟨act, mem, asks⟩
    obtain ⟨running, unasked⟩ := move.running_of_asks (Nat.pos_iff_ne_zero.mp some)
    exact asked.own n d there running unasked
  have same : ((d.step t.recorded sink p.transport p.sink).acts.map (n, ·)).reverse.countP
      (fun entry => entry.2.isAsk) =
      (d.step t.recorded sink p.transport p.sink).acts.countP Act.isAsk := by
    rw [List.countP_reverse, List.countP_map]
    rfl
  refine ⟨later ++ calls, _ ++ acts,
    ⟨?_, by rw [Pool.advance, asked.noted, List.append_assoc], ?_, ?_⟩, ?_, ?_⟩
  · rw [Pool.advance, recorded, asked.taken, List.append_assoc]
  · rw [asks_append, firstAsked_append, asked.first]
    intro entry mem
    have some : (asks later).length ≠ 0 := by
      intro none
      rw [List.length_eq_zero_iff.mp none] at mem
      cases mem
    obtain ⟨running, unasked⟩ := move.running_of_asks (counted ▸ some)
    rw [asked.first, own entry mem]
    exact (asked.own n d there running unasked).1
  · rw [asks_append, List.length_append, asked.others, renewals_append, counted, same]
    · omega
    · intro entry mem asks
      obtain ⟨act, act_mem, rfl⟩ := List.mem_map.mp (List.mem_reverse.mp mem)
      exact (active act act_mem asks).2
  · intro m e found running unasked
    rw [List.map_append]
    rcases getElem?_advance_cases there found with ⟨rfl, rfl⟩ | ⟨_, old⟩
    · obtain ⟨scope, begun⟩ := asked.own m d there (move.goesOn running).1 (move.goesOn running).2
      rw [move.own_eq.2]
      exact ⟨scope, List.mem_append_right _ begun⟩
    · obtain ⟨scope, begun⟩ := asked.own m e old running unasked
      exact ⟨scope, List.mem_append_right _ begun⟩
  · intro m mem
    rw [Pool.advance, List.length_set]
    rw [List.map_append] at mem
    rcases List.mem_append.mp mem with new | old
    · have inside : n < p.deliveries.length := (List.getElem?_eq_some_iff.mp there).1
      simp only [List.map_reverse, List.map_map, List.mem_reverse, List.mem_map] at new
      obtain ⟨act, -, rfl⟩ := new
      exact inside
    · exact asked.begun m old

theorem Asking.settle (t : Transport τ) (sink : Sink σ)
    (asked : before.Asking requests calls acts p) :
    ∃ calls acts, before.Asking requests calls acts (p.settle t.recorded sink) := by
  refine settle_induction (P := fun q => ∃ calls acts, before.Asking requests calls acts q) ?_
    ⟨calls, acts, asked⟩
  intro q
  refine turn_kept (P := fun q => ∃ calls acts, before.Asking requests calls acts q) ?_ ?_
  · rintro q n others d - there ⟨calls, acts, asked⟩
    exact asked.advance t sink there
  · rintro q n others - - ⟨calls, acts, asked⟩
    exact ⟨calls, acts, { asked with }⟩

/-- A scope is asked for that was not asked for before. -/
theorem Asking.asks (asked : before.Asking requests calls acts p) {scope : Scope}
    (fresh : scope ∉ requests.map Prod.fst) (answer : Subscribed) (state : τ) :
    before.Asking ((scope, answer) :: requests) (.subscribe scope answer :: calls) acts
      { p with transport := ⟨state, .subscribe scope answer :: p.transport.calls⟩ } := by
  refine ⟨⟨?_, asked.noted, ?_, ?_⟩, ?_, asked.begun⟩
  · exact congrArg (List.cons _) asked.taken
  · change firstAsked ((scope, answer) :: Watch.asks calls) = _
    rw [firstAsked, asked.first, if_neg fresh]
  · have before := asked.others
    change (Watch.asks calls).length + 1 = requests.length + 1 + renewals acts
    omega
  · intro n d there running unasked
    exact (asked.own n d there running unasked).imp_left (List.mem_cons_of_mem _)

theorem Asking.spawn (asked : before.Asking requests calls acts p) (gvkKey : String) {scope : Scope}
    (h : Handle) (mem : scope ∈ requests.map Prod.fst) :
    before.Asking requests calls
      ((p.deliveries.length, .published .active) :: (p.deliveries.length, .subscribed h) :: acts)
      (p.spawn gvkKey scope h).2 := by
  have fresh : p.deliveries.length ∉ acts.map Prod.fst :=
    fun begun => Nat.lt_irrefl _ (asked.begun _ begun)
  refine ⟨⟨asked.taken, ?_, asked.first, ?_⟩, ?_, ?_⟩
  · rw [Pool.spawn, asked.noted]
    rfl
  · simp only [renewals]
    rw [if_neg fun both => fresh both.2, if_neg fun both => Bool.false_ne_true both.1]
    exact asked.others
  · intro n d there running unasked
    rcases getElem?_spawn_cases there with ⟨_, old⟩ | ⟨rfl, rfl⟩
    · obtain ⟨own, begun⟩ := asked.own n d old running unasked
      exact ⟨own, List.mem_cons_of_mem _ (List.mem_cons_of_mem _ begun)⟩
    · exact ⟨mem, List.mem_cons_self⟩
  · intro n mem
    simp only [Pool.spawn, List.length_append, List.length_singleton]
    simp only [List.map_cons, List.mem_cons] at mem
    rcases mem with rfl | rfl | old
    · exact Nat.lt_succ_self _
    · exact Nat.lt_succ_self _
    · exact Nat.lt_succ_of_lt (asked.begun n old)

/-- The answer to a request decides how the opening of a session ends. -/
def Decides (scope : Scope) : Subscribed → Opening → Prop
  | .granted _, .opened s => s.scope = scope
  | .refused f, .refused f' => f = f'
  | .unanswered, .pending => True
  | _, _ => False

/-- A session is opened for a scope that was not asked for before. -/
theorem Asking.openSession (t : Transport τ) (sink : Sink σ) (gvkKey : String) {scope : Scope}
    (asked : before.Asking requests calls acts p) (fresh : scope ∉ requests.map Prod.fst) :
    ∃ answer calls acts,
      before.Asking ((scope, answer) :: requests) calls acts
        (p.openSession t.recorded sink gvkKey scope).2 ∧
      Decides scope answer (p.openSession t.recorded sink gvkKey scope).1 := by
  have meanwhile : ∀ {requests calls acts} {q : Pool (Recorded τ) σ},
    before.Asking requests calls acts q →
      ∃ calls acts, before.Asking requests calls acts
        (if t.recorded.suspends then q.settle t.recorded sink else q) := by
    intro requests calls acts q asked
    split
    · exact asked.settle t sink
    · exact ⟨calls, acts, asked⟩
  unfold Pool.openSession Pool.abandonPending Pool.openWhile Pool.goOn
  rcases answer : t.subscribe scope p.transport.state with ⟨h | f | _, state⟩ <;>
    simp only [Transport.recorded, answer]
  · obtain ⟨calls, acts, then_⟩ := meanwhile (asked.asks fresh (.granted h) state)
    exact ⟨_, _, _, then_.spawn gvkKey h List.mem_cons_self, rfl⟩
  · obtain ⟨calls, acts, then_⟩ := meanwhile (asked.asks fresh (.refused f) state)
    exact ⟨_, calls, acts, then_, rfl⟩
  · obtain ⟨calls, acts, then_⟩ := meanwhile (asked.asks fresh .unanswered state)
    obtain ⟨calls, acts, idle⟩ := then_.settle t sink
    exact ⟨_, calls, acts, idle, trivial⟩

/-- A session that is opened brings one delivery, and nothing else brings any. -/
theorem openSession_length (t : Transport τ) (sink : Sink σ) (gvkKey : String) (scope : Scope)
    (p : Pool τ σ) :
    match p.openSession t sink gvkKey scope with
    | (.opened _, p') => p'.deliveries.length = p.deliveries.length + 1
    | (_, p') => p'.deliveries.length = p.deliveries.length := by
  have meanwhile : ∀ q : Pool τ σ,
      (if t.suspends then q.settle t sink else q).deliveries.length = q.deliveries.length := by
    intro q
    split
    · exact settle_length t sink q
    · rfl
  unfold openSession abandonPending openWhile goOn
  rcases t.subscribe scope p.transport with ⟨h | f | _, x⟩
  · simp only [Pool.spawn, List.length_append, List.length_singleton, meanwhile]
  · simp only [meanwhile]
  · simp only [settle_length, meanwhile]

/-- What came later asked for nothing. -/
theorem Asked.onward {q : Pool (Recorded τ) σ} (asked : before.Asked requests calls acts p)
    (onward : ∃ later, q.transport.calls = later ++ p.transport.calls ∧
      ∀ call ∈ later, call.IsRelease)
    (journal : ∃ later, q.journal = later ++ p.journal ∧ ∀ entry ∈ later, entry.2.isAsk = false) :
    ∃ calls acts, before.Asked requests calls acts q := by
  obtain ⟨later, onward, releases⟩ := onward
  obtain ⟨notes, noted, nothing⟩ := journal
  have none : Watch.asks later = [] := by
    refine List.filterMap_eq_nil_iff.mpr ?_
    intro call mem
    obtain ⟨h, result, rfl⟩ := releases call mem
    rfl
  refine ⟨later ++ calls, notes ++ acts, ?_, ?_, ?_, ?_⟩
  · rw [onward, asked.taken, List.append_assoc]
  · rw [noted, asked.noted, List.append_assoc]
  · rw [asks_append, none]
    exact asked.first
  · rw [asks_append, none, renewals_append_of_not nothing]
    exact asked.others

/-! ## Deliveries from before -/

/-- The deliveries that were there before obtain nothing more. -/
structure Spares (before p : Pool (Recorded τ) σ) : Prop where
  length : before.deliveries.length ≤ p.deliveries.length
  quiet : ∀ n d, n < before.deliveries.length → p.deliveries[n]? = some d →
    d.isRunning = false ∨ d.stopAsked = true
  obtained : ∀ n, n < before.deliveries.length →
    obtained (diary p.journal n) = obtained (diary before.journal n)

theorem Attended.spares (attended : p.Attended []) : p.Spares p :=
  ⟨Nat.le_refl _, fun _ _ _ there => attended.quiet there, fun _ _ => rfl⟩

theorem keeps_spares (t : Transport τ) (env : ε → Recorded τ → Recorded τ)
    (before : Pool (Recorded τ) σ) :
    Keeps t env (fun _ _ (p : Pool (Recorded τ) σ) => before.Spares p) where
  advance := fun {_ _ p n others d} sink _ there spares => by
    obtain ⟨calls, handed, -, -, -, move⟩ := d.step_moves t sink p.transport p.sink
    refine ⟨?_, ?_, ?_⟩
    · simpa [Pool.advance] using spares.length
    · intro m e old found
      rcases getElem?_advance_cases there found with ⟨rfl, rfl⟩ | ⟨_, found⟩
      · rw [move.stopAsked_eq]
        refine (spares.quiet m d old there).imp_left fun ended => ?_
        rw [(move.eq_of_ended ended).1]
        exact ended
      · exact spares.quiet m e old found
    · intro m old
      rw [diary_advance]
      split
      next same =>
        subst same
        rw [obtained_append, (move.winds (spares.quiet m d old there)).1.obtained_eq,
          List.nil_append]
        exact spares.obtained m old
      next => exact spares.obtained m old
  skip := fun _ _ spares => ⟨spares.length, spares.quiet, spares.obtained⟩
  asks := fun _ spares => ⟨spares.length, spares.quiet, spares.obtained⟩
  spawn := fun {_ p h} gvkKey scope _ spares => by
    have length := spares.length
    refine ⟨?_, ?_, ?_⟩
    · simp only [Pool.spawn, List.length_append, List.length_singleton]
      omega
    · intro m e old found
      rcases getElem?_spawn_cases found with ⟨_, found⟩ | ⟨rfl, _⟩
      · exact spares.quiet m e old found
      · omega
    · intro m old
      rw [diary_spawn, if_neg (by omega)]
      exact spares.obtained m old
  stop := fun _ _ spares => by
    refine ⟨?_, ?_, spares.obtained⟩
    · simpa [modify] using spares.length
    · intro m e old found
      rcases getElem?_modify_cases found with ⟨_, found⟩ | ⟨rfl, d, found, rfl⟩
      · exact spares.quiet m e old found
      · exact .inr rfl
  close := fun _ _ spares => by
    refine ⟨?_, ?_, ?_⟩
    · simpa [publishClosed, modify] using spares.length
    · intro m e old found
      rcases getElem?_modify_cases found with ⟨_, same⟩ | ⟨rfl, d, same, rfl⟩
      · exact spares.quiet m e old same
      · exact spares.quiet m d old same
    · intro m old
      rw [diary_publishClosed]
      split
      next same => exact same ▸ spares.obtained m old
      next => exact spares.obtained m old
  queue := fun _ spares => ⟨spares.length, spares.quiet, spares.obtained⟩
  sink := fun _ spares => ⟨spares.length, spares.quiet, spares.obtained⟩
  outside := fun _ spares => ⟨spares.length, spares.quiet, spares.obtained⟩

end Pool

end WatchDispatch.Watch
