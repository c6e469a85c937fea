import WatchDispatch.Proofs.Cluster.RemainingWork
import WatchDispatch.Proofs.Cluster.Release
import WatchDispatch.Proofs.Dispatch.Erasure
import WatchDispatch.Proofs.Dispatch.Starting

/-!
# Accounts of a source over a cluster

The journal of a pool and the live subscriptions of its transport are an account of what was
obtained and given back. To see that it is true, the source is taken for one whose transport notes
its calls; the notes are dropped again afterwards. A source that has come to an end has given
everything back.
-/

namespace WatchDispatch

open Dispatch Watch

variable {τ σ : Type}

namespace Watch

theorem mem_diary {journal : List (Nat × Act)} {n : Nat} {act : Act} :
    act ∈ diary journal n ↔ (n, act) ∈ journal := by
  simp [diary]

theorem mem_obtained {acts : List Act} {h : Handle} : h ∈ obtained acts ↔ .subscribed h ∈ acts := by
  unfold obtained
  rw [List.mem_filterMap]
  constructor
  · rintro ⟨act, mem, same⟩
    cases act <;> cases same
    exact mem
  · intro mem
    exact ⟨_, mem, rfl⟩

theorem mem_releases {acts : List Act} {h : Handle} {result : Released} :
    (h, result) ∈ releases acts ↔ .released h result ∈ acts := by
  unfold releases
  rw [List.mem_filterMap]
  constructor
  · rintro ⟨act, mem, same⟩
    cases act <;> cases same
    exact mem
  · intro mem
    exact ⟨_, mem, rfl⟩

theorem mem_unsubscribes {calls : List TransportCall} {h : Handle} {result : Released} :
    (h, result) ∈ unsubscribes calls ↔ .unsubscribe h result ∈ calls := by
  unfold unsubscribes
  rw [List.mem_filterMap]
  constructor
  · rintro ⟨call, mem, same⟩
    cases call <;> cases same
    exact mem
  · intro mem
    exact ⟨_, mem, rfl⟩

/-- Whatever happens to a pool, its transport stays in the states in which it dwindles. -/
theorem Pool.keeps_dwindling {t : Transport τ} {Holds : τ → Prop} (dwindles : t.Dwindles Holds) :
    Keeps t (fun (_ : Unit) x => x)
      (fun _ _ (p : Pool (Recorded τ) σ) => Holds p.transport.state) where
  advance := fun {_ _ p _ _ d} sink _ _ holds =>
    (d.step_lowers dwindles.recorded p.sink sink (x := p.transport) holds).holds
  skip := fun _ _ holds => holds
  asks := fun scope holds => (dwindles.subscribe scope holds).1
  spawn := fun _ _ _ holds => holds
  stop := fun _ _ holds => holds
  close := fun _ _ holds => holds
  queue := fun _ holds => holds
  sink := fun _ holds => holds
  outside := fun _ holds => holds

end Watch

namespace Cluster

/-- The source has given back all that it has obtained, and nothing of it goes on. -/
structure AllReturned (s : Source ApiState) : Prop where
  ended : s.pool.isRunning = false
  /-- The transport counts no subscription as live. -/
  live : s.pool.transport.live = []
  /-- A delivery that has obtained a subscription has given it back. -/
  returned : ∀ n h, (n, .subscribed h) ∈ s.pool.journal →
    (n, .released h .released) ∈ s.pool.journal
  /-- No release has failed. -/
  released : ∀ n h result, (n, .released h result) ∈ s.pool.journal → result = .released

/-- What can be said of a pool over a cluster whose transport has noted its calls from the
beginning. -/
structure Accounts (sessions : List Session) (opening : List Handle)
    (p : Pool (Recorded ApiState) Stores) : Prop where
  order : p.InOrder Books (sessions.map Session.number) opening
  waiting : ∀ session ∈ sessions, session.joined = false
  governed : p.Governed sessions opening
  numbered : Numbered p.transport.state

theorem keeps_accounts (a : Api) : Pool.Keeps a.transport (fun (_ : Unit) x => x) Accounts := by
  have all := ((Source.keeps_order_undisturbed (lends a)).and
    (Pool.keeps_governed a.transport fun _ _ => rfl)).and
      (Pool.keeps_dwindling (transport_dwindles a))
  refine all.of_iff ?_
  intro sessions opening p
  exact ⟨fun ⟨⟨⟨order, waiting⟩, governed⟩, numbered⟩ => ⟨order, waiting, governed, numbered⟩,
    fun accounts => ⟨⟨⟨accounts.order, accounts.waiting⟩, accounts.governed⟩, accounts.numbered⟩⟩

/-- Once nothing goes on, all that was obtained was given back. -/
theorem allReturned_of_ended {r : Source (Recorded ApiState)} (accounts : r.Kept Accounts)
    (ended : r.pool.isRunning = false) : AllReturned r.erase := by
  have order : r.InOrder Books := ⟨accounts.order, accounts.waiting⟩
  have released : ∀ n h result, (n, Act.released h result) ∈ r.pool.journal →
      result = .released := by
    intro n h result mem
    have noted : (h, result) ∈ releases (r.pool.journal.map Prod.snd) :=
      mem_releases.mpr (List.mem_map.mpr ⟨_, mem, rfl⟩)
    rw [← accounts.governed.booked.released] at noted
    exact accounts.order.owes.released h result (mem_unsubscribes.mp noted)
  refine ⟨ended, List.nil_perm.mp (order.owes_of_over ended).out, ?_, released⟩
  intro n h mem
  have begun : n < r.pool.deliveries.length := accounts.governed.faithful.begun _ mem
  have account := (accounts.governed.faithful.each n _ (List.getElem?_eq_getElem begun)).obtained
  have finished : (r.pool.deliveries[n]).isRunning = false := by
    simpa using List.any_eq_false.mp ended _ (List.getElem_mem begun)
  rw [Delivery.held_of_ended _ finished] at account
  have obtained : h ∈ obtained (diary r.pool.journal n) := mem_obtained.mpr (mem_diary.mpr mem)
  rw [account] at obtained
  obtain ⟨⟨_, result⟩, back, rfl⟩ := List.mem_map.mp obtained
  have told := mem_diary.mp (mem_releases.mp back)
  exact released n _ result told ▸ told

/-- The source is one that was accounted for from the beginning, without the notes of its
transport. -/
def Accountable (s : Source ApiState) : Prop :=
  ∃ r : Source (Recorded ApiState), r.Kept Accounts ∧ r.erase = s

namespace Accountable

variable {s : Source ApiState}

theorem numbered (accountable : Accountable s) : Numbered s.pool.transport := by
  obtain ⟨r, accounts, rfl⟩ := accountable
  exact accounts.numbered

/-- In whatever order its deliveries take their turns, a source stays accountable. -/
theorem turns (a : Api) (accountable : Accountable s) (numbers : List Nat) :
    Accountable (s.turns a.transport numbers) := by
  obtain ⟨r, accounts, rfl⟩ := accountable
  exact ⟨_, Source.Kept.turns (keeps_accounts a) numbers accounts,
    r.turns_erase a.transport numbers⟩

/-- Nothing in the accounts tells which faults wait for the supervisor. -/
theorem reports (accountable : Accountable s) (reports : Option (List FatalFault)) :
    Accountable { s with pool := { s.pool with reports } } := by
  obtain ⟨r, accounts, rfl⟩ := accountable
  obtain ⟨attended, manned, faithful, booked⟩ := accounts.governed
  exact ⟨{ r with pool := { r.pool with reports } },
    ⟨{ accounts.order with }, accounts.waiting,
      ⟨{ attended with }, { manned with }, { faithful with }, { booked with }⟩, accounts.numbered⟩,
        rfl⟩

/-- Closing never fails and ends what was opened, in whatever order the deliveries take their last
turns. -/
theorem closeAmid (a : Api) (accountable : Accountable s) (some : s.sessions ≠ [])
    (schedule : Schedule ApiState) :
    (s.closeAmid a.transport schedule).1 = 0 ∧
    AllReturned (s.closeAmid a.transport schedule).2 := by
  obtain ⟨r, accounts, rfl⟩ := accountable
  have order : r.InOrder Books := ⟨accounts.order, accounts.waiting⟩
  obtain ⟨count, -, finished⟩ := order.closeAmid (lends a) schedule.recorded
  have ended : (r.closeAmid a.transport.recorded schedule.recorded).2.pool.isRunning = false :=
    List.any_eq_false.mpr fun d mem => by simp [finished some d mem]
  rw [r.closeAmid_erase]
  exact ⟨count,
    allReturned_of_ended (Source.Kept.closeAmid (keeps_accounts a) schedule.recorded accounts)
    ended⟩

end Accountable

/-- A source that has just been made is accountable: it has asked for nothing. -/
theorem accountable_make (c : Configuration) (d : Dispatcher) (server : Server) :
    Accountable (Source.make c d (ApiState.start server)) := by
  have order := source_inOrder c d server
  have unchanged : ∀ (_ : Unit) (x : Recorded ApiState), x.calls = x.calls := fun _ _ => rfl
  have governed :=
    Source.governed_deeds (Api.transport default) unchanged c d (ApiState.start server) []
  exact ⟨source c d server, ⟨order.pool, order.waiting, governed, numbered_start server⟩, rfl⟩

/-! ## Starting -/

theorem subscribe_ne_unanswered (a : Api) (scope : Scope) (x : ApiState) :
    (a.transport.subscribe scope x).1 ≠ .unanswered := by
  change (a.subscribe scope x).1 ≠ .unanswered
  rcases subscribe_cases a scope x with ⟨answer, -⟩ | ⟨⟨f, answer⟩, -⟩
  · simp [answer]
  · simp [answer]

theorem openAmid_ne_pending (a : Api) (schedule : Schedule ApiState) (s : Source ApiState)
    (scope : Scope) : (s.openAmid a.transport schedule scope).1 ≠ .pending :=
  Pool.openWhile_pending_iff.not.mpr (subscribe_ne_unanswered a scope _)

namespace Accountable

variable {s : Source ApiState} (a : Api) (schedule : Schedule ApiState)

theorem openAllAmid (accountable : Accountable s) (scopes : List Scope) :
    Accountable (Source.openAllAmid a.transport schedule scopes s).2 := by
  obtain ⟨r, accounts, rfl⟩ := accountable
  rw [r.openAllAmid_erase]
  exact ⟨_, Source.Kept.openAllAmid (keeps_accounts a) schedule.recorded scopes accounts, rfl⟩

/-- A refusal gives back what was opened before. -/
theorem openAllAmid_refused (accountable : Accountable s) (quiet : s.pool.isRunning = false)
    {earlier : List Scope} (rest : List Scope) {scope : Scope} {opened : Source ApiState}
    {f : Fault} (before : Source.openAllAmid a.transport schedule earlier s = (.started, opened))
    (refused : (opened.openAmid a.transport schedule scope).1 = .refused f) :
    let after := Source.openAllAmid a.transport schedule (earlier ++ scope :: rest) s
    after.1 = .failed (.subscribing scope f) ∧ AllReturned after.2 := by
  obtain ⟨r, accounts, rfl⟩ := accountable
  have order : r.InOrder Books := ⟨accounts.order, accounts.waiting⟩
  rw [r.openAllAmid_erase] at before ⊢
  rcases opens : Source.openAllAmid a.transport.recorded schedule.recorded earlier r with
    ⟨result, r'⟩
  rw [opens] at before
  obtain ⟨rfl, rfl⟩ := Prod.mk.inj before
  rw [r'.openAmid_erase] at refused
  obtain ⟨failed, -, -, finished⟩ :=
    (Source.orderly_amid (lends a) schedule.recorded).openEach_refused order rest opens refused
  have still : r.pool.Over := by
    intro d mem
    simpa using List.any_eq_false.mp quiet d mem
  have ended := finished (.inr still)
  refine ⟨failed, allReturned_of_ended
    (Source.Kept.openAllAmid (keeps_accounts a) schedule.recorded _ accounts) ?_⟩
  exact List.any_eq_false.mpr fun d mem => by simp [ended d mem]

end Accountable

end Cluster

end WatchDispatch
