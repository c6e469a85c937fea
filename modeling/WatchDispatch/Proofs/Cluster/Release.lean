import WatchDispatch.Cluster.Transport
import WatchDispatch.Proofs.Dispatch.SourceOrder

/-!
# Subscriptions to a cluster

The transport over a cluster numbers every subscription, refused ones and ones that were given up
included, and keeps the numbers of those that are out. That it lends them in order is read off its
four operations; what a source over it can rely on follows, whatever the server answers and whatever
is done to the source.
-/

namespace WatchDispatch.Cluster

open Dispatch Watch

inductive Disturbance where
  /-- The server changes. -/
  | serves (server : Server)
  /-- A subscription is given up before its answer is there; the server may have seen the
  request. -/
  | givenUp (server : Server)

def disturb : Disturbance → Recorded ApiState → Recorded ApiState
  | .serves server, x => { x with state := { x.state with server } }
  | .givenUp server, x => { x with state := { x.state with server, nextId := x.state.nextId + 1 } }

/-- The numbers of the subscriptions that were granted, latest first. -/
def grantedIds (calls : List TransportCall) : List Nat := (granted calls).map Handle.id

/-- The numbers of the subscriptions that were given back, latest first. -/
def returnedIds (calls : List TransportCall) : List Nat := (returned calls).map Handle.id

/-- The books of a transport of which exactly the subscriptions `held` are out. -/
structure Books (held : List Handle) (x : Recorded ApiState) : Prop where
  out : (held.map Handle.id).Perm x.state.live
  /-- Numbers are not used twice. -/
  unused : ∀ id ∈ grantedIds x.calls, id < x.state.nextId
  distinct : (grantedIds x.calls).Nodup
  live : x.state.live = (grantedIds x.calls).filter (fun id => id ∉ returnedIds x.calls)
  owned : ∀ id ∈ returnedIds x.calls, id ∈ grantedIds x.calls
  released : ∀ h result, .unsubscribe h result ∈ x.calls → result = .released

variable {held held' : List Handle} {x : Recorded ApiState}

/-- A call that grants nothing and gives nothing back leaves the books alone. -/
theorem Books.note {call : TransportCall} {state : ApiState} (books : Books held x)
    (grants : granted [call] = []) (returns : returned [call] = [])
    (live : state.live = x.state.live) (later : x.state.nextId ≤ state.nextId) :
    Books held ⟨state, call :: x.calls⟩ := by
  have sameGrants : grantedIds (call :: x.calls) = grantedIds x.calls := by
    rw [grantedIds, ← List.singleton_append, granted, List.filterMap_append]
    exact congrArg (fun l => (l ++ granted x.calls).map Handle.id) grants
  have sameReturns : returnedIds (call :: x.calls) = returnedIds x.calls := by
    rw [returnedIds, ← List.singleton_append, returned, List.filterMap_append]
    exact congrArg (fun l => (l ++ returned x.calls).map Handle.id) returns
  refine ⟨?_, ?_, ?_, ?_, ?_, ?_⟩
  · exact live ▸ books.out
  · intro id mem
    rw [sameGrants] at mem
    exact Nat.lt_of_lt_of_le (books.unused id mem) later
  · rw [sameGrants]
    exact books.distinct
  · rw [sameGrants, sameReturns, live]
    exact books.live
  · rw [sameGrants, sameReturns]
    exact books.owned
  · intro h result mem
    rcases List.mem_cons.mp mem with rfl | old
    · cases returns
    · exact books.released h result old

/-- A subscription that is granted with the next number goes into the books. -/
theorem Books.grant {scope : Scope} {state : ApiState} (books : Books held x)
    (live : state.live = x.state.nextId :: x.state.live)
    (next : state.nextId = x.state.nextId + 1) :
    Books (⟨x.state.nextId, scope⟩ :: held)
      ⟨state, .subscribe scope (.granted ⟨x.state.nextId, scope⟩) :: x.calls⟩ := by
  have fresh : x.state.nextId ∉ grantedIds x.calls :=
    fun mem => absurd (books.unused _ mem) (Nat.lt_irrefl _)
  have grants : grantedIds (.subscribe scope (.granted ⟨x.state.nextId, scope⟩) :: x.calls) =
      x.state.nextId :: grantedIds x.calls := rfl
  have returns : returnedIds (.subscribe scope (.granted ⟨x.state.nextId, scope⟩) :: x.calls) =
      returnedIds x.calls := rfl
  refine ⟨?_, ?_, ?_, ?_, ?_, ?_⟩
  · rw [live]
    exact books.out.cons _
  · intro id mem
    rw [next]
    rcases List.mem_cons.mp mem with rfl | old
    · exact Nat.lt_succ_self _
    · exact Nat.lt_succ_of_lt (books.unused id old)
  · exact List.nodup_cons.mpr ⟨fresh, books.distinct⟩
  · have kept : x.state.nextId ∉ returnedIds x.calls := fun mem => fresh (books.owned _ mem)
    rw [grants, returns, List.filter_cons_of_pos (by simpa using kept), live, ← books.live]
  · intro id mem
    exact List.mem_cons_of_mem _ (books.owned id mem)
  · intro h result mem
    rcases List.mem_cons.mp mem with same | old
    · cases same
    · exact books.released h result old

/-- A subscription that is out is taken back and leaves the books. -/
theorem Books.takeBack {h : Handle} {state : ApiState} (books : Books (h :: held) x)
    (live : state.live = x.state.live.erase h.id) (next : state.nextId = x.state.nextId) :
    Books held ⟨state, .unsubscribe h .released :: x.calls⟩ := by
  have mem : h.id ∈ x.state.live := books.out.subset List.mem_cons_self
  have grants : grantedIds (.unsubscribe h .released :: x.calls) = grantedIds x.calls := rfl
  have returns : returnedIds (.unsubscribe h .released :: x.calls) = h.id :: returnedIds x.calls :=
    rfl
  refine ⟨?_, ?_, books.distinct, ?_, ?_, ?_⟩
  · rw [live]
    exact (List.cons_perm_iff_perm_erase.mp books.out).2
  · intro id granted
    rw [next]
    exact books.unused id granted
  · -- Without duplicates, erasing a number is filtering it out.
    have nodup : x.state.live.Nodup := books.live ▸ books.distinct.filter _
    rw [grants, returns, live, nodup.erase_eq_filter, books.live, List.filter_filter]
    refine List.filter_congr ?_
    intro id _
    by_cases same : id = h.id <;> simp [same]
  · intro id mem'
    rcases List.mem_cons.mp mem' with rfl | old
    · rw [books.live] at mem
      exact List.mem_of_mem_filter mem
    · exact books.owned id old
  · intro g result mem'
    rcases List.mem_cons.mp mem' with same | old
    · cases same
      rfl
    · exact books.released g result old

/-- A subscription either takes the next number and goes out, or uses a number up. -/
theorem subscribe_cases (a : Api) (scope : Scope) (x : ApiState) :
    ((a.subscribe scope x).1 = .granted ⟨x.nextId, scope⟩ ∧
      (a.subscribe scope x).2.live = x.nextId :: x.live ∧
      (a.subscribe scope x).2.nextId = x.nextId + 1) ∨
    ((∃ f, (a.subscribe scope x).1 = .refused f) ∧
      (a.subscribe scope x).2.live = x.live ∧ (a.subscribe scope x).2.nextId = x.nextId + 1) := by
  cases failed : (x.server.watch a.params (a.pathOf scope) baseline).1.error? with
  | some e =>
    rw [Api.subscribe_of_error failed]
    exact .inr ⟨⟨_, rfl⟩, rfl, rfl⟩
  | none =>
    obtain ⟨lines, opened⟩ := Response.error?_eq_none_iff.mp failed
    rw [Api.subscribe_of_stream opened]
    exact .inl ⟨rfl, rfl, rfl⟩

theorem next_live (a : Api) (h : Handle) (x : ApiState) :
    (a.next h x).2.live = x.live ∧ (a.next h x).2.nextId = x.nextId := by
  unfold Api.next
  split <;> exact ⟨rfl, rfl⟩

/-- The transport over a cluster lends its subscriptions. -/
theorem lends (a : Api) : (a.transport.recorded).Lends Books where
  perm same books := { books with out := (same.symm.map Handle.id).trans books.out }
  grants := by
    intro held x scope books
    rcases subscribe_cases a scope x.state with ⟨answer, live, next⟩ | ⟨⟨f, answer⟩, live, next⟩
    · have granted : Books _ ⟨_, .subscribe scope _ :: x.calls⟩ := books.grant live next
      simpa [Transport.recorded, Api.transport, answer, Subscribed.handles] using granted
    · have later : x.state.nextId ≤ (a.subscribe scope x.state).2.nextId := by omega
      have refused : Books held ⟨_, .subscribe scope (.refused f) :: x.calls⟩ :=
        books.note rfl rfl live later
      simpa [Transport.recorded, Api.transport, answer, Subscribed.handles] using refused
  takesBack := by
    intro h held x books
    have out : x.state.live.contains h.id = true := by
      simpa using books.out.subset List.mem_cons_self
    have back : Api.unsubscribe h x.state =
        (.released, { x.state with live := x.state.live.erase h.id }) :=
      if_pos out
    simp only [Transport.recorded, Api.transport, back]
    exact ⟨trivial, books.takeBack rfl rfl⟩
  reads := by
    intro held x h books
    obtain ⟨live, next⟩ := next_live a h x.state
    exact books.note rfl rfl live (Nat.le_of_eq next.symm)
  forgets := by
    intro held x h books
    exact { books with }

theorem disturb_harmless : Source.Harmless Books disturb := by
  intro change held x books
  cases change with
  | serves server => exact { books with }
  | givenUp server =>
    exact { books with unused := fun id mem => Nat.lt_succ_of_lt (books.unused id mem) }

def source (c : Configuration) (d : Dispatcher) (server : Server) : Source (Recorded ApiState) :=
  Source.make c d ⟨ApiState.start server, []⟩

theorem source_inOrder (c : Configuration) (d : Dispatcher) (server : Server) :
    (source c d server).InOrder Books := by
  have books : Books [] ⟨ApiState.start server, []⟩ :=
    ⟨.refl _, by simp [grantedIds, granted], by simp [grantedIds, granted], rfl,
      by simp [returnedIds, returned], by simp⟩
  refine ⟨⟨books, ?_, ?_, ?_⟩, ?_⟩
  · intro d mem
    cases mem
  · intro n d there
    cases there
  · intro n d there
    cases there
  · intro session mem
    cases mem

/-- Whatever is done to a source over a cluster, and whatever the server answers: its subscriptions
have distinct numbers; the transport counts as live those that were granted and not given back;
every one that is given back is taken back; closing never fails and sees all sessions end; and a
source of which no delivery runs leaves nothing behind. -/
theorem release_never_fails (a : Api) (c : Configuration) (d : Dispatcher) (server : Server)
    (run : List (Deed Disturbance)) :
    let t := a.transport.recorded
    let s := (source c d server).deeds t disturb run
    let x := s.pool.transport
    (grantedIds x.calls).Nodup ∧
    x.state.live = (grantedIds x.calls).filter (fun id => id ∉ returnedIds x.calls) ∧
    (∀ h result, .unsubscribe h result ∈ x.calls → result = .released) ∧
    (s.close t).1 = 0 ∧ (s.sessions ≠ [] → (s.close t).2.pool.isRunning = false) ∧
    (s.pool.isRunning = false → x.state.live = []) := by
  intro t s x
  have order : s.InOrder Books := (source_inOrder c d server).deeds (lends a) disturb_harmless run
  have books := order.pool.owes
  obtain ⟨count, _, finished⟩ := order.close (lends a)
  refine ⟨books.distinct, books.live, books.released, count, ?_, ?_⟩
  · intro some
    refine List.any_eq_false.mpr ?_
    intro d mem
    simp [finished some d mem]
  · intro ended
    exact List.nil_perm.mp (order.owes_of_over ended).out

end WatchDispatch.Cluster
