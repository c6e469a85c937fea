import WatchDispatch.Controller.Configuration
import WatchDispatch.Store.Cache
import WatchDispatch.Store.Gate
import WatchDispatch.Watch.Delivery

/-!
The pipeline of one controller: cache, gate and dispatcher.

Every event reaches the cache. An event that reports an error, and one whose generation was handled
already, goes no further. Any other is handed to the dispatcher; when that returns, the gate is
marked. A dispatcher that crashes leaves no mark.
-/

namespace WatchDispatch.Dispatch

open Watch

/-- Where events come from: a controller and the key of the kind it watches. -/
structure SourceHandle where
  controller : String
  gvkKey : String
deriving DecidableEq, Repr, Inhabited

def SourceHandle.label (h : SourceHandle) : String := s!"{h.controller} -> {h.gvkKey}"

def SourceHandle.ofConfiguration (c : Configuration) : SourceHandle := ⟨c.name, c.gvkKey⟩

structure Call where
  action : Action
  snapshot : Snapshot
  source : SourceHandle
  /-- What the cache holds for the resource during the call. -/
  held : Option Snapshot
  /-- The mark that the gate holds for the resource during the call. -/
  mark : Option UInt64
deriving Repr, Inhabited

/-- The generation that the cache holds during the call. -/
def Call.cached (call : Call) : Option UInt64 := call.held.map Snapshot.generation

/-- A dispatcher: how it takes a call, given the calls before it, latest first. -/
abbrev Dispatcher := List Call → Call → Handled

/-- What the sessions of one controller share. -/
structure Stores where
  cache : Cache
  gate : Gate
  /-- The calls of the dispatcher, latest first. -/
  calls : List Call

namespace Stores

def empty : Stores := ⟨Cache.empty, Gate.empty, []⟩

instance : Inhabited Stores := ⟨empty⟩

def keep (s : Stores) (snapshot : Snapshot) : Stores := { s with cache := s.cache.upsert snapshot }

def callFor (s : Stores) (source : SourceHandle) (e : Event) : Call :=
  ⟨e.action, e.snapshot, source, s.cache.get? e.snapshot.uid, s.gate.get? e.snapshot.uid⟩

def passes (s : Stores) (c : Configuration) (e : Event) : Bool :=
  e.action != .error && !s.gate.passesOver e.snapshot c.generationAware

/-- Hands an event to the dispatcher and marks the gate afterwards. -/
def dispatch (c : Configuration) (d : Dispatcher) (e : Event) (s : Stores) : Handled × Stores :=
  let call := s.callFor (.ofConfiguration c) e
  let handled := d s.calls call
  let s := { s with calls := call :: s.calls }
  match handled with
  | .done => (.done, { s with gate := s.gate.mark e.snapshot c.generationAware c.finalizer })
  | .crashed message => (.crashed message, s)

/-- Takes one event through cache, gate and dispatcher. -/
def deliver (c : Configuration) (d : Dispatcher) (e : Event) (s : Stores) : Handled × Stores :=
  let s := s.keep e.snapshot
  if s.passes c e then s.dispatch c d e else (.done, s)

def deregister (uid : Uid) (s : Stores) : Stores :=
  { s with cache := s.cache.erase uid, gate := s.gate.erase uid }

section Laws

variable (c : Configuration) (d : Dispatcher) (e : Event) (s : Stores)

@[simp] theorem keep_gate (snapshot : Snapshot) : (s.keep snapshot).gate = s.gate := rfl

@[simp] theorem keep_calls (snapshot : Snapshot) : (s.keep snapshot).calls = s.calls := rfl

@[simp] theorem keep_passes (snapshot : Snapshot) : (s.keep snapshot).passes c e = s.passes c e :=
  rfl

theorem dispatch_calls :
    (s.dispatch c d e).2.calls = s.callFor (.ofConfiguration c) e :: s.calls := by
  cases handled : d s.calls (s.callFor (.ofConfiguration c) e) <;> simp [dispatch, handled]

theorem dispatch_cache : (s.dispatch c d e).2.cache = s.cache := by
  cases handled : d s.calls (s.callFor (.ofConfiguration c) e) <;> simp [dispatch, handled]

theorem dispatch_gate :
    (s.dispatch c d e).2.gate =
      if (s.dispatch c d e).1 = .done then s.gate.mark e.snapshot c.generationAware c.finalizer
      else s.gate := by
  cases handled : d s.calls (s.callFor (.ofConfiguration c) e) <;> simp [dispatch, handled]

theorem deliver_of_passes (passes : s.passes c e = true) :
    s.deliver c d e = (s.keep e.snapshot).dispatch c d e := by
  simp [deliver, passes]

theorem deliver_of_not_passes (stays : s.passes c e = false) :
    s.deliver c d e = (.done, s.keep e.snapshot) := by
  simp [deliver, stays]

/-- An event leads to one call or to none. -/
theorem deliver_calls :
    (s.deliver c d e).2.calls =
      (if s.passes c e then [(s.keep e.snapshot).callFor (.ofConfiguration c) e] else []) ++
      s.calls := by
  cases passes : s.passes c e with
  | true => simp [deliver_of_passes c d e s passes, dispatch_calls]
  | false => simp [deliver_of_not_passes c d e s passes]

/-- Every event reaches the cache. -/
theorem deliver_cache : (s.deliver c d e).2.cache = s.cache.upsert e.snapshot := by
  cases passes : s.passes c e with
  | true => rw [deliver_of_passes c d e s passes, dispatch_cache]; rfl
  | false => rw [deliver_of_not_passes c d e s passes]; rfl

/-- Only an event whose call returns can mark the gate. -/
theorem deliver_gate :
    (s.deliver c d e).2.gate =
      if (s.deliver c d e).1 = .done ∧ s.passes c e = true then
        s.gate.mark e.snapshot c.generationAware c.finalizer
      else s.gate := by
  cases passes : s.passes c e with
  | true => simp [deliver_of_passes c d e s passes, dispatch_gate]
  | false => simp [deliver_of_not_passes c d e s passes]

end Laws

end Stores

def pipeline (c : Configuration) (d : Dispatcher) : Sink Stores := fun e s => s.deliver c d e

end WatchDispatch.Dispatch
