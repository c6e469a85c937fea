import Mathlib.Data.List.Nodup
import WatchDispatch.Proofs.Watch.Alone

/-!
# The balance of subscriptions

A ledger reads the calls of one session from the first on: a subscription is asked for only while
none is held, and only the one that is held is read and given back. Every step of a delivery keeps
the ledger and ends holding what its phase says, so the ledger holds at every point of every run.
The balance that a transport sees follows from it by counting.
-/

namespace WatchDispatch.Watch

variable {τ σ : Type}

/-- The subscriptions that the calls were granted, latest first. -/
def granted (calls : List TransportCall) : List Handle :=
  calls.filterMap (fun
    | .subscribe _ (.granted h) => some h
    | _ => none)

/-- The subscriptions that the calls gave back, latest first. -/
def returned (calls : List TransportCall) : List Handle :=
  calls.filterMap (fun
    | .unsubscribe h _ => some h
    | _ => none)

/-- The subscriptions that were granted and not given back. -/
def outstanding (calls : List TransportCall) : List Handle :=
  (granted calls).filter (fun h => h ∉ returned calls)

/-- The transport broke down while it took a subscription back. -/
def Crashed (calls : List TransportCall) : Prop := ∃ h, .unsubscribe h .crashed ∈ calls

/-- What a transport sees of a session whose subscriptions balance; `state` is what the session
shows, `running` whether its delivery still runs. -/
structure Balanced (calls : List TransportCall) (state : SessionState) (running : Bool) : Prop where
  /-- No subscription is given back twice. -/
  once : ∀ h, (returned calls).count h ≤ 1
  /-- What is given back was granted before. -/
  owned : ∀ later h result earlier, calls = later ++ .unsubscribe h result :: earlier →
    h ∈ granted earlier
  /-- Whoever subscribes again has given everything back. -/
  emptyHanded : ∀ later scope answer earlier, calls = later ++ .subscribe scope answer :: earlier →
    ∀ h ∈ granted earlier, h ∈ returned earlier
  /-- An active session has exactly one subscription. -/
  active : ¬ Crashed calls → state = .active → ∃ h, outstanding calls = [h]
  /-- A session that starts or is closed has none. -/
  inactive : ¬ Crashed calls → state ≠ .active → outstanding calls = []
  /-- In the end every subscription is given back, once. -/
  settled : running = false → ∀ h ∈ granted calls, (returned calls).count h = 1

/-- The subscription that a delivery holds. -/
def Phase.held : Phase → Option Handle
  | .watching h => some h
  | _ => none

/-- The calls, latest first, are in order and leave this subscription in hand. -/
inductive Ledger : List TransportCall → Option Handle → Prop
  | start : Ledger [] none
  | granted {calls scope h} : Ledger calls none →
      Ledger (.subscribe scope (.granted h) :: calls) (some h)
  | refused {calls scope f} : Ledger calls none →
      Ledger (.subscribe scope (.refused f) :: calls) none
  | unanswered {calls scope} : Ledger calls none →
      Ledger (.subscribe scope .unanswered :: calls) none
  | read {calls h item} : Ledger calls (some h) → Ledger (.next h item :: calls) (some h)
  | returned {calls h result} : Ledger calls (some h) →
      Ledger (.unsubscribe h result :: calls) none

namespace Ledger

variable {calls later earlier : List TransportCall} {held : Option Handle}

/-- What was granted is what is in hand and what was given back, in the same order. -/
theorem granted_eq (ledger : Ledger calls held) :
    Watch.granted calls = held.toList ++ Watch.returned calls := by
  induction ledger with
  | start => rfl
  | granted _ ih => simpa [Watch.granted, Watch.returned] using ih
  | refused _ ih => simpa [Watch.granted, Watch.returned] using ih
  | unanswered _ ih => simpa [Watch.granted, Watch.returned] using ih
  | read _ ih => simpa [Watch.granted, Watch.returned] using ih
  | returned _ ih => simpa [Watch.granted, Watch.returned] using ih

/-- A ledger is in order at every call. -/
theorem of_append (ledger : Ledger (later ++ earlier) held) : ∃ before, Ledger earlier before := by
  induction later generalizing held with
  | nil => exact ⟨held, ledger⟩
  | cons call later ih => cases ledger <;> exact ih ‹_›

theorem before_unsubscribe {h : Handle} {result : Released}
    (ledger : Ledger (later ++ .unsubscribe h result :: earlier) held) :
    Ledger earlier (some h) := by
  obtain ⟨_, there⟩ := ledger.of_append
  cases there
  assumption

theorem before_subscribe {scope : Scope} {answer : Subscribed}
    (ledger : Ledger (later ++ .subscribe scope answer :: earlier) held) : Ledger earlier none := by
  obtain ⟨_, there⟩ := ledger.of_append
  cases there <;> assumption

/-- Among distinct subscriptions, only the one in hand was not given back. -/
theorem outstanding_eq (ledger : Ledger calls held) (fresh : (Watch.granted calls).Nodup) :
    outstanding calls = held.toList := by
  have apart : List.Disjoint held.toList (Watch.returned calls) :=
    List.disjoint_of_nodup_append (ledger.granted_eq ▸ fresh)
  have kept : held.toList.filter (fun h => h ∉ Watch.returned calls) = held.toList :=
    List.filter_eq_self.mpr (fun h mem => by simpa using apart mem)
  have gone : (Watch.returned calls).filter (fun h => h ∉ Watch.returned calls) = [] :=
    List.filter_eq_nil_iff.mpr (by simp)
  rw [outstanding, ledger.granted_eq, List.filter_append, kept, gone, List.append_nil]

end Ledger

theorem Crashed.cons {calls : List TransportCall} (crashed : Crashed calls) (call : TransportCall) :
    Crashed (call :: calls) := by
  obtain ⟨h, mem⟩ := crashed
  exact ⟨h, List.mem_cons_of_mem call mem⟩

/-- The delivery holds what the calls leave in hand, and shows so as long as the transport is
whole. -/
structure Sound (calls : List TransportCall) (d : Delivery) : Prop where
  ledger : Ledger calls d.phase.held
  shown : Crashed calls ∨ (d.state = .active ↔ d.phase.held.isSome)

/-! ## One step -/

namespace Delivery

variable (t : Transport τ) (d : Delivery) (h : Handle) (x : Recorded τ) (y : σ)

theorem stop_sound (ledger : Ledger x.calls (some h)) :
    Sound (d.stop t.recorded h x y).transport.calls (d.stop t.recorded h x y).delivery where
  ledger := .returned ledger
  shown := Or.inr (by simp [stop, Phase.held])

theorem stopRenewal_sound (ledger : Ledger x.calls none) :
    Sound (d.stopRenewal t.recorded h x y).transport.calls
      (d.stopRenewal t.recorded h x y).delivery where
  ledger := ledger
  shown := Or.inr (by simp [stopRenewal, Phase.held])

theorem escalate_sound (f : Fault) (before : List Act) (ledger : Ledger x.calls (some h)) :
    Sound (d.escalate t.recorded h f before x y).transport.calls
      (d.escalate t.recorded h f before x y).delivery := by
  cases result : (t.unsubscribe h x.state).1 <;> simp only [escalate, Transport.recorded, result]
  case crashed => exact ⟨.returned ledger, Or.inl ⟨h, List.mem_cons_self⟩⟩
  all_goals exact ⟨.returned ledger, Or.inr (by simp [Phase.held])⟩

theorem expire_sound (ledger : Ledger x.calls (some h)) :
    Sound (d.expire t.recorded h x y).transport.calls (d.expire t.recorded h x y).delivery := by
  cases result : (t.unsubscribe h x.state).1 <;> simp only [expire, Transport.recorded, result]
  case crashed => exact ⟨.returned ledger, Or.inl ⟨h, List.mem_cons_self⟩⟩
  all_goals exact ⟨.returned ledger, Or.inr (by simp [Phase.held])⟩

/-- Subscribing again starts with empty hands. -/
theorem renew_sound (phase : d.phase.held = none) (sound : Sound x.calls d) :
    Sound (d.renew t.recorded h x y).transport.calls (d.renew t.recorded h x y).delivery := by
  obtain ⟨ledger, shown⟩ := sound
  rw [phase] at ledger shown
  rcases answer : t.subscribe d.scope x.state with ⟨granted | refused | _, state⟩
  · simp only [renew, Transport.recorded, answer]
    exact ⟨.granted ledger, Or.inr (by simp [Phase.held])⟩
  · simp only [renew, Transport.recorded, answer]
    exact ⟨.refused ledger, Or.inr (by simp [Phase.held])⟩
  · simp only [renew, Transport.recorded, answer]
    exact ⟨.unanswered ledger, shown.imp (fun crashed => crashed.cons _) (by simp [Phase.held])⟩

/-- What a delivery reads, it reads from the subscription that it holds. -/
theorem take_sound (sink : Sink σ) (phase : d.phase = .watching h) (sound : Sound x.calls d) :
    Sound (d.take t.recorded sink h x y).transport.calls
      (d.take t.recorded sink h x y).delivery := by
  obtain ⟨ledger, shown⟩ := sound
  have ledger : Ledger x.calls (some h) := by simpa [phase, Phase.held] using ledger
  have same : ∀ {item}, Sound (.next h item :: x.calls) d := fun {item} =>
    ⟨by simpa [phase, Phase.held] using Ledger.read ledger,
      shown.imp (fun crashed => crashed.cons _) id⟩
  rcases taken : t.next h x.state with ⟨e | ⟨reason | reason⟩ | _ | _ | _, state⟩
  · rcases handled : sink e y with ⟨_ | message, y'⟩
    · simpa only [take, Transport.recorded, taken, handled] using same
    · simpa only [take, Transport.recorded, taken, handled] using
        escalate_sound t d h ⟨state, _⟩ y' (crashFault message) [.delivered e] (.read ledger)
  · simpa only [take, Transport.recorded, taken] using
      expire_sound t d h ⟨state, _⟩ y (.read ledger)
  · simpa only [take, Transport.recorded, taken] using
      escalate_sound t d h ⟨state, _⟩ y (.failed reason) [] (.read ledger)
  · simpa only [take, Transport.recorded, taken] using
      escalate_sound t d h ⟨state, _⟩ y endFault [] (.read ledger)
  · simpa only [take, Transport.recorded, taken] using same
  · simpa only [take, Transport.recorded, taken] using same

theorem step_sound (sink : Sink σ) (sound : Sound x.calls d) :
    Sound (d.step t.recorded sink x y).transport.calls (d.step t.recorded sink x y).delivery := by
  unfold step
  split
  next h phase =>
    have ledger : Ledger x.calls (some h) := by simpa [phase, Phase.held] using sound.ledger
    split
    · exact stop_sound t d h x y ledger
    · exact take_sound t d h x y sink phase sound
  next h phase =>
    have empty : d.phase.held = none := by simp [phase, Phase.held]
    split
    · exact stopRenewal_sound t d h x y (empty ▸ sound.ledger)
    · exact renew_sound t d h x y empty sound
  next h phase =>
    have empty : d.phase.held = none := by simp [phase, Phase.held]
    split
    · exact stopRenewal_sound t d h x y (empty ▸ sound.ledger)
    · exact sound
  next => exact sound

end Delivery

theorem Delivery.held_of_ended (d : Delivery) (ended : d.isRunning = false) :
    d.phase.held = none := by
  cases phase : d.phase with
  | ended outcome => rfl
  | renewing h => rfl
  | awaiting h => rfl
  | watching h => simp [isRunning, phase] at ended

/-! ## Whole runs -/

/-- The only delivery of the pool is sound for the calls that the transport took. -/
def Pool.Sound (p : Pool (Recorded τ) σ) : Prop :=
  ∃ d, p.deliveries = [d] ∧ Watch.Sound p.transport.calls d

theorem keeps_sound (t : Transport τ) (sink : Sink σ) :
    Delivery.Keeps t.recorded sink (fun d x => Watch.Sound x.calls d) where
  step := fun {d x} y sound => d.step_sound t x y sink sound
  ask := fun sound => ⟨sound.ledger, sound.shown⟩
  close := fun phase sound => ⟨sound.ledger, Or.inr (by simp [phase, Phase.held])⟩

namespace Owner

variable {t : Transport τ} {sink : Sink σ} {o : Owner τ σ}

theorem open?_sound {gvkKey : String} {scope : Scope} {x : τ} {y : σ}
    (opened : open? t sink gvkKey scope x y = some o) : o.session.number = 0 ∧ o.pool.Sound := by
  obtain ⟨h, state, -, rfl⟩ := open?_eq opened
  exact ⟨rfl, _, rfl, .granted .start, Or.inr (by simp [Phase.held])⟩

theorem after_sound (sound : o.pool.Sound) (t : Transport τ) (sink : Sink σ)
    (run : List (Happening τ σ)) : (o.after t sink run).pool.Sound := by
  induction run with
  | nil => exact sound
  | cons happening earlier ih =>
    exact perform_alone (keeps_sound t sink) ih happening (fun _ _ _ _ sound => sound)

end Owner

/-- The calls of a sound delivery balance if no two subscriptions that it was granted are the
same. -/
theorem Sound.balanced {calls : List TransportCall} {d : Delivery} (sound : Sound calls d)
    (fresh : (granted calls).Nodup) : Balanced calls d.state d.isRunning := by
  obtain ⟨ledger, shown⟩ := sound
  have granted := ledger.granted_eq
  have distinct : (returned calls).Nodup := (granted ▸ fresh).of_append_right
  refine ⟨?_, ?_, ?_, ?_, ?_, ?_⟩
  · intro h
    exact List.nodup_iff_count_le_one.mp distinct h
  · intro later h result earlier split
    subst split
    rw [ledger.before_unsubscribe.granted_eq]
    exact List.mem_cons_self
  · intro later scope answer earlier split h mem
    subst split
    rw [ledger.before_subscribe.granted_eq] at mem
    exact mem
  · intro whole active
    have holds := (shown.resolve_left whole).mp active
    obtain ⟨h, held⟩ := Option.isSome_iff_exists.mp holds
    exact ⟨h, by rw [ledger.outstanding_eq fresh, held]; rfl⟩
  · intro whole inactive
    have empty := mt (shown.resolve_left whole).mpr inactive
    rw [ledger.outstanding_eq fresh, Option.not_isSome_iff_eq_none.mp empty]
    rfl
  · intro ended h mem
    rw [granted, d.held_of_ended ended] at mem
    exact List.count_eq_one_of_mem distinct mem

/-- Whatever happens to a session over a transport that grants no subscription twice, its
subscriptions balance, between any two steps of its delivery and after its end. -/
theorem session_balanced {t : Transport τ} {sink : Sink σ} {gvkKey : String} {scope : Scope} {x : τ}
    {y : σ} {o : Owner τ σ} (opened : Owner.open? t sink gvkKey scope x y = some o)
    (run : List (Happening τ σ)) (fresh : (granted (o.after t sink run).calls).Nodup) :
    Balanced (o.after t sink run).calls (o.after t sink run).state
      (o.after t sink run).isRunning := by
  obtain ⟨number, start⟩ := Owner.open?_sound opened
  obtain ⟨d, alone, sound⟩ := Owner.after_sound start t sink run
  have first : (o.after t sink run).session.number = 0 := (o.after_number t sink run).trans number
  have state : (o.after t sink run).state = d.state := by
    simp [Owner.state, Pool.state, Pool.delivery?, alone, first]
  have running : (o.after t sink run).isRunning = d.isRunning := by
    simp [Owner.isRunning, Pool.isRunning, alone]
  rw [state, running]
  exact sound.balanced fresh

namespace Sample

/-- A transport that numbers its subscriptions; their streams offer the items of one list in
turn. -/
def transport : Transport (Nat × List Item) where
  subscribe scope x := (.granted ⟨x.1, scope⟩, (x.1 + 1, x.2))
  unsubscribe _ x := (.released, x)
  next _ x :=
    match x.2 with
    | [] => (.idle, x)
    | item :: items => (item, (x.1, items))
  abandon _ x := x
  suspends := false
  work x := x.2.length
  breakdown := panicked

/-- A session whose watch expires twice. -/
def owner? : Option (Owner (Nat × List Item) Unit) :=
  Owner.open? transport (fun _ y => (.done, y)) "example.com/v1/Widget" .allNamespaces
    (0, [.fault (.expired "gone"), .fault (.expired "gone")]) ()

end Sample

/-- A session that is closed after its watch expired twice gives three subscriptions back. -/
theorem session_balanced_after_expiries :
    ∃ o, Sample.owner? = some o ∧
      let closed := o.after Sample.transport (fun _ y => (.done, y)) [.close, .settle]
      (granted closed.calls).map Handle.id = [2, 1, 0] ∧ closed.state = .closed ∧
        closed.isRunning = false ∧ Balanced closed.calls closed.state closed.isRunning :=
  ⟨_, rfl, by decide, by decide, by decide, session_balanced rfl [.close, .settle] (by decide)⟩

end WatchDispatch.Watch
