import WatchDispatch.Proofs.Cluster.Operations
import WatchDispatch.Proofs.Watch.CallOrder

/-!
# Sessions on a shared transport

A session over a cluster shares the transport with others, who do what they like with subscriptions
of their own while the replies of the server change at will. What the session calls is what the log
of its wire says. The subscription that it reads is followed and has told no fault yet, so no
session sees the end of a stream.
-/

namespace WatchDispatch.Cluster

open Watch (Delivery Handled Happening Item Noted Owner Phase Recorded Released Sink TransportCall)

variable {σ : Type}

/-! ## Others on the same transport -/

/-- Others do not have the handles of the subscriptions that were asked for on this wire: they
neither read nor forget them. -/
def Operation.spares (w : Wire) : Operation → Bool
  | .next h | .abandon h => (exchanges h.id w.log).isEmpty
  | _ => true

namespace Wire

/-- What others do, which is not in the log. -/
def others (a : Api) (operation : Operation) (w : Wire) : Wire :=
  if operation.spares w then ⟨operation.effect a w.state, w.log⟩ else w

/-- The session reads this subscription: it was asked for here, its stream was not forgotten, and it
has told no fault. -/
structure Reads (w : Wire) (h : Handle) : Prop where
  owns : w.Owns h.id
  follows : w.Follows h
  calm : ∀ f, .fault f ∉ items h.id w.log

variable {a : Api} {w : Wire} (sound : w.Sound a) {operation : Operation}

include sound

theorem Sound.not_touches (spares : operation.spares w = true) {id : Nat} (owned : w.Owns id) :
    ¬ operation.Touches w.state id := by
  intro touched
  cases operation with
  | subscribe scope =>
    obtain rfl : id = w.state.nextId := touched
    exact owned (sound.unused _ (Nat.le_refl _)).1
  | next h =>
    obtain rfl : id = h.id := touched
    exact owned (List.isEmpty_iff.mp spares)
  | abandon h =>
    obtain rfl : id = h.id := touched
    exact owned (List.isEmpty_iff.mp spares)
  | unsubscribe h => cases touched
  | serves routes => cases touched

theorem Sound.others (operation : Operation) : (w.others a operation).Sound a := by
  unfold Wire.others
  split
  next spares => exact sound.elsewhere (fun id owned => sound.not_touches spares owned)
  next => exact sound

omit sound in
theorem others_log (a : Api) (operation : Operation) (w : Wire) :
    (w.others a operation).log = w.log := by
  unfold Wire.others
  split <;> rfl

omit sound in
theorem le_nextId_others (a : Api) (operation : Operation) (w : Wire) :
    w.state.nextId ≤ (w.others a operation).state.nextId := by
  unfold Wire.others
  split
  · exact operation.le_nextId_effect
  · exact Nat.le_refl _

theorem Sound.reads_others {h : Handle} (reads : w.Reads h) (operation : Operation) :
    (w.others a operation).Reads h := by
  unfold Wire.others
  split
  next spares =>
    obtain ⟨c, found⟩ := reads.follows
    have spared := sound.not_touches spares reads.owns
    exact ⟨reads.owns, ⟨c, (Operation.lookup_effect spared).trans found⟩, reads.calm⟩
  next => exact reads

/-- The stream of a subscription that is read does not end without a fault, and unless a fault is
told the subscription is read on. -/
theorem Sound.reads_next {h : Handle} (reads : w.Reads h) :
    (a.wire.next h w).1 ≠ .ended ∧ ((∀ f, (a.wire.next h w).1 ≠ .fault f) →
      (a.wire.next h w).2.Reads h) := by
  obtain ⟨c, found⟩ := reads.follows
  obtain ⟨c', took⟩ := sound.took reads.owns found
  have owns : (a.wire.next h w).2.Owns h.id := reads.owns.perform a (.next h)
  generalize (a.wire.next h w).1 = item, (a.wire.next h w).2 = w' at took owns
  constructor
  · intro ended
    have done := took.advances.ended ended
    obtain ⟨t, met⟩ := done.trouble
    have told : .fault t.fault ∈ Cluster.told a.decoder (newsOf (exchanges h.id w'.log)) :=
      fault_mem_told_iff.mpr ⟨t, met, rfl⟩
    rw [← done.told] at told
    exact reads.calm _ told
  · intro faultless
    refine ⟨owns, ⟨c', by rw [took.cursors, if_pos rfl]⟩, ?_⟩
    intro f mem
    rw [took.items, if_pos rfl] at mem
    rcases List.mem_append.mp mem with old | new
    · exact reads.calm f old
    · cases item with
      | fault g => exact faultless g rfl
      | _ => simp [Cursor.shown] at new

/-- A subscription that was granted is read from then on. -/
theorem Sound.reads_subscribe {scope : Scope} {h : Handle}
    (granted : (a.wire.subscribe scope w).1 = .granted h) :
    h.id = w.state.nextId ∧ (a.wire.subscribe scope w).2.Reads h := by
  have follows := follows_of_granted granted
  have fresh : h.id = w.state.nextId := by
    have answer := (subscribe_eq a scope w.state).1
    change (a.subscribe scope w.state).1 = .granted h at granted
    rw [granted] at answer
    unfold Response.answer at answer
    split at answer <;> cases answer
    rfl
  obtain ⟨noExchange, noItem⟩ := sound.unused w.state.nextId (Nat.le_refl _)
  have owns : (a.wire.subscribe scope w).2.Owns h.id := by
    intro none
    have grows := (exchanges_cons_of_some rfl).trans (if_pos fresh.symm) |>.symm.trans none
    simp at grows
  refine ⟨fresh, owns, follows, ?_⟩
  intro f mem
  have silent : items h.id (a.wire.subscribe scope w).2.log = items h.id w.log :=
    items_cons_of_nil rfl
  rw [silent, fresh, noItem] at mem
  cases mem

end Wire

/-! ## What a session keeps -/

/-- The wire is sound, its log says what was called, and no stream was seen to end. -/
structure Tapped (a : Api) (x : Recorded Wire) : Prop where
  sound : x.state.Sound a
  calls : x.calls = x.state.log.map Note.call
  unended : ∀ h, .next h .ended ∉ x.calls

structure Attached (a : Api) (d : Delivery) (x : Recorded Wire) : Prop where
  tapped : Tapped a x
  reads : ∀ h, d.phase = .watching h → x.state.Reads h
  /-- The subscription that has expired is not the next one. -/
  expired : ∀ h, d.phase = .renewing h → h.id < x.state.state.nextId

namespace Tapped

variable {a : Api} {x : Recorded Wire} (tapped : Tapped a x)

include tapped

theorem unsubscribe (h : Handle) : Tapped a (a.wire.recorded.unsubscribe h x).2 where
  sound := tapped.sound.unsubscribe h
  calls := congrArg (_ :: ·) tapped.calls
  unended := by
    intro g mem
    rcases List.mem_cons.mp mem with new | old
    · cases new
    · exact tapped.unended g old

theorem abandon (h : Handle) : Tapped a (a.wire.recorded.abandon h x) :=
  ⟨tapped.sound.abandon h, tapped.calls, tapped.unended⟩

theorem subscribe (scope : Scope) : Tapped a (a.wire.recorded.subscribe scope x).2 where
  sound := tapped.sound.subscribe scope
  calls := congrArg (_ :: ·) tapped.calls
  unended := by
    intro g mem
    rcases List.mem_cons.mp mem with new | old
    · cases new
    · exact tapped.unended g old

theorem next {h : Handle} (reads : x.state.Reads h) : Tapped a (a.wire.recorded.next h x).2 where
  sound := tapped.sound.next h (fun _ _ => reads.owns)
  calls := congrArg (_ :: ·) tapped.calls
  unended := by
    intro g mem
    rcases List.mem_cons.mp mem with new | old
    · have ended : (a.wire.next h x.state).1 = .ended := (TransportCall.next.inj new).2.symm
      exact (tapped.sound.reads_next reads).1 ended
    · exact tapped.unended g old

end Tapped

/-- A delivery that has ended reads nothing. -/
theorem Attached.of_ended {a : Api} {d : Delivery} {x : Recorded Wire} {outcome : Watch.Outcome}
    (tapped : Tapped a x) (phase : d.phase = .ended outcome) : Attached a d x :=
  ⟨tapped, by simp [phase], by simp [phase]⟩

section Steps

variable {a : Api} {d : Delivery} {h : Handle} {x : Recorded Wire} {y : σ}

theorem attached_of_released (tapped : Tapped a x) (s : Watch.Step (Recorded Wire) σ)
    (transport : s.transport = a.wire.recorded.abandon h (a.wire.recorded.unsubscribe h x).2)
    (ended : ∃ outcome, s.delivery.phase = .ended outcome) : Attached a s.delivery s.transport := by
  obtain ⟨outcome, phase⟩ := ended
  rw [transport]
  exact .of_ended ((tapped.unsubscribe h).abandon h) phase

theorem attached_escalate (tapped : Tapped a x) (f : Fault) (before : List Watch.Act) :
    Attached a (d.escalate a.wire.recorded h f before x y).delivery
      (d.escalate a.wire.recorded h f before x y).transport := by
  apply attached_of_released tapped
  · unfold Delivery.escalate
    dsimp only
    split <;> rfl
  · unfold Delivery.escalate
    dsimp only
    split <;> exact ⟨_, rfl⟩

theorem attached_expire (tapped : Tapped a x) (known : h.id < x.state.state.nextId) :
    Attached a (d.expire a.wire.recorded h x y).delivery
      (d.expire a.wire.recorded h x y).transport := by
  have same : (a.wire.recorded.unsubscribe h x).2.state.state.nextId = x.state.state.nextId :=
    (unsubscribe_cursors x.state.state h).2
  have renews : ∀ e : Delivery, e.phase = .renewing h →
      Attached a e (a.wire.recorded.unsubscribe h x).2 := by
    intro e phase
    refine ⟨tapped.unsubscribe h, by simp [phase], ?_⟩
    intro g renewing
    obtain rfl : h = g := by simpa [phase] using renewing
    exact same ▸ known
  unfold Delivery.expire
  dsimp only
  split
  · exact .of_ended ((tapped.unsubscribe h).abandon h) rfl
  · exact renews _ rfl

theorem attached_renew (tapped : Tapped a x) (known : h.id < x.state.state.nextId) :
    Attached a (d.renew a.wire.recorded h x y).delivery
      (d.renew a.wire.recorded h x y).transport := by
  have asked := tapped.subscribe d.scope
  unfold Delivery.renew
  rcases answer : a.wire.recorded.subscribe d.scope x with ⟨fresh | f | _, x'⟩
    <;> rw [answer] at asked
  · have granted : (a.wire.subscribe d.scope x.state).1 = .granted fresh := congrArg Prod.fst answer
    obtain ⟨new, owns, follows, calm⟩ := tapped.sound.reads_subscribe granted
    have state : (a.wire.subscribe d.scope x.state).2 = x'.state :=
      congrArg (fun result => result.2.state) answer
    rw [state] at owns follows calm
    refine ⟨asked.abandon h, ?_, by simp⟩
    rintro g ⟨⟩
    have other : ¬ (Operation.abandon h).Touches x'.state.state fresh.id := by
      have apart : fresh.id ≠ h.id := by omega
      exact apart
    obtain ⟨c, found⟩ := follows
    exact ⟨owns, ⟨c, (@Operation.lookup_effect a _ _ (.abandon h) other).trans found⟩, calm⟩
  · exact .of_ended (asked.abandon h) rfl
  · exact ⟨asked, by simp, by simp⟩

theorem attached_take (sink : Sink σ) (attached : Attached a d x) (phase : d.phase = .watching h) :
    Attached a (d.take a.wire.recorded sink h x y).delivery
      (d.take a.wire.recorded sink h x y).transport := by
  have tapped := attached.tapped
  have reads := attached.reads h phase
  have read := tapped.next reads
  obtain ⟨unended, goesOn⟩ := tapped.sound.reads_next reads
  have known : h.id < (a.wire.recorded.next h x).2.state.state.nextId := by
    obtain ⟨c, found⟩ := reads.follows
    have before := tapped.sound.numbered.2 h.id (mem_of_lookup found)
    exact Nat.lt_of_lt_of_eq before (next_cursors a x.state.state h).1.symm
  have goes : (∀ f, (a.wire.recorded.next h x).1 ≠ .fault f) →
      Attached a d (a.wire.recorded.next h x).2 := by
    intro faultless
    refine ⟨read, ?_, by simp [phase]⟩
    intro g watching
    obtain rfl : h = g := by simpa [phase] using watching
    exact goesOn faultless
  rcases taken : a.wire.recorded.next h x with ⟨e | ⟨reason | reason⟩ | _ | _ | _, x'⟩ <;>
    rw [taken] at read known goes
  · rcases handled : sink e y with ⟨_ | message, y'⟩
    · simpa only [Delivery.take, taken, handled] using goes (by simp)
    · simpa only [Delivery.take, taken, handled] using
        attached_escalate read (Watch.crashFault message) [.delivered e]
  · simpa only [Delivery.take, taken] using attached_expire read known
  · simpa only [Delivery.take, taken] using attached_escalate read (.failed reason) []
  · exact absurd (congrArg Prod.fst taken) unended
  · simpa only [Delivery.take, taken] using goes (by simp)
  · simpa only [Delivery.take, taken] using goes (by simp)

end Steps

theorem keeps_attached (a : Api) (sink : Sink σ) :
    Delivery.Keeps a.wire.recorded sink (Attached a) where
  step := by
    intro d x y attached
    have tapped := attached.tapped
    have givesUp : ∀ h, Attached a (d.stopRenewal a.wire.recorded h x y).delivery
        (d.stopRenewal a.wire.recorded h x y).transport :=
      fun h => .of_ended (tapped.abandon h) rfl
    unfold Delivery.step
    cases phase : d.phase with
    | watching h =>
      dsimp only
      split
      · exact attached_of_released tapped _ rfl ⟨_, rfl⟩
      · exact attached_take sink attached phase
    | renewing h =>
      dsimp only
      split
      · exact givesUp h
      · exact attached_renew tapped (attached.expired h phase)
    | awaiting h =>
      dsimp only
      split
      · exact givesUp h
      · exact attached
    | ended outcome => exact attached
  ask := fun attached => { attached with }
  close := fun phase attached => .of_ended attached.tapped phase

theorem Attached.others {a : Api} {d : Delivery} {x : Recorded Wire} (attached : Attached a d x)
    (operation : Operation) : Attached a d { x with state := x.state.others a operation } := by
  obtain ⟨⟨sound, calls, unended⟩, reads, expired⟩ := attached
  refine ⟨⟨sound.others operation, ?_, unended⟩, ?_, ?_⟩
  · rw [Wire.others_log]
    exact calls
  · exact fun h phase => sound.reads_others (reads h phase) operation
  · exact fun h phase =>
      Nat.lt_of_lt_of_le (expired h phase) (Wire.le_nextId_others a operation x.state)

end WatchDispatch.Cluster
