import WatchDispatch.Proofs.Watch.Diaries
import WatchDispatch.Proofs.Watch.FeedsAtScope

/-!
# Steps at one scope

Deliveries of several scopes share a transport in memory. The step of one leaves the feeds of the
other scopes as they are; and two deliveries of one scope that are alike up to the numbers of their
subscriptions take steps that are alike, whatever has been done to the other feeds.
-/

namespace WatchDispatch.Watch

variable {τ σ : Type} {b : Scope} {r r' : Renaming} {ids : List Nat}

/-! ## Names of subscriptions -/

/-- A subscription to this scope, and what it is called on the other side. -/
structure Renaming.Names (r : Renaming) (b : Scope) (h h' : Handle) : Prop where
  pair : (h.id, h'.id) ∈ r
  scope : h.scope = b
  scope' : h'.scope = b

theorem Renaming.Names.mono {h h' : Handle} (renamed : r.Names b h h') (more : r ⊆ r') :
    r'.Names b h h' :=
  ⟨more renamed.pair, renamed.scope, renamed.scope'⟩

def ReleaseMode.answer (h : Handle) (mode : ReleaseMode) : Released :=
  (Feeds.unsubscribe h { Feeds.start with modes := fun _ => mode }).1

theorem Feeds.unsubscribe_eq (h : Handle) (x : Feeds) :
    x.unsubscribe h = ((x.modes h.scope).answer h, x.note h.scope s!"unsubscribe {h.label}") := by
  cases mode : x.modes h.scope <;>
    simp [Feeds.unsubscribe, Feeds.note, mode, ReleaseMode.answer]

/-- Calls that differ in the names of subscriptions only. -/
inductive TransportCall.Renamed (b : Scope) (r : Renaming) : TransportCall → TransportCall → Prop
  | granted {h h'} :
      r.Names b h h' → Renamed b r (.subscribe b (.granted h)) (.subscribe b (.granted h'))
  | refused (f) : Renamed b r (.subscribe b (.refused f)) (.subscribe b (.refused f))
  | unanswered : Renamed b r (.subscribe b .unanswered) (.subscribe b .unanswered)
  | unsubscribe {h h'} (mode : ReleaseMode) : r.Names b h h' →
      Renamed b r (.unsubscribe h (mode.answer h)) (.unsubscribe h' (mode.answer h'))
  | next {h h'} (item) : r.Names b h h' → Renamed b r (.next h item) (.next h' item)

theorem TransportCall.Renamed.mono {call call' : TransportCall} (renamed : call.Renamed b r call')
    (more : r ⊆ r') : call.Renamed b r' call' := by
  cases renamed with
  | granted h => exact .granted (h.mono more)
  | refused f => exact .refused f
  | unanswered => exact .unanswered
  | unsubscribe mode h => exact .unsubscribe mode (h.mono more)
  | next item h => exact .next item (h.mono more)

inductive Act.Renamed (b : Scope) (r : Renaming) : Act → Act → Prop
  | subscribed {h h'} : r.Names b h h' → Renamed b r (.subscribed h) (.subscribed h')
  | released {h h'} (mode : ReleaseMode) : r.Names b h h' →
      Renamed b r (.released h (mode.answer h)) (.released h' (mode.answer h'))
  | refused (f) : Renamed b r (.refused f) (.refused f)
  | unanswered : Renamed b r .unanswered .unanswered
  | delivered (e) : Renamed b r (.delivered e) (.delivered e)
  | published (state) : Renamed b r (.published state) (.published state)
  | reported (f) : Renamed b r (.reported f) (.reported f)

theorem Act.Renamed.mono {act act' : Act} (renamed : act.Renamed b r act') (more : r ⊆ r') :
    act.Renamed b r' act' := by
  cases renamed with
  | subscribed h => exact .subscribed (h.mono more)
  | released mode h => exact .released mode (h.mono more)
  | refused f => exact .refused f
  | unanswered => exact .unanswered
  | delivered e => exact .delivered e
  | published state => exact .published state
  | reported f => exact .reported f

/-- What does not look at names sees the same in acts that differ in names only. -/
theorem Act.filterMap_of_renamed {α : Type} {see : Act → Option α}
    (blind : ∀ act act', act.Renamed b r act' → see act' = see act) {acts acts' : List Act}
    (renamed : List.Forall₂ (Act.Renamed b r) acts acts') :
    acts'.filterMap see = acts.filterMap see := by
  induction renamed with
  | nil => rfl
  | cons same _ ih => rw [List.filterMap_cons, List.filterMap_cons, blind _ _ same, ih]

theorem Act.reports_of_renamed {acts acts' : List Act}
    (renamed : List.Forall₂ (Act.Renamed b r) acts acts') :
    Act.reports acts' = Act.reports acts := by
  apply Act.filterMap_of_renamed _ renamed
  rintro _ _ (_ | _ | _ | _ | _ | _ | _) <;> rfl

/-- The subscription that a delivery has or has had last. -/
def Phase.handle? : Phase → Option Handle
  | .watching h | .renewing h | .awaiting h => some h
  | .ended _ => none

/-- Deliveries stand at the same place. How one has ended is no matter any more. -/
inductive Phase.Renamed (b : Scope) (r : Renaming) : Phase → Phase → Prop
  | watching {h h'} : r.Names b h h' → Renamed b r (.watching h) (.watching h')
  | renewing {h h'} : r.Names b h h' → Renamed b r (.renewing h) (.renewing h')
  | awaiting {h h'} : r.Names b h h' → Renamed b r (.awaiting h) (.awaiting h')
  | ended (outcome outcome') : Renamed b r (.ended outcome) (.ended outcome')

theorem Phase.Renamed.mono {phase phase' : Phase} (renamed : phase.Renamed b r phase')
    (more : r ⊆ r') : phase.Renamed b r' phase' := by
  cases renamed with
  | watching h => exact .watching (h.mono more)
  | renewing h => exact .renewing (h.mono more)
  | awaiting h => exact .awaiting (h.mono more)
  | ended outcome outcome' => exact .ended outcome outcome'

structure Delivery.Renamed (b : Scope) (r : Renaming) (d d' : Delivery) : Prop where
  gvkKey : d'.gvkKey = d.gvkKey
  scope : d.scope = b
  scope' : d'.scope = b
  stopAsked : d'.stopAsked = d.stopAsked
  state : d'.state = d.state
  phase : d.phase.Renamed b r d'.phase

theorem Delivery.Renamed.isRunning_eq {d d' : Delivery} (renamed : d.Renamed b r d') :
    d'.isRunning = d.isRunning := by
  have same : ∀ {phase phase'}, Phase.Renamed b r phase phase' →
      ({ d' with phase := phase' } : Delivery).isRunning =
      ({ d with phase } : Delivery).isRunning := by
    rintro _ _ (_ | _ | _ | _) <;> rfl
  exact same renamed.phase

theorem Delivery.Renamed.mono {d d' : Delivery} (renamed : d.Renamed b r d') (more : r ⊆ r') :
    d.Renamed b r' d' :=
  { renamed with phase := renamed.phase.mono more }

/-- The first of two deliveries that are alike has one of the numbers on the first side. -/
theorem Phase.Renamed.names_left {phase phase' : Phase} (renamed : phase.Renamed b r phase')
    {h : Handle} (own : phase.handle? = some h) : h.scope = b ∧ h.id ∈ r.lefts := by
  cases renamed with
  | ended => cases own
  | watching names | renewing names | awaiting names =>
    cases own
    exact ⟨names.scope, Renaming.mem_lefts names.pair⟩

theorem Phase.Renamed.names_right {phase phase' : Phase} (renamed : phase.Renamed b r phase')
    {h : Handle} (own : phase'.handle? = some h) : h.scope = b ∧ h.id ∈ r.rights := by
  cases renamed with
  | ended => cases own
  | watching names | renewing names | awaiting names =>
    cases own
    exact ⟨names.scope', Renaming.mem_rights names.pair⟩

/-! ## Transports that note their calls -/

def TransportCall.scope : TransportCall → Scope
  | .subscribe scope _ => scope
  | .unsubscribe h _ => h.scope
  | .next h _ => h.scope

theorem TransportCall.Renamed.scope_eq {call call' : TransportCall}
    (renamed : call.Renamed b r call') : call.scope = b ∧ call'.scope = b := by
  cases renamed with
  | unsubscribe mode h => exact ⟨h.scope, h.scope'⟩
  | next item h => exact ⟨h.scope, h.scope'⟩
  | _ => exact ⟨rfl, rfl⟩

/-- The calls that are about this scope. -/
def Recorded.callsAt (b : Scope) (x : Recorded τ) : List TransportCall :=
  x.calls.filter (fun call => call.scope = b)

/-- Feeds that note their calls. -/
abbrev Feeds.recorded : Transport (Recorded Feeds) := Feeds.transport.recorded

namespace Recorded

variable {x x' y : Recorded Feeds} {scope : Scope} {h h' : Handle}

/-- What became of a transport by doings that have left the feeds of this scope as they were. -/
structure Beside (b : Scope) (ids : List Nat) (x y : Recorded Feeds) : Prop where
  feeds : x.state.Beside b ids y.state
  calls : y.callsAt b = x.callsAt b

namespace Beside

theorem refl (apart : x.state.Apart b ids) : x.Beside b ids x := ⟨.refl apart, rfl⟩

theorem trans {z : Recorded Feeds} (beside : x.Beside b ids y) (onward : y.Beside b ids z) :
    x.Beside b ids z :=
  ⟨beside.feeds.trans onward.feeds, onward.calls.trans beside.calls⟩

variable (beside : x.Beside b ids y)

include beside

/-- A call that is about another scope. -/
theorem record {state : Feeds} (feeds : x.state.Beside b ids state) (call : TransportCall)
    (other : call.scope ≠ b) : x.Beside b ids ⟨state, call :: y.calls⟩ := by
  refine ⟨feeds, ?_⟩
  rw [← beside.calls]
  simp [callsAt, other]

theorem subscribe (other : scope ≠ b) : x.Beside b ids (Feeds.recorded.subscribe scope y).2 :=
  beside.record (beside.feeds.subscribe other) (.subscribe scope _) other

theorem unsubscribe (other : h.scope ≠ b) : x.Beside b ids (Feeds.recorded.unsubscribe h y).2 :=
  beside.record (beside.feeds.unsubscribe h) (.unsubscribe h _) other

theorem next (other : h.scope ≠ b) (outside : h.id ∉ ids) :
    x.Beside b ids (Feeds.recorded.next h y).2 :=
  beside.record (beside.feeds.next outside) (.next h _) other

theorem abandon (outside : h.id ∉ ids) : x.Beside b ids (Feeds.recorded.abandon h y) :=
  ⟨beside.feeds.abandon outside, beside.calls⟩

end Beside

/-- The feeds of this scope hold the same and have taken the same calls, up to the names of
subscriptions. -/
structure Alike (b : Scope) (r : Renaming) (x x' : Recorded Feeds) : Prop where
  feeds : x.state.Alike b r x'.state
  calls : List.Forall₂ (TransportCall.Renamed b r) (x.callsAt b) (x'.callsAt b)

namespace Alike

theorem beside_left (alike : x.Alike b r x') (beside : x.Beside b r.lefts y) : y.Alike b r x' :=
  ⟨alike.feeds.beside_left beside.feeds, beside.calls ▸ alike.calls⟩

theorem beside_right (alike : x.Alike b r x') (beside : x'.Beside b r.rights y) : x.Alike b r y :=
  ⟨alike.feeds.beside_right beside.feeds, beside.calls ▸ alike.calls⟩

variable (alike : x.Alike b r x')

include alike

/-- Two calls that correspond. -/
theorem record {state state' : Feeds} {call call' : TransportCall} (feeds : state.Alike b r' state')
    (more : r ⊆ r') (renamed : call.Renamed b r' call') :
    Recorded.Alike b r' ⟨state, call :: x.calls⟩ ⟨state', call' :: x'.calls⟩ := by
  obtain ⟨here, here'⟩ := renamed.scope_eq
  refine ⟨feeds, ?_⟩
  simp only [callsAt, List.filter_cons, here, here', decide_true, if_true]
  exact .cons renamed (alike.calls.imp fun _ _ old => old.mono more)

theorem abandon (renamed : r.Names b h h') :
    (Feeds.recorded.abandon h x).Alike b r (Feeds.recorded.abandon h' x') := by
  refine ⟨alike.feeds.modify renamed.pair (fun _ => rfl) (fun _ => rfl) ?_, alike.calls⟩
  intro feed feed' same
  exact ⟨rfl, same.finished, rfl⟩

theorem unsubscribe (renamed : r.Names b h h') :
    ∃ mode : ReleaseMode, (Feeds.recorded.unsubscribe h x).1 = mode.answer h ∧
      (Feeds.recorded.unsubscribe h' x').1 = mode.answer h' ∧
      (Feeds.recorded.unsubscribe h x).2.Alike b r (Feeds.recorded.unsubscribe h' x').2 := by
  have answer := Feeds.unsubscribe_eq h x.state
  have answer' := Feeds.unsubscribe_eq h' x'.state
  rw [renamed.scope] at answer
  rw [renamed.scope', alike.feeds.mode] at answer'
  have feeds : Feeds.Alike b r (x.state.unsubscribe h).2 (x'.state.unsubscribe h').2 := by
    rw [answer, answer']
    exact alike.feeds.note _ _
  have call : TransportCall.Renamed b r (.unsubscribe h (x.state.unsubscribe h).1)
      (.unsubscribe h' (x'.state.unsubscribe h').1) := by
    rw [answer, answer']
    exact .unsubscribe _ renamed
  exact ⟨x.state.modes b, congrArg Prod.fst answer, congrArg Prod.fst answer',
    alike.record feeds (List.Subset.refl r) call⟩

theorem next (renamed : r.Names b h h') :
    (Feeds.recorded.next h' x').1 = (Feeds.recorded.next h x).1 ∧
      (Feeds.recorded.next h x).2.Alike b r (Feeds.recorded.next h' x').2 := by
  have read : (x'.state.next h').1 = (x.state.next h).1 ∧
      (x.state.next h).2.Alike b r (x'.state.next h').2 := by
    rcases rel_cases (alike.feeds.feeds h.id h'.id renamed.pair) with
      ⟨found, found'⟩ | ⟨feed, feed', found, found', holds⟩
    · rw [Feeds.next_of_none found, Feeds.next_of_none found']
      exact ⟨rfl, alike.feeds⟩
    · cases queue : feed.queue with
      | nil =>
        rw [Feeds.next_of_nil found queue, Feeds.next_of_nil found' (holds.queue ▸ queue),
          holds.finished]
        exact ⟨rfl, alike.feeds⟩
      | cons item rest =>
        rw [Feeds.next_of_cons found queue, Feeds.next_of_cons found' (holds.queue ▸ queue)]
        refine ⟨rfl, alike.feeds.modify renamed.pair (fun _ => rfl) (fun _ => rfl) ?_⟩
        intro feed feed' same
        exact ⟨rfl, same.finished, same.abandoned⟩
  have call : TransportCall.Renamed b r (.next h (x.state.next h).1)
      (.next h' (x'.state.next h').1) := by
    rw [read.1]
    exact .next _ renamed
  exact ⟨read.1, alike.record read.2 (List.Subset.refl r) call⟩

/-- A subscription is answered alike; if it is granted, the two new names correspond. -/
theorem subscribe : ∃ r', r.Extends r' x.state.nextId x'.state.nextId ∧
    TransportCall.Renamed b r' (.subscribe b (Feeds.recorded.subscribe b x).1)
      (.subscribe b (Feeds.recorded.subscribe b x').1) ∧
    (Feeds.recorded.subscribe b x).2.Alike b r' (Feeds.recorded.subscribe b x').2 := by
  have answers : ∃ r', r.Extends r' x.state.nextId x'.state.nextId ∧
      TransportCall.Renamed b r' (.subscribe b (x.state.subscribe b).1)
        (.subscribe b (x'.state.subscribe b).1) ∧
      (x.state.subscribe b).2.Alike b r' (x'.state.subscribe b).2 := by
    have noted := alike.feeds.note s!"subscribe {b.label}" s!"subscribe {b.label}"
    have rule' := alike.feeds.rule
    cases rule : x.state.rules b with
    | hang =>
      rw [Feeds.subscribe_of_hang rule, Feeds.subscribe_of_hang (rule'.trans rule)]
      exact ⟨r, .refl r _ _, .unanswered, noted⟩
    | refuse f =>
      rw [Feeds.subscribe_of_refuse rule, Feeds.subscribe_of_refuse (rule'.trans rule)]
      exact ⟨r, .refl r _ _, .refused f, noted⟩
    | allow =>
      rw [Feeds.subscribe_of_allow rule, Feeds.subscribe_of_allow (rule'.trans rule)]
      have grown := noted.retire.add
      rw [Feeds.retire_nextId, Feeds.retire_nextId] at grown
      exact ⟨_, .cons r _ _, .granted ⟨List.mem_cons_self, rfl, rfl⟩,
        grown.fill (.some List.mem_cons_self)⟩
  obtain ⟨r', more, call, feeds⟩ := answers
  exact ⟨r', more, call, alike.record feeds more.more call⟩

end Alike

end Recorded

/-! ## A step at another scope -/

namespace Delivery

section Transports

variable {t : Transport τ} {P : τ → Prop} {d : Delivery} {x : τ}

theorem escalate_transport (t : Transport τ) (d : Delivery) (h : Handle) (f : Fault)
    (before : List Act) (x : τ) (y : σ) :
    (d.escalate t h f before x y).transport = t.abandon h (t.unsubscribe h x).2 := by
  simp only [escalate]
  split <;> rfl

theorem escalate_phase (t : Transport τ) (d : Delivery) (h : Handle) (f : Fault) (before : List Act)
    (x : τ) (y : σ) : (d.escalate t h f before x y).delivery.phase.handle? = none := by
  simp only [escalate]
  split <;> rfl

/-- A step asks the transport for its own scope and for the subscription that it has, and for
nothing else. -/
theorem step_transport_kept (sink : Sink σ) (y : σ)
    (subscribe : ∀ x, P x → P (t.subscribe d.scope x).2)
    (unsubscribe : ∀ h, d.phase.handle? = some h → ∀ x, P x → P (t.unsubscribe h x).2)
    (next : ∀ h, d.phase.handle? = some h → ∀ x, P x → P (t.next h x).2)
    (abandon : ∀ h, d.phase.handle? = some h → ∀ x, P x → P (t.abandon h x)) (start : P x) :
    P (d.step t sink x y).transport := by
  unfold step
  cases phase : d.phase with
  | ended outcome => exact start
  | awaiting h =>
    dsimp only
    split
    · exact abandon h (by rw [phase]; rfl) x start
    · exact start
  | renewing h =>
    have own : d.phase.handle? = some h := by rw [phase]; rfl
    have asked := subscribe x start
    dsimp only
    split
    · exact abandon h own x start
    · rcases answer : t.subscribe d.scope x with ⟨fresh | f | _, x'⟩ <;> rw [answer] at asked <;>
        simp only [renew, answer]
      · exact abandon h own x' asked
      · exact abandon h own x' asked
      · exact asked
  | watching h =>
    have own : d.phase.handle? = some h := by rw [phase]; rfl
    have gone : ∀ x, P x → P (t.abandon h (t.unsubscribe h x).2) :=
      fun x holds => abandon h own _ (unsubscribe h own x holds)
    have escalated : ∀ x' f before (y : σ), P x' → P (d.escalate t h f before x' y).transport := by
      intro x' f before y holds
      rw [escalate_transport]
      exact gone x' holds
    have read := next h own x start
    dsimp only
    split
    · exact gone x start
    · rcases taken : t.next h x with ⟨e | ⟨reason | reason⟩ | _ | _ | _, x'⟩
        <;> rw [taken] at read <;>
        simp only [take, taken]
      · split
        · exact read
        · exact escalated x' _ _ _ read
      · have back := unsubscribe h own x' read
        have gone := abandon h own _ back
        rcases released : t.unsubscribe h x' with ⟨_ | g | _, x''⟩
          <;> rw [released] at back gone <;>
          simp only [expire, released]
        · exact back
        · exact back
        · exact gone
      · exact escalated x' _ _ _ read
      · exact escalated x' _ _ _ read
      · exact read
      · exact read

/-- After a step a delivery has the subscription that it had, or one that it has just been
granted. -/
theorem step_handle (sink : Sink σ) (y : σ) {g : Handle}
    (found : (d.step t sink x y).delivery.phase.handle? = some g) :
    d.phase.handle? = some g ∨ ∃ h x', t.subscribe d.scope x = (.granted g, x') ∧
      (d.step t sink x y).transport = t.abandon h x' := by
  have ended : ∀ {outcome}, (Phase.ended outcome).handle? ≠ some g := by
    rintro outcome ⟨⟩
  unfold step at found ⊢
  cases phase : d.phase with
  | ended outcome =>
    rw [phase] at found
    exact absurd (phase ▸ found) ended
  | awaiting h =>
    rw [phase] at found
    dsimp only at found
    split at found
    · exact absurd found ended
    · exact .inl (phase ▸ found)
  | renewing h =>
    rw [phase] at found
    dsimp only at found ⊢
    split at found
    · exact absurd found ended
    next asked =>
      rw [if_neg asked]
      rcases answer : t.subscribe d.scope x with ⟨fresh | f | _, x'⟩
        <;> simp only [renew, answer] at found ⊢
      · obtain rfl : fresh = g := Option.some.inj found
        exact .inr ⟨h, x', rfl, rfl⟩
      · exact absurd found ended
      · exact .inl found
  | watching h =>
    rw [phase] at found
    dsimp only at found
    split at found
    · exact absurd found ended
    · refine .inl ?_
      rcases taken : t.next h x with ⟨e | ⟨reason | reason⟩ | _ | _ | _, x'⟩ <;>
        simp only [take, taken] at found
      · split at found
        · exact phase ▸ found
        · rw [escalate_phase] at found
          cases found
      · rcases released : t.unsubscribe h x' with ⟨_ | f | _, x''⟩
          <;> simp only [expire, released] at found
        · exact found
        · exact found
        · exact absurd found ended
      · rw [escalate_phase] at found
        cases found
      · rw [escalate_phase] at found
        cases found
      · exact phase ▸ found
      · exact phase ▸ found

end Transports

/-- The subscription of a delivery is one to its scope, and it has one of these numbers if that is
the scope that has them. -/
def Filed (b : Scope) (ids : List Nat) (x : Feeds) (d : Delivery) : Prop :=
  ∀ h, d.phase.handle? = some h → h.scope = d.scope ∧ (h.id ∈ ids ↔ d.scope = b) ∧ h.id < x.nextId

/-- New numbers belong to nobody yet. -/
theorem Filed.grow {d : Delivery} {x y : Feeds} {ids' : List Nat} (filed : d.Filed b ids x)
    (later : x.nextId ≤ y.nextId) (more : ids ⊆ ids') (fresh : ∀ i ∈ ids', i ∈ ids ∨ x.nextId ≤ i) :
    d.Filed b ids' y := by
  intro h own
  obtain ⟨scope, here, below⟩ := filed h own
  refine ⟨scope, ?_, Nat.lt_of_lt_of_le below later⟩
  rw [← here]
  constructor
  · intro mem
    rcases fresh h.id mem with old | new
    · exact old
    · omega
  · intro mem
    exact more mem

/-- What a transport grants is a subscription to the scope under the next number. -/
theorem granted_eq {scope : Scope} {x x' : Recorded Feeds} {g : Handle}
    (granted : Feeds.recorded.subscribe scope x = (.granted g, x')) :
    g = ⟨x.state.nextId, scope⟩ ∧ x'.state.nextId = x.state.nextId + 1 := by
  obtain ⟨answer, state⟩ := Prod.mk.inj granted
  have answer : (x.state.subscribe scope).1 = .granted g := answer
  have state : (x.state.subscribe scope).2 = x'.state := congrArg Recorded.state state
  cases rule : x.state.rules scope with
  | hang =>
    rw [Feeds.subscribe_of_hang rule] at answer
    cases answer
  | refuse f =>
    rw [Feeds.subscribe_of_refuse rule] at answer
    cases answer
  | allow =>
    rw [Feeds.subscribe_of_allow rule] at answer state
    cases answer
    refine ⟨rfl, ?_⟩
    rw [← state]
    change ((x.state.note scope _).retire scope).nextId + 1 = _
    rw [Feeds.retire_nextId]
    rfl

theorem subscribe_nextId (scope : Scope) (x : Feeds) : x.nextId ≤ (x.subscribe scope).2.nextId := by
  cases rule : x.rules scope with
  | hang => exact Nat.le_of_eq (by rw [Feeds.subscribe_of_hang rule]; rfl)
  | refuse f => exact Nat.le_of_eq (by rw [Feeds.subscribe_of_refuse rule]; rfl)
  | allow =>
    rw [Feeds.subscribe_of_allow rule]
    change x.nextId ≤ ((x.note scope _).retire scope).nextId + 1
    rw [Feeds.retire_nextId]
    exact Nat.le_succ _

theorem next_nextId (h : Handle) (x : Feeds) : (x.next h).2.nextId = x.nextId := by
  cases found : x.feed? h.id with
  | none => rw [Feeds.next_of_none found]
  | some feed =>
    cases queue : feed.queue with
    | nil => rw [Feeds.next_of_nil found queue]
    | cons item rest =>
      rw [Feeds.next_of_cons found queue]
      rfl

theorem step_nextId (sink : Sink σ) (d : Delivery) (x : Recorded Feeds) (y : σ) :
    x.state.nextId ≤ (d.step Feeds.recorded sink x y).transport.state.nextId := by
  apply step_transport_kept (P := fun z : Recorded Feeds => x.state.nextId ≤ z.state.nextId)
  · intro z later
    exact Nat.le_trans later (subscribe_nextId d.scope z.state)
  · intro h _ z later
    change x.state.nextId ≤ (z.state.unsubscribe h).2.nextId
    rw [Feeds.unsubscribe_eq]
    exact later
  · intro h _ z later
    exact Nat.le_trans later (Nat.le_of_eq (next_nextId h z.state).symm)
  · intro h _ z later
    exact later
  · exact Nat.le_refl _

/-- The step of a delivery of another scope leaves the feeds of this scope as they are. -/
theorem step_beside (sink : Sink σ) {d : Delivery} {x : Recorded Feeds} (y : σ)
    (other : d.scope ≠ b) (filed : d.Filed b ids x.state) (apart : x.state.Apart b ids) :
    x.Beside b ids (d.step Feeds.recorded sink x y).transport ∧
      (d.step Feeds.recorded sink x y).delivery.Filed b ids
        (d.step Feeds.recorded sink x y).transport.state := by
  have scope : (d.step Feeds.recorded sink x y).delivery.scope = d.scope := by
    obtain ⟨calls, handed, -, -, -, move⟩ := d.step_moves Feeds.transport sink x y
    exact move.own_eq.2
  have away : ∀ h, d.phase.handle? = some h → h.scope ≠ b ∧ h.id ∉ ids := by
    intro h own
    obtain ⟨own, here, -⟩ := filed h own
    exact ⟨own ▸ other, fun mem => other (here.mp mem)⟩
  have beside : x.Beside b ids (d.step Feeds.recorded sink x y).transport := by
    apply step_transport_kept (P := fun z => x.Beside b ids z)
    · intro z beside
      exact beside.subscribe other
    · intro h own z beside
      exact beside.unsubscribe (away h own).1
    · intro h own z beside
      exact beside.next (away h own).1 (away h own).2
    · intro h own z beside
      exact beside.abandon (away h own).2
    · exact .refl apart
  refine ⟨beside, ?_⟩
  intro g own
  rw [scope]
  rcases step_handle sink y own with old | ⟨h, x', granted, transport⟩
  · exact filed.grow beside.feeds.later (List.Subset.refl ids) (fun _ => .inl) g old
  · obtain ⟨rfl, next⟩ := granted_eq granted
    refine ⟨rfl, ⟨fun mem => absurd mem apart.next_notMem, fun here => absurd here other⟩, ?_⟩
    rw [transport]
    change x.state.nextId < x'.state.nextId
    rw [next]
    exact Nat.lt_succ_self _

end Delivery

/-! ## A step at the scope itself -/

/-- Two steps that are alike up to the names of subscriptions. -/
structure Step.Renamed (b : Scope) (r : Renaming) (s s' : Step (Recorded Feeds) σ) : Prop where
  delivery : s.delivery.Renamed b r s'.delivery
  transport : s.transport.Alike b r s'.transport
  acts : List.Forall₂ (Act.Renamed b r) s.acts s'.acts
  turn : s'.turn = s.turn

namespace Delivery.Renamed

variable {d d' : Delivery} {h h' : Handle} {x x' : Recorded Feeds} (renamed : d.Renamed b r d')
  (names : r.Names b h h') (alike : x.Alike b r x') (y y' : σ)

include renamed names alike

theorem stop : (d.stop Feeds.recorded h x y).Renamed b r (d'.stop Feeds.recorded h' x' y') := by
  obtain ⟨mode, answer, answer', back⟩ := alike.unsubscribe names
  refine ⟨⟨renamed.gvkKey, renamed.scope, renamed.scope', renamed.stopAsked, rfl, .ended _ _⟩,
    back.abandon names, ?_, rfl⟩
  simp only [Delivery.stop, answer, answer']
  exact .cons (.published _) (.cons (.released mode names) .nil)

theorem stopRenewal :
    (d.stopRenewal Feeds.recorded h x y).Renamed b r (d'.stopRenewal Feeds.recorded h' x' y') :=
  ⟨⟨renamed.gvkKey, renamed.scope, renamed.scope', renamed.stopAsked, rfl, .ended _ _⟩,
    alike.abandon names, .cons (.published _) .nil, rfl⟩

theorem escalate (f : Fault) {before before' : List Act}
    (acts : List.Forall₂ (Act.Renamed b r) before before') :
    (d.escalate Feeds.recorded h f before x y).Renamed b r
      (d'.escalate Feeds.recorded h' f before' x' y') := by
  have fatal : d'.fatal f = d.fatal f := by
    rw [Delivery.fatal, renamed.gvkKey, renamed.scope', ← renamed.scope, Delivery.fatal]
  obtain ⟨mode, answer, answer', back⟩ := alike.unsubscribe names
  have gone := back.abandon names
  have released := List.rel_append acts (.cons (.released mode names) .nil)
  have reported : List.Forall₂ (Act.Renamed b r) [.published .closed, .reported (d.fatal f)]
      [.published .closed, .reported (d'.fatal f)] := by
    rw [fatal]
    exact .cons (.published _) (.cons (.reported _) .nil)
  have closed := List.rel_append released reported
  simp only [List.append_assoc, List.singleton_append] at closed
  unfold Delivery.escalate
  simp only [answer, answer']
  cases mode
  case crash =>
    exact ⟨⟨renamed.gvkKey, renamed.scope, renamed.scope', renamed.stopAsked, renamed.state,
      .ended _ _⟩, gone, released, rfl⟩
  all_goals
    exact ⟨⟨renamed.gvkKey, renamed.scope, renamed.scope', renamed.stopAsked, rfl, .ended _ _⟩,
      gone, closed, rfl⟩

theorem expire :
    (d.expire Feeds.recorded h x y).Renamed b r (d'.expire Feeds.recorded h' x' y') := by
  obtain ⟨mode, answer, answer', back⟩ := alike.unsubscribe names
  have acts : List.Forall₂ (Act.Renamed b r) [.published .starting, .released h (mode.answer h)]
      [.published .starting, .released h' (mode.answer h')] :=
    .cons (.published _) (.cons (.released mode names) .nil)
  unfold Delivery.expire
  simp only [answer, answer']
  cases mode
  case crash =>
    exact ⟨⟨renamed.gvkKey, renamed.scope, renamed.scope', renamed.stopAsked, rfl, .ended _ _⟩,
      back.abandon names, acts, rfl⟩
  all_goals
    exact ⟨⟨renamed.gvkKey, renamed.scope, renamed.scope', renamed.stopAsked, rfl, .renewing names⟩,
      back, acts, rfl⟩

theorem renew : ∃ r', r.Extends r' x.state.nextId x'.state.nextId ∧
    (d.renew Feeds.recorded h x y).Renamed b r' (d'.renew Feeds.recorded h' x' y') := by
  obtain ⟨r', more, answered, asked⟩ := alike.subscribe
  have later := names.mono more.more
  have fatal : ∀ f, d'.fatal f = d.fatal f := by
    intro f
    rw [Delivery.fatal, renamed.gvkKey, renamed.scope', ← renamed.scope, Delivery.fatal]
  refine ⟨r', more, ?_⟩
  unfold Delivery.renew
  rw [renamed.scope, renamed.scope']
  rcases answer : Feeds.recorded.subscribe b x with ⟨result, x₁⟩
  rcases answer' : Feeds.recorded.subscribe b x' with ⟨result', x₁'⟩
  rw [answer, answer'] at answered asked
  cases answered with
  | granted fresh =>
    exact ⟨⟨renamed.gvkKey, rfl, rfl, renamed.stopAsked, rfl, .watching fresh⟩,
      asked.abandon later, .cons (.subscribed fresh) (.cons (.published _) .nil), rfl⟩
  | refused f =>
    refine ⟨⟨renamed.gvkKey, rfl, rfl, renamed.stopAsked, rfl, .ended _ _⟩,
      asked.abandon later, ?_, rfl⟩
    simp only [fatal]
    exact .cons (.refused f) (.cons (.published _) (.cons (.reported _) .nil))
  | unanswered =>
    exact ⟨⟨renamed.gvkKey, rfl, rfl, renamed.stopAsked, renamed.state, .awaiting later⟩,
      asked, .cons .unanswered .nil, rfl⟩

theorem take {sink : Sink σ} (calm : ∀ e y, (sink e y).1 = .done) :
    (d.take Feeds.recorded sink h x y).Renamed b r (d'.take Feeds.recorded sink h' x' y') := by
  obtain ⟨same, read⟩ := alike.next names
  have stays : ∀ {y y' : σ} {acts acts' turn}, List.Forall₂ (Act.Renamed b r) acts acts' →
      Step.Renamed b r ⟨d, (Feeds.recorded.next h x).2, y, acts, turn⟩
        ⟨d', (Feeds.recorded.next h' x').2, y', acts', turn⟩ :=
    fun acts => ⟨renamed, read, acts, rfl⟩
  unfold Delivery.take
  rcases taken : Feeds.recorded.next h x with ⟨item, x₁⟩
  rcases taken' : Feeds.recorded.next h' x' with ⟨item', x₁'⟩
  rw [taken, taken'] at same read stays
  obtain rfl : item' = item := same
  rcases item' with e | ⟨reason | reason⟩ | _ | _ | _
  · rcases handled : sink e y with ⟨answer, y₁⟩
    rcases handled' : sink e y' with ⟨answer', y₁'⟩
    obtain rfl : answer = .done := by rw [← calm e y, handled]
    obtain rfl : answer' = .done := by rw [← calm e y', handled']
    simp only [handled, handled']
    exact stays (.cons (.delivered e) .nil)
  · exact renamed.expire names read y y'
  · exact renamed.escalate names read y y' _ .nil
  · exact renamed.escalate names read y y' _ .nil
  · exact stays .nil
  · exact stays .nil

omit names

/-- Two deliveries that are alike take steps that are alike. -/
theorem step {sink : Sink σ} (calm : ∀ e y, (sink e y).1 = .done) :
    ∃ r', r.Extends r' x.state.nextId x'.state.nextId ∧
    (d.step Feeds.recorded sink x y).Renamed b r' (d'.step Feeds.recorded sink x' y') := by
  have same := Renaming.Extends.refl r x.state.nextId x'.state.nextId
  have phases := renamed.phase
  unfold Delivery.step
  cases phase : d.phase <;> cases phase' : d'.phase <;> rw [phase, phase'] at phases
    <;> cases phases <;>
    simp only [renamed.stopAsked]
  case watching.watching.watching names =>
    split
    · exact ⟨r, same, renamed.stop names alike y y'⟩
    · exact ⟨r, same, renamed.take names alike y y' calm⟩
  case renewing.renewing.renewing names =>
    split
    · exact ⟨r, same, renamed.stopRenewal names alike y y'⟩
    · exact renamed.renew names alike y y'
  case awaiting.awaiting.awaiting names =>
    split
    · exact ⟨r, same, renamed.stopRenewal names alike y y'⟩
    · exact ⟨r, same, renamed, alike, .nil, rfl⟩
  case ended.ended.ended => exact ⟨r, same, renamed, alike, .nil, rfl⟩

end Delivery.Renamed

end WatchDispatch.Watch
