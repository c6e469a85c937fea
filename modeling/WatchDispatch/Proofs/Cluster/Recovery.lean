import WatchDispatch.Proofs.Cluster.Sessions

/-!
# Recovery

What a session does about a fault is decided by the first trouble in the responses to its
subscription. If the server says that the resource version is gone, the session subscribes anew and
reports nothing on that account; any other trouble, and a fresh subscription that is refused, is
reported once and ends the session. A session that has come to rest has met every trouble that the
server has told it of.
-/

namespace WatchDispatch

open Cluster

namespace Watch

/-! ## Calls without a cause -/

/-- A session whose calls do not leave it failed or finished has met no cause in them. -/
theorem Orderly.causeless {scope : Scope} {calls : List TransportCall} (order : Orderly scope calls)
    (failed : ∀ h, callStage calls ≠ .failed h) (finished : callStage calls ≠ .finished) :
    calls.filterMap TransportCall.cause? = [] := by
  induction calls with
  | nil => rfl
  | cons call earlier ih =>
    obtain ⟨before, allowed⟩ := order
    have unfailed : ∀ h, callStage earlier ≠ .failed h := by
      intro h was
      rw [was] at allowed
      cases call with
      | unsubscribe g result =>
        have ends : callStage (.unsubscribe g result :: earlier) = .finished := by
          simp [callStage, was, CallStage.after]
        exact finished ends
      | _ => cases allowed
    have going : callStage earlier ≠ .finished := by
      intro was
      rw [was] at allowed
      cases allowed
    have quiet : call.cause? = none := by
      cases call with
      | unsubscribe h result => rfl
      | subscribe s answer =>
        cases answer with
        | refused f => exact absurd rfl finished
        | _ => rfl
      | next h item =>
        cases item with
        | ended => exact absurd rfl (failed h)
        | fault f =>
          cases f with
          | failed reason => exact absurd rfl (failed h)
          | expired reason => rfl
        | _ => rfl
    rw [List.filterMap_cons, quiet]
    exact ih before unfailed going

/-- A cause that is met is the one that is reported, and the session is over. -/
theorem View.Accounted.of_mem {σ : Type} {gvkKey : String} {scope : Scope} {v : View (Noted σ)}
    (accounted : v.Accounted gvkKey scope) {f : Fault} (mem : f ∈ causes v.calls v.sink.events) :
    v.delivery.isRunning = false ∧ v.delivery.state = .closed ∧
      v.reports = some [⟨gvkKey, scope, f⟩] := by
  have some : causes v.calls v.sink.events ≠ [] := List.ne_nil_of_mem mem
  have ended : v.delivery.isRunning = false := by
    cases running : v.delivery.isRunning with
    | false => rfl
    | true => exact absurd (accounted.running running) some
  refine ⟨ended, accounted.closed some, ?_⟩
  rcases accounted.ended ended with ⟨g, one⟩ | ⟨none, -⟩
  · obtain rfl : f = g := by simpa [one] using mem
    rw [accounted.reported, one]
    rfl
  · exact absurd none some

end Watch

namespace Cluster

open Watch

variable {σ : Type}

/-- What a session that was not asked to stop has done about every fault that it has read. -/
structure Recovers (a : Api) (gvkKey : String) (scope : Scope) (o : Owner Wire (Noted σ)) :
    Prop where
  /-- The fault is that of the first trouble in the responses to the subscription. -/
  first : ∀ h f asked, ⟨.next h (.fault f), asked⟩ ∈ o.wire.log →
    ∃ t, trouble? a.decoder (said h.id o.wire.log) = some t ∧ f = t.fault
  /-- A version that is gone: the subscription is given back, and a new one, which has asked nothing
  yet, asks from the baseline. -/
  gone : ∀ later h f asked earlier t, o.wire.log = later ++ ⟨.next h (.fault f), asked⟩ :: earlier →
    trouble? a.decoder (said h.id o.wire.log) = some t → t.IsGone → ∃ result,
    (later = [⟨.unsubscribe h result, none⟩] ∧ o.isRunning = true ∧ o.pool.reports = some []) ∨
    ∃ more id r, later = more ++
        [⟨.subscribe scope (r.answer ⟨id, scope⟩), some ⟨id, a.pathOf scope, "0", r⟩⟩,
          ⟨.unsubscribe h result, none⟩] ∧
      exchanges id earlier = [] ∧
      -- If it is granted, what is reported has its cause in what comes afterwards.
      (r.error? = none → o.pool.reports =
        some ((causes (more.map Note.call) o.events).map (FatalFault.mk gvkKey scope))) ∧
      ∀ e, r.error? = some e → more = [] ∧ o.isRunning = false ∧
        o.pool.reports = some [⟨gvkKey, scope, renewalFault e.fault⟩]
  /-- Any other trouble: the subscription is given back, and the fault is reported. -/
  other : ∀ later h f asked earlier t,
    o.wire.log = later ++ ⟨.next h (.fault f), asked⟩ :: earlier →
    trouble? a.decoder (said h.id o.wire.log) = some t → ¬ t.IsGone →
    (∃ result, later = [⟨.unsubscribe h result, none⟩]) ∧ o.isRunning = false ∧
      o.pool.reports = some [⟨gvkKey, scope, f⟩] ∧ f.isTransient = false

/-- A session at rest has read every trouble that its subscriptions were told of, and where the
version was gone it has subscribed again. -/
def Recovered (a : Api) (scope : Scope) (o : Owner Wire (Noted σ)) : Prop :=
  ∀ s h asked, ⟨.subscribe s (.granted h), asked⟩ ∈ o.wire.log →
    ∀ t, trouble? a.decoder (said h.id o.wire.log) = some t →
    ∃ later asked earlier, o.wire.log = later ++ ⟨.next h (.fault t.fault), asked⟩ :: earlier ∧
      (t.IsGone → ∃ more id r result, later = more ++
        [⟨.subscribe scope (r.answer ⟨id, scope⟩), some ⟨id, a.pathOf scope, "0", r⟩⟩,
          ⟨.unsubscribe h result, none⟩])

end Cluster

namespace Watch.View.OnWire

variable {σ : Type} {a : Api} {gvkKey : String} {scope : Scope} {v : View (Noted σ)}
    {x : Recorded Wire}
  (onWire : v.OnWire a gvkKey scope x) {h : Handle} {asked : Option Exchange}

include onWire

theorem trouble_of_fault {f : Fault} (mem : ⟨.next h (.fault f), asked⟩ ∈ x.state.log) :
    ∃ t, trouble? a.decoder (said h.id x.state.log) = some t ∧ f = t.fault := by
  have shown : .fault f ∈ Note.shown h.id ⟨.next h (.fault f), asked⟩ := by
    simp [Note.shown, Cursor.shown]
  have told := (onWire.attached.tapped.sound.told h.id).subset (items_of_mem mem shown)
  obtain ⟨t, met, same⟩ := fault_mem_told_iff.mp told
  exact ⟨t, met, same.symm⟩

theorem fault_eq {later earlier : List Note} {f : Fault} {t : Trouble}
    (split : x.state.log = later ++ ⟨.next h (.fault f), asked⟩ :: earlier)
    (met : trouble? a.decoder (said h.id x.state.log) = some t) : f = t.fault := by
  have mem : ⟨.next h (.fault f), asked⟩ ∈ x.state.log := by simp [split]
  obtain ⟨t', also, rfl⟩ := onWire.trouble_of_fault mem
  obtain rfl : t = t' := Option.some.inj (met.symm.trans also)
  rfl

theorem whole : ¬ Crashed v.calls := by
  rintro ⟨h, mem⟩
  rw [onWire.calls] at mem
  obtain ⟨note, there, call⟩ := List.mem_map.mp mem
  obtain ⟨later, earlier, split⟩ := List.append_of_mem there
  have fitting := onWire.fitting
  rw [split] at fitting
  exact (fitting.of_append.1.eq_of_unsubscribe call).2 rfl

/-- Why a session that was not asked to stop has ended. -/
theorem ended_cases (unasked : v.delivery.stopAsked = false)
    (ended : v.delivery.isRunning = false) :
    callStage v.calls = .finished ∨ ∃ h, callStage v.calls = .cut h ∧
    ∃ entry ∈ v.sink.events, entry.2 ≠ .done := by
  rcases onWire.ordered.ended ended with finished | stopped | cut | crashed
  · exact .inl finished
  · simp [unasked] at stopped
  · exact .inr cut
  · exact absurd crashed onWire.whole

theorem running_of_callStage (unasked : v.delivery.stopAsked = false)
    (unfinished : callStage v.calls ≠ .finished) (uncut : ∀ h, callStage v.calls ≠ .cut h) :
    v.delivery.isRunning = true := by
  cases running : v.delivery.isRunning with
  | true => rfl
  | false =>
    rcases onWire.ended_cases unasked running with finished | ⟨h, cut, -⟩
    · exact absurd finished unfinished
    · exact absurd cut (uncut h)

/-- Calls after which the session goes on have met no cause. -/
theorem causes_of_going {more earlier : List TransportCall} (split : v.calls = more ++ earlier)
    (failed : ∀ h, callStage earlier ≠ .failed h) (finished : callStage earlier ≠ .finished) :
    causes v.calls v.sink.events = causes more v.sink.events := by
  have order := onWire.ordered.orderly
  rw [split] at order
  have quiet := order.of_append.causeless failed finished
  rw [split, causes, List.filterMap_append, quiet, List.append_nil]
  rfl

/-- After a refusal the session has called nobody, and the refusal is what it has reported. -/
theorem refused {later earlier : List Note} {s : Scope} {f : Fault}
    (split : x.state.log = later ++ ⟨.subscribe s (.refused f), asked⟩ :: earlier) :
    later = [] ∧ v.delivery.isRunning = false ∧ v.delivery.state = .closed ∧
      v.reports = some [⟨gvkKey, scope, renewalFault f⟩] := by
  have order := onWire.ordered.orderly
  rw [onWire.calls, split, List.map_append] at order
  have met : renewalFault f ∈ causes v.calls v.sink.events := by
    simp [causes, onWire.calls, split, TransportCall.cause?]
  exact ⟨List.map_eq_nil_iff.mp order.after_refused, onWire.accounted.of_mem met⟩

/-- What has become of a gone version. -/
theorem gone {later earlier : List Note} {f : Fault} {t : Trouble}
    (split : x.state.log = later ++ ⟨.next h (.fault f), asked⟩ :: earlier) (same : f = t.fault)
    (isGone : t.IsGone) (unasked : v.delivery.stopAsked = false) : ∃ result,
    (later = [⟨.unsubscribe h result, none⟩] ∧ v.delivery.isRunning = true ∧ v.reports = some []) ∨
    ∃ more id r, later = more ++
        [⟨.subscribe scope (r.answer ⟨id, scope⟩), some ⟨id, a.pathOf scope, "0", r⟩⟩,
          ⟨.unsubscribe h result, none⟩] ∧
      exchanges id earlier = [] ∧
      (r.error? = none → v.reports =
        some ((causes (more.map Note.call) v.sink.events).map (FatalFault.mk gvkKey scope))) ∧
      ∀ e, r.error? = some e → more = [] ∧ v.delivery.isRunning = false ∧
        v.reports = some [⟨gvkKey, scope, renewalFault e.fault⟩] := by
  obtain ⟨reason, expired⟩ := Trouble.expired_of_gone isGone
  obtain rfl : f = .expired reason := same.trans expired
  have calls := onWire.calls
  obtain ⟨result, rfl | ⟨more, id, r, rfl, unasked'⟩⟩ := onWire.after_expired split
  · refine ⟨result, .inl ⟨rfl, ?_⟩⟩
    have asking : callStage v.calls = .asking := by simp [calls, split, callStage, CallStage.after]
    have running : v.delivery.isRunning = true :=
      onWire.running_of_callStage unasked (by simp [asking]) (by simp [asking])
    refine ⟨running, ?_⟩
    rw [onWire.accounted.reported, onWire.accounted.running running]
    rfl
  · refine ⟨result, .inr ⟨more, id, r, rfl, unasked', ?_, ?_⟩⟩
    · intro granted
      have answer : r.answer ⟨id, scope⟩ = .granted ⟨id, scope⟩ := by
        simp [Response.answer, granted]
      have front : v.calls = more.map Note.call ++ (.subscribe scope (.granted ⟨id, scope⟩) ::
          .unsubscribe h result :: .next h (.fault (.expired reason)) ::
          earlier.map Note.call) := by
        simp [calls, split, answer]
      rw [onWire.accounted.reported,
        onWire.causes_of_going front (by simp [callStage, CallStage.after])
        (by simp [callStage, CallStage.after])]
    · intro e failed
      have answer : r.answer ⟨id, scope⟩ = .refused e.fault := by simp [Response.answer, failed]
      have front : x.state.log = more ++ ⟨.subscribe scope (.refused e.fault),
          some ⟨id, a.pathOf scope, baseline, r⟩⟩ :: ⟨.unsubscribe h result, none⟩ ::
            ⟨.next h (.fault (.expired reason)), asked⟩ :: earlier := by
        rw [split, answer]
        simp
      obtain ⟨none, ended, -, reported⟩ := onWire.refused front
      exact ⟨none, ended, reported⟩

theorem other {later earlier : List Note} {f : Fault} {t : Trouble}
    (split : x.state.log = later ++ ⟨.next h (.fault f), asked⟩ :: earlier) (same : f = t.fault)
    (other : ¬ t.IsGone) : (∃ result, later = [⟨.unsubscribe h result, none⟩]) ∧
      v.delivery.isRunning = false ∧ v.reports = some [⟨gvkKey, scope, f⟩] ∧
      f.isTransient = false := by
  obtain ⟨reason, failed⟩ := Trouble.fault_of_not_gone other
  rw [failed] at same
  subst same
  have met : Fault.failed reason ∈ causes v.calls v.sink.events := by
    simp [causes, onWire.calls, split, TransportCall.cause?]
  obtain ⟨ended, -, reported⟩ := onWire.accounted.of_mem met
  exact ⟨onWire.after_failed split, ended, reported, rfl⟩

/-! ## At rest -/

/-- A session at rest that goes on waits for an answer, or its subscription has no more to tell. -/
theorem resting_callStage (made : v.calls ≠ []) (unqueued : v.queued = false)
    (running : v.delivery.isRunning = true) :
    callStage v.calls = .waiting ∨
      ∃ h, callStage v.calls = .reading h ∧ trouble? a.decoder (said h.id x.state.log) = none := by
  have fits := onWire.ordered.fits
  rcases onWire.resting unqueued running with none | ⟨h, phase⟩ | ⟨h, phase, idle⟩
  · exact absurd none made
  · rw [phase] at fits
    exact .inl fits
  · rw [phase] at fits
    rw [onWire.calls, List.head?_map] at idle
    obtain ⟨note, first, call⟩ := Option.map_eq_some_iff.mp idle
    have off := onWire.attached.tapped.sound.idle note first h call
    exact .inr ⟨h, fits, off.calm⟩

theorem met_of_rest (unasked : v.delivery.stopAsked = false) (unqueued : v.queued = false)
    {s : Scope} (granted : ⟨.subscribe s (.granted h), asked⟩ ∈ x.state.log) {t : Trouble}
    (trouble : trouble? a.decoder (said h.id x.state.log) = some t) :
    (∃ entry ∈ v.sink.events, entry.2 ≠ .done) ∨
      ∃ asked, ⟨.next h (.fault t.fault), asked⟩ ∈ x.state.log := by
  have called : .subscribe s (.granted h) ∈ v.calls := by
    rw [onWire.calls]
    exact List.mem_map.mpr ⟨_, granted, rfl⟩
  have made : v.calls ≠ [] := List.ne_nil_of_mem called
  rcases onWire.ordered.orderly.of_granted called with reading | cut | ended | ⟨f, met⟩
  · -- The subscription that is still read would have something left to tell.
    have running : v.delivery.isRunning = true :=
      onWire.running_of_callStage unasked (by simp [reading]) (by simp [reading])
    rcases onWire.resting_callStage made unqueued running with waiting | ⟨g, also, calm⟩
    · simp [reading] at waiting
    · obtain rfl : h = g := by simpa [reading] using also
      simp [trouble] at calm
  · cases running : v.delivery.isRunning with
    | true =>
      rcases onWire.resting_callStage made unqueued running with waiting | ⟨g, also, -⟩
      · simp [cut] at waiting
      · simp [cut] at also
    | false =>
      rcases onWire.ended_cases unasked running with finished | ⟨g, -, crashed⟩
      · simp [cut] at finished
      · exact .inl crashed
  · rw [onWire.calls, ← onWire.attached.tapped.calls] at ended
    exact absurd ended (onWire.attached.tapped.unended h)
  · rw [onWire.calls] at met
    obtain ⟨⟨call, asked⟩, mem, rfl⟩ := List.mem_map.mp met
    obtain ⟨t', also, rfl⟩ := onWire.trouble_of_fault mem
    obtain rfl : t = t' := Option.some.inj (trouble.symm.trans also)
    exact .inr ⟨asked, mem⟩

theorem recovered (unasked : v.delivery.stopAsked = false) (unqueued : v.queued = false)
    (taken : ∀ entry ∈ v.sink.events, entry.2 = .done) {s : Scope}
    (granted : ⟨.subscribe s (.granted h), asked⟩ ∈ x.state.log) {t : Trouble}
    (trouble : trouble? a.decoder (said h.id x.state.log) = some t) :
    ∃ later asked earlier, x.state.log = later ++ ⟨.next h (.fault t.fault), asked⟩ :: earlier ∧
      (t.IsGone → ∃ more id r result, later = more ++
        [⟨.subscribe scope (r.answer ⟨id, scope⟩), some ⟨id, a.pathOf scope, "0", r⟩⟩,
          ⟨.unsubscribe h result, none⟩]) := by
  rcases onWire.met_of_rest unasked unqueued granted trouble with ⟨entry, mem, crashed⟩ |
    ⟨again, met⟩
  · exact absurd (taken entry mem) crashed
  · obtain ⟨later, earlier, split⟩ := List.append_of_mem met
    refine ⟨later, again, earlier, split, ?_⟩
    intro isGone
    obtain ⟨result, ⟨rfl, running, -⟩ | ⟨more, id, r, renewed, -⟩⟩ :=
      onWire.gone split rfl isGone unasked
    · -- A session that is about to subscribe again does not rest.
      have called : .next h (.fault t.fault) ∈ v.calls := by
        rw [onWire.calls]
        exact List.mem_map.mpr ⟨_, met, rfl⟩
      obtain ⟨reason, expired⟩ : ∃ reason, t.fault = .expired reason :=
        Trouble.expired_of_gone isGone
      have asking : callStage v.calls = .asking := by
        simp [onWire.calls, split, expired, callStage, CallStage.after]
      rcases onWire.resting_callStage (List.ne_nil_of_mem called) unqueued running with
        waiting | ⟨g, reading, -⟩
      · simp [asking] at waiting
      · simp [asking] at reading
    · exact ⟨more, id, r, result, renewed⟩

end Watch.View.OnWire

namespace Watch

variable {σ : Type}

/-- Over a cluster a session comes to rest. -/
theorem Owner.served_rests {a : Api} {sink : Sink σ} {o : Owner Wire (Noted σ)}
    (attached : o.pool.Alone (Attached a)) (run : List (Happening Operation σ)) :
    (o.served a sink (.settle :: run)).pool.ready = [] := by
  have alone : (o.served a sink run).pool.Alone (Attached a) := served_attached attached run
  obtain ⟨d, -, there⟩ := alone
  exact (Pool.settle_rests (wire_dwindles a).recorded sink.noted there.tapped.sound.numbered).2

end Watch

namespace Cluster

open Watch

/-- A session over a cluster, whatever the server answers and whatever others do there. If the first
request of its subscription fails, the session is refused with the fault of the error, and no
delivery is started. If it opens a stream, the session is opened; unless it is asked to stop, it
recovers from every version that is gone by a fresh subscription and reports any other trouble once;
and once it rests, it has met every trouble that it was told of, unless its sink has crashed. -/
theorem faults_recovered {σ : Type} (a : Api) (sink : Sink σ) (gvkKey : String) (scope : Scope)
    (server : Server) (before : List Operation) (y : σ) :
    let w := Wire.joined a server before
    let r := (w.state.server.watch a.params (a.pathOf scope) baseline).1
    (∀ e, r.error? = some e → ∀ p : Pool (Recorded Wire) (Noted σ), p.transport.state = w →
      let opening := p.openSession a.wire.recorded sink.noted gvkKey scope
      opening.1 = .refused e.fault ∧ opening.2.deliveries.length = p.deliveries.length) ∧
    (r.error? = none → ∃ o, Owner.open? a.wire sink.noted gvkKey scope w ⟨y, []⟩ = some o ∧
      ∀ run, run.any Happening.asksStop = false →
        let rested := o.served a sink (.settle :: run)
        Recovers a gvkKey scope (o.served a sink run) ∧
          ((∀ entry ∈ rested.events, entry.2 = .done) → Recovered a scope rested)) := by
  intro w r
  have answer : (a.wire.subscribe scope w).1 = r.answer ⟨w.state.nextId, scope⟩ :=
    (subscribe_eq a scope w.state).1
  constructor
  · intro e failed p same
    have refuses : r.answer ⟨w.state.nextId, scope⟩ = .refused e.fault := by
      simp [Response.answer, failed]
    have refused : a.wire.recorded.subscribe scope p.transport =
        (.refused e.fault, (a.wire.recorded.subscribe scope p.transport).2) := by
      rw [refuses, ← same] at answer
      exact Prod.ext answer rfl
    exact Pool.openSession_of_refused refused
  · intro opens
    have grants : r.answer ⟨w.state.nextId, scope⟩ = .granted ⟨w.state.nextId, scope⟩ := by
      simp [Response.answer, opens]
    have granted : a.wire.subscribe scope w =
        (.granted ⟨w.state.nextId, scope⟩, (a.wire.subscribe scope w).2) :=
      Prod.ext (answer.trans grants) rfl
    obtain ⟨o, opened⟩ : ∃ o, Owner.open? a.wire sink.noted gvkKey scope w ⟨y, []⟩ = some o :=
      ⟨_, Owner.open?_of_granted granted⟩
    refine ⟨o, opened, ?_⟩
    intro run unstopped rested
    constructor
    · obtain ⟨v, shows, onWire, asked⟩ := Owner.served_onWire opened run
      rw [unstopped] at asked
      have events : (o.served a sink run).events = v.sink.events := shows.events_eq
      constructor
      · exact fun h f asked mem => onWire.trouble_of_fault mem
      · intro later h f again earlier t split met isGone
        rw [events, shows.isRunning_eq, shows.reports_eq]
        exact onWire.gone split (onWire.fault_eq split met) isGone asked
      · intro later h f again earlier t split met other
        rw [shows.isRunning_eq, shows.reports_eq]
        exact onWire.other split (onWire.fault_eq split met) other
    · intro taken s h again granted t met
      obtain ⟨v, shows, onWire, asked⟩ := Owner.served_onWire opened (.settle :: run)
      have unasked : v.delivery.stopAsked = false := asked.trans unstopped
      have alone := Owner.open?_attached (Wire.sound_joined a server before) rfl opened
      have rests : rested.pool.ready = [] := Owner.served_rests alone run
      have unqueued : v.queued = false := by
        cases queued : v.queued with
        | false => rfl
        | true =>
          have mem := Pool.Shows.queued shows queued
          rw [rests] at mem
          cases mem
      rw [shows.events_eq] at taken
      exact onWire.recovered unasked unqueued taken granted met

end Cluster

end WatchDispatch
