import WatchDispatch.Proofs.Cluster.SharedTransport
import WatchDispatch.Proofs.Watch.Escalation
import WatchDispatch.Proofs.Watch.Exactness

/-!
# Runs of a session on the wire

An owner opens a session over a cluster that others use as well, before and meanwhile. Whatever
happens, the run is one of a session over some transport, so all that is known of those holds; and
the log of its wire says with which requests the calls were made.
-/

namespace WatchDispatch

open Cluster (Api Attached Exchange Fitting Note Operation Server Tapped Wire baseline exchanges
  exchanges_cons_of_none)

namespace Cluster

/-- The wire of somebody who comes to a cluster that others have used. -/
def Wire.joined (a : Api) (server : Server) (before : List Operation) : Wire :=
  ⟨((Wire.start server).after a before).state, []⟩

theorem Wire.sound_joined (a : Api) (server : Server) (before : List Operation) :
    (Wire.joined a server before).Sound a := by
  have started := Wire.sound_start a server
  exact Wire.sound_of_numbered a (started.1.after started.2 before).1.numbered

end Cluster

namespace Watch

variable {σ : Type}

/-- What happens on a wire: others do an operation there. -/
def Happening.onWire (a : Api) (w : Wire) : Happening Operation σ → Happening Wire σ
  | .requestStop => .requestStop
  | .drop => .drop
  | .finish => .finish
  | .close => .close
  | .abandonFinish => .abandonFinish
  | .wake => .wake
  | .turn => .turn
  | .settle => .settle
  | .elsewhere operation y => .elsewhere (w.others a operation) y

theorem Happening.onWire_asksStop (a : Api) (w : Wire) (happening : Happening Operation σ) :
    (happening.onWire a w).asksStop = happening.asksStop := by
  cases happening <;> rfl

namespace Owner

def wire (o : Owner Wire σ) : Wire := o.pool.transport.state

def served (a : Api) (sink : Sink σ) (o : Owner Wire (Noted σ)) :
    List (Happening Operation σ) → Owner Wire (Noted σ)
  | [] => o
  | happening :: earlier =>
    let o := o.served a sink earlier
    o.perform a.wire sink.noted ((happening.onWire a o.wire).noting o.events)

/-- A run over the wire is a run over a transport that others change. -/
theorem served_eq_observed (a : Api) (sink : Sink σ) (o : Owner Wire (Noted σ))
    (run : List (Happening Operation σ)) :
    ∃ run', o.served a sink run = o.observed a.wire sink run' ∧
      run'.any Happening.asksStop = run.any Happening.asksStop := by
  induction run with
  | nil => exact ⟨[], rfl, rfl⟩
  | cons happening earlier ih =>
    obtain ⟨run', same, asked⟩ := ih
    refine ⟨happening.onWire a (o.served a sink earlier).wire :: run', ?_, ?_⟩
    · simp only [served, observed, same]
      rfl
    · rw [List.any_cons, List.any_cons, Happening.onWire_asksStop, asked]

theorem served_attached {a : Api} {sink : Sink σ} {o : Owner Wire (Noted σ)}
    (attached : o.pool.Alone (Attached a)) (run : List (Happening Operation σ)) :
    (o.served a sink run).pool.Alone (Attached a) := by
  induction run with
  | nil => exact attached
  | cons happening earlier ih =>
    refine perform_alone (Cluster.keeps_attached a sink.noted) ih _ ?_
    intro w y same d attached
    cases happening <;> cases same
    exact attached.others _

theorem open?_attached {a : Api} {sink : Sink σ} {gvkKey : String} {scope : Scope} {w : Wire}
    {y : Noted σ} {o : Owner Wire (Noted σ)} (sound : w.Sound a) (empty : w.log = [])
    (opened : open? a.wire sink.noted gvkKey scope w y = some o) : o.pool.Alone (Attached a) := by
  obtain ⟨h, w', granted, rfl⟩ := open?_eq opened
  have tapped : Tapped a ⟨w, []⟩ := ⟨sound, by simp [empty], by simp⟩
  have asked := tapped.subscribe scope
  have reads := (sound.reads_subscribe (congrArg Prod.fst granted)).2
  have same : a.wire.recorded.subscribe scope ⟨w, []⟩ =
      (.granted h, ⟨w', [.subscribe scope (.granted h)]⟩) := by
    simp [Transport.recorded, granted]
  rw [same] at asked
  rw [granted] at reads
  refine ⟨_, rfl, asked, ?_, by simp⟩
  rintro g ⟨⟩
  exact reads

end Owner

/-- What is known of a session on a wire: its reports are accounted for, its calls are in order, and
the wire that it reads is sound. -/
structure View.OnWire (a : Api) (gvkKey : String) (scope : Scope) (v : View (Noted σ))
    (x : Recorded Wire) : Prop where
  accounted : v.Accounted gvkKey scope
  ordered : v.Ordered scope
  resting : v.Resting
  attached : Attached a v.delivery x
  calls : v.calls = x.state.log.map Note.call

/-- Whatever its owner and others do, a session that was opened on a wire is known in this way. -/
theorem Owner.served_onWire {a : Api} {sink : Sink σ} {gvkKey : String} {scope : Scope}
    {server : Server} {before : List Operation} {y : σ} {o : Owner Wire (Noted σ)}
    (opened : open? a.wire sink.noted gvkKey scope (Wire.joined a server before) ⟨y, []⟩ = some o)
    (run : List (Happening Operation σ)) :
    ∃ v, (o.served a sink run).Shows v ∧
    v.OnWire a gvkKey scope (o.served a sink run).pool.transport ∧
      v.delivery.stopAsked = run.any Happening.asksStop := by
  have alone : (o.served a sink run).pool.Alone (Attached a) :=
    served_attached (open?_attached (Wire.sound_joined a server before) rfl opened) run
  obtain ⟨run', same, asked'⟩ := served_eq_observed a sink o run
  obtain ⟨h, start⟩ := shows_of_open? opened
  obtain ⟨v, shows, course, asked⟩ := start.observed a.wire sink run'
  rw [← same] at shows
  obtain ⟨d, only, attached⟩ := alone
  have here : (o.served a sink run).pool.deliveries[(o.served a sink run).session.number]? =
      some v.delivery := Pool.Shows.here shows
  have mem : v.delivery ∈ (o.served a sink run).pool.deliveries := List.mem_of_getElem? here
  obtain rfl : v.delivery = d := by simpa [only] using mem
  have calls : v.calls = _ := shows.calls_eq.symm.trans attached.tapped.calls
  have whole : ∀ h w, (a.wire.unsubscribe h w).1 ≠ .crashed :=
    fun h w => Cluster.unsubscribe_ne_crashed h w.state
  refine ⟨v, shows, ⟨?_, ?_, ?_, attached, calls⟩, ?_⟩
  · exact (View.accounted_opened gvkKey scope h y).course whole course
  · exact (View.ordered_opened gvkKey scope h y).course course
  · exact ((View.exact_opened gvkKey scope h y).course course).resting
  · simpa [View.opened, asked'] using asked

namespace View.OnWire

variable {a : Api} {gvkKey : String} {scope : Scope} {v : View (Noted σ)} {x : Recorded Wire}
  (onWire : v.OnWire a gvkKey scope x) {later earlier : List Note} {h : Handle}
  {asked : Option Exchange}

include onWire

theorem fitting : Fitting a x.state.log := onWire.attached.tapped.sound.fitting

/-- Between its turns a session that has read a fault has given the subscription back. -/
theorem later_ne_nil {f : Fault}
    (split : x.state.log = later ++ ⟨.next h (.fault f), asked⟩ :: earlier) : later ≠ [] := by
  rintro rfl
  have calls := onWire.calls
  rw [split] at calls
  exact onWire.ordered.calls_ne h f _ calls

/-- After an expiry the subscription is given back, and what comes next is a subscription to the
same scope that begins anew: it has asked nothing yet, and it asks from the baseline. -/
theorem after_expired {reason : String}
    (split : x.state.log = later ++ ⟨.next h (.fault (.expired reason)), asked⟩ :: earlier) :
    ∃ result, later = [⟨.unsubscribe h result, none⟩] ∨ ∃ more id r,
      later = more ++
      [⟨.subscribe scope (r.answer ⟨id, scope⟩), some ⟨id, a.pathOf scope, baseline, r⟩⟩,
        ⟨.unsubscribe h result, none⟩] ∧ exchanges id earlier = [] := by
  have order := onWire.ordered.orderly
  have fitting := onWire.fitting
  rw [onWire.calls, split, List.map_append] at order
  rw [split] at fitting
  rcases order.after_expired with none | ⟨result, only | ⟨more, answer, front⟩⟩
  · exact absurd (List.map_eq_nil_iff.mp none) (onWire.later_ne_nil split)
  · obtain ⟨note, rfl, call⟩ := List.map_eq_singleton_iff.mp only
    obtain ⟨same, -⟩ := fitting.1.eq_of_unsubscribe call
    exact ⟨result, .inl (by rw [same])⟩
  · obtain ⟨newer, two, rfl, -, back⟩ := List.map_eq_append_iff.mp front
    obtain ⟨fresh, one, rfl, subscribed, back⟩ := List.map_eq_cons_iff.mp back
    obtain ⟨note, rfl, released⟩ := List.map_eq_singleton_iff.mp back
    have fits :
        Fitting a (fresh :: note :: ⟨.next h (.fault (.expired reason)), asked⟩ :: earlier) :=
      Fitting.of_append (by simpa using fitting)
    obtain ⟨same, -⟩ := fits.2.1.eq_of_unsubscribe released
    obtain ⟨id, r, again, -, unasked, -⟩ := fits.1.eq_of_subscribe subscribed
    refine ⟨result, .inr ⟨newer, id, r, by rw [again, same], ?_⟩⟩
    rw [same, exchanges_cons_of_none rfl] at unasked
    exact (List.append_eq_nil_iff.mp unasked).1

/-- After any other fault the subscription is given back, and nothing comes after that. -/
theorem after_failed {reason : String}
    (split : x.state.log = later ++ ⟨.next h (.fault (.failed reason)), asked⟩ :: earlier) :
    ∃ result, later = [⟨.unsubscribe h result, none⟩] := by
  have order := onWire.ordered.orderly
  have fitting := onWire.fitting
  rw [onWire.calls, split, List.map_append] at order
  rw [split] at fitting
  rcases order.after_failed with none | ⟨result, only⟩
  · exact absurd (List.map_eq_nil_iff.mp none) (onWire.later_ne_nil split)
  · obtain ⟨note, rfl, call⟩ := List.map_eq_singleton_iff.mp only
    obtain ⟨same, -⟩ := fitting.1.eq_of_unsubscribe call
    exact ⟨result, by rw [same]⟩

end View.OnWire

end Watch

end WatchDispatch
