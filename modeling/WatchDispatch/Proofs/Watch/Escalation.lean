import WatchDispatch.Proofs.Watch.Balance
import WatchDispatch.Proofs.Watch.Course

/-!
# Fatal faults

The causes of a fatal fault are read off the calls of the transport and the notes of the sink alone:
a subscription that is refused, a stream that fails or ends, a sink that crashes. An expired watch
is none. A session reports one fatal fault for each cause it meets, and it meets at most one, since
it ends there. If it was asked to stop before, it meets none any more and reports nothing.
-/

namespace WatchDispatch.Watch

variable {τ σ : Type}

def TransportCall.cause? : TransportCall → Option Fault
  | .subscribe _ (.refused f) => some (renewalFault f)
  | .next _ (.fault (.failed reason)) => some (.failed reason)
  | .next _ .ended => some endFault
  | _ => none

def Handled.cause? : Handled → Option Fault
  | .crashed message => some (crashFault message)
  | .done => none

/-- The faults for which a session cannot go on. -/
def causes (calls : List TransportCall) (events : List (Event × Handled)) : List Fault :=
  calls.filterMap TransportCall.cause? ++ events.filterMap (fun entry => entry.2.cause?)

theorem not_isTransient_of_mem_causes {calls : List TransportCall} {events : List (Event × Handled)}
    {f : Fault} (mem : f ∈ causes calls events) : f.isTransient = false := by
  simp only [causes, List.mem_append, List.mem_filterMap] at mem
  rcases mem with ⟨call, _, cause⟩ | ⟨⟨e, handled⟩, _, cause⟩
  · unfold TransportCall.cause? at cause
    split at cause <;> cases cause <;> rfl
  · cases handled <;> cases cause
    rfl

theorem causes_append_of_nil {calls before : List TransportCall}
    {handed events : List (Event × Handled)} (none : causes before events = []) :
    causes (calls ++ before) (handed ++ events) = causes calls handed := by
  obtain ⟨quiet, calm⟩ := List.append_eq_nil_iff.mp none
  simp only [causes, List.filterMap_append, quiet, calm, List.append_nil]

/-! ## What the acts tell -/

def TransportCall.act? : TransportCall → Option Act
  | .subscribe _ (.granted h) => some (.subscribed h)
  | .subscribe _ (.refused f) => some (.refused f)
  | .subscribe _ .unanswered => some .unanswered
  | .unsubscribe h result => some (.released h result)
  | .next _ _ => none

def Act.isCall : Act → Bool
  | .subscribed _ | .refused _ | .unanswered | .released _ _ => true
  | _ => false

def Act.event? : Act → Option Event
  | .delivered e => some e
  | _ => none

/-- The acts, latest first, tell in their order every call but the reading of items, every event
that was handed to the sink and every report. -/
structure Told (acts : List Act) (calls : List TransportCall) (events : List (Event × Handled))
    (reports : Option (List FatalFault)) : Prop where
  calls : acts.filter Act.isCall = calls.filterMap TransportCall.act?
  events : acts.filterMap Act.event? = events.map Prod.fst
  reports : reports = some (Act.reports acts).reverse

/-- The fault is the only one reported. The session showed itself closed right before, and all that
it did afterwards is to show itself closed again. -/
def ReportedLast (f : FatalFault) (acts : List Act) : Prop :=
  ∃ echoes earlier, acts = echoes ++ .reported f :: .published .closed :: earlier ∧
    (∀ act ∈ echoes, act = .published .closed) ∧ Act.reports earlier = []

theorem Move.filter_isCall {d d' : Delivery} {calls : List TransportCall}
    {handed : List (Event × Handled)} {acts : List Act} {turn : Turn}
    (move : Move d d' calls handed acts turn) :
    acts.reverse.filter Act.isCall = calls.filterMap TransportCall.act? := by
  cases move with
  | escalate result _ _ fatal => cases fatal <;> rfl
  | escalateCrash _ _ fatal => cases fatal <;> rfl
  | _ => rfl

theorem Told.move {d d' : Delivery} {calls before : List TransportCall}
    {handed events : List (Event × Handled)} {acts earlier : List Act} {turn : Turn}
    {reports : Option (List FatalFault)} (told : Told earlier before events reports)
    (move : Move d d' calls handed acts turn) :
    Told (acts.reverse ++ earlier) (calls ++ before) (handed ++ events)
      (reports.map (· ++ Act.reports acts)) := by
  refine ⟨?_, ?_, ?_⟩
  · rw [List.filter_append, List.filterMap_append, told.calls, move.filter_isCall]
  · rw [List.filterMap_append, List.map_append, told.events]
    congr 1
    cases move with
    | escalate result _ _ fatal => cases fatal <;> rfl
    | escalateCrash _ _ fatal => cases fatal <;> rfl
    | _ => rfl
  · rw [told.reports, Act.reports_append, Act.reports_reverse]
    simp

/-! ## One move -/

theorem Fatal.causes_eq {item : Item} {handed : List (Event × Handled)} {before : List Act}
    {f : Fault} (fatal : Fatal item handed before f) (h : Handle) (result : Released) :
    causes [.unsubscribe h result, .next h item] handed = [f] ∧ Act.reports before = [] := by
  cases fatal <;> exact ⟨rfl, rfl⟩

/-- A move of a delivery over a transport that does not break down either meets no cause and reports
nothing, or it meets one, and then the delivery shows itself closed, reports it and ends. -/
theorem Move.causes_cases {d d' : Delivery} {calls : List TransportCall}
    {handed : List (Event × Handled)} {acts : List Act} {turn : Turn}
    (move : Move d d' calls handed acts turn) (whole : ∀ h, .unsubscribe h .crashed ∉ calls) :
    (causes calls handed = [] ∧ Act.reports acts = [] ∧
      (d'.isRunning = true ∨ d.stopAsked = true ∨ d' = d)) ∨
    ∃ f before, causes calls handed = [f] ∧
      acts = before ++ [.published .closed, .reported (d.fatal f)] ∧ Act.reports before = [] ∧
      d'.isRunning = false ∧ d'.state = .closed := by
  cases move with
  | finished => exact .inl ⟨rfl, rfl, .inr (.inr rfl)⟩
  | wait => exact .inl ⟨rfl, rfl, .inr (.inr rfl)⟩
  | stop result _ asked => exact .inl ⟨rfl, rfl, .inr (.inl asked)⟩
  | giveUp _ asked => exact .inl ⟨rfl, rfl, .inr (.inl asked)⟩
  | idle => exact .inl ⟨rfl, rfl, .inr (.inr rfl)⟩
  | busy => exact .inl ⟨rfl, rfl, .inr (.inr rfl)⟩
  | hand => exact .inl ⟨rfl, rfl, .inr (.inr rfl)⟩
  | expire reason result => exact .inl ⟨rfl, rfl, .inl rfl⟩
  | expireCrash reason => exact absurd List.mem_cons_self (whole _)
  | @escalate h item handed before f result _ _ fatal =>
    obtain ⟨cause, silent⟩ := fatal.causes_eq h result
    refine .inr ⟨f, before ++ [.released h result], cause, by simp, ?_, rfl, rfl⟩
    rw [Act.reports_append, silent]
    rfl
  | escalateCrash => exact absurd List.mem_cons_self (whole _)
  | renew => exact .inl ⟨rfl, rfl, .inl rfl⟩
  | @refuse h f => exact .inr ⟨renewalFault f, [.refused f], rfl, rfl, rfl, rfl, rfl⟩
  | unanswered => exact .inl ⟨rfl, rfl, .inl rfl⟩

/-! ## Whole courses -/

/-- The reports of a session account for the causes that it met. -/
structure View.Accounted (gvkKey : String) (scope : Scope) (v : View (Noted σ)) : Prop where
  own : v.delivery.gvkKey = gvkKey ∧ v.delivery.scope = scope
  reported : v.reports = some ((causes v.calls v.sink.events).map (FatalFault.mk gvkKey scope))
  running : v.delivery.isRunning = true → causes v.calls v.sink.events = []
  ended : v.delivery.isRunning = false → (∃ f, causes v.calls v.sink.events = [f]) ∨
    causes v.calls v.sink.events = [] ∧ v.delivery.stopAsked = true
  closed : causes v.calls v.sink.events ≠ [] → v.delivery.state = .closed
  silent : causes v.calls v.sink.events = [] → Act.reports v.acts = []
  last : ∀ f ∈ causes v.calls v.sink.events, ReportedLast ⟨gvkKey, scope, f⟩ v.acts
  told : Told v.acts v.calls v.sink.events v.reports

namespace View

variable {t : Transport τ} {sink : Sink σ} {v v' : View (Noted σ)} {gvkKey : String} {scope : Scope}

/-- A running delivery makes a move that meets no cause. -/
theorem Accounted.of_quiet {d : Delivery} {calls : List TransportCall}
    {handed : List (Event × Handled)} {acts : List Act} {turn : Turn} {y : Noted σ} {queued : Bool}
    (accounted : v.Accounted gvkKey scope) (move : Move v.delivery d calls handed acts turn)
    (notes : y.events = handed ++ v.sink.events) (running : v.delivery.isRunning = true)
    (quiet : causes calls handed = []) (silent : Act.reports acts = [])
    (goesOn : d.isRunning = true ∨ v.delivery.stopAsked = true ∨ d = v.delivery) :
    View.Accounted gvkKey scope ⟨d, calls ++ v.calls, y, acts.reverse ++ v.acts,
      v.reports.map (· ++ Act.reports acts), queued⟩ := by
  have none : causes (calls ++ v.calls) y.events = [] := by
    rw [notes, causes_append_of_nil (accounted.running running)]
    exact quiet
  have same : v.reports.map (· ++ Act.reports acts) = v.reports := by simp [silent]
  refine ⟨⟨move.own_eq.1.trans accounted.own.1, move.own_eq.2.trans accounted.own.2⟩, ?_,
    fun _ => none, ?_, fun some => absurd none some, ?_, ?_, ?_⟩
  · rw [same, accounted.reported, accounted.running running, none]
  · intro ended
    refine .inr ⟨none, ?_⟩
    rcases goesOn with goes | asked | rfl
    · simp [goes] at ended
    · exact move.stopAsked_eq.trans asked
    · simp [running] at ended
  · intro _
    rw [Act.reports_append, Act.reports_reverse, silent,
      accounted.silent (accounted.running running)]
    rfl
  · intro f mem
    simp [none] at mem
  · rw [notes]
    exact accounted.told.move move

/-- A running delivery makes a move that meets a cause. -/
theorem Accounted.of_cause {d : Delivery} {calls : List TransportCall}
    {handed : List (Event × Handled)} {acts before : List Act} {turn : Turn} {y : Noted σ}
    {queued : Bool} {f : Fault} (accounted : v.Accounted gvkKey scope)
    (move : Move v.delivery d calls handed acts turn) (notes : y.events = handed ++ v.sink.events)
    (running : v.delivery.isRunning = true) (cause : causes calls handed = [f])
    (closing : acts = before ++ [.published .closed, .reported (v.delivery.fatal f)])
    (silent : Act.reports before = []) (ended : d.isRunning = false) (closed : d.state = .closed) :
    View.Accounted gvkKey scope ⟨d, calls ++ v.calls, y, acts.reverse ++ v.acts,
      v.reports.map (· ++ Act.reports acts), queued⟩ := by
  have one : causes (calls ++ v.calls) y.events = [f] := by
    rw [notes, causes_append_of_nil (accounted.running running)]
    exact cause
  have fault : v.delivery.fatal f = ⟨gvkKey, scope, f⟩ := by
    rw [Delivery.fatal, accounted.own.1, accounted.own.2]
  have told : Act.reports acts = [⟨gvkKey, scope, f⟩] := by
    rw [closing, Act.reports_append, silent, fault]
    rfl
  refine ⟨⟨move.own_eq.1.trans accounted.own.1, move.own_eq.2.trans accounted.own.2⟩, ?_,
    fun runs => ?_, fun _ => .inl ⟨f, one⟩, fun _ => closed, fun none => ?_, ?_, ?_⟩
  · rw [told, accounted.reported, accounted.running running, one]
    rfl
  · simp [ended] at runs
  · simp [one] at none
  · intro g mem
    obtain rfl : g = f := by simpa [one] using mem
    refine ⟨[], before.reverse ++ v.acts, ?_, by simp, ?_⟩
    · simp [closing, fault]
    · rw [Act.reports_append, Act.reports_reverse, silent,
        accounted.silent (accounted.running running)]
      rfl
  · rw [notes]
    exact accounted.told.move move

/-- The account of a session does not depend on the state of its sink. -/
theorem Accounted.of_notes {y : Noted σ} {queued : Bool} (accounted : v.Accounted gvkKey scope)
    (notes : y.events = v.sink.events) :
    View.Accounted gvkKey scope { v with sink := y, queued := queued } := by
  obtain ⟨state, events⟩ := y
  obtain rfl : events = v.sink.events := notes
  exact { accounted with }

theorem Accounted.of_close (accounted : v.Accounted gvkKey scope) :
    View.Accounted gvkKey scope
      { v with
        delivery := { v.delivery with state := .closed }
        acts := .published .closed :: v.acts } := by
  refine { accounted with closed := fun _ => rfl, last := ?_, told := ?_ }
  · intro f mem
    obtain ⟨echoes, earlier, split, closings, silent⟩ := accounted.last f mem
    refine ⟨.published .closed :: echoes, earlier, by rw [split]; rfl, ?_, silent⟩
    simpa using closings
  · exact ⟨accounted.told.calls, accounted.told.events, accounted.told.reports⟩

theorem Accounted.next (whole : ∀ h x, (t.unsubscribe h x).1 ≠ .crashed)
    (accounted : v.Accounted gvkKey scope) (next : Next t sink.noted SameNotes v v') :
    v'.Accounted gvkKey scope := by
  cases next with
  | @move d calls handed acts turn y queued move takes answered _ =>
    have notes := takes.noted_events
    cases running : v.delivery.isRunning with
    | false =>
      -- The turn of a delivery that has ended may still come; others may have changed the sink.
      obtain ⟨rfl, rfl, rfl, rfl⟩ := move.eq_of_ended running
      have same : v.reports.map (· ++ Act.reports []) = v.reports := by simp [Act.reports]
      rw [same]
      exact accounted.of_notes notes
    | true =>
      have sound : ∀ h, .unsubscribe h .crashed ∉ calls := by
        intro h mem
        obtain ⟨x, broke⟩ := answered _ mem
        exact whole h x broke
      rcases move.causes_cases sound with ⟨quiet, silent, goesOn⟩ | ⟨f, before, cause, closing,
        silent, ended, closed⟩
      · exact accounted.of_quiet move notes running quiet silent goesOn
      · exact accounted.of_cause move notes running cause closing silent ended closed
  | ask =>
    exact { accounted with ended := fun ended =>
      (accounted.ended ended).imp_right fun h => ⟨h.1, rfl⟩ }
  | close => exact accounted.of_close
  | wake => exact { accounted with }
  | elsewhere same => exact accounted.of_notes same

theorem Accounted.course (whole : ∀ h x, (t.unsubscribe h x).1 ≠ .crashed)
    (accounted : v.Accounted gvkKey scope) (course : Course t sink.noted SameNotes v v') :
    v'.Accounted gvkKey scope := by
  induction course with
  | refl => exact accounted
  | tail _ next ih => exact ih.next whole next

/-- What a session that has ended has done stays as it is. -/
theorem Course.frozen_of_ended (course : Course t sink.noted SameNotes v v')
    (ended : v.delivery.isRunning = false) :
    v'.delivery.isRunning = false ∧ v'.calls = v.calls ∧ v'.sink.events = v.sink.events ∧
      v'.reports = v.reports := by
  induction course with
  | refl => exact ⟨ended, rfl, rfl, rfl⟩
  | tail _ next ih =>
    obtain ⟨finished, calls, events, reports⟩ := ih
    cases next with
    | move queued move takes =>
      obtain ⟨rfl, rfl, rfl, rfl⟩ := move.eq_of_ended finished
      exact ⟨finished, calls, takes.noted_events.trans events, by simpa [Act.reports] using reports⟩
    | ask => exact ⟨finished, calls, events, reports⟩
    | close => exact ⟨finished, calls, events, reports⟩
    | wake => exact ⟨finished, calls, events, reports⟩
    | elsewhere same => exact ⟨finished, calls, same.trans events, reports⟩

/-- A session that was asked to stop reports nothing more. -/
theorem Course.silent_of_asked (course : Course t sink.noted SameNotes v v')
    (asked : v.delivery.stopAsked = true) : v'.reports = v.reports := by
  induction course with
  | refl => rfl
  | tail course next ih =>
    cases next with
    | move queued move =>
      have stopping := View.Course.stopAsked_mono course asked
      cases move <;> simp_all [Act.reports]
    | ask => exact ih
    | close => exact ih
    | wake => exact ih
    | elsewhere => exact ih

end View

/-- What a session of this key and scope has reported is exact; `asked` says whether it was asked to
stop. -/
structure Escalated (gvkKey : String) (scope : Scope) (asked : Bool) (o : Owner τ (Noted σ)) :
    Prop where
  /-- There is one report for each cause, with the key and the scope of the session. -/
  reported : o.pool.reports = some ((causes o.calls o.events).map (FatalFault.mk gvkKey scope))
  lasting : ∀ f ∈ causes o.calls o.events, f.isTransient = false
  /-- A session that goes on has met none, however often its watch expired and was renewed. -/
  running : o.isRunning = true → causes o.calls o.events = []
  /-- A session ends with one cause, or with none if it was asked to stop. -/
  ended : o.isRunning = false →
    (∃ f, causes o.calls o.events = [f]) ∨ causes o.calls o.events = [] ∧ asked = true
  closed : causes o.calls o.events ≠ [] → o.state = .closed
  /-- The session was closed when it reported, and has done nothing since. -/
  last : ∀ f ∈ causes o.calls o.events, ReportedLast ⟨gvkKey, scope, f⟩ o.acts
  told : Told o.acts o.calls o.events o.pool.reports

theorem View.Accounted.escalated {gvkKey : String} {scope : Scope} {v : View (Noted σ)}
    {o : Owner τ (Noted σ)} (accounted : v.Accounted gvkKey scope) (shows : o.Shows v) :
    Escalated gvkKey scope v.delivery.stopAsked o := by
  have acts : o.acts = v.acts := Pool.Shows.acts shows
  constructor
  · rw [shows.reports_eq, shows.calls_eq, shows.events_eq]
    exact accounted.reported
  · intro f mem
    exact not_isTransient_of_mem_causes mem
  · rw [shows.isRunning_eq, shows.calls_eq, shows.events_eq]
    exact accounted.running
  · rw [shows.isRunning_eq, shows.calls_eq, shows.events_eq]
    exact accounted.ended
  · rw [shows.state_eq, shows.calls_eq, shows.events_eq]
    exact accounted.closed
  · rw [shows.calls_eq, shows.events_eq, acts]
    exact accounted.last
  · rw [shows.calls_eq, shows.events_eq, acts, shows.reports_eq]
    exact accounted.told

theorem View.accounted_opened (gvkKey : String) (scope : Scope) (h : Handle) (y : σ) :
    (View.opened gvkKey scope h (⟨y, []⟩ : Noted σ)).Accounted gvkKey scope := by
  refine ⟨⟨rfl, rfl⟩, rfl, fun _ => rfl, ?_, fun some => absurd rfl some, fun _ => rfl, ?_,
    ⟨rfl, rfl, rfl⟩⟩
  · intro ended
    simp [View.opened, Delivery.isRunning] at ended
  · intro f mem
    simp [View.opened, causes, TransportCall.cause?] at mem

/-- A session over a transport that does not break down reports one fatal fault for the cause that
ends it, and none if a stop ends it. Once it has ended, nothing is delivered, asked of the transport
or reported any more, and once it was asked to stop, nothing more is reported. -/
theorem escalation_exact {t : Transport τ} {sink : Sink σ} {gvkKey : String} {scope : Scope} {x : τ}
    {y : σ} {o : Owner τ (Noted σ)} (whole : ∀ h x, (t.unsubscribe h x).1 ≠ .crashed)
    (opened : Owner.open? t sink.noted gvkKey scope x ⟨y, []⟩ = some o)
    (run : List (Happening τ σ)) :
    let now := o.observed t sink run
    Escalated gvkKey scope (run.any Happening.asksStop) now ∧
    ∀ later, let after := o.observed t sink (later ++ run)
      (now.isRunning = false → after.calls = now.calls ∧ after.events = now.events ∧
        after.pool.reports = now.pool.reports) ∧
      (run.any Happening.asksStop = true → after.pool.reports = now.pool.reports) := by
  intro now
  obtain ⟨h, start⟩ := Owner.shows_of_open? opened
  obtain ⟨v, shows, course, asked⟩ := start.observed t sink run
  have accounted := (View.accounted_opened gvkKey scope h y).course whole course
  have asks : v.delivery.stopAsked = run.any Happening.asksStop := by
    simpa [View.opened] using asked
  refine ⟨asks ▸ accounted.escalated shows, ?_⟩
  intro later after
  obtain ⟨v', shows', onward⟩ := shows.observed_later later
  constructor
  · intro ended
    obtain ⟨_, calls, events, reports⟩ := onward.frozen_of_ended (by rwa [← shows.isRunning_eq])
    rw [shows'.calls_eq, shows.calls_eq, shows'.events_eq, shows.events_eq, shows'.reports_eq,
      shows.reports_eq]
    exact ⟨calls, events, reports⟩
  · intro stopping
    rw [shows'.reports_eq, shows.reports_eq]
    exact onward.silent_of_asked (asks.trans stopping)

namespace Sample

/-- A session whose sink never crashes, over a transport that offers these items in turn. -/
def session? (items : List Item) : Option (Owner (Nat × List Item) (Noted Unit)) :=
  Owner.open? transport (Sink.noted fun _ y => (.done, y)) "example.com/v1/Widget" .allNamespaces
    (0, items) ⟨(), []⟩

end Sample

/-- A watch expires, is renewed and then fails. -/
theorem escalation_exact_after_expiry :
    ∃ o, Sample.session? [.fault (.expired "gone"), .fault (.failed "reset")] = some o ∧
      let now := o.observed Sample.transport (fun _ y => (.done, y)) [.settle]
      now.isRunning = false ∧
        now.pool.reports = some [⟨"example.com/v1/Widget", .allNamespaces, .failed "reset"⟩] ∧
        Escalated "example.com/v1/Widget" .allNamespaces false now :=
  ⟨_, rfl, by decide, by decide, (escalation_exact (by simp [Sample.transport]) rfl [.settle]).1⟩

end WatchDispatch.Watch
