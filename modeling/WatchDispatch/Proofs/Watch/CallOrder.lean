import WatchDispatch.Proofs.Watch.Balance
import WatchDispatch.Proofs.Watch.Course

/-!
# The order of calls

The calls of a session follow a fixed order. What a session may do next depends on the last item
that it read: after an expiry it gives the subscription back and subscribes again, after any other
fault or an end it gives the subscription back and is over, and so it is after a refusal. Reading
that could go on is cut short by a stop or by a crash of the sink only.
-/

namespace WatchDispatch.Watch

open View (Course)

variable {τ σ : Type}

inductive CallStage where
  /-- It holds nothing and may subscribe. -/
  | asking
  | reading (h : Handle)
  | expired (h : Handle)
  /-- It has read a fault that is no expiry, or an end. -/
  | failed (h : Handle)
  /-- It has given a subscription back that it could have read on. -/
  | cut (h : Handle)
  /-- It waits for an answer that never comes. -/
  | waiting
  | finished

def CallStage.after : CallStage → TransportCall → CallStage
  | _, .subscribe _ (.granted h) => .reading h
  | _, .subscribe _ (.refused _) => .finished
  | _, .subscribe _ .unanswered => .waiting
  | _, .next h (.fault (.expired _)) => .expired h
  | _, .next h (.fault (.failed _)) => .failed h
  | _, .next h .ended => .failed h
  | _, .next h _ => .reading h
  | .expired _, .unsubscribe _ _ => .asking
  | .failed _, .unsubscribe _ _ => .finished
  | _, .unsubscribe h _ => .cut h

def CallStage.Allows (scope : Scope) : CallStage → TransportCall → Prop
  | .asking, .subscribe s _ => s = scope
  | .reading h, .next g _ => g = h
  | .reading h, .unsubscribe g _ => g = h
  | .expired h, .unsubscribe g _ => g = h
  | .failed h, .unsubscribe g _ => g = h
  | _, _ => False

/-- The stage after calls, latest call first. -/
def callStage : List TransportCall → CallStage
  | [] => .asking
  | call :: earlier => (callStage earlier).after call

/-- Every call is one that the session may make after those before it. -/
def Orderly (scope : Scope) : List TransportCall → Prop
  | [] => True
  | call :: earlier => Orderly scope earlier ∧ (callStage earlier).Allows scope call

namespace Orderly

variable {scope : Scope} {calls later earlier : List TransportCall}

theorem of_append (order : Orderly scope (later ++ earlier)) : Orderly scope earlier := by
  induction later with
  | nil => exact order
  | cons call later ih => exact ih order.1

/-- The first of the later calls, if there are any, was allowed after the earlier ones. -/
theorem next_call (order : Orderly scope (later ++ earlier)) :
    later = [] ∨ ∃ more call, later = more ++ [call] ∧ (callStage earlier).Allows scope call := by
  rcases List.eq_nil_or_concat later with rfl | ⟨more, call, rfl⟩
  · exact .inl rfl
  · have split : more.concat call ++ earlier = more ++ (call :: earlier) := by simp
    exact .inr ⟨more, call, by simp, (split ▸ order).of_append.2⟩

/-- After a refusal a session calls nobody. -/
theorem after_refused {s : Scope} {f : Fault}
    (order : Orderly scope (later ++ .subscribe s (.refused f) :: earlier)) : later = [] := by
  rcases order.next_call with none | ⟨more, call, -, allowed⟩
  · exact none
  · cases allowed

/-- What comes first after an expiry is that the subscription is given back, and what comes next is
that the session subscribes to its scope. -/
theorem after_expired {h : Handle} {reason : String}
    (order : Orderly scope (later ++ .next h (.fault (.expired reason)) :: earlier)) :
    later = [] ∨ ∃ result, later = [.unsubscribe h result] ∨
      ∃ more answer, later = more ++ [.subscribe scope answer, .unsubscribe h result] := by
  rcases order.next_call with none | ⟨more, call, rfl, allowed⟩
  · exact .inl none
  · cases call with
    | subscribe s answer => cases allowed
    | next g item => cases allowed
    | unsubscribe g result =>
      obtain rfl : g = h := allowed
      refine .inr ⟨result, ?_⟩
      rw [List.append_assoc] at order
      rcases order.next_call with none | ⟨rest, call, rfl, allowed⟩
      · exact .inl (by simp [none])
      · cases call with
        | subscribe s answer =>
          obtain rfl : s = scope := allowed
          exact .inr ⟨rest, answer, by simp⟩
        | next g item => cases allowed
        | unsubscribe g result => cases allowed

/-- After any other fault the subscription is given back, and nothing comes after that. -/
theorem after_failed {h : Handle} {reason : String}
    (order : Orderly scope (later ++ .next h (.fault (.failed reason)) :: earlier)) :
    later = [] ∨ ∃ result, later = [.unsubscribe h result] := by
  rcases order.next_call with none | ⟨more, call, rfl, allowed⟩
  · exact .inl none
  · cases call with
    | subscribe s answer => cases allowed
    | next g item => cases allowed
    | unsubscribe g result =>
      obtain rfl : g = h := allowed
      refine .inr ⟨result, ?_⟩
      rw [List.append_assoc] at order
      rcases order.next_call with none | ⟨rest, call, -, allowed⟩
      · simp [none]
      · cases allowed

/-- A subscription that was granted is still being read, or was read up to a fault or an end, or was
given back before. -/
theorem of_granted {s : Scope} {h : Handle} (order : Orderly scope calls)
    (granted : .subscribe s (.granted h) ∈ calls) :
    callStage calls = .reading h ∨ callStage calls = .cut h ∨ .next h .ended ∈ calls ∨
      ∃ f, .next h (.fault f) ∈ calls := by
  induction calls with
  | nil => cases granted
  | cons call earlier ih =>
    rcases List.mem_cons.mp granted with rfl | old
    · exact .inl rfl
    · rcases ih order.1 old with reading | cut | ended | ⟨f, met⟩
      · have allowed := order.2
        rw [reading] at allowed
        cases call with
        | subscribe s answer => cases allowed
        | unsubscribe g result =>
          obtain rfl : g = h := allowed
          refine .inr (.inl ?_)
          simp [callStage, CallStage.after, reading]
        | next g item =>
          obtain rfl : g = h := allowed
          cases item with
          | event e => exact .inl rfl
          | idle => exact .inl rfl
          | busy => exact .inl rfl
          | ended => exact .inr (.inr (.inl List.mem_cons_self))
          | fault f => exact .inr (.inr (.inr ⟨f, List.mem_cons_self⟩))
      · have allowed := order.2
        rw [cut] at allowed
        cases allowed
      · exact .inr (.inr (.inl (List.mem_cons_of_mem _ ended)))
      · exact .inr (.inr (.inr ⟨f, List.mem_cons_of_mem _ met⟩))

end Orderly

/-! ## Courses -/

/-- No subscription is left to be given back. -/
def CallStage.EmptyHanded : CallStage → Prop
  | .reading _ | .expired _ | .failed _ => False
  | _ => True

/-- The phase of a delivery and the stage in which its calls have left it. -/
def Phase.Fits : Phase → CallStage → Prop
  | .watching h, s => s = .reading h
  | .renewing _, s => s = .asking
  | .awaiting _, s => s = .waiting
  | .ended _, s => s.EmptyHanded

section Moves

variable {d d' : Delivery} {calls before : List TransportCall} {handed : List (Event × Handled)}
  {acts : List Act} {turn : Turn}

theorem Orderly.move (order : Orderly d.scope before) (fits : d.phase.Fits (callStage before))
    (move : Move d d' calls handed acts turn) :
    Orderly d.scope (calls ++ before) ∧ d'.phase.Fits (callStage (calls ++ before)) := by
  have holds : ∀ {h}, d.phase = .watching h → callStage before = .reading h := fun phase => by
    rw [phase] at fits
    exact fits
  have may : ∀ {s call}, callStage before = s → s.Allows d.scope call →
      Orderly d.scope (call :: before) := fun same allowed => ⟨order, same ▸ allowed⟩
  -- Whatever was read, the subscription that was read can be given back.
  have returns : ∀ {h item} result, d.phase = .watching h →
      Orderly d.scope (.unsubscribe h result :: .next h item :: before) := by
    intro h item result phase
    refine ⟨may (holds phase) rfl, ?_⟩
    cases item with
    | fault f => cases f <;> rfl
    | _ => rfl
  have emptyHanded : ∀ h item result,
      (callStage (.unsubscribe h result :: .next h item :: before)).EmptyHanded := by
    intro h item result
    cases item with
    | fault f => cases f <;> trivial
    | _ => trivial
  cases move with
  | finished => exact ⟨order, fits⟩
  | wait => exact ⟨order, fits⟩
  | @stop h result phase =>
    have cut : callStage (.unsubscribe h result :: before) = .cut h := by
      simp [callStage, holds phase, CallStage.after]
    refine ⟨may (holds phase) rfl, ?_⟩
    change CallStage.EmptyHanded (callStage (.unsubscribe h result :: before))
    rw [cut]
    trivial
  | giveUp phase =>
    refine ⟨order, ?_⟩
    change CallStage.EmptyHanded (callStage before)
    rcases phase with phase | phase
    · rw [phase] at fits
      rw [show callStage before = .asking from fits]
      trivial
    · rw [phase] at fits
      rw [show callStage before = .waiting from fits]
      trivial
  | idle phase => exact ⟨may (holds phase) rfl, by rw [phase]; rfl⟩
  | busy phase => exact ⟨may (holds phase) rfl, by rw [phase]; rfl⟩
  | hand phase => exact ⟨may (holds phase) rfl, by rw [phase]; rfl⟩
  | expire reason result phase => exact ⟨returns result phase, rfl⟩
  | expireCrash reason phase => exact ⟨returns .crashed phase, trivial⟩
  | escalate result phase => exact ⟨returns result phase, emptyHanded _ _ _⟩
  | escalateCrash phase => exact ⟨returns .crashed phase, emptyHanded _ _ _⟩
  | renew phase =>
    rw [phase] at fits
    exact ⟨may fits rfl, rfl⟩
  | refuse phase =>
    rw [phase] at fits
    exact ⟨may fits rfl, trivial⟩
  | unanswered phase =>
    rw [phase] at fits
    exact ⟨may fits rfl, rfl⟩

/-- A delivery ends with its calls over, by a stop, with its reading cut short by a crash of the
sink, or because the transport crashed. -/
theorem Move.ends (move : Move d d' calls handed acts turn) (before : List TransportCall)
    (running : d.isRunning = true) (ended : d'.isRunning = false) :
    callStage (calls ++ before) = .finished ∨ d.stopAsked = true ∨
      (∃ h, callStage (calls ++ before) = .cut h ∧ ∃ entry ∈ handed, entry.2 ≠ .done) ∨
      Crashed calls := by
  cases move with
  | stop _ _ asked => exact .inr (.inl asked)
  | giveUp _ asked => exact .inr (.inl asked)
  | expireCrash => exact .inr (.inr (.inr ⟨_, List.mem_cons_self⟩))
  | escalate result _ _ fatal =>
    cases fatal with
    | crash e message => exact .inr (.inr (.inl ⟨_, rfl, _, List.mem_singleton_self _, by simp⟩))
    | fault reason => exact .inl rfl
    | ending => exact .inl rfl
  | escalateCrash => exact .inr (.inr (.inr ⟨_, List.mem_cons_self⟩))
  | refuse => exact .inl rfl
  | _ => simp_all [Delivery.isRunning]

end Moves

/-- The calls of a session are in order, and they say where its delivery stands. -/
structure View.Ordered (scope : Scope) (v : View (Noted σ)) : Prop where
  own : v.delivery.scope = scope
  orderly : Orderly scope v.calls
  fits : v.delivery.phase.Fits (callStage v.calls)
  ended : v.delivery.isRunning = false → callStage v.calls = .finished ∨
    v.delivery.stopAsked = true ∨
    (∃ h, callStage v.calls = .cut h ∧ ∃ entry ∈ v.sink.events, entry.2 ≠ .done) ∨ Crashed v.calls

namespace View

variable {t : Transport τ} {sink : Sink σ} {scope : Scope} {v v' : View (Noted σ)}

theorem Ordered.next (ordered : v.Ordered scope) (next : Next t sink.noted SameNotes v v') :
    v'.Ordered scope := by
  cases next with
  | @move d calls handed acts turn y queued move takes answered _ =>
    have notes := takes.noted_events
    have order : Orderly v.delivery.scope v.calls := ordered.own ▸ ordered.orderly
    obtain ⟨orderly, fits⟩ := order.move ordered.fits move
    refine ⟨move.own_eq.2.trans ordered.own, ordered.own ▸ orderly, fits, ?_⟩
    intro ended
    rw [notes]
    cases running : v.delivery.isRunning with
    | false =>
      obtain ⟨rfl, rfl, rfl, rfl⟩ := move.eq_of_ended running
      exact ordered.ended running
    | true =>
      rcases move.ends v.calls running ended with finished | asked |
        ⟨h, cut, entry, mem, crashed⟩ | ⟨h, broke⟩
      · exact .inl finished
      · exact .inr (.inl (move.stopAsked_eq.trans asked))
      · exact .inr (.inr (.inl ⟨h, cut, entry, List.mem_append_left _ mem, crashed⟩))
      · exact .inr (.inr (.inr ⟨h, List.mem_append_left _ broke⟩))
  | ask => exact { ordered with ended := fun _ => .inr (.inl rfl) }
  | close => exact { ordered with }
  | wake => exact { ordered with }
  | elsewhere same =>
    refine { ordered with ended := ?_ }
    intro ended
    rw [same]
    exact ordered.ended ended

theorem Ordered.course (ordered : v.Ordered scope) (course : Course t sink.noted SameNotes v v') :
    v'.Ordered scope := by
  induction course with
  | refl => exact ordered
  | tail _ next ih => exact ih.next next

theorem ordered_opened (gvkKey : String) (scope : Scope) (h : Handle) (y : σ) :
    (View.opened gvkKey scope h (⟨y, []⟩ : Noted σ)).Ordered scope := by
  refine ⟨rfl, ⟨trivial, rfl⟩, rfl, ?_⟩
  intro ended
  simp [View.opened, Delivery.isRunning] at ended

/-- Between its turns a session has given back what it has read up to a fault. -/
theorem Ordered.calls_ne (ordered : v.Ordered scope) (h : Handle) (f : Fault)
    (earlier : List TransportCall) : v.calls ≠ .next h (.fault f) :: earlier := by
  intro top
  have fits := ordered.fits
  rw [top] at fits
  cases phase : v.delivery.phase <;> rw [phase] at fits <;> cases f <;> cases fits

end View

end WatchDispatch.Watch
