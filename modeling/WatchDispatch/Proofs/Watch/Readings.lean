import Mathlib.Data.List.Forall2
import WatchDispatch.Proofs.Watch.Balance
import WatchDispatch.Proofs.Watch.Course

/-!
# What a session reads

The calls of a transport say what was read of each subscription, in which order, and where reading
stopped. A delivery that goes on has read nothing but events of its latest subscription, and every
subscription before that up to the fault by which it expired. No move reads past a fault or an end.
-/

namespace WatchDispatch.Watch

variable {τ σ : Type}

/-- What was read of one subscription, first item first. -/
structure Reading where
  handle : Handle
  items : List Item

/-- The transport did not put the reader off. -/
def Item.isThere : Item → Bool
  | .idle | .busy => false
  | _ => true

/-- The readings, latest subscription first, after one more call. -/
def TransportCall.note : TransportCall → List Reading → List Reading
  | .subscribe _ (.granted h), readings => ⟨h, []⟩ :: readings
  | .next h item, reading :: earlier =>
    if reading.handle = h ∧ item.isThere then ⟨h, reading.items ++ [item]⟩ :: earlier
    else reading :: earlier
  | _, readings => readings

/-- The readings that calls, latest first, add to those from before. -/
def readings (before : List Reading) (calls : List TransportCall) : List Reading :=
  calls.foldr TransportCall.note before

@[simp] theorem readings_nil (before : List Reading) : readings before [] = before := rfl

@[simp] theorem readings_cons (before : List Reading) (call : TransportCall)
    (calls : List TransportCall) :
    readings before (call :: calls) = call.note (readings before calls) := rfl

theorem readings_append (before : List Reading) (calls earlier : List TransportCall) :
    readings before (calls ++ earlier) = readings (readings before earlier) calls :=
  List.foldr_append

theorem length_readings (before : List Reading) (calls : List TransportCall) :
    (readings before calls).length = (granted calls).length + before.length := by
  induction calls with
  | nil => simp [granted]
  | cons call calls ih =>
    have kept : ∀ h item, (TransportCall.note (.next h item) (readings before calls)).length =
        (readings before calls).length := by
      intro h item
      cases readings before calls with
      | nil => rfl
      | cons reading earlier => simp only [TransportCall.note]; split <;> rfl
    cases call with
    | subscribe scope answer =>
      cases answer with
      | granted h =>
        have more := congrArg (· + 1) ih
        simp only [granted] at more
        simpa [TransportCall.note, granted, Nat.add_right_comm] using more
      | refused f => simpa [TransportCall.note, granted] using ih
      | unanswered => simpa [TransportCall.note, granted] using ih
    | unsubscribe h result => simpa [TransportCall.note, granted] using ih
    | next h item => simpa [kept, granted] using ih

/-- The events of a stream that precede its first fault or end. -/
def lead : List Item → List Event
  | .event e :: rest => e :: lead rest
  | _ => []

@[simp] theorem lead_append (events : List Event) (rest : List Item) :
    lead (events.map .event ++ rest) = events ++ lead rest := by
  induction events with
  | nil => rfl
  | cons e events ih => exact congrArg (e :: ·) ih

@[simp] theorem lead_events (events : List Event) : lead (events.map .event) = events := by
  simpa [lead] using lead_append events []

/-- The leads of readings, oldest subscription first. -/
def leads (readings : List Reading) : List Event := readings.reverse.flatMap (fun r => lead r.items)

theorem leads_cons (reading : Reading) (earlier : List Reading) :
    leads (reading :: earlier) = leads earlier ++ lead reading.items := by
  simp [leads]

/-- Reading stopped at something that is no event. -/
def Closed (items : List Item) : Prop :=
  ∃ (events : List Event) (item : Item), items = events.map .event ++ [item] ∧ ∀ e, item ≠ .event e

/-- Reading stopped where the subscription expired. -/
def Reading.Expired (r : Reading) : Prop :=
  ∃ (events : List Event) (reason : String),
    r.items = events.map .event ++ [.fault (.expired reason)]

theorem Reading.Expired.closed {r : Reading} (expired : r.Expired) : Closed r.items := by
  obtain ⟨events, reason, items⟩ := expired
  exact ⟨events, _, items, by simp⟩

/-- Whatever a stream offers behind a fault or an end is not among its leading events. -/
theorem Closed.lead_eq {items stream : List Item} (closed : Closed items)
    (begins : items <+: stream) : lead items = lead stream := by
  obtain ⟨events, item, rfl, other⟩ := closed
  obtain ⟨rest, rfl⟩ := begins
  have none : ∀ rest, lead (item :: rest) = [] := by
    intro rest
    cases item with
    | event e => exact absurd rfl (other e)
    | _ => rfl
  rw [List.append_assoc, lead_append, lead_append, List.singleton_append, none, none]

/-- The leading events of a beginning are a beginning of the leading events. -/
theorem lead_prefix {items stream : List Item} (begins : items <+: stream) :
    lead items <+: lead stream := by
  obtain ⟨rest, rfl⟩ := begins
  induction items with
  | nil => exact List.nil_prefix
  | cons item items ih =>
    cases item with
    | event e => exact (List.prefix_cons_inj e).mpr ih
    | _ => exact List.nil_prefix

/-- What a delivery in this phase has read. -/
inductive Reads : Phase → List Reading → Prop
  | watching {h} {events : List Event} {earlier} : (∀ r ∈ earlier, r.Expired) →
      Reads (.watching h) (⟨h, events.map .event⟩ :: earlier)
  | renewing {h readings} : readings ≠ [] → (∀ r ∈ readings, r.Expired) →
      Reads (.renewing h) readings
  | awaiting {h readings} : readings ≠ [] → (∀ r ∈ readings, r.Expired) →
      Reads (.awaiting h) readings
  | ended {outcome reading earlier} : (∃ events : List Event, reading.items = events.map .event) ∨
      Closed reading.items → (∀ r ∈ earlier, r.Expired) →
      Reads (.ended outcome) (reading :: earlier)

theorem Reads.ne_nil {phase : Phase} {rs : List Reading} (reads : Reads phase rs) : rs ≠ [] := by
  cases reads with
  | watching => exact List.cons_ne_nil _ _
  | renewing some => exact some
  | awaiting some => exact some
  | ended => exact List.cons_ne_nil _ _

/-- Only the latest subscription can be unexpired. -/
theorem Reads.earlier {phase : Phase} {reading : Reading} {earlier : List Reading}
    (reads : Reads phase (reading :: earlier)) : ∀ r ∈ earlier, r.Expired := by
  cases reads with
  | watching expired => exact expired
  | renewing _ expired => exact fun r mem => expired r (List.mem_cons_of_mem _ mem)
  | awaiting _ expired => exact fun r mem => expired r (List.mem_cons_of_mem _ mem)
  | ended _ expired => exact expired

/-- Between two subscriptions all were read up to their expiry. -/
theorem Reads.expired {phase : Phase} {rs : List Reading} (reads : Reads phase rs) {h : Handle}
    (between : phase = .renewing h ∨ phase = .awaiting h) : rs ≠ [] ∧ ∀ r ∈ rs, r.Expired := by
  rcases between with rfl | rfl
  · cases reads with
    | renewing some expired => exact ⟨some, expired⟩
  · cases reads with
    | awaiting some expired => exact ⟨some, expired⟩

/-- A delivery that gives up between two subscriptions has read only expired ones. -/
theorem Reads.ended_of_expired {outcome : Outcome} {rs : List Reading} (some : rs ≠ [])
    (expired : ∀ r ∈ rs, r.Expired) : Reads (.ended outcome) rs := by
  obtain ⟨reading, earlier, rfl⟩ := List.exists_cons_of_ne_nil some
  exact .ended (.inr (expired reading List.mem_cons_self).closed)
    (fun r mem => expired r (List.mem_cons_of_mem _ mem))

/-- What a delivery takes from its stream comes behind events of the same subscription. -/
theorem Reads.taken {h : Handle} {rs : List Reading} (reads : Reads (.watching h) rs) (item : Item)
    (there : item.isThere = true) : ∃ (events : List Event) (earlier : List Reading),
      rs = ⟨h, events.map .event⟩ :: earlier ∧ (∀ r ∈ earlier, r.Expired) ∧
      readings rs [.next h item] = ⟨h, events.map .event ++ [item]⟩ :: earlier := by
  cases reads with
  | @watching _ events earlier expired =>
    exact ⟨events, earlier, rfl, expired, by simp [TransportCall.note, there]⟩

theorem Reads.untaken {h : Handle} {rs : List Reading} (reads : Reads (.watching h) rs)
    {item : Item} (absent : item.isThere = false) : readings rs [.next h item] = rs := by
  cases reads with
  | watching => simp [TransportCall.note, absent]

section Moves

variable {d d' : Delivery} {calls : List TransportCall} {handed : List (Event × Handled)}
  {acts : List Act} {turn : Turn} {rs : List Reading}

/-- What is read of an item is what is handed on of it. -/
theorem Fatal.lead_eq {item : Item} {before : List Act} {f : Fault}
    (fatal : Fatal item handed before f) :
    item.isThere = true ∧ lead [item] = handed.map Prod.fst := by
  cases fatal <;> exact ⟨rfl, rfl⟩

/-- After such an item nothing was read but events and the sink crashed, or reading stopped at
it. -/
theorem Fatal.stops {item : Item} {before : List Act} {f : Fault}
    (fatal : Fatal item handed before f) (events : List Event) :
    ((∃ all : List Event, events.map .event ++ [item] = all.map .event) ∧
      ∃ entry ∈ handed, entry.2 ≠ .done) ∨ Closed (events.map .event ++ [item]) := by
  cases fatal with
  | crash e message => exact .inl ⟨⟨events ++ [e], by simp⟩, _, List.mem_singleton_self _, by simp⟩
  | fault reason => exact .inr ⟨events, _, rfl, by simp⟩
  | ending => exact .inr ⟨events, _, rfl, by simp⟩

/-- A delivery that meets such an item has read nothing behind it. -/
theorem Reads.ended_of_fatal {h : Handle} {item : Item} {before : List Act} {f : Fault}
    {outcome : Outcome} (reads : Reads (.watching h) rs) (fatal : Fatal item handed before f) :
    Reads (.ended outcome) (readings rs [.next h item]) := by
  obtain ⟨events, earlier, -, expired, read⟩ := reads.taken item fatal.lead_eq.1
  rw [read]
  exact .ended ((fatal.stops events).imp_left And.left) expired

theorem Reads.move (reads : Reads d.phase rs) (move : Move d d' calls handed acts turn) :
    Reads d'.phase (readings rs calls) := by
  -- Only items that are there prolong the latest reading, and only a granted subscription begins
  -- one.
  cases move with
  | finished => exact reads
  | wait => exact reads
  | stop result phase =>
    rw [phase] at reads
    cases reads with
    | watching expired => exact .ended (.inl ⟨_, rfl⟩) expired
  | giveUp phase =>
    obtain ⟨some, expired⟩ := reads.expired phase
    exact .ended_of_expired some expired
  | idle phase =>
    rw [phase] at reads ⊢
    rwa [reads.untaken rfl]
  | busy phase =>
    rw [phase] at reads ⊢
    rwa [reads.untaken rfl]
  | @hand h e phase =>
    rw [phase] at reads ⊢
    obtain ⟨events, earlier, -, expired, read⟩ := reads.taken (.event e) rfl
    have more := @Reads.watching h (events ++ [e]) earlier expired
    rw [read]
    simpa using more
  | @expire h reason result phase =>
    rw [phase] at reads
    obtain ⟨events, earlier, -, expired, read⟩ := reads.taken (.fault (.expired reason)) rfl
    have all : ∀ r ∈ readings rs [.next h (.fault (.expired reason))], r.Expired := by
      rw [read]
      exact List.forall_mem_cons.mpr ⟨⟨events, reason, rfl⟩, expired⟩
    have some : readings rs [.next h (.fault (.expired reason))] ≠ [] := by simp [read]
    exact .renewing some all
  | @expireCrash h reason phase =>
    rw [phase] at reads
    obtain ⟨events, earlier, -, expired, read⟩ := reads.taken (.fault (.expired reason)) rfl
    have ended : Reads (.ended .aborted) (readings rs [.next h (.fault (.expired reason))]) := by
      rw [read]
      exact .ended (.inr ⟨events, _, rfl, by simp⟩) expired
    exact ended
  | escalate result phase _ fatal =>
    rw [phase] at reads
    exact reads.ended_of_fatal fatal
  | escalateCrash phase _ fatal =>
    rw [phase] at reads
    exact reads.ended_of_fatal fatal
  | @renew h fresh turn phase =>
    obtain ⟨-, expired⟩ := reads.expired (.inl phase)
    exact @Reads.watching fresh [] rs expired
  | refuse phase =>
    obtain ⟨some, expired⟩ := reads.expired (.inl phase)
    exact .ended_of_expired some expired
  | unanswered phase =>
    obtain ⟨some, expired⟩ := reads.expired (.inl phase)
    exact .awaiting some expired

/-- A move hands on what it reads of the leading events, and nothing else. -/
theorem Reads.leads_move (reads : Reads d.phase rs) (move : Move d d' calls handed acts turn) :
    leads (readings rs calls) = leads rs ++ handed.map Prod.fst := by
  have taken : ∀ {h item}, d.phase = .watching h → item.isThere = true →
      lead [item] = handed.map Prod.fst →
      leads (readings rs [.next h item]) = leads rs ++ handed.map Prod.fst := by
    intro h item phase there same
    rw [phase] at reads
    obtain ⟨events, earlier, same', -, read⟩ := reads.taken item there
    rw [read, same', leads_cons, leads_cons, lead_append, lead_events, same, List.append_assoc]
  have untaken : ∀ {h item}, d.phase = .watching h → item.isThere = false →
      leads (readings rs [.next h item]) = leads rs := by
    intro h item phase absent
    rw [phase] at reads
    rw [reads.untaken absent]
  cases move with
  | finished => simp
  | wait => simp
  | stop result => simp [TransportCall.note]
  | giveUp => simp
  | idle phase => simpa using untaken phase rfl
  | busy phase => simpa using untaken phase rfl
  | hand phase => exact taken phase rfl rfl
  | expire reason result phase => exact taken phase rfl rfl
  | expireCrash reason phase => exact taken phase rfl rfl
  | escalate result phase _ fatal => exact taken phase fatal.lead_eq.1 fatal.lead_eq.2
  | escalateCrash phase _ fatal => exact taken phase fatal.lead_eq.1 fatal.lead_eq.2
  | renew => simp [TransportCall.note, leads_cons, lead]
  | refuse => simp [TransportCall.note]
  | unanswered => simp [TransportCall.note]

/-- A delivery ends because of a stop, because the sink crashed, or with its reading stopped. -/
theorem Reads.ends_move (reads : Reads d.phase rs) (move : Move d d' calls handed acts turn)
    (running : d.isRunning = true) (ended : d'.isRunning = false) :
    d.stopAsked = true ∨ (∃ entry ∈ handed, entry.2 ≠ .done) ∨
      ∀ reading ∈ (readings rs calls).head?, Closed reading.items := by
  have met : ∀ {h item before f}, d.phase = .watching h → Fatal item handed before f →
      (∃ entry ∈ handed, entry.2 ≠ .done) ∨
        ∀ reading ∈ (readings rs [.next h item]).head?, Closed reading.items := by
    intro h item before f phase fatal
    rw [phase] at reads
    obtain ⟨events, earlier, -, -, read⟩ := reads.taken item fatal.lead_eq.1
    refine (fatal.stops events).imp And.right fun closed => ?_
    rw [read]
    simpa using closed
  cases move with
  | stop _ _ asked => exact .inl asked
  | giveUp _ asked => exact .inl asked
  | @expireCrash h reason phase =>
    rw [phase] at reads
    obtain ⟨events, earlier, -, -, read⟩ := reads.taken (.fault (.expired reason)) rfl
    have stops : Closed (events.map .event ++ [.fault (.expired reason)]) :=
      ⟨events, _, rfl, by simp⟩
    have head : ∀ reading ∈ (readings rs [.next h (.fault (.expired reason))]).head?,
        Closed reading.items := by
      rw [read]
      simpa using stops
    exact .inr (.inr head)
  | escalate result phase _ fatal => exact .inr (met phase fatal)
  | escalateCrash phase _ fatal => exact .inr (met phase fatal)
  | refuse phase =>
    obtain ⟨-, expired⟩ := reads.expired (.inl phase)
    refine .inr (.inr fun reading mem => ?_)
    exact (expired reading (List.mem_of_mem_head? mem)).closed
  | _ => simp_all [Delivery.isRunning]

/-- A delivery that goes on saw its sink take what it was handed. -/
theorem Move.done_of_running (move : Move d d' calls handed acts turn)
    (running : d'.isRunning = true) : ∀ entry ∈ handed, entry.2 = .done := by
  cases move with
  | hand => simp
  | escalate => simp [Delivery.isRunning] at running
  | escalateCrash => simp [Delivery.isRunning] at running
  | _ => simp

end Moves

/-! ## What the streams offer -/

/-- The streams are those of the subscriptions in the order in which they were granted: what was
read of each is its beginning, and a stream that has nothing more to offer was read as a whole. -/
structure Offered (streams : List (List Item)) (before : List Reading)
    (calls : List TransportCall) : Prop where
  beginnings : List.Forall₂ (fun reading stream => reading.items <+: stream)
    (readings before calls).reverse (streams.take (readings before calls).length)
  whole : ∀ h, calls.head? = some (.next h .idle) →
    (readings before calls).head?.map Reading.items =
    (streams.take (readings before calls).length).getLast?

/-- The latest reading and its stream, and the readings and streams before. -/
theorem Offered.split {streams : List (List Item)} {before earlier : List Reading}
    {calls : List TransportCall} {reading : Reading} (offered : Offered streams before calls)
    (read : readings before calls = reading :: earlier) :
    ∃ older stream, streams.take (readings before calls).length = older ++ [stream] ∧
      reading.items <+: stream ∧
      List.Forall₂ (fun reading stream => reading.items <+: stream) earlier.reverse older ∧
      ∀ h, calls.head? = some (.next h .idle) → reading.items = stream := by
  have beginnings := List.forall₂_reverse_iff.mpr offered.beginnings
  rw [List.reverse_reverse, read] at beginnings
  obtain ⟨stream, older, begins, others, split⟩ := List.forall₂_cons_left_iff.mp beginnings
  have taken : streams.take (readings before calls).length = older.reverse ++ [stream] := by
    rw [read, ← List.reverse_reverse (streams.take _), split, List.reverse_cons]
  refine ⟨older.reverse, stream, taken, begins, List.forall₂_reverse_iff.mpr others, ?_⟩
  intro h idle
  have whole := offered.whole h idle
  rw [taken, read] at whole
  simpa using whole

/-- Streams that were read up to a fault or an end delivered all events that precede it. -/
theorem flatMap_lead_eq {rs : List Reading} {streams : List (List Item)}
    (begin : List.Forall₂ (fun reading stream => reading.items <+: stream) rs streams)
    (closed : ∀ r ∈ rs, Closed r.items) :
    rs.flatMap (fun r => lead r.items) = streams.flatMap lead := by
  induction begin with
  | nil => rfl
  | @cons reading stream rs streams begins _ ih =>
    have here := (closed reading List.mem_cons_self).lead_eq begins
    have others := ih (fun r mem => closed r (List.mem_cons_of_mem _ mem))
    rw [List.flatMap_cons, List.flatMap_cons, here, others]

/-- A delivery that rests has called nobody yet, or it has nothing to do: it waits for an answer, or
its stream has no more to offer. -/
def View.Resting (v : View σ) : Prop :=
  v.queued = false → v.delivery.isRunning = true →
    v.calls = [] ∨ (∃ h, v.delivery.phase = .awaiting h) ∨
    ∃ h, v.delivery.phase = .watching h ∧ v.calls.head? = some (.next h .idle)

theorem View.Resting.next {t : Transport τ} {sink : Sink σ} {others : σ → σ → Prop} {v v' : View σ}
    (resting : v.Resting) (next : View.Next t sink others v v') : v'.Resting := by
  cases next with
  | move queued move _ _ rests =>
    intro unqueued running
    have turn := rests unqueued
    cases move with
    | finished phase => simp [Delivery.isRunning, phase] at running
    | wait phase => exact .inr (.inl ⟨_, phase⟩)
    | idle phase => exact .inr (.inr ⟨_, phase, rfl⟩)
    | unanswered => exact .inr (.inl ⟨_, rfl⟩)
    | renew _ _ goes => exact absurd turn goes
    | _ => simp [Delivery.isRunning] at running turn
  | ask => exact fun queued => by simp at queued
  | close finished =>
    intro _ running
    simp [Delivery.isRunning, finished] at running
  | wake => exact fun queued => by simp at queued
  | elsewhere => exact resting

end WatchDispatch.Watch
