import Mathlib.Tactic
import WatchDispatch.Proofs.Dispatch.Contents
import WatchDispatch.Proofs.Dispatch.Replay

/-!
# Running maxima

Generations of one resource may come in any order. Of ordinary deliveries those are handed on that
top all deliveries of their resource before them, so what the dispatcher sees of a resource only
grows, and the mark that stays is the greatest generation that was delivered.
-/

namespace WatchDispatch.Dispatch

open Watch

/-- The generations of a resource among events, in their order. -/
def generations (u : Uid) (events : List Event) : List UInt64 :=
  (events.filter (fun e => e.snapshot.uid = u)).map (fun e => e.snapshot.generation)

/-- The generation of the event is greater than all earlier ones of its resource. -/
def Tops (e : Event) (earlier : List Event) : Prop :=
  ∀ g ∈ generations e.snapshot.uid earlier, g < e.snapshot.generation

instance (e : Event) (earlier : List Event) : Decidable (Tops e earlier) :=
  List.decidableBAll (fun g => g < e.snapshot.generation) (generations e.snapshot.uid earlier)

/-- The events that top all earlier ones, both lists with the latest event first. -/
def records : List Event → List Event
  | [] => []
  | e :: earlier => if Tops e earlier then e :: records earlier else records earlier

/-- The greatest of some generations; nothing if there are none. -/
structure Greatest (gs : List UInt64) (top : Option UInt64) : Prop where
  some_of_ne_nil : gs ≠ [] → top.isSome
  among : ∀ g ∈ top, g ∈ gs
  above : ∀ g ∈ top, ∀ g' ∈ gs, g' ≤ g

/-! ## Generations -/

theorem generations_cons_self (e : Event) (earlier : List Event) :
    generations e.snapshot.uid (e :: earlier) =
    e.snapshot.generation :: generations e.snapshot.uid earlier := by
  simp [generations]

theorem generations_cons_of_ne {u : Uid} {e : Event} (other : e.snapshot.uid ≠ u)
    (earlier : List Event) : generations u (e :: earlier) = generations u earlier := by
  simp [generations, other]

/-- An event tops the earlier ones exactly if it is above the greatest of them. -/
theorem tops_iff {e : Event} {earlier : List Event} {top : Option UInt64}
    (greatest : Greatest (generations e.snapshot.uid earlier) top) :
    Tops e earlier ↔ ∀ g ∈ top, g < e.snapshot.generation := by
  constructor
  · intro tops g mem
    exact tops g (greatest.among g mem)
  · intro newer g' mem
    obtain ⟨g, here⟩ :=
      Option.isSome_iff_exists.mp (greatest.some_of_ne_nil (List.ne_nil_of_mem mem))
    exact UInt64.lt_of_le_of_lt (greatest.above g here g' mem) (newer g here)

theorem Greatest.nil : Greatest [] none := ⟨fun some => absurd rfl some, nofun, nofun⟩

theorem Greatest.cons_of_tops {e : Event} {earlier : List Event} (tops : Tops e earlier) :
    Greatest (generations e.snapshot.uid (e :: earlier)) (some e.snapshot.generation) := by
  rw [generations_cons_self]
  refine ⟨fun _ => rfl, ?_, ?_⟩ <;> rintro _ ⟨⟩
  · exact List.mem_cons_self
  · intro g mem
    rcases List.mem_cons.mp mem with rfl | before
    · exact UInt64.le_refl _
    · exact UInt64.le_of_lt (tops g before)

theorem Greatest.cons_of_not_tops {e : Event} {earlier : List Event} {top : Option UInt64}
    (greatest : Greatest (generations e.snapshot.uid earlier) top) (below : ¬ Tops e earlier) :
    Greatest (generations e.snapshot.uid (e :: earlier)) top := by
  have high : ∃ g ∈ top, e.snapshot.generation ≤ g := by
    simpa [tops_iff greatest, UInt64.not_lt] using below
  obtain ⟨g, here, high⟩ := high
  rw [generations_cons_self]
  refine ⟨fun _ => Option.isSome_iff_exists.mpr ⟨g, here⟩,
    fun g' mem => List.mem_cons_of_mem _ (greatest.among g' mem), fun g' mem g'' later => ?_⟩
  rcases List.mem_cons.mp later with rfl | before
  · obtain rfl : g = g' := Option.some.inj (here.symm.trans mem)
    exact high
  · exact greatest.above g' mem g'' before

/-! ## Records -/

/-- The records of a resource are among its generations, the latest one first. -/
theorem generations_records_sublist (u : Uid) (events : List Event) :
    (generations u (records events)).Sublist (generations u events) := by
  have sublist : (records events).Sublist events := by
    induction events with
    | nil => exact .slnil
    | cons e earlier ih =>
      rw [records]
      split
      · exact ih.cons_cons e
      · exact ih.cons e
  exact (sublist.filter _).map _

/-- What the dispatcher sees of a resource only grows. -/
theorem generations_records_decreasing (u : Uid) (events : List Event) :
    (generations u (records events)).Pairwise (fun later earlier => earlier < later) := by
  induction events with
  | nil => exact .nil
  | cons e earlier ih =>
    rw [records]
    split
    · next tops =>
      by_cases same : e.snapshot.uid = u
      · subst same
        rw [generations_cons_self]
        exact .cons (fun g mem => tops g ((generations_records_sublist _ _).subset mem)) ih
      · rwa [generations_cons_of_ne same]
    · exact ih

/-- Of a resource whose generations grow with every delivery nothing is left out. -/
theorem generations_records_of_increasing {u : Uid} {events : List Event}
    (increasing : (generations u events).Pairwise (fun later earlier => earlier < later)) :
    (records events).filter (fun e => e.snapshot.uid = u) =
    events.filter (fun e => e.snapshot.uid = u) := by
  induction events with
  | nil => rfl
  | cons e earlier ih =>
    by_cases same : e.snapshot.uid = u
    · subst same
      rw [generations_cons_self, List.pairwise_cons] at increasing
      have tops : Tops e earlier := increasing.1
      simp [records, tops, ih increasing.2]
    · rw [generations_cons_of_ne same] at increasing
      rw [List.filter_cons_of_neg (by simpa using same), ← ih increasing, records]
      split
      · rw [List.filter_cons_of_neg (by simpa using same)]
      · rfl

/-! ## Stores -/

def Call.event (call : Call) : Event := ⟨call.action, call.snapshot⟩

namespace Stores

/-- What was handed on since the start, and what the gate holds, after these events. -/
structure Tracks (start : Stores) (events : List Event) (s : Stores) : Prop where
  handed : ∃ new, s.calls = new ++ start.calls ∧ new.map Call.event = records events
  marks : ∀ u, Greatest (generations u events) (s.gate.get? u)

theorem tracks_nil {start : Stores} (unmarked : start.gate = Gate.empty) :
    start.Tracks [] start where
  handed := ⟨[], rfl, rfl⟩
  marks u := by
    rw [unmarked]
    exact .nil

section Steps

variable {c : Configuration} {d : Dispatcher} {start s : Stores} {e : Event} {events : List Event}
  (aware : c.generationAware = true) (ordinary : Ordinary c e)

include aware ordinary

/-- Only its generation decides what becomes of an ordinary event. -/
theorem Tracks.due_iff (tracks : start.Tracks events s) :
    Due c (s.gate.get? e.snapshot.uid) e ↔ Tops e events := by
  rw [tops_iff (tracks.marks e.snapshot.uid), Due]
  simp [ordinary.action, ordinary.staying, aware]

/-- An ordinary event is handed on and marked exactly if it tops those before it. -/
theorem Tracks.deliver (calm : ∀ calls call, d calls call = .done)
    (tracks : start.Tracks events s) : start.Tracks (e :: events) (s.deliver c d e).2 := by
  have due := tracks.due_iff aware ordinary
  obtain ⟨new, calls, handed⟩ := tracks.handed
  constructor
  case handed =>
    rw [deliver_calls_of_due, records]
    by_cases tops : Tops e events
    · rw [if_pos (due.mpr tops), if_pos tops, calls]
      exact ⟨_ :: new, rfl, by rw [List.map_cons, handed]; rfl⟩
    · rw [if_neg (mt due.mp tops), if_neg tops, calls]
      exact ⟨new, rfl, handed⟩
  case marks =>
    intro u
    rw [deliver_gate_of_calm calm]
    by_cases same : e.snapshot.uid = u
    · subst same
      by_cases tops : Tops e events
      · rw [if_pos (due.mpr tops), Gate.get?_mark,
          if_pos ⟨by rw [aware, ordinary.finalizer]; rfl, rfl⟩]
        exact .cons_of_tops tops
      · rw [if_neg (mt due.mp tops)]
        exact (tracks.marks _).cons_of_not_tops tops
    · have kept : (if Due c (s.gate.get? e.snapshot.uid) e then
          s.gate.mark e.snapshot c.generationAware c.finalizer else s.gate).get? u =
            s.gate.get? u := by
        split
        · rw [Gate.get?_mark, if_neg (fun both => same both.2.symm)]
        · rfl
      rw [kept, generations_cons_of_ne same]
      exact tracks.marks u

end Steps

/-- Whatever order ordinary events come in, the stores track their running maxima. -/
theorem tracks_after {c : Configuration} {d : Dispatcher} {start : Stores}
    (aware : c.generationAware = true) (calm : ∀ calls call, d calls call = .done)
    (unmarked : start.gate = Gate.empty) {events : List Event}
    (ordinary : ∀ e ∈ events, Ordinary c e) :
    start.Tracks events (start.after c d (events.map .event)) := by
  induction events with
  | nil => exact tracks_nil unmarked
  | cons e earlier ih =>
    exact (ih (fun e mem => ordinary e (List.mem_cons_of_mem _ mem))).deliver aware
      (ordinary e List.mem_cons_self) calm

end Stores

/-! ## Runs of a source -/

/-- A source that is handed events by its owner is told these events. -/
theorem Source.told_onEvent {τ ε : Type} (t : Transport τ) (env : ε → τ → τ) (s : Source τ)
    (events : List Event) : s.told t env (events.map .onEvent) = events.map .event := by
  induction events with
  | nil => rfl
  | cons e earlier ih =>
    have silent : (s.deeds t env (.onEvent e :: earlier.map .onEvent)).pool.journal =
        (s.deeds t env (earlier.map .onEvent)).pool.journal := rfl
    rw [List.map_cons, Source.told, ih, silent, Nat.sub_self]
    rfl

/-- A source that looks at generations and holds no mark yet is told nothing but ordinary events in
a run, by its sessions and by its owner, of any resources in any order. It hands on exactly the
events that top all earlier ones of their resource. So the generations that it hands on of a
resource strictly increase, the mark of each resource ends at the greatest generation it was told,
and where the generations of a resource strictly increase each event is handed on. -/
theorem dispatched_are_running_maxima {τ : Type} (t : Transport τ) {s : Source (Recorded τ)}
    (aware : s.config.generationAware = true) (unmarked : s.gate = Gate.empty)
    (calm : ∀ calls call, s.dispatcher calls call = .done) {run : List (Deed τ)}
    {events : List Event} (told : s.told t.recorded Recorded.become run = events.map .event)
    (ordinary : ∀ e ∈ events, Ordinary s.config e) :
    let s' := s.deeds t.recorded Recorded.become run
    ∃ new : List Call, s'.calls = new ++ s.calls ∧ new.map Call.event = records events ∧
      ∀ u, (generations u (new.map Call.event)).Pairwise (fun later earlier => earlier < later) ∧
        Greatest (generations u events) (s'.gate.get? u) ∧
        ((generations u events).Pairwise (fun later earlier => earlier < later) →
          (new.map Call.event).filter (fun e => e.snapshot.uid = u) =
            events.filter (fun e => e.snapshot.uid = u)) := by
  intro s'
  have stores : s'.pool.sink = s.pool.sink.after s.config s.dispatcher (events.map .event) := by
    rw [← told]
    exact (s.deeds_stores t Recorded.become run).2
  have tracks := Stores.tracks_after aware calm unmarked ordinary
  rw [← stores] at tracks
  obtain ⟨new, calls, handed⟩ := tracks.handed
  refine ⟨new, calls, handed, fun u => ⟨?_, tracks.marks u, fun increasing => ?_⟩⟩
  · rw [handed]
    exact generations_records_decreasing u events
  · rw [handed]
    exact generations_records_of_increasing increasing

namespace Sample

def otherUid : Uid := ⟨List.replicate 16 1, rfl⟩

def ofOther (e : Event) : Event :=
  { e with snapshot := { e.snapshot with
    identity := { e.snapshot.identity with uid := otherUid } } }

/-- Generations 0, 3, 2, 3 and 5 of one resource, latest first, with generation 1 of another between
them. -/
def unsorted : List Event :=
  [⟨.modified, snapshot 5 false⟩, ⟨.modified, snapshot 3 false⟩, ofOther ⟨.added, snapshot 1 false⟩,
    ⟨.modified, snapshot 2 false⟩, ⟨.modified, snapshot 3 false⟩, ⟨.added, snapshot 0 false⟩]

/-- The sample source, handed these changes by its owner. -/
def handed : Source (Recorded (Nat × List (List Item))) :=
  (Source.make configuration (fun _ _ => .done) ⟨(0, []), []⟩).deeds Watch.Sample.numbered.recorded
    Recorded.become (unsorted.map .onEvent)

end Sample

theorem dispatched_of_unsorted :
    Sample.handed.calls.map (fun call => call.snapshot.generation) = [5, 1, 3, 0] ∧
      Greatest [5, 3, 2, 3, 0] (Sample.handed.gate.get? default) ∧
      Greatest [1] (Sample.handed.gate.get? Sample.otherUid) := by
  let s : Source (Recorded (Nat × List (List Item))) :=
    Source.make Sample.configuration (fun _ _ => .done) ⟨(0, []), []⟩
  have told := s.told_onEvent Watch.Sample.numbered.recorded Recorded.become Sample.unsorted
  obtain ⟨new, calls, handed, perUid⟩ :=
    dispatched_are_running_maxima Watch.Sample.numbered (s := s) rfl rfl (fun _ _ => rfl)
      told (by decide)
  have own : generations default Sample.unsorted = [5, 3, 2, 3, 0] := by decide
  have other : generations Sample.otherUid Sample.unsorted = [1] := by decide
  have mine := (perUid default).2.1
  have theirs := (perUid Sample.otherUid).2.1
  rw [own] at mine
  rw [other] at theirs
  have ofEvents : (new.map Call.event).map (fun e => e.snapshot.generation) = [5, 1, 3, 0] := by
    rw [handed]
    decide
  rw [List.map_map] at ofEvents
  rw [show s.calls = [] from rfl, List.append_nil] at calls
  refine ⟨?_, mine, theirs⟩
  rw [Sample.handed, calls]
  exact ofEvents

end WatchDispatch.Dispatch
