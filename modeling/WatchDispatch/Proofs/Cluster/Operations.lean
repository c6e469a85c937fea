import WatchDispatch.Proofs.Cluster.Wire

/-!
# Runs of operations

Anybody may use the transport over a cluster: subscribe, read, give back and forget streams in any
order, while the replies of the server change at will. Every such run leaves a sound log, in which
what was noted earlier stays, and whoever reads on is told everything in the end.
-/

namespace WatchDispatch.Cluster

open Watch (Item)

inductive Operation where
  | subscribe (scope : Scope)
  | unsubscribe (h : Handle)
  | next (h : Handle)
  | abandon (h : Handle)
  /-- The server has other replies left. -/
  | serves (routes : Table String (List Reply))

namespace Operation

def effect (a : Api) (x : ApiState) : Operation → ApiState
  | .subscribe scope => (a.subscribe scope x).2
  | .unsubscribe h => (Api.unsubscribe h x).2
  | .next h => (a.next h x).2
  | .abandon h => Api.abandon h x
  | .serves routes => { x with server := { x.server with routes } }

/-- The operation may change the cursor of the subscription. -/
def Touches (x : ApiState) (id : Nat) : Operation → Prop
  | .subscribe _ => id = x.nextId
  | .next h | .abandon h => id = h.id
  | _ => False

theorem numbered_effect (a : Api) {x : ApiState} (numbered : Numbered x) (operation : Operation) :
    Numbered (operation.effect a x) := by
  have dwindles := transport_dwindles a
  cases operation with
  | subscribe scope => exact (dwindles.subscribe scope numbered).1
  | unsubscribe h => exact (dwindles.unsubscribe h numbered).1
  | next h => exact (dwindles.next h numbered).1
  | abandon h => exact (dwindles.abandon h numbered).1
  | serves routes => exact numbered

section Effects

variable {a : Api} {x : ApiState}

theorem lookup_effect {id : Nat} {operation : Operation} (other : ¬ operation.Touches x id) :
    (operation.effect a x).cursors.lookup id = x.cursors.lookup id := by
  cases operation with
  | subscribe scope => exact (subscribe_cursors a x scope).2 id other
  | unsubscribe h => exact congrArg (·.lookup id) (unsubscribe_cursors x h).1
  | next h => exact (next_cursors a x h).2 id other
  | abandon h =>
    change (Api.abandon h x).cursors.lookup id = x.cursors.lookup id
    rw [lookup_abandon, if_neg (show id ≠ h.id from other)]
  | serves routes => rfl

theorem le_nextId_effect (operation : Operation) : x.nextId ≤ (operation.effect a x).nextId := by
  cases operation with
  | subscribe scope =>
    rw [effect, (subscribe_cursors a x scope).1]
    exact Nat.le_succ _
  | unsubscribe h => exact Nat.le_of_eq (unsubscribe_cursors x h).2.symm
  | next h => exact Nat.le_of_eq (next_cursors a x h).1.symm
  | abandon h => exact Nat.le_refl _
  | serves routes => exact Nat.le_refl _

end Effects

end Operation

namespace Wire

def start (server : Server) : Wire := ⟨ApiState.start server, []⟩

def perform (a : Api) (w : Wire) (operation : Operation) : Wire :=
  match operation with
  | .subscribe scope => (a.wire.subscribe scope w).2
  | .unsubscribe h => (a.wire.unsubscribe h w).2
  | .next h => (a.wire.next h w).2
  | .abandon h => a.wire.abandon h w
  | .serves _ => { w with state := operation.effect a w.state }

/-- The wire after operations, latest operation first. -/
def after (a : Api) (w : Wire) : List Operation → Wire
  | [] => w
  | operation :: earlier => (w.after a earlier).perform a operation

theorem perform_state (a : Api) (w : Wire) (operation : Operation) :
    (w.perform a operation).state = operation.effect a w.state := by
  cases operation <;> rfl

theorem after_append (a : Api) (w : Wire) (later run : List Operation) :
    w.after a (later ++ run) = (w.after a run).after a later := by
  induction later with
  | nil => rfl
  | cons operation later ih => simp only [List.cons_append, after, ih]

/-! ## What stays -/

theorem perform_log (a : Api) (w : Wire) (operation : Operation) :
    ∃ notes, (w.perform a operation).log = notes ++ w.log := by
  cases operation with
  | subscribe scope => exact ⟨[_], rfl⟩
  | unsubscribe h => exact ⟨[_], rfl⟩
  | next h => exact ⟨[_], rfl⟩
  | abandon h => exact ⟨[], rfl⟩
  | serves routes => exact ⟨[], rfl⟩

theorem after_log (a : Api) (w : Wire) (run : List Operation) :
    ∃ notes, (w.after a run).log = notes ++ w.log := by
  induction run with
  | nil => exact ⟨[], rfl⟩
  | cons operation earlier ih =>
    obtain ⟨notes, before⟩ := ih
    obtain ⟨more, now⟩ := perform_log a (w.after a earlier) operation
    exact ⟨more ++ notes, by rw [after, now, before, List.append_assoc]⟩

end Wire

theorem exchanges_prefix_append (id : Nat) (notes log : List Note) :
    exchanges id log <+: exchanges id (notes ++ log) := by
  induction notes with
  | nil => exact List.prefix_refl _
  | cons note notes ih => exact ih.trans (List.prefix_append _ _)

theorem items_prefix_append (id : Nat) (notes log : List Note) :
    items id log <+: items id (notes ++ log) := by
  induction notes with
  | nil => exact List.prefix_refl _
  | cons note notes ih => exact ih.trans (List.prefix_append _ _)

/-- What a note shows of a subscription is among its items. -/
theorem items_of_mem {id : Nat} {note : Note} {log : List Note} (mem : note ∈ log) {item : Item}
    (shown : item ∈ note.shown id) : item ∈ items id log := by
  obtain ⟨later, earlier, rfl⟩ := List.append_of_mem mem
  exact (items_prefix_append id later (note :: earlier)).subset (List.mem_append_right _ shown)

namespace Wire

/-- Whatever is followed was asked for on this wire. -/
def Whole (w : Wire) : Prop := ∀ id c, w.state.cursors.lookup id = some c → w.Owns id

theorem Owns.perform {w : Wire} {id : Nat} (owns : w.Owns id) (a : Api) (operation : Operation) :
    (w.perform a operation).Owns id := by
  obtain ⟨notes, log⟩ := w.perform_log a operation
  intro none
  rw [log] at none
  exact owns (List.prefix_nil.mp (none ▸ exchanges_prefix_append id notes w.log))

theorem Whole.perform {a : Api} {w : Wire} (whole : w.Whole) (operation : Operation) :
    (w.perform a operation).Whole := by
  intro id c found
  rw [perform_state] at found
  by_cases touched : operation.Touches w.state id
  · cases operation with
    | subscribe scope =>
      obtain rfl : id = w.state.nextId := touched
      -- The log of a subscription begins with its first request.
      intro none
      have grows : exchanges w.state.nextId (w.perform a (.subscribe scope)).log =
          exchanges w.state.nextId w.log ++ [⟨w.state.nextId, a.pathOf scope, baseline,
            (w.state.server.watch a.params (a.pathOf scope) baseline).1⟩] :=
        (exchanges_cons_of_some rfl).trans (if_pos rfl)
      rw [none] at grows
      simp at grows
    | next h =>
      obtain rfl : id = h.id := touched
      cases here : w.state.cursors.lookup h.id with
      | none =>
        rw [Operation.effect, Api.next_of_none here, here] at found
        cases found
      | some d => exact (whole h.id d here).perform a _
    | abandon h =>
      obtain rfl : id = h.id := touched
      change (Api.abandon h w.state).cursors.lookup h.id = some c at found
      rw [lookup_abandon, if_pos rfl] at found
      cases found
    | unsubscribe h => cases touched
    | serves routes => cases touched
  · rw [Operation.lookup_effect touched] at found
    exact (whole id c found).perform a operation

/-- A log without notes is sound. -/
theorem sound_of_numbered (a : Api) {x : ApiState} (numbered : Numbered x) : Sound a ⟨x, []⟩ := by
  have unasked : ∀ id, ¬ Owns ⟨x, []⟩ id := fun id owned => owned rfl
  constructor
  case numbered => exact numbered
  case unused => exact fun id _ => ⟨rfl, rfl⟩
  case follows => exact fun id c owned => absurd owned (unasked id)
  case resumed =>
    exact fun id => ⟨"", Resumed.nil a.decoder "", fun c owned => absurd owned (unasked id)⟩
  case told => exact fun id => List.nil_prefix
  case idle =>
    intro note head
    cases head
  case fitting => trivial

theorem sound_start (a : Api) (server : Server) :
    (start server).Sound a ∧ (start server).Whole := by
  refine ⟨sound_of_numbered a (numbered_start server), ?_⟩
  intro id c found
  cases found

/-- Others may do what they like with their own subscriptions. -/
theorem Sound.elsewhere {a : Api} {w : Wire} (sound : w.Sound a) {operation : Operation}
    (others : ∀ id, w.Owns id → ¬ operation.Touches w.state id) :
    Wire.Sound a ⟨operation.effect a w.state, w.log⟩ := by
  refine sound.become (operation.numbered_effect a sound.numbered) operation.le_nextId_effect ?_
  intro id c owned found
  rwa [Operation.lookup_effect (others id owned)] at found

theorem Sound.perform {a : Api} {w : Wire} (sound : w.Sound a) (whole : w.Whole)
    (operation : Operation) : (w.perform a operation).Sound a := by
  cases operation with
  | subscribe scope => exact sound.subscribe scope
  | unsubscribe h => exact sound.unsubscribe h
  | next h => exact sound.next h (whole h.id)
  | abandon h => exact sound.abandon h
  | serves routes => exact @Sound.elsewhere a w sound (.serves routes) (fun _ _ => id)

theorem Sound.after {a : Api} {w : Wire} (sound : w.Sound a) (whole : w.Whole)
    (run : List Operation) : (w.after a run).Sound a ∧ (w.after a run).Whole := by
  induction run with
  | nil => exact ⟨sound, whole⟩
  | cons operation earlier ih => exact ⟨ih.1.perform ih.2 operation, ih.2.perform operation⟩

end Wire

/-- A subscription that has told its fault has told all, and in no later run does it ask or tell
anything more. -/
theorem Wire.Sound.silent_of_fault {a : Api} {w : Wire} (sound : w.Sound a) (whole : w.Whole)
    {id : Nat} {f : Fault} (mem : .fault f ∈ items id w.log) :
    items id w.log = Cluster.told a.decoder (said id w.log) ∧
      ∀ later, items id (w.after a later).log = items id w.log ∧
        exchanges id (w.after a later).log = exchanges id w.log ∧
        ∀ h, h.id = id → (a.wire.next h (w.after a later)).1 = .ended := by
  have all := eq_told_of_fault_mem (sound.told id) mem
  refine ⟨all, ?_⟩
  intro later
  obtain ⟨t, met, -⟩ := fault_mem_told_iff.mp ((sound.told id).subset mem)
  obtain ⟨after, followed⟩ := sound.after whole later
  obtain ⟨notes, log⟩ := w.after_log a later
  have same : exchanges id (w.after a later).log = exchanges id w.log := by
    obtain ⟨more, split⟩ := log ▸ exchanges_prefix_append id notes w.log
    cases more with
    | nil => rw [← split, List.append_nil]
    | cons e more =>
      -- A request behind a trouble would not follow the rules.
      obtain ⟨path, resumed, -⟩ := after.resumed id
      have calm := (resumed _ e more split.symm).2.2.2
      rw [← said, met] at calm
      cases calm
  have begins : items id w.log <+: items id (w.after a later).log :=
    log ▸ items_prefix_append id notes w.log
  have told := after.told id
  rw [said, same, ← said, ← all] at told
  refine ⟨told.eq_of_length_le begins.length_le, same, ?_⟩
  rintro h rfl
  cases found : (w.after a later).state.cursors.lookup h.id with
  | none => exact congrArg Prod.fst (Api.next_of_none found)
  | some c =>
    have finished :=
      (after.follows h.id c (followed h.id c found) found).finished_of_fault (begins.subset mem)
    exact congrArg Prod.fst
      (Api.next_of_lookup found (c.next_of_finished a.params a.decoder _ finished))

namespace Wire

/-- The cursor of a subscription is there: it was granted, and its stream was not forgotten. -/
def Follows (w : Wire) (h : Handle) : Prop := ∃ c, w.state.cursors.lookup h.id = some c

/-- Everything was told that was said: the reader was put off, or the fault was told. -/
def ReadOut (a : Api) (w : Wire) (id : Nat) : Prop :=
  items id w.log = told a.decoder (said id w.log) ∧
    (PutOff a.decoder (exchanges id w.log) (items id w.log) ∨
      ∃ t, trouble? a.decoder (said id w.log) = some t)

/-- Taking an item either shows that everything was told, or it uses work up. -/
theorem Sound.next_cases {a : Api} {w : Wire} {h : Handle} (sound : w.Sound a) (owned : w.Owns h.id)
    (follows : w.Follows h) :
    (a.wire.next h w).2.Follows h ∧
      ((a.wire.next h w).2.ReadOut a h.id ∨ (a.wire.next h w).2.state.work < w.state.work) := by
  obtain ⟨c, found⟩ := follows
  obtain ⟨c', took⟩ := sound.took owned found
  have uses := (wire_dwindles a).uses h sound.numbered
  generalize (a.wire.next h w).1 = item, (a.wire.next h w).2 = w' at took uses
  refine ⟨⟨c', by rw [took.cursors, if_pos rfl]⟩, ?_⟩
  have own : items h.id w'.log = items h.id w.log ++ Cursor.shown item := by
    rw [took.items, if_pos rfl]
  by_cases idle : item = .idle
  · have off := took.advances.idle idle
    have silent : Cursor.shown item = [] := by simp [Cursor.shown, idle]
    rw [silent, List.append_nil] at own
    rw [← own] at off
    exact .inl ⟨off.told, .inl off⟩
  · by_cases ended : item = .ended
    · have done := took.advances.ended ended
      have silent : Cursor.shown item = [] := by simp [Cursor.shown, ended]
      rw [silent, List.append_nil] at own
      rw [← own] at done
      exact .inl ⟨done.told, .inr done.trouble⟩
    · exact .inr (uses idle ended)

/-- Whoever takes one item after another of a subscription is told everything in the end. -/
theorem Sound.reads_out {a : Api} {w : Wire} {h : Handle} (sound : w.Sound a) (owned : w.Owns h.id)
    (follows : w.Follows h) : ∃ n, (w.after a (List.replicate n (.next h))).ReadOut a h.id := by
  generalize left : w.state.work = work
  induction work using Nat.strongRecOn generalizing w with
  | ind work ih =>
    obtain ⟨still, out | less⟩ := sound.next_cases owned follows
    · exact ⟨1, out⟩
    · have next := sound.next h (fun _ _ => owned)
      obtain ⟨n, out⟩ := ih _ (left ▸ less) next (owned.perform a (.next h)) still rfl
      refine ⟨n + 1, ?_⟩
      rw [List.replicate_succ', after_append]
      exact out

/-! ## Runs from the start -/

theorem follows_of_granted {a : Api} {w : Wire} {scope : Scope} {h : Handle}
    (granted : (a.wire.subscribe scope w).1 = .granted h) :
    (a.wire.subscribe scope w).2.Follows h := by
  change (a.subscribe scope w.state).1 = .granted h at granted
  change ∃ c, (a.subscribe scope w.state).2.cursors.lookup h.id = some c
  cases failed : (w.state.server.watch a.params (a.pathOf scope) baseline).1.error? with
  | some e =>
    rw [Api.subscribe_of_error failed] at granted
    cases granted
  | none =>
    obtain ⟨l, opened⟩ := Response.error?_eq_none_iff.mp failed
    rw [Api.subscribe_of_stream opened] at granted ⊢
    obtain rfl : ⟨w.state.nextId, scope⟩ = h := Watch.Subscribed.granted.inj granted
    exact ⟨_, by rw [lookup_cons_eq_ite, if_pos rfl]⟩

/-- Only to forget a stream takes its cursor away. -/
theorem Follows.perform {a : Api} {w : Wire} {h : Handle} (follows : w.Follows h)
    (operation : Operation) (kept : ∀ g, operation = .abandon g → g.id ≠ h.id) :
    (w.perform a operation).Follows h := by
  obtain ⟨c, found⟩ := follows
  unfold Follows
  rw [perform_state]
  by_cases touched : operation.Touches w.state h.id
  · cases operation with
    | subscribe scope =>
      have same : h.id = w.state.nextId := touched
      rw [Operation.effect]
      cases failed : (w.state.server.watch a.params (a.pathOf scope) baseline).1.error? with
      | some e =>
        rw [Api.subscribe_of_error failed]
        exact ⟨c, found⟩
      | none =>
        obtain ⟨l, opened⟩ := Response.error?_eq_none_iff.mp failed
        rw [Api.subscribe_of_stream opened]
        exact ⟨_, by rw [lookup_cons_eq_ite, if_pos same]⟩
    | next g =>
      have same : h.id = g.id := touched
      rw [same] at found
      rcases taken : c.next a.params a.decoder w.state.server with ⟨item, c', server⟩
      rw [Operation.effect, Api.next_of_lookup found taken]
      exact ⟨c', by rw [lookup_setCursor, if_pos same, found, Option.map_some]⟩
    | abandon g => exact absurd touched.symm (kept g rfl)
    | unsubscribe g => cases touched
    | serves routes => cases touched
  · exact ⟨c, by rw [Operation.lookup_effect touched, found]⟩

/-- A subscription that was granted and whose stream nobody has forgotten has its cursor. -/
theorem follows_after {a : Api} {server : Server} {run : List Operation} {scope : Scope}
    {h : Handle} {x : Option Exchange}
    (granted : ⟨.subscribe scope (.granted h), x⟩ ∈ ((start server).after a run).log)
    (kept : ∀ g, .abandon g ∈ run → g.id ≠ h.id) : ((start server).after a run).Follows h := by
  induction run with
  | nil => cases granted
  | cons operation earlier ih =>
    have before : ∀ g, .abandon g ∈ earlier → g.id ≠ h.id :=
      fun g mem => kept g (List.mem_cons_of_mem _ mem)
    have now : ∀ g, operation = .abandon g → g.id ≠ h.id :=
      fun g same => kept g (same ▸ List.mem_cons_self)
    cases operation with
    | subscribe other =>
      rcases List.mem_cons.mp granted with new | old
      · simp only [Note.mk.injEq, Watch.TransportCall.subscribe.injEq] at new
        obtain ⟨⟨rfl, answer⟩, -⟩ := new
        exact follows_of_granted answer.symm
      · exact (ih old before).perform _ now
    | unsubscribe g =>
      rcases List.mem_cons.mp granted with new | old
      · cases new
      · exact (ih old before).perform _ now
    | next g =>
      rcases List.mem_cons.mp granted with new | old
      · cases new
      · exact (ih old before).perform _ now
    | abandon g => exact (ih granted before).perform _ now
    | serves routes => exact (ih granted before).perform _ now

end Wire

end WatchDispatch.Cluster
