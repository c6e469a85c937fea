import WatchDispatch.Cluster.Transport
import WatchDispatch.Proofs.Watch.Settling

/-!
# The work that is left

Every item that the transport over a cluster gives uses up a line, an error or a reply of the
server, so whoever reads on comes to an end or to a response that is left open, and sessions come to
rest.
-/

namespace WatchDispatch.Cluster

open Watch (Item Transport)

/-! ## Replies -/

theorem totalSize_insert {α : Type} (size : α → Nat) {entries : List (String × α)} {key : String}
    {old : α} (ordered : Assoc.Ordered entries) (found : Assoc.get? key entries = some old)
    (v : α) :
    totalSize size ((Assoc.insert key v entries).map Prod.snd) + size old =
      totalSize size (entries.map Prod.snd) + size v := by
  induction entries with
  | nil => cases found
  | cons entry rest ih =>
    obtain ⟨key', value⟩ := entry
    obtain ⟨above, restOrdered⟩ := List.pairwise_cons.mp ordered
    by_cases same : key = key'
    · subst same
      obtain rfl : value = old := by simpa [Assoc.get?] using found
      simp only [Assoc.insert, if_true, List.map_cons, totalSize]
      omega
    · have later : Assoc.get? key rest = some old := by simpa [Assoc.get?, same] using found
      -- The key stands behind a smaller one, so it is not put in front.
      have notFirst : ¬ key < key' := by
        intro first
        have mem : key ∈ rest.map Prod.fst :=
          (Assoc.isSome_get?_iff key rest).mp (by simp [later])
        obtain ⟨entry, there, rfl⟩ := List.mem_map.mp mem
        exact KeyOrder.irrefl _ (KeyOrder.trans first (above entry there))
      have rest := ih restOrdered later
      simp only [Assoc.insert, if_neg same, if_neg notFirst, List.map_cons, totalSize]
      omega

namespace Server

/-- A reply is taken out of the work that is left, unless there is none. -/
theorem work_ask (uri : String) (s : Server) :
    (s.ask uri).1.work + (s.ask uri).2.work = s.work ∨
      (s.ask uri).1 = noReply ∧ (s.ask uri).2.work = s.work := by
  unfold ask
  dsimp only
  split
  next reply rest found =>
    left
    have less := totalSize_insert (totalSize Reply.work) s.routes.ordered found rest
    simp only [totalSize] at less
    simp only [work, Table.values, Table.insert]
    omega
  next => exact .inr ⟨rfl, rfl⟩

/-- What a watch request leaves, the response to it included. -/
theorem work_watch (params : WatchParams) (path version : String) (s : Server) :
    (s.watch params path version).2.work ≤ s.work ∧
      ∀ l, (s.watch params path version).1 = .stream l →
        l.work + (s.watch params path version).2.work < s.work := by
  unfold watch
  cases request : watchRequest params path version with
  | error e => exact ⟨Nat.le_refl _, nofun⟩
  | ok uri =>
    dsimp only
    rcases work_ask uri s with used | ⟨none, same⟩
    · refine ⟨by omega, ?_⟩
      intro l opened
      have smaller : l.work < (s.ask uri).1.work := by
        revert opened
        cases (s.ask uri).1 with
        | refused e => exact nofun
        | answer answer =>
          rintro ⟨⟩
          exact Nat.lt_succ_self _
        | listing listing =>
          rintro ⟨⟩
          exact Nat.lt_succ_self 3
      omega
    · refine ⟨by omega, ?_⟩
      intro l opened
      rw [none] at opened
      cases opened

end Server

/-! ## Cursors -/

namespace Cursor

variable {decoder : Decoder} {c : Cursor}

/-- Looking for the next item uses lines up, unless it comes to an end. -/
structure Spends (before : Nat) (found : Option Item × Cursor) : Prop where
  work : found.2.work ≤ before
  uses : ∀ item ∈ found.1, item ≠ .idle → item ≠ .ended → found.2.work < before
  /-- Whoever asks again has the work of asking left. -/
  asks : found.1 = none → 2 ≤ before

theorem fail_spends (c : Cursor) (f : Fault) {before : Nat} (positive : 0 < before) :
    Spends before (some (c.fail f).1, (c.fail f).2) :=
  ⟨Nat.zero_le _, fun _ _ _ _ => positive, nofun⟩

theorem read_spends (decoder : Decoder) (finale : Finale) (lines : List String) (c : Cursor) :
    Spends (lines.length + 2) (read decoder finale lines c) := by
  induction lines generalizing c with
  | nil =>
    cases finale with
    | ends => exact ⟨Nat.le_refl _, nofun, fun _ => Nat.le_refl _⟩
    | hangs =>
      refine ⟨Nat.le_refl _, ?_, nofun⟩
      rintro _ ⟨⟩ off
      exact absurd rfl off
    | resets => exact fail_spends _ _ (Nat.succ_pos 1)
  | cons text lines ih =>
    have later : ∀ c, Spends ((text :: lines).length + 2) (read decoder finale lines c) := by
      intro c
      obtain ⟨work, uses, asks⟩ := ih c
      have longer : (text :: lines).length = lines.length + 1 := rfl
      refine ⟨by omega, ?_, fun none => by omega⟩
      intro item mem there going
      have := uses item mem there going
      omega
    unfold read
    cases WatchLine.read? text with
    | none => exact later c
    | some line =>
      cases line with
      | bookmark version => exact later { c with resourceVersion := version }
      | failure e => exact fail_spends _ _ (Nat.succ_pos _)
      | change action o =>
        dsimp only [tell]
        cases o.snapshot decoder.kind with
        | error e => exact fail_spends _ _ (Nat.succ_pos _)
        | ok snapshot =>
          have less : (LineStream.mk lines finale).work < (text :: lines).length + 2 := by
            simp [LineStream.work]
          exact ⟨Nat.le_of_lt less, fun _ _ _ _ => less, nofun⟩

theorem look_spends (decoder : Decoder) (c : Cursor) : Spends c.work (c.look decoder) := by
  cases stage : c.stage with
  | reading l =>
    have work : c.work = l.lines.length + 2 := by simp [work, stage, LineStream.work]
    rw [look, stage, work]
    exact read_spends decoder l.finale l.lines c
  | failing e =>
    have work : c.work = 1 := by simp [work, stage]
    rw [look, stage, work]
    exact fail_spends c e.fault Nat.one_pos
  | finished =>
    rw [look, stage]
    refine ⟨Nat.le_refl _, ?_, nofun⟩
    rintro _ ⟨⟩ _ going
    exact absurd rfl going

/-- Taking the next item uses up some of the work that is left for the cursor and for the server. -/
theorem work_next (params : WatchParams) (decoder : Decoder) (c : Cursor) (s : Server) :
    (c.next params decoder s).2.1.work + (c.next params decoder s).2.2.work ≤ c.work + s.work ∧
      ((c.next params decoder s).1 ≠ .idle → (c.next params decoder s).1 ≠ .ended →
        (c.next params decoder s).2.1.work + (c.next params decoder s).2.2.work <
        c.work + s.work) := by
  have spends := look_spends decoder c
  unfold next
  rcases found : c.look decoder with ⟨_ | item, c'⟩ <;> rw [found] at spends
  · have asks : 2 ≤ c.work := spends.asks rfl
    have less : (c'.ask params s).2.1.work + (c'.ask params s).2.2.work < c.work + s.work := by
      have left := Server.work_watch params c'.path c'.resourceVersion s
      unfold ask
      rcases answer : s.watch params c'.path c'.resourceVersion with ⟨e | e | l, s'⟩ <;>
        rw [answer] at left <;> dsimp only at left ⊢
      · have spent : ({ c' with stage := .finished } : Cursor).work = 0 := rfl
        have work := left.1
        simp only [fail, spent] at work ⊢
        omega
      · have failing : ({ c' with stage := .failing e } : Cursor).work = 1 := rfl
        have work := left.1
        simp only [failing] at work ⊢
        omega
      · have reading : ({ c' with stage := .reading l } : Cursor).work = l.work := rfl
        have work := left.2 l rfl
        simp only [reading] at work ⊢
        omega
    exact ⟨Nat.le_of_lt less, fun _ _ => less⟩
  · refine ⟨Nat.add_le_add_right spends.work _, ?_⟩
    intro there going
    exact Nat.add_lt_add_right (spends.uses item rfl there going) _

end Cursor

/-! ## Cursors by number -/

theorem lookup_cons_eq_ite (id number : Nat) (c : Cursor) (cursors : List (Nat × Cursor)) :
    ((number, c) :: cursors).lookup id = if id = number then some c else cursors.lookup id := by
  by_cases same : id = number
  · simp [same]
  · have other : (id == number) = false := beq_false_of_ne same
    simp [List.lookup_cons, same, other]

theorem lookup_setCursor (id : Nat) (c : Cursor) (x : ApiState) (other : Nat) :
    (x.setCursor id c).cursors.lookup other =
      if other = id then (x.cursors.lookup id).map (fun _ => c) else x.cursors.lookup other := by
  have each : ∀ cursors : List (Nat × Cursor),
      (cursors.map (fun entry => if entry.1 = id then (id, c) else entry)).lookup other =
        if other = id then (cursors.lookup id).map (fun _ => c) else cursors.lookup other := by
    intro cursors
    induction cursors with
    | nil => simp
    | cons entry cursors ih =>
      obtain ⟨number, cursor⟩ := entry
      rw [List.map_cons]
      by_cases same : number = id
      · subst same
        by_cases here : other = number <;> simp_all [lookup_cons_eq_ite]
      · by_cases asked : other = id
        · subst asked
          simp_all [lookup_cons_eq_ite, eq_comm]
        · simp_all [lookup_cons_eq_ite]
  exact each x.cursors

theorem lookup_abandon (h : Handle) (x : ApiState) (id : Nat) :
    (Api.abandon h x).cursors.lookup id = if id = h.id then none else x.cursors.lookup id := by
  have each : ∀ cursors : List (Nat × Cursor),
      (cursors.filter (fun entry => entry.1 ≠ h.id)).lookup id =
        if id = h.id then none else cursors.lookup id := by
    intro cursors
    induction cursors with
    | nil => simp
    | cons entry cursors ih =>
      obtain ⟨number, cursor⟩ := entry
      by_cases same : number = h.id
      · have dropped : decide (number ≠ h.id) = false := by simp [same]
        rw [List.filter_cons, dropped, if_neg (by simp), ih, lookup_cons_eq_ite]
        by_cases gone : id = h.id <;> simp [gone, same]
      · have kept : decide (number ≠ h.id) = true := by simp [same]
        rw [List.filter_cons, kept, if_pos rfl, lookup_cons_eq_ite, lookup_cons_eq_ite, ih]
        by_cases here : id = number
        · have apart : id ≠ h.id := here ▸ same
          simp [here, same]
        · simp [here]
  exact each x.cursors

/-! ## The transport -/

/-- Every cursor has a number of its own, which has been given out. -/
def Numbered (x : ApiState) : Prop :=
  (x.cursors.map Prod.fst).Nodup ∧ ∀ id ∈ x.cursors.map Prod.fst, id < x.nextId

theorem mem_of_lookup {cursors : List (Nat × Cursor)} {id : Nat} {c : Cursor}
    (found : cursors.lookup id = some c) : id ∈ cursors.map Prod.fst := by
  induction cursors with
  | nil => cases found
  | cons entry cursors ih =>
    obtain ⟨number, cursor⟩ := entry
    rw [lookup_cons_eq_ite] at found
    by_cases same : id = number
    · exact same ▸ List.mem_cons_self
    · rw [if_neg same] at found
      exact List.mem_cons_of_mem _ (ih found)

theorem Numbered.lookup_eq_none {x : ApiState} (numbered : Numbered x) {id : Nat}
    (new : x.nextId ≤ id) : x.cursors.lookup id = none := by
  cases found : x.cursors.lookup id with
  | none => rfl
  | some c =>
    have given := numbered.2 id (mem_of_lookup found)
    omega

theorem numbered_start (server : Server) : Numbered (ApiState.start server) := by
  constructor
  · exact List.nodup_nil
  · intro id mem
    cases mem

/-- What the cursors have left after one of them changed. -/
theorem work_setCursor {cursors : List (Nat × Cursor)} {id : Nat} {c : Cursor}
    (distinct : (cursors.map Prod.fst).Nodup) (found : cursors.lookup id = some c) (c' : Cursor) :
    totalSize (fun entry => entry.2.work)
        (cursors.map fun entry => if entry.1 = id then (id, c') else entry) + c.work =
      totalSize (fun entry => entry.2.work) cursors + c'.work := by
  induction cursors with
  | nil => cases found
  | cons entry cursors ih =>
    obtain ⟨number, cursor⟩ := entry
    obtain ⟨new, others⟩ := List.nodup_cons.mp distinct
    rw [lookup_cons_eq_ite] at found
    by_cases same : id = number
    · subst same
      rw [if_pos rfl] at found
      obtain rfl := Option.some.inj found
      have untouched : cursors.map (fun entry => if entry.1 = id then (id, c') else entry) =
          cursors := by
        refine (List.map_congr_left ?_).trans cursors.map_id
        intro entry mem
        have other : entry.1 ≠ id := fun same => new (List.mem_map.mpr ⟨entry, mem, same⟩)
        exact if_neg other
      simp only [List.map_cons, if_true, untouched, totalSize]
      omega
    · rw [if_neg same] at found
      have rest := ih others found
      simp only [List.map_cons, if_neg (Ne.symm same), totalSize]
      omega

theorem work_filter_le (keep : Nat × Cursor → Bool) (cursors : List (Nat × Cursor)) :
    totalSize (fun entry => entry.2.work) (cursors.filter keep) ≤
      totalSize (fun entry => entry.2.work) cursors := by
  induction cursors with
  | nil => exact Nat.le_refl _
  | cons entry cursors ih =>
    by_cases kept : keep entry = true
    · simp only [List.filter_cons_of_pos kept, totalSize]
      omega
    · simp only [List.filter_cons_of_neg kept, totalSize]
      omega

theorem next_dwindles (a : Api) (h : Handle) {x : ApiState} (numbered : Numbered x) :
    Numbered (a.next h x).2 ∧ (a.next h x).2.work ≤ x.work ∧
      ((a.next h x).1 ≠ .idle → (a.next h x).1 ≠ .ended → (a.next h x).2.work < x.work) := by
  obtain ⟨distinct, given⟩ := numbered
  cases found : x.cursors.lookup h.id with
  | none =>
    rw [Api.next_of_none found]
    exact ⟨⟨distinct, given⟩, Nat.le_refl _, fun _ going => absurd rfl going⟩
  | some c =>
    obtain ⟨less, uses⟩ := c.work_next a.params a.decoder x.server
    rcases taken : c.next a.params a.decoder x.server with ⟨item, c', server⟩
    rw [taken] at less uses
    rw [Api.next_of_lookup found taken]
    dsimp only at less uses ⊢
    have numbers : (x.setCursor h.id c').cursors.map Prod.fst = x.cursors.map Prod.fst := by
      rw [ApiState.setCursor, List.map_map]
      refine List.map_congr_left ?_
      intro entry _
      by_cases same : entry.1 = h.id <;> simp [same]
    have whole := work_setCursor distinct found c'
    refine ⟨?_, ?_, ?_⟩
    · refine ⟨numbers ▸ distinct, ?_⟩
      intro id mem
      exact given id (numbers ▸ mem)
    · simp only [ApiState.work, ApiState.setCursor]
      omega
    · intro there going
      have used := uses there going
      simp only [ApiState.work, ApiState.setCursor]
      omega

theorem transport_dwindles (a : Api) : a.transport.Dwindles Numbered where
  subscribe := by
    intro x scope numbered
    obtain ⟨distinct, given⟩ := numbered
    have left := Server.work_watch a.params (a.pathOf scope) baseline x.server
    change Numbered (a.subscribe scope x).2 ∧ (a.subscribe scope x).2.work ≤ x.work
    cases failed : (x.server.watch a.params (a.pathOf scope) baseline).1.error? with
    | some e =>
      rw [Api.subscribe_of_error failed]
      refine ⟨⟨distinct, fun id mem => Nat.lt_succ_of_lt (given id mem)⟩, ?_⟩
      exact Nat.add_le_add_right left.1 _
    | none =>
      obtain ⟨l, opened⟩ := Response.error?_eq_none_iff.mp failed
      have smaller := left.2 l opened
      rw [Api.subscribe_of_stream opened]
      refine ⟨⟨?_, ?_⟩, ?_⟩
      · refine List.nodup_cons.mpr ⟨?_, distinct⟩
        intro mem
        exact Nat.lt_irrefl _ (given _ mem)
      · intro id mem
        rcases List.mem_cons.mp mem with rfl | old
        · exact Nat.lt_succ_self _
        · exact Nat.lt_succ_of_lt (given id old)
      · have reading : (Cursor.mk (a.pathOf scope) baseline (.reading l)).work = l.work := rfl
        simp only [ApiState.work, totalSize, reading]
        omega
  unsubscribe := by
    intro x h numbered
    change Numbered (Api.unsubscribe h x).2 ∧ (Api.unsubscribe h x).2.work ≤ x.work
    unfold Api.unsubscribe
    split
    · exact ⟨numbered, Nat.le_refl _⟩
    · exact ⟨numbered, Nat.le_refl _⟩
  abandon := by
    intro x h numbered
    obtain ⟨distinct, given⟩ := numbered
    have fewer : ((Api.abandon h x).cursors.map Prod.fst).Sublist (x.cursors.map Prod.fst) :=
      List.filter_sublist.map Prod.fst
    refine ⟨⟨distinct.sublist fewer, fun id mem => given id (fewer.subset mem)⟩, ?_⟩
    exact Nat.add_le_add_left (work_filter_le _ _) _
  next := by
    intro x h numbered
    obtain ⟨kept, less, -⟩ := next_dwindles a h numbered
    exact ⟨kept, less⟩
  uses := by
    intro x h numbered there going
    exact (next_dwindles a h numbered).2.2 there going

end WatchDispatch.Cluster
