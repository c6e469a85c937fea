import Mathlib.Data.List.Nodup
import WatchDispatch.Proofs.Watch.Settling
import WatchDispatch.Watch.Feeds

/-!
# Feeds and their numbers

No two feeds of a transport in memory have the same number, so what is done to one feed is done to
no other. Every item that is read leaves its queue, and nobody but the surroundings fills one: such
a transport dwindles.
-/

namespace WatchDispatch.Watch

namespace Feeds

/-- The feeds have different numbers, and the next number is none of them. -/
structure Numbered (x : Feeds) : Prop where
  distinct : (x.feeds.map Feed.id).Nodup
  below : ∀ feed ∈ x.feeds, feed.id < x.nextId

variable {x : Feeds} {change : Feed → Feed}

theorem map_id_modify (keeps : ∀ feed, (change feed).id = feed.id) (i : Nat) (x : Feeds) :
    (x.modify i change).feeds.map Feed.id = x.feeds.map Feed.id := by
  simp only [modify, List.map_map]
  apply List.map_congr_left
  intro feed _
  simp only [Function.comp_apply]
  split
  · exact keeps feed
  · rfl

theorem feed?_modify (keeps : ∀ feed, (change feed).id = feed.id) (i j : Nat) (x : Feeds) :
    (x.modify i change).feed? j = if j = i then (x.feed? j).map change else x.feed? j := by
  have same : (fun feed : Feed => decide (feed.id = j)) ∘
      (fun feed => if feed.id = i then change feed else feed) = fun feed =>
      decide (feed.id = j) := by
    funext feed
    simp only [Function.comp_apply]
    split
    · rw [keeps]
    · rfl
  simp only [feed?, modify, List.find?_map, same]
  cases found : x.feeds.find? (fun feed => decide (feed.id = j)) with
  | none => simp
  | some feed =>
    have here : feed.id = j := by simpa using List.find?_some found
    rw [Option.map_some, here]
    split <;> rfl

/-- What leaves feeds and numbers alone. -/
theorem Numbered.same {y : Feeds} (numbered : x.Numbered) (feeds : y.feeds = x.feeds := by rfl)
    (next : y.nextId = x.nextId := by rfl) : y.Numbered := by
  refine ⟨feeds ▸ numbered.distinct, ?_⟩
  rw [feeds, next]
  exact numbered.below

theorem Numbered.modify (numbered : x.Numbered) (keeps : ∀ feed, (change feed).id = feed.id)
    (i : Nat) : (x.modify i change).Numbered := by
  have ids := map_id_modify keeps i x
  constructor
  · rw [ids]
    exact numbered.distinct
  · intro feed mem
    have old : feed.id ∈ x.feeds.map Feed.id := ids ▸ List.mem_map_of_mem mem
    obtain ⟨before, there, same⟩ := List.mem_map.mp old
    rw [← same]
    exact numbered.below before there

/-- No feed has the next number yet. -/
theorem Numbered.feed?_next (numbered : x.Numbered) : x.feed? x.nextId = none := by
  apply List.find?_eq_none.mpr
  intro feed mem
  have below := numbered.below feed mem
  simp only [decide_eq_true_eq]
  omega

def add (x : Feeds) : Feeds :=
  { x with feeds := x.feeds ++ [⟨x.nextId, [], false, false⟩], nextId := x.nextId + 1 }

/-- Says which feed is filled for a scope. -/
def fill (scope : Scope) (id : Option Nat) (x : Feeds) : Feeds :=
  { x with current := put x.current scope id }

theorem feed?_add (numbered : x.Numbered) (i : Nat) :
    x.add.feed? i = if i = x.nextId then some ⟨x.nextId, [], false, false⟩ else x.feed? i := by
  have appended : x.add.feed? i =
      (x.feed? i).or (if x.nextId = i then some ⟨x.nextId, [], false, false⟩ else none) := by
    simp [add, feed?, List.find?_append, List.find?_singleton]
  rw [appended]
  by_cases fresh : i = x.nextId
  · subst fresh
    simp [numbered.feed?_next]
  · simp [fresh, Ne.symm fresh]

theorem Numbered.add (numbered : x.Numbered) : x.add.Numbered := by
  constructor
  · simp only [Feeds.add, List.map_append, List.map_cons, List.map_nil]
    apply List.nodup_append.mpr
    refine ⟨numbered.distinct, List.nodup_singleton _, ?_⟩
    intro i mem j last same
    obtain ⟨feed, there, rfl⟩ := List.mem_map.mp mem
    have below := numbered.below feed there
    rw [List.mem_singleton] at last
    omega
  · intro feed mem
    simp only [Feeds.add, List.mem_append, List.mem_singleton] at mem ⊢
    rcases mem with old | rfl
    · have below := numbered.below feed old
      omega
    · exact Nat.lt_succ_self _

theorem retire_of_none {scope : Scope} (none : x.current scope = none) : x.retire scope = x := by
  simp only [retire, none]

theorem retire_of_some {scope : Scope} {id : Nat} (some : x.current scope = some id) :
    x.retire scope =
      (x.modify id (fun feed => { feed with finished := true })).fill scope none := by
  simp only [retire, some]
  rfl

theorem retire_nextId (scope : Scope) (x : Feeds) : (x.retire scope).nextId = x.nextId := by
  cases current : x.current scope with
  | none => rw [retire_of_none current]
  | some id =>
    rw [retire_of_some current]
    rfl

theorem subscribe_of_hang {scope : Scope} (hang : x.rules scope = .hang) :
    x.subscribe scope = (.unanswered, x.note scope s!"subscribe {scope.label}") := by
  simp only [subscribe, note, hang]

theorem subscribe_of_refuse {scope : Scope} {f : Fault} (refuse : x.rules scope = .refuse f) :
    x.subscribe scope = (.refused f, x.note scope s!"subscribe {scope.label}") := by
  simp only [subscribe, note, refuse]

theorem subscribe_of_allow {scope : Scope} (allow : x.rules scope = .allow) :
    x.subscribe scope = (.granted ⟨x.nextId, scope⟩,
      (((x.note scope s!"subscribe {scope.label}").retire scope).add).fill scope
        (some x.nextId)) := by
  have allowed : (x.note scope s!"subscribe {scope.label}").rules scope = .allow := allow
  have next := retire_nextId scope (x.note scope s!"subscribe {scope.label}")
  have same : (x.note scope s!"subscribe {scope.label}").nextId = x.nextId := rfl
  simp only [subscribe, allowed, add, fill, next, same]

/-! ## What is left to read -/

theorem totalSize_map_le {α : Type} {size : α → Nat} {f : α → α}
    (less : ∀ item, size (f item) ≤ size item) (items : List α) :
    totalSize size (items.map f) ≤ totalSize size items := by
  induction items with
  | nil => exact Nat.le_refl _
  | cons item items ih =>
    have here := less item
    simp only [List.map_cons, totalSize]
    omega

theorem work_modify_le (less : ∀ feed, (change feed).queue.length ≤ feed.queue.length) (i : Nat)
    (x : Feeds) : (x.modify i change).work ≤ x.work := by
  apply totalSize_map_le
  intro feed
  split
  · exact less feed
  · exact Nat.le_refl _

/-- The feed that is read is the only one of its number, and it gets shorter. -/
theorem totalSize_take {feeds : List Feed} (distinct : (feeds.map Feed.id).Nodup) {i : Nat}
    {feed : Feed} (found : feeds.find? (fun feed => feed.id = i) = some feed) {item : Fault ⊕ Event}
    {rest : List (Fault ⊕ Event)} (queue : feed.queue = item :: rest) :
    totalSize (fun feed => feed.queue.length)
        (feeds.map (fun feed => if feed.id = i then { feed with queue := rest } else feed)) <
      totalSize (fun feed => feed.queue.length) feeds := by
  induction feeds with
  | nil => cases found
  | cons first more ih =>
    obtain ⟨fresh, distinct⟩ := List.nodup_cons.mp distinct
    by_cases here : first.id = i
    · obtain rfl : first = feed := by simpa [here] using found
      have others :
          more.map (fun feed => if feed.id = i then { feed with queue := rest } else feed) =
            more := by
        apply (List.map_congr_left ?_).trans (List.map_id more)
        intro other mem
        apply if_neg
        intro also
        exact fresh (List.mem_map.mpr ⟨other, mem, also.trans here.symm⟩)
      rw [List.map_cons, others, if_pos here]
      simp only [totalSize, queue, List.length_cons]
      omega
    · have there : more.find? (fun feed => feed.id = i) = some feed := by simpa [here] using found
      have less := ih distinct there
      rw [List.map_cons, if_neg here]
      simp only [totalSize]
      omega

theorem next_of_none {h : Handle} (none : x.feed? h.id = none) : x.next h = (.ended, x) := by
  simp only [next, none]

theorem next_of_nil {h : Handle} {feed : Feed} (found : x.feed? h.id = some feed)
    (empty : feed.queue = []) : x.next h = (if feed.finished then .ended else .idle, x) := by
  simp only [next, found, empty]

def itemOf : Fault ⊕ Event → Item
  | .inl f => .fault f
  | .inr e => .event e

theorem next_of_cons {h : Handle} {feed : Feed} {item : Fault ⊕ Event} {rest : List (Fault ⊕ Event)}
    (found : x.feed? h.id = some feed) (queue : feed.queue = item :: rest) :
    x.next h = (itemOf item, x.modify h.id (fun feed => { feed with queue := rest })) := by
  cases item <;> simp only [next, found, queue, itemOf]

theorem next_cases (h : Handle) (numbered : x.Numbered) :
    ((x.next h).2 = x ∧ ((x.next h).1 = .ended ∨ (x.next h).1 = .idle)) ∨
      (x.next h).2.Numbered ∧ (x.next h).2.work < x.work := by
  cases found : x.feed? h.id with
  | none => exact .inl (by simp [next_of_none found])
  | some feed =>
    cases queue : feed.queue with
    | nil =>
      rw [next_of_nil found queue]
      cases feed.finished
      · exact .inl ⟨rfl, .inr rfl⟩
      · exact .inl ⟨rfl, .inl rfl⟩
    | cons item rest =>
      rw [next_of_cons found queue]
      have keeps : ∀ feed : Feed, ({ feed with queue := rest } : Feed).id = feed.id := fun _ => rfl
      exact .inr ⟨numbered.modify keeps h.id, totalSize_take numbered.distinct found queue⟩

theorem note_numbered (numbered : x.Numbered) (scope : Scope) (call : String) :
    (x.note scope call).Numbered :=
  ⟨numbered.distinct, numbered.below⟩

theorem retire_numbered (numbered : x.Numbered) (scope : Scope) : (x.retire scope).Numbered := by
  cases current : x.current scope with
  | none =>
    rw [retire_of_none current]
    exact numbered
  | some id =>
    rw [retire_of_some current]
    have keeps : ∀ feed : Feed, ({ feed with finished := true } : Feed).id = feed.id := fun _ => rfl
    have ended := numbered.modify keeps id
    exact ⟨ended.distinct, ended.below⟩

theorem retire_work (scope : Scope) (x : Feeds) : (x.retire scope).work ≤ x.work := by
  cases current : x.current scope with
  | none => exact Nat.le_of_eq (by rw [retire_of_none current])
  | some id =>
    have same : ∀ feed : Feed, ({ feed with finished := true } : Feed).queue.length ≤
        feed.queue.length :=
      fun _ => Nat.le_refl _
    rw [retire_of_some current]
    exact work_modify_le same id x

theorem subscribe_numbered (numbered : x.Numbered) (scope : Scope) :
    (x.subscribe scope).2.Numbered ∧ (x.subscribe scope).2.work ≤ x.work := by
  have noted := note_numbered numbered scope s!"subscribe {scope.label}"
  cases rule : x.rules scope with
  | hang =>
    rw [subscribe_of_hang rule]
    exact ⟨noted, Nat.le_refl _⟩
  | refuse f =>
    rw [subscribe_of_refuse rule]
    exact ⟨noted, Nat.le_refl _⟩
  | allow =>
    rw [subscribe_of_allow rule]
    have retired := retire_numbered noted scope
    have less := retire_work scope (x.note scope s!"subscribe {scope.label}")
    refine ⟨⟨retired.add.distinct, retired.add.below⟩, ?_⟩
    simp only [fill, add, work, totalSize_append, totalSize, List.length_nil] at less ⊢
    exact less

/-- What is taken back leaves the feeds as they are. -/
theorem unsubscribe_numbered (numbered : x.Numbered) (h : Handle) :
    (x.unsubscribe h).2.Numbered ∧ (x.unsubscribe h).2.work ≤ x.work := by
  have noted := note_numbered numbered h.scope s!"unsubscribe {h.label}"
  cases mode : x.modes h.scope <;> simp only [unsubscribe, note, mode]
    <;> exact ⟨noted, Nat.le_refl _⟩

theorem abandon_numbered (numbered : x.Numbered) (h : Handle) :
    (x.abandon h).Numbered ∧ (x.abandon h).work ≤ x.work := by
  have keeps : ∀ feed : Feed, ({ feed with abandoned := true, queue := [] } : Feed).id = feed.id :=
    fun _ => rfl
  exact ⟨numbered.modify keeps h.id, work_modify_le (fun _ => Nat.zero_le _) h.id x⟩

theorem dwindles : transport.Dwindles Numbered where
  subscribe := fun scope numbered => subscribe_numbered numbered scope
  unsubscribe := fun h numbered => unsubscribe_numbered numbered h
  abandon := fun h numbered => abandon_numbered numbered h
  next := fun {x} h numbered => by
    change (x.next h).2.Numbered ∧ (x.next h).2.work ≤ x.work
    rcases next_cases h numbered with ⟨same, _⟩ | ⟨kept, less⟩
    · rw [same]
      exact ⟨numbered, Nat.le_refl _⟩
    · exact ⟨kept, Nat.le_of_lt less⟩
  uses := fun {x} h numbered notIdle notEnded => by
    rcases next_cases h numbered with ⟨_, ended | idle⟩ | ⟨_, less⟩
    · exact absurd ended notEnded
    · exact absurd idle notIdle
    · exact less

end Feeds

end WatchDispatch.Watch
