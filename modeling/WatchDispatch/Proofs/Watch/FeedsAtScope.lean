import Mathlib.Data.List.Forall2
import Mathlib.Data.Option.Basic
import WatchDispatch.Proofs.Watch.Numbering

/-!
# Feeds at one scope

Feeds of several scopes lie side by side in one transport and share nothing but the counter of their
numbers. So what is done at other scopes leaves the feeds of a scope as they are, and what is done
at the scope itself has the same effect on two transports whose feeds there are alike up to the
numbers of the feeds.
-/

namespace WatchDispatch.Watch

/-- A renaming: the numbers of one side and of the other in pairs, latest pair first. -/
abbrev Renaming := List (Nat × Nat)

namespace Renaming

def OneToOne (r : Renaming) : Prop := ∀ p ∈ r, ∀ q ∈ r, p.1 = q.1 ↔ p.2 = q.2

/-- The numbers of the first side. -/
def lefts (r : Renaming) : List Nat := r.map Prod.fst

def rights (r : Renaming) : List Nat := r.map Prod.snd

variable {r r' : Renaming} {i i' : Nat}

theorem mem_lefts (pair : (i, i') ∈ r) : i ∈ r.lefts := List.mem_map_of_mem pair

theorem mem_rights (pair : (i, i') ∈ r) : i' ∈ r.rights := List.mem_map_of_mem pair

theorem OneToOne.cons (oneToOne : r.OneToOne) (left : i ∉ r.lefts) (right : i' ∉ r.rights) :
    Renaming.OneToOne ((i, i') :: r) := by
  have apart : ∀ p ∈ r, i ≠ p.1 ∧ i' ≠ p.2 := by
    intro p mem
    constructor
    · rintro rfl
      exact left (mem_lefts mem)
    · rintro rfl
      exact right (mem_rights mem)
  intro p memP q memQ
  rcases List.mem_cons.mp memP with rfl | oldP <;> rcases List.mem_cons.mp memQ with rfl | oldQ
  · exact ⟨fun _ => rfl, fun _ => rfl⟩
  · exact ⟨fun same => absurd same (apart q oldQ).1, fun same => absurd same (apart q oldQ).2⟩
  · exact ⟨fun same => absurd same.symm (apart p oldP).1,
      fun same => absurd same.symm (apart p oldP).2⟩
  · exact oneToOne p oldP q oldQ

/-- More names, which are not below these numbers. -/
structure Extends (r r' : Renaming) (next next' : Nat) : Prop where
  more : r ⊆ r'
  lefts : ∀ i ∈ r'.lefts, i ∈ r.lefts ∨ next ≤ i
  rights : ∀ i ∈ r'.rights, i ∈ r.rights ∨ next' ≤ i

theorem Extends.lefts_subset {next next' : Nat} (grows : r.Extends r' next next') :
    r.lefts ⊆ r'.lefts :=
  List.map_subset _ grows.more

theorem Extends.rights_subset {next next' : Nat} (grows : r.Extends r' next next') :
    r.rights ⊆ r'.rights :=
  List.map_subset _ grows.more

theorem Extends.refl (r : Renaming) (next next' : Nat) : r.Extends r next next' :=
  ⟨List.Subset.refl r, fun _ => .inl, fun _ => .inl⟩

theorem Extends.cons (r : Renaming) (next next' : Nat) :
    r.Extends ((next, next') :: r) next next' := by
  refine ⟨List.subset_cons_self _ _, ?_, ?_⟩
  · intro i mem
    rcases List.mem_cons.mp mem with rfl | old
    · exact .inr (Nat.le_refl _)
    · exact .inl old
  · intro i mem
    rcases List.mem_cons.mp mem with rfl | old
    · exact .inr (Nat.le_refl _)
    · exact .inl old

end Renaming

theorem rel_cases {α β : Type} {R : α → β → Prop} {a : Option α} {a' : Option β}
    (rel : Option.Rel R a a') :
    a = none ∧ a' = none ∨ ∃ c c', a = some c ∧ a' = some c' ∧ R c c' := by
  cases rel with
  | none => exact .inl ⟨rfl, rfl⟩
  | some holds => exact .inr ⟨_, _, rfl, rfl, holds⟩

inductive FeedStep where
  | push (items : List (Fault ⊕ Event))
  /-- The stream ends behind what was pushed. -/
  | retire
  | rule (rule : SubscribeRule)
  | mode (mode : ReleaseMode)

/-- Two feeds hold the same, whatever their numbers. -/
structure Feed.Same (feed feed' : Feed) : Prop where
  queue : feed.queue = feed'.queue
  finished : feed.finished = feed'.finished
  abandoned : feed.abandoned = feed'.abandoned

namespace Feeds

def perform (scope : Scope) (x : Feeds) : FeedStep → Feeds
  | .push items => (x.push scope items).2
  | .retire => x.retire scope
  | .rule rule => x.setRule scope rule
  | .mode mode => x.setMode scope mode

variable {b scope : Scope} {ids : List Nat} {x x' y : Feeds} {i i' : Nat} {id id' : Option Nat}
  {change change' : Feed → Feed}

/-! ## Numbers of one scope -/

/-- The scope has these numbers, and no other scope has any of them. -/
structure Apart (b : Scope) (ids : List Nat) (x : Feeds) : Prop where
  numbered : x.Numbered
  below : ∀ i ∈ ids, i < x.nextId
  filled : ∀ scope i, x.current scope = some i → i < x.nextId ∧ (i ∈ ids ↔ scope = b)

namespace Apart

variable (apart : x.Apart b ids)

include apart

theorem modify (keeps : ∀ feed, (change feed).id = feed.id) (i : Nat) :
    (x.modify i change).Apart b ids :=
  ⟨apart.numbered.modify keeps i, apart.below, apart.filled⟩

theorem note (scope : Scope) (call : String) : (x.note scope call).Apart b ids :=
  ⟨note_numbered apart.numbered scope call, apart.below, apart.filled⟩

theorem fill (fits : ∀ i, id = some i → i < x.nextId ∧ (i ∈ ids ↔ scope = b)) :
    (x.fill scope id).Apart b ids := by
  refine ⟨⟨apart.numbered.distinct, apart.numbered.below⟩, apart.below, ?_⟩
  intro other i current
  simp only [Feeds.fill, put] at current
  split at current
  next same =>
    rw [same]
    exact fits i current
  next => exact apart.filled other i current

/-- A fresh feed has a number that the scope does not have. -/
theorem add : x.add.Apart b ids := by
  refine ⟨apart.numbered.add, fun i mem => Nat.lt_succ_of_lt (apart.below i mem), ?_⟩
  intro scope i current
  obtain ⟨old, own⟩ := apart.filled scope i current
  exact ⟨Nat.lt_succ_of_lt old, own⟩

theorem next_notMem : x.nextId ∉ ids := fun mem => Nat.lt_irrefl _ (apart.below _ mem)

/-- The number of a fresh feed is given to the scope. -/
theorem add_own : x.add.Apart b (x.nextId :: ids) := by
  refine ⟨apart.numbered.add, ?_, ?_⟩
  · intro i mem
    rcases List.mem_cons.mp mem with rfl | old
    · exact Nat.lt_succ_self _
    · exact Nat.lt_succ_of_lt (apart.below i old)
  · intro scope i current
    obtain ⟨old, own⟩ := apart.filled scope i current
    refine ⟨Nat.lt_succ_of_lt old, ?_⟩
    rw [List.mem_cons, ← own]
    constructor
    · rintro (rfl | mem)
      · exact absurd old (Nat.lt_irrefl _)
      · exact mem
    · exact Or.inr

end Apart

theorem push_cases (scope : Scope) (items : List (Fault ⊕ Event)) (x : Feeds) :
    (x.push scope items).2 = x ∨ ∃ i, x.current scope = some i ∧
      (x.push scope items).2 =
      x.modify i (fun feed => { feed with queue := feed.queue ++ items }) := by
  unfold push
  split
  · exact .inl rfl
  · split
    · exact .inl rfl
    next i current =>
      split
      · exact .inl rfl
      · split
        · exact .inl rfl
        · exact .inr ⟨i, current, rfl⟩

/-! ## What is done at other scopes -/

/-- What became of a transport by doings that have left the feeds of this scope as they were. -/
structure Beside (b : Scope) (ids : List Nat) (x y : Feeds) : Prop where
  apart : y.Apart b ids
  later : x.nextId ≤ y.nextId
  current : y.current b = x.current b
  rule : y.rules b = x.rules b
  mode : y.modes b = x.modes b
  feeds : ∀ i ∈ ids, y.feed? i = x.feed? i

namespace Beside

theorem refl (apart : x.Apart b ids) : x.Beside b ids x :=
  ⟨apart, Nat.le_refl _, rfl, rfl, rfl, fun _ _ => rfl⟩

theorem trans {z : Feeds} (beside : x.Beside b ids y) (onward : y.Beside b ids z) :
    x.Beside b ids z where
  apart := onward.apart
  later := Nat.le_trans beside.later onward.later
  current := onward.current.trans beside.current
  rule := onward.rule.trans beside.rule
  mode := onward.mode.trans beside.mode
  feeds := fun i mem => (onward.feeds i mem).trans (beside.feeds i mem)

variable (beside : x.Beside b ids y)

include beside

theorem modify (keeps : ∀ feed, (change feed).id = feed.id) (outside : i ∉ ids) :
    x.Beside b ids (y.modify i change) := by
  refine ⟨beside.apart.modify keeps i, beside.later, beside.current, beside.rule, beside.mode, ?_⟩
  intro j mem
  rw [feed?_modify keeps]
  split
  next same => exact absurd (same ▸ mem) outside
  next => exact beside.feeds j mem

theorem note (scope : Scope) (call : String) : x.Beside b ids (y.note scope call) :=
  { beside with apart := beside.apart.note scope call }

theorem fill (other : scope ≠ b) (fits : ∀ i, id = some i → i < y.nextId ∧ i ∉ ids) :
    x.Beside b ids (y.fill scope id) := by
  refine { beside with apart := beside.apart.fill ?_, current := ?_ }
  · intro i here
    obtain ⟨below, outside⟩ := fits i here
    exact ⟨below, fun mem => absurd mem outside, fun same => absurd same other⟩
  · simp only [Feeds.fill, put, if_neg (Ne.symm other)]
    exact beside.current

theorem add : x.Beside b ids y.add := by
  refine { beside with
    apart := beside.apart.add
    later := Nat.le_succ_of_le beside.later
    feeds := ?_ }
  intro i mem
  rw [feed?_add beside.apart.numbered, if_neg (Nat.ne_of_lt (beside.apart.below i mem))]
  exact beside.feeds i mem

theorem retire (other : scope ≠ b) : x.Beside b ids (y.retire scope) := by
  cases current : y.current scope with
  | none =>
    rw [retire_of_none current]
    exact beside
  | some i =>
    have keeps : ∀ feed : Feed, ({ feed with finished := true } : Feed).id = feed.id := fun _ => rfl
    have outside : i ∉ ids := fun mem => other ((beside.apart.filled scope i current).2.mp mem)
    rw [retire_of_some current]
    apply (beside.modify keeps outside).fill other
    rintro j ⟨⟩

theorem subscribe (other : scope ≠ b) : x.Beside b ids (y.subscribe scope).2 := by
  have noted := beside.note scope s!"subscribe {scope.label}"
  cases rule : y.rules scope with
  | hang =>
    rw [subscribe_of_hang rule]
    exact noted
  | refuse f =>
    rw [subscribe_of_refuse rule]
    exact noted
  | allow =>
    rw [subscribe_of_allow rule]
    apply (noted.retire other).add.fill other
    rintro i ⟨⟩
    have next := retire_nextId scope (y.note scope s!"subscribe {scope.label}")
    refine ⟨?_, beside.apart.next_notMem⟩
    rw [Feeds.add, next]
    exact Nat.lt_succ_self _

theorem unsubscribe (h : Handle) : x.Beside b ids (y.unsubscribe h).2 := by
  have noted := beside.note h.scope s!"unsubscribe {h.label}"
  cases mode : y.modes h.scope <;> simp only [Feeds.unsubscribe, Feeds.note, mode] <;> exact noted

theorem next {h : Handle} (outside : h.id ∉ ids) : x.Beside b ids (y.next h).2 := by
  cases found : y.feed? h.id with
  | none =>
    rw [next_of_none found]
    exact beside
  | some feed =>
    cases queue : feed.queue with
    | nil =>
      rw [next_of_nil found queue]
      exact beside
    | cons item rest =>
      have keeps : ∀ feed : Feed, ({ feed with queue := rest } : Feed).id = feed.id := fun _ => rfl
      rw [next_of_cons found queue]
      exact beside.modify keeps outside

theorem abandon {h : Handle} (outside : h.id ∉ ids) : x.Beside b ids (y.abandon h) := by
  have keeps : ∀ feed : Feed, ({ feed with abandoned := true, queue := [] } : Feed).id = feed.id :=
    fun _ => rfl
  exact beside.modify keeps outside

theorem push (other : scope ≠ b) (items : List (Fault ⊕ Event)) :
    x.Beside b ids (y.push scope items).2 := by
  rcases push_cases scope items y with same | ⟨i, current, pushed⟩
  · rw [same]
    exact beside
  · have keeps : ∀ feed : Feed, ({ feed with queue := feed.queue ++ items } : Feed).id = feed.id :=
      fun _ => rfl
    have outside : i ∉ ids := fun mem => other ((beside.apart.filled scope i current).2.mp mem)
    rw [pushed]
    exact beside.modify keeps outside

theorem perform (other : scope ≠ b) (step : FeedStep) : x.Beside b ids (y.perform scope step) := by
  cases step with
  | push items => exact beside.push other items
  | retire => exact beside.retire other
  | rule rule =>
    have same : (y.setRule scope rule).rules b = y.rules b := if_neg (Ne.symm other)
    exact { beside with
      apart := ⟨beside.apart.numbered.same, beside.apart.below, beside.apart.filled⟩
      rule := same.trans beside.rule }
  | mode mode =>
    have same : (y.setMode scope mode).modes b = y.modes b := if_neg (Ne.symm other)
    exact { beside with
      apart := ⟨beside.apart.numbered.same, beside.apart.below, beside.apart.filled⟩
      mode := same.trans beside.mode }

end Beside

/-! ## Feeds that are alike -/

/-- The feeds of this scope hold the same in two transports, up to the numbers. -/
structure Alike (b : Scope) (r : Renaming) (x x' : Feeds) : Prop where
  oneToOne : r.OneToOne
  left : x.Apart b r.lefts
  right : x'.Apart b r.rights
  current : Option.Rel (fun i i' => (i, i') ∈ r) (x.current b) (x'.current b)
  rule : x'.rules b = x.rules b
  mode : x'.modes b = x.modes b
  feeds : ∀ i i', (i, i') ∈ r → Option.Rel Feed.Same (x.feed? i) (x'.feed? i')

namespace Alike

variable {r : Renaming}

theorem beside_left (alike : x.Alike b r x') (beside : x.Beside b r.lefts y) : y.Alike b r x' where
  oneToOne := alike.oneToOne
  left := beside.apart
  right := alike.right
  current := beside.current ▸ alike.current
  rule := alike.rule.trans beside.rule.symm
  mode := alike.mode.trans beside.mode.symm
  feeds := fun i i' pair => by
    rw [beside.feeds i (Renaming.mem_lefts pair)]
    exact alike.feeds i i' pair

theorem beside_right (alike : x.Alike b r x') (beside : x'.Beside b r.rights y) :
    x.Alike b r y where
  oneToOne := alike.oneToOne
  left := alike.left
  right := beside.apart
  current := beside.current ▸ alike.current
  rule := beside.rule.trans alike.rule
  mode := beside.mode.trans alike.mode
  feeds := fun i i' pair => by
    rw [beside.feeds i' (Renaming.mem_rights pair)]
    exact alike.feeds i i' pair

variable (alike : x.Alike b r x')

include alike

theorem modify (pair : (i, i') ∈ r) (keeps : ∀ feed, (change feed).id = feed.id)
    (keeps' : ∀ feed, (change' feed).id = feed.id)
    (same : ∀ feed feed', feed.Same feed' → (change feed).Same (change' feed')) :
    (x.modify i change).Alike b r (x'.modify i' change') := by
  refine { alike with
    left := alike.left.modify keeps i, right := alike.right.modify keeps' i', feeds := ?_ }
  intro j j' also
  have here : j = i ↔ j' = i' := alike.oneToOne (j, j') also (i, i') pair
  have before := alike.feeds j j' also
  rw [feed?_modify keeps, feed?_modify keeps']
  by_cases hit : j = i
  · rw [if_pos hit, if_pos (here.mp hit)]
    rcases rel_cases before with ⟨found, found'⟩ | ⟨feed, feed', found, found', holds⟩
    · rw [found, found']
      exact .none
    · rw [found, found']
      exact .some (same feed feed' holds)
  · rw [if_neg hit, if_neg (fun hit' => hit (here.mpr hit'))]
    exact before

theorem note (call call' : String) : (x.note b call).Alike b r (x'.note b call') :=
  { alike with left := alike.left.note b call, right := alike.right.note b call' }

theorem fill (pair : Option.Rel (fun i i' => (i, i') ∈ r) id id') :
    (x.fill b id).Alike b r (x'.fill b id') := by
  refine { alike with left := alike.left.fill ?_, right := alike.right.fill ?_, current := ?_ }
  · rintro i rfl
    cases pair with
    | some pair =>
      have mem := Renaming.mem_lefts pair
      exact ⟨alike.left.below _ mem, fun _ => rfl, fun _ => mem⟩
  · rintro i' rfl
    cases pair with
    | some pair =>
      exact ⟨alike.right.below _ (Renaming.mem_rights pair), fun _ => rfl,
        fun _ => Renaming.mem_rights pair⟩
  · simpa only [Feeds.fill, put, if_true] using pair

/-- Fresh feeds of the scope correspond to each other. -/
theorem add : x.add.Alike b ((x.nextId, x'.nextId) :: r) x'.add := by
  have fresh := alike.left.next_notMem
  have fresh' := alike.right.next_notMem
  refine ⟨alike.oneToOne.cons fresh fresh', alike.left.add_own, alike.right.add_own, ?_, alike.rule,
    alike.mode, ?_⟩
  · change Option.Rel _ (x.current b) (x'.current b)
    rcases rel_cases alike.current with ⟨current, current'⟩ | ⟨i, i', current, current', pair⟩
    · rw [current, current']
      exact .none
    · rw [current, current']
      exact .some (List.mem_cons_of_mem _ pair)
  · intro i i' pair
    rw [feed?_add alike.left.numbered, feed?_add alike.right.numbered]
    rcases List.mem_cons.mp pair with here | old
    · obtain ⟨rfl, rfl⟩ := Prod.mk.inj here
      rw [if_pos rfl, if_pos rfl]
      exact .some ⟨rfl, rfl, rfl⟩
    · have below := alike.left.below i (Renaming.mem_lefts old)
      have below' := alike.right.below i' (Renaming.mem_rights old)
      rw [if_neg (Nat.ne_of_lt below), if_neg (Nat.ne_of_lt below')]
      exact alike.feeds i i' old

theorem retire : (x.retire b).Alike b r (x'.retire b) := by
  rcases rel_cases alike.current with ⟨current, current'⟩ | ⟨i, i', current, current', pair⟩
  · rw [retire_of_none current, retire_of_none current']
    exact alike
  · have keeps : ∀ feed : Feed, ({ feed with finished := true } : Feed).id = feed.id := fun _ => rfl
    have same : ∀ feed feed' : Feed, feed.Same feed' →
        ({ feed with finished := true } : Feed).Same { feed' with finished := true } :=
      fun _ _ same => ⟨same.queue, rfl, same.abandoned⟩
    rw [retire_of_some current, retire_of_some current']
    exact (alike.modify pair keeps keeps same).fill .none

theorem push (items : List (Fault ⊕ Event)) : (x.push b items).2.Alike b r (x'.push b items).2 := by
  unfold Feeds.push
  split
  · exact alike
  · rcases rel_cases alike.current with ⟨current, current'⟩ | ⟨i, i', current, current', pair⟩
    · simp only [current, current']
      exact alike
    · simp only [current, current']
      rcases rel_cases (alike.feeds i i' pair) with ⟨found, found'⟩ |
        ⟨feed, feed', found, found', holds⟩
      · simp only [found, found']
        exact alike
      · simp only [found, found', holds.abandoned]
        split
        · exact alike
        · refine alike.modify pair (fun _ => rfl) (fun _ => rfl) fun feed feed' same => ?_
          exact ⟨congrArg (· ++ items) same.queue, same.finished, same.abandoned⟩

theorem perform (step : FeedStep) : (x.perform b step).Alike b r (x'.perform b step) := by
  cases step with
  | push items => exact alike.push items
  | retire => exact alike.retire
  | rule rule =>
    exact { alike with
      left := ⟨alike.left.numbered.same, alike.left.below, alike.left.filled⟩
      right := ⟨alike.right.numbered.same, alike.right.below, alike.right.filled⟩
      rule := by simp only [Feeds.perform, setRule, put, if_true] }
  | mode mode =>
    exact { alike with
      left := ⟨alike.left.numbered.same, alike.left.below, alike.left.filled⟩
      right := ⟨alike.right.numbered.same, alike.right.below, alike.right.filled⟩
      mode := by simp only [Feeds.perform, setMode, put, if_true] }

end Alike

end Feeds

end WatchDispatch.Watch
