import Mathlib.Data.Prod.Lex
import Mathlib.Data.String.Basic
import Mathlib.Tactic.SplitIfs
import WatchDispatch.Cluster.Discovery

/-!
# What a group offers

Of the versions of a group one is offered: the preferred one, and if none is preferred the latest.
The versions are sorted for that, and since sorting keeps the order of versions that are as late as
one another, the first of them in the list of the group is the one that counts.
-/

namespace WatchDispatch.Cluster

open OrderDual

/-! ## The order of versions -/

namespace VersionRank

/-- What counts for the order of versions, in turn. -/
def key (a : VersionRank) : ℕᵒᵈ ×ₗ ℕᵒᵈ ×ₗ ℕᵒᵈ ×ₗ String :=
  toLex (toDual (place a.stability),
    toLex (toDual a.major, toLex (toDual (minorPlace a.minor), a.name)))

theorem before_iff_key_lt {a b : VersionRank} : a.before b = true ↔ a.key < b.key := by
  simp only [key, Prod.Lex.toLex_lt_toLex, toDual_lt_toDual, before, ne_eq,
    EmbeddingLike.apply_eq_iff_eq]
  split_ifs <;> simp <;> grind

theorem not_before_iff_key_le {a b : VersionRank} : (!b.before a) = true ↔ a.key ≤ b.key := by
  rw [← not_lt, ← before_iff_key_lt]
  simp

end VersionRank

/-! ## Sorting keeps what comes first -/

section Sorting

variable {α : Type} {le : α → α → Bool} (trans : ∀ a b c, le a b → le b c → le a c)
  (total : ∀ a b, le a b || le b a)

include trans total

/-- Of elements that are as low as one another the first one is found first. -/
theorem find?_mergeSort {p : α → Bool} (alike : ∀ a b, p a → p b → le a b) (l : List α) :
    (l.mergeSort le).find? p = l.find? p := by
  induction l with
  | nil => simp
  | cons a l ih =>
    obtain ⟨lower, rest, sorted, sortedRest, below⟩ := List.mergeSort_cons trans total a l
    rw [sortedRest] at ih
    by_cases picked : p a
    · have passed : ∀ b ∈ lower, ¬ p b := by
        intro b mem hb
        simpa [alike a b picked hb] using below b mem
      rw [sorted, List.find?_append, List.find?_eq_none.mpr passed]
      simp [picked]
    · rw [sorted, List.find?_cons_of_neg picked, ← ih]
      simp [List.find?_append, picked]

/-- The first after sorting is lower than what stands before it and not above what stands behind. -/
theorem head?_mergeSort_iff {l : List α} {v : α} :
    (l.mergeSort le).head? = some v ↔ ∃ earlier later, l = earlier ++ v :: later ∧
      (∀ u ∈ earlier, le u v = false) ∧ ∀ u ∈ later, le v u = true := by
  induction l with
  | nil => simp
  | cons a l ih =>
    obtain ⟨lower, rest, sorted, sortedRest, below⟩ := List.mergeSort_cons trans total a l
    have ordered := List.pairwise_mergeSort trans total (a :: l)
    have same : ∀ u, u ∈ lower ++ rest ↔ u ∈ l := by simp [← sortedRest]
    rw [sorted] at ordered ⊢
    rw [sortedRest] at ih
    cases lower with
    | nil =>
      have lowest : ∀ u ∈ l, le a u = true := by
        intro u mem
        exact (List.pairwise_cons.mp ordered).1 u ((same u).mpr mem)
      constructor
      · intro first
        obtain rfl : a = v := by simpa using first
        exact ⟨[], l, rfl, by simp, lowest⟩
      · rintro ⟨earlier, later, parts, higher, -⟩
        cases earlier with
        | nil => simpa using (List.cons.inj parts).1
        | cons b earlier =>
          obtain ⟨rfl, rfl⟩ := List.cons.inj parts
          have above := lowest v (by simp)
          rw [higher a (by simp)] at above
          cases above
    | cons b lower =>
      constructor
      · intro first
        obtain rfl : b = v := by simpa using first
        obtain ⟨earlier, later, rfl, higher, lowest⟩ := ih.mp rfl
        refine ⟨a :: earlier, later, rfl, ?_, lowest⟩
        intro u mem
        rcases List.mem_cons.mp mem with rfl | mem
        · simpa using below b (by simp)
        · exact higher u mem
      · rintro ⟨earlier, later, parts, higher, lowest⟩
        cases earlier with
        | nil =>
          obtain ⟨rfl, rfl⟩ := List.cons.inj parts
          have under := lowest b ((same b).mp (by simp))
          have above := below b (by simp)
          rw [under] at above
          cases above
        | cons c earlier =>
          obtain ⟨rfl, rfl⟩ := List.cons.inj parts
          exact ih.mpr ⟨earlier, later, rfl, fun u mem => higher u (by simp [mem]), lowest⟩

end Sorting

/-! ## The version that is offered -/

/-- The version that a group offers of those that it has, by their names: the first one of the
preferred name, or, if no name is preferred, the first of the latest ones. -/
inductive Offered {α : Type} (name : α → String) : Option String → List α → α → Prop
  | preferred {earlier later : List α} {v : α} (others : ∀ u ∈ earlier, name u ≠ name v) :
      Offered name (some (name v)) (earlier ++ v :: later) v
  | latest {earlier later : List α} {v : α}
      (before : ∀ u ∈ earlier, (VersionRank.ofName (name v)).before (.ofName (name u)) = true)
      (notBefore : ∀ u ∈ later, (VersionRank.ofName (name u)).before (.ofName (name v)) = false) :
      Offered name none (earlier ++ v :: later) v

theorem Offered.mem {α : Type} {name : α → String} {preferred : Option String} {versions : List α}
    {v : α} (offered : Offered name preferred versions v) : v ∈ versions := by
  cases offered <;> simp

theorem offered_some_iff {α : Type} {name : α → String} {p : String} {versions : List α} {v : α} :
    Offered name (some p) versions v ↔ name v = p ∧
      ∃ earlier later, versions = earlier ++ v :: later ∧ ∀ u ∈ earlier, name u ≠ p := by
  constructor
  · rintro ⟨others⟩
    exact ⟨rfl, _, _, rfl, others⟩
  · rintro ⟨rfl, earlier, later, rfl, others⟩
    exact .preferred others

theorem offered_none_iff {α : Type} {name : α → String} {versions : List α} {v : α} :
    Offered name none versions v ↔ ∃ earlier later, versions = earlier ++ v :: later ∧
      (∀ u ∈ earlier, (VersionRank.ofName (name v)).before (.ofName (name u)) = true) ∧
      ∀ u ∈ later, (VersionRank.ofName (name u)).before (.ofName (name v)) = false := by
  constructor
  · rintro ⟨⟩
    exact ⟨_, _, rfl, ‹_›, ‹_›⟩
  · rintro ⟨earlier, later, rfl, before, notBefore⟩
    exact .latest before notBefore

/-- Only the names of versions count. -/
theorem offered_map_iff {α β : Type} {name : β → String} {f : α → β} {preferred : Option String}
    {versions : List α} {v : β} :
    Offered name preferred (versions.map f) v ↔
      ∃ u, f u = v ∧ Offered (fun u => name (f u)) preferred versions u := by
  constructor
  · intro offered
    generalize mapped : versions.map f = images at offered
    cases offered with
    | preferred others =>
      obtain ⟨earlier, _, rfl, rfl, behind⟩ := List.map_eq_append_iff.mp mapped
      obtain ⟨u, later, rfl, rfl, rfl⟩ := List.map_eq_cons_iff.mp behind
      exact ⟨u, rfl, .preferred (by simpa using others)⟩
    | latest before notBefore =>
      obtain ⟨earlier, _, rfl, rfl, behind⟩ := List.map_eq_append_iff.mp mapped
      obtain ⟨u, later, rfl, rfl, rfl⟩ := List.map_eq_cons_iff.mp behind
      exact ⟨u, rfl, .latest (by simpa using before) (by simpa using notBefore)⟩
  · rintro ⟨u, rfl, offered⟩
    cases offered with
    | preferred others =>
      rw [List.map_append, List.map_cons]
      exact .preferred (by simpa using others)
    | latest before notBefore =>
      rw [List.map_append, List.map_cons]
      exact .latest (by simpa using before) (by simpa using notBefore)

namespace KnownGroup

/-- How the versions of a group are sorted. -/
def asLate (a b : KnownVersion) : Bool :=
  !(VersionRank.ofName b.version).before (VersionRank.ofName a.version)

theorem asLate_iff {a b : KnownVersion} :
    asLate a b = true ↔ (VersionRank.ofName a.version).key ≤ (VersionRank.ofName b.version).key :=
  VersionRank.not_before_iff_key_le

theorem asLate_trans (a b c : KnownVersion) (first : asLate a b) (second : asLate b c) :
    asLate a c :=
  asLate_iff.mpr ((asLate_iff.mp first).trans (asLate_iff.mp second))

theorem asLate_total (a b : KnownVersion) : asLate a b || asLate b a := by
  rw [Bool.or_eq_true, asLate_iff, asLate_iff]
  exact le_total _ _

theorem ranked_eq (g : KnownGroup) : g.ranked = g.versions.mergeSort asLate := rfl

/-- The version whose resources are looked at is the one that the group offers. -/
theorem find?_offered_iff {g : KnownGroup} {v : KnownVersion} :
    g.ranked.find? (fun v => some v.version = g.offered) = some v ↔
      Offered KnownVersion.version g.preferred g.versions v := by
  rw [ranked_eq]
  cases preferred : g.preferred with
  | some p =>
    have alike : ∀ a b : KnownVersion, a.version = p → b.version = p → asLate a b := by
      rintro a b rfl same
      exact asLate_iff.mpr (by rw [same])
    simp only [offered, preferred, Option.some.injEq]
    rw [find?_mergeSort asLate_trans asLate_total (by simpa using alike), offered_some_iff,
      List.find?_eq_some_iff_append]
    simp
  | none =>
    have first : (g.versions.mergeSort asLate).find? (fun v => some v.version = g.offered)
        = (g.versions.mergeSort asLate).head? := by
      simp only [offered, preferred, ranked_eq]
      cases g.versions.mergeSort asLate with
      | nil => rfl
      | cons u rest => simp
    rw [first, head?_mergeSort_iff asLate_trans asLate_total, offered_none_iff]
    simp [asLate]

theorem mem_resources_iff {g : KnownGroup} {found : Found} :
    found ∈ g.resources ↔
      ∃ v, Offered KnownVersion.version g.preferred g.versions v ∧ found ∈ v.resources := by
  simp only [← find?_offered_iff, resources]
  cases g.ranked.find? (fun v => some v.version = g.offered) with
  | none => simp
  | some v => simp

end KnownGroup

end WatchDispatch.Cluster
