/-!
Tables: finitely many keys, each with one value, listed by increasing key.

Caches, gates, registries and the members of JSON objects are tables. `Assoc` holds the operations
on plain lists of pairs, `Table` the lists whose keys strictly increase. The main statements are one
look-up equation per operation (`get?_insert`, `get?_erase`) and that inserting and erasing keep the
order.
-/

namespace WatchDispatch

universe u v

/-- A strict order of keys in which any two different keys are comparable. -/
class KeyOrder (κ : Type u) extends LT κ where
  decLt : ∀ a b : κ, Decidable (a < b)
  decEq : DecidableEq κ
  irrefl : ∀ a : κ, ¬ a < a
  trans : ∀ {a b c : κ}, a < b → b < c → a < c
  total : ∀ {a b : κ}, ¬ a < b → a ≠ b → b < a

attribute [reducible] KeyOrder.decLt KeyOrder.decEq
instance KeyOrder.decidableLt {κ : Type u} [KeyOrder κ] (a b : κ) : Decidable (a < b) :=
  KeyOrder.decLt a b
instance (priority := low) KeyOrder.decidableEq {κ : Type u} [KeyOrder κ] : DecidableEq κ :=
  KeyOrder.decEq

/-- Texts are ordered by their code points. -/
instance : KeyOrder String where
  decLt := inferInstance
  decEq := inferInstance
  irrefl := String.lt_irrefl
  trans := String.lt_trans
  total := fun {a b} h ne => by
    rcases Decidable.em (b < a) with hb | hb
    · exact hb
    · exact absurd (String.le_antisymm (String.not_lt.mp hb) (String.not_lt.mp h)) ne

namespace Assoc

variable {κ : Type u} {α : Type v} [KeyOrder κ]

/-- The value of the first pair with this key. -/
def get? (k : κ) : List (κ × α) → Option α
  | [] => none
  | (k', v) :: rest => if k = k' then some v else get? k rest

/-- Puts the pair before the first greater key, in place of a pair with the same key. -/
def insert (k : κ) (v : α) : List (κ × α) → List (κ × α)
  | [] => [(k, v)]
  | (k', v') :: rest =>
    if k = k' then (k, v) :: rest
    else if k < k' then (k, v) :: (k', v') :: rest
    else (k', v') :: insert k v rest

/-- Drops every pair with this key. -/
def erase (k : κ) (entries : List (κ × α)) : List (κ × α) :=
  entries.filter (fun entry => decide (entry.1 ≠ k))

/-- Keys strictly increase along the list. -/
def Ordered (entries : List (κ × α)) : Prop := entries.Pairwise (fun a b => a.1 < b.1)

/-- All pairs inserted one after the other: of two pairs with one key the later stays. -/
def ofList (entries : List (κ × α)) : List (κ × α) :=
  entries.foldl (fun acc entry => insert entry.1 entry.2 acc) []

@[simp] theorem get?_nil (k : κ) : get? k ([] : List (κ × α)) = none := rfl

theorem get?_insert (k k' : κ) (v : α) (entries : List (κ × α)) :
    get? k' (insert k v entries) = if k' = k then some v else get? k' entries := by
  induction entries with
  | nil => simp [insert, get?]
  | cons entry rest ih =>
    obtain ⟨key, value⟩ := entry
    simp only [insert]
    split
    next h => subst h; simp only [get?]; split <;> rfl
    next h =>
      split
      next => simp only [get?]
      next =>
        simp only [get?, ih]
        by_cases hk : k' = key
        · subst hk; simp [Ne.symm h]
        · simp [hk]

theorem get?_erase (k k' : κ) (entries : List (κ × α)) :
    get? k' (erase k entries) = if k' = k then none else get? k' entries := by
  induction entries with
  | nil => simp [erase]
  | cons entry rest ih =>
    obtain ⟨key, value⟩ := entry
    simp only [erase, List.filter_cons] at ih ⊢
    by_cases hk : key = k
    · subst hk
      simp only [ne_eq, not_true, decide_false, Bool.false_eq_true, ↓reduceIte]
      rw [ih]
      by_cases h : k' = key <;> simp [get?, h]
    · simp only [ne_eq, hk, not_false_eq_true, decide_true, ↓reduceIte, get?]
      rw [ih]
      by_cases h : k' = key
      · subst h; simp [hk]
      · simp [h]

theorem isSome_get?_iff (k : κ) (entries : List (κ × α)) :
    (get? k entries).isSome ↔ k ∈ entries.map Prod.fst := by
  induction entries with
  | nil => simp
  | cons entry rest ih =>
    by_cases h : k = entry.1
    · simp [get?, h]
    · simp [get?, h, ih]

theorem mem_insert {k : κ} {v : α} {entries : List (κ × α)} {entry : κ × α}
    (h : entry ∈ insert k v entries) : entry = (k, v) ∨ entry ∈ entries := by
  induction entries with
  | nil => simpa [insert] using h
  | cons first rest ih =>
    simp only [insert] at h
    split at h
    · rcases List.mem_cons.mp h with h | h
      · exact Or.inl h
      · exact Or.inr (List.mem_cons_of_mem _ h)
    · split at h
      · rcases List.mem_cons.mp h with h | h
        · exact Or.inl h
        · exact Or.inr h
      · rcases List.mem_cons.mp h with h | h
        · exact Or.inr (h ▸ List.mem_cons_self)
        · rcases ih h with h | h
          · exact Or.inl h
          · exact Or.inr (List.mem_cons_of_mem _ h)

theorem Ordered.insert {entries : List (κ × α)} (ordered : Ordered entries) (k : κ) (v : α) :
    Ordered (insert k v entries) := by
  induction entries with
  | nil => simp [Assoc.insert, Ordered]
  | cons first rest ih =>
    obtain ⟨key, value⟩ := first
    obtain ⟨above, restOrdered⟩ := List.pairwise_cons.mp ordered
    simp only [Assoc.insert]
    split
    next h => subst h; exact List.pairwise_cons.mpr ⟨above, restOrdered⟩
    next different =>
      split
      next h =>
        refine List.pairwise_cons.mpr ⟨fun entry mem => ?_, ordered⟩
        rcases List.mem_cons.mp mem with rfl | mem
        · exact h
        · exact KeyOrder.trans h (above _ mem)
      next h =>
        refine List.pairwise_cons.mpr ⟨fun entry mem => ?_, ih restOrdered⟩
        rcases mem_insert mem with rfl | mem
        · exact KeyOrder.total h different
        · exact above _ mem

theorem Ordered.erase {entries : List (κ × α)} (ordered : Ordered entries) (k : κ) :
    Ordered (erase k entries) := List.Pairwise.filter _ ordered

/-- A key of an ordered list is its first one or comes after it. -/
theorem Ordered.eq_or_lt_of_isSome {k k' : κ} {v : α} {rest : List (κ × α)}
    (ordered : Ordered ((k, v) :: rest)) (found : (get? k' ((k, v) :: rest)).isSome) :
    k' = k ∨ k < k' := by
  rcases List.mem_cons.mp ((isSome_get?_iff k' _).mp found) with same | later
  · exact Or.inl same
  · obtain ⟨entry, there, rfl⟩ := List.mem_map.mp later
    exact Or.inr ((List.pairwise_cons.mp ordered).1 entry there)

theorem Ordered.get?_rest {k : κ} {v : α} {rest : List (κ × α)}
    (ordered : Ordered ((k, v) :: rest)) : get? k rest = none := by
  cases found : get? k rest with
  | none => rfl
  | some w =>
    have mem := (isSome_get?_iff k rest).mp (by simp [found])
    obtain ⟨entry, there, same⟩ := List.mem_map.mp mem
    have above := (List.pairwise_cons.mp ordered).1 entry there
    rw [same] at above
    exact absurd above (KeyOrder.irrefl k)

/-- The pairs of an ordered list are what its look-ups say. -/
theorem Ordered.mem_iff_get? {entries : List (κ × α)} (ordered : Ordered entries) {k : κ} {v : α} :
    (k, v) ∈ entries ↔ get? k entries = some v := by
  induction entries with
  | nil => simp
  | cons entry rest ih =>
    obtain ⟨key, value⟩ := entry
    have within := ih (List.pairwise_cons.mp ordered).2
    by_cases same : k = key
    · subst same
      have absent : (k, v) ∉ rest := by
        rw [within, ordered.get?_rest]
        simp
      simp [get?, absent, eq_comm]
    · simp [get?, same, within]

/-- An ordered list has no two values under one key. -/
theorem Ordered.filter_eq {entries : List (κ × α)} (ordered : Ordered entries) (k : κ) :
    (entries.filter (fun entry => decide (entry.1 = k))).map Prod.snd =
    (get? k entries).toList := by
  induction entries with
  | nil => rfl
  | cons entry rest ih =>
    obtain ⟨key, value⟩ := entry
    have within := ih (List.pairwise_cons.mp ordered).2
    by_cases same : k = key
    · subst same
      rw [ordered.get?_rest] at within
      simpa [get?] using within
    · simpa [get?, same, Ne.symm same] using within

/-- Ordered lists in which every key has the same value are the same. -/
theorem Ordered.eq_of_get? {entries entries' : List (κ × α)} (ordered : Ordered entries)
    (ordered' : Ordered entries') (same : ∀ k, get? k entries = get? k entries') :
    entries = entries' := by
  induction entries generalizing entries' with
  | nil =>
    cases entries' with
    | nil => rfl
    | cons entry' rest' => simpa [get?] using same entry'.1
  | cons entry rest ih =>
    obtain ⟨k, v⟩ := entry
    cases entries' with
    | nil => simpa [get?] using same k
    | cons entry' rest' =>
      obtain ⟨k', v'⟩ := entry'
      have first : (get? k ((k', v') :: rest')).isSome := by
        rw [← same k]
        simp [get?]
      have first' : (get? k' ((k, v) :: rest)).isSome := by
        rw [same k']
        simp [get?]
      -- Each first key is among the keys of the other list, so neither is below the other.
      obtain rfl : k = k' := by
        rcases ordered'.eq_or_lt_of_isSome first with equal | below
        · exact equal
        · rcases ordered.eq_or_lt_of_isSome first' with equal | above
          · exact equal.symm
          · exact absurd (KeyOrder.trans below above) (KeyOrder.irrefl k')
      obtain rfl : v = v' := by simpa [get?] using same k
      have rests : ∀ x, get? x rest = get? x rest' := by
        intro x
        by_cases equal : x = k
        · rw [equal, ordered.get?_rest, ordered'.get?_rest]
        · simpa [get?, equal] using same x
      rw [ih (List.pairwise_cons.mp ordered).2 (List.pairwise_cons.mp ordered').2 rests]

theorem ordered_ofList (entries : List (κ × α)) : Ordered (ofList entries) := by
  have key : ∀ acc : List (κ × α), Ordered acc →
      Ordered (entries.foldl (fun acc entry => Assoc.insert entry.1 entry.2 acc) acc) := by
    induction entries with
    | nil => exact fun _ h => h
    | cons entry rest ih => exact fun acc h => ih _ (h.insert entry.1 entry.2)
  exact key [] List.Pairwise.nil

end Assoc

/-- Finitely many keys in increasing order, each with a value. -/
structure Table (κ : Type u) (α : Type v) [KeyOrder κ] where
  /-- The keys with their values, by increasing key. -/
  entries : List (κ × α)
  ordered : Assoc.Ordered entries

namespace Table

variable {κ : Type u} {α : Type v} [KeyOrder κ]

def empty : Table κ α := ⟨[], List.Pairwise.nil⟩

instance : Inhabited (Table κ α) := ⟨empty⟩

def get? (t : Table κ α) (k : κ) : Option α := Assoc.get? k t.entries

/-- Puts a value under a key, in place of what was there. -/
def insert (t : Table κ α) (k : κ) (v : α) : Table κ α :=
  ⟨Assoc.insert k v t.entries, t.ordered.insert k v⟩

def erase (t : Table κ α) (k : κ) : Table κ α := ⟨Assoc.erase k t.entries, t.ordered.erase k⟩

def size (t : Table κ α) : Nat := t.entries.length

def isEmpty (t : Table κ α) : Bool := t.entries.isEmpty

/-- The keys, increasing. -/
def keys (t : Table κ α) : List κ := t.entries.map Prod.fst

/-- The values by increasing key. -/
def values (t : Table κ α) : List α := t.entries.map Prod.snd

@[simp] theorem get?_empty (k : κ) : (empty : Table κ α).get? k = none := rfl

theorem get?_insert (t : Table κ α) (k k' : κ) (v : α) :
    (t.insert k v).get? k' = if k' = k then some v else t.get? k' :=
  Assoc.get?_insert k k' v t.entries

theorem get?_erase (t : Table κ α) (k k' : κ) :
    (t.erase k).get? k' = if k' = k then none else t.get? k' :=
  Assoc.get?_erase k k' t.entries

/-- A table is what its look-ups say. -/
theorem ext_get? {t t' : Table κ α} (same : ∀ k, t.get? k = t'.get? k) : t = t' := by
  obtain ⟨entries, ordered⟩ := t
  obtain ⟨entries', ordered'⟩ := t'
  obtain rfl : entries = entries' := ordered.eq_of_get? ordered' same
  rfl

theorem mem_keys_iff (t : Table κ α) (k : κ) : k ∈ t.keys ↔ (t.get? k).isSome :=
  (Assoc.isSome_get?_iff k t.entries).symm

theorem keys_increasing (t : Table κ α) : t.keys.Pairwise (· < ·) :=
  List.pairwise_map.mpr t.ordered

/-! ## Values that are stored under a key of their own -/

section Keyed

variable {t : Table κ α} {key : α → κ} (own : ∀ k v, t.get? k = some v → key v = k)

include own

theorem map_values_eq_keys : t.values.map key = t.keys := by
  simp only [values, keys, List.map_map]
  refine List.map_congr_left ?_
  rintro ⟨k, v⟩ mem
  exact own k v (t.ordered.mem_iff_get?.mp mem)

theorem mem_values_iff (v : α) : v ∈ t.values ↔ t.get? (key v) = some v := by
  constructor
  · intro mem
    obtain ⟨⟨k, w⟩, there, rfl⟩ := List.mem_map.mp mem
    have found : t.get? k = some w := t.ordered.mem_iff_get?.mp there
    rw [own k w found]
    exact found
  · intro found
    exact List.mem_map.mpr ⟨(key v, v), t.ordered.mem_iff_get?.mpr found, rfl⟩

/-- The value under a key is the only one whose own key it is. -/
theorem filter_values_eq {k : κ} {picks : α → Bool} (exact : ∀ v, picks v = true ↔ key v = k) :
    t.values.filter picks = (t.get? k).toList := by
  rw [get?, ← t.ordered.filter_eq k, values, List.filter_map]
  congr 1
  apply List.filter_congr
  rintro ⟨k', v⟩ mem
  have found : key v = k' := own k' v (t.ordered.mem_iff_get?.mp mem)
  rw [Function.comp_apply, Bool.eq_iff_iff, exact, decide_eq_true_eq, found]

end Keyed

end Table

end WatchDispatch
