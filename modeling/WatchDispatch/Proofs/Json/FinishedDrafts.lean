import WatchDispatch.Json.Reading
import WatchDispatch.Proofs.Json.WellFormed
import Mathlib.Data.List.Forall2

/-!
# Reading finished values

What each reading makes of the draft of a value. Readings of records take member by member; as long
as what a member does shows in its own part of the state only, the part of each key can be told from
the member alone.
-/

namespace WatchDispatch.Json

theorem map_eq_ok {ε α β : Type} {f : α → β} {x : Except ε α} {b : β} :
    x.map f = .ok b ↔ ∃ a, x = .ok a ∧ f a = b := by
  cases x <;> simp [Except.map]

theorem toOption_eq_some {ε α : Type} {x : Except ε α} {a : α} :
    x.toOption = some a ↔ x = .ok a := by
  cases x <;> simp [Except.toOption]

/-! ## Strings, truth values and numbers -/

namespace Draft

variable {α : Type} {v : Json}

theorem string_eq_ok {s : String} : string (ofJson v) = .ok s ↔ v = .text s := by
  cases v <;> simp [ofJson, string, DraftText.ofString, misfit]

theorem flag_eq_ok {b : Bool} : flag (ofJson v) = .ok b ↔ v = .bool b := by
  cases v <;> simp [ofJson, flag, misfit]

theorem integerWithin_eq_ok {least greatest n : Int} :
    integerWithin least greatest (ofJson v) = .ok n ↔ v = .integer n ∧ least ≤ n ∧
    n ≤ greatest := by
  cases v with
  | integer m =>
    simp only [ofJson, integerWithin, integer.injEq]
    split
    · next within =>
      simp only [Except.ok.injEq]
      exact ⟨fun same => ⟨same, same ▸ within⟩, And.left⟩
    · next outside =>
      simp only [reduceCtorEq, false_iff]
      rintro ⟨rfl, within⟩
      exact outside within
  | _ => simp [ofJson, integerWithin, misfit]

theorem parsed_eq_ok {parse? : String → Option α} {a : α} :
    parsed parse? (ofJson v) = .ok a ↔ ∃ s, v = .text s ∧ parse? s = some a := by
  unfold parsed
  cases read : string (ofJson v) with
  | error e =>
    simp only [reduceCtorEq, false_iff]
    rintro ⟨s, rfl, -⟩
    cases read
  | ok s =>
    obtain rfl := string_eq_ok.mp read
    cases found : parse? s <;> simp [found]

theorem asJson_eq_ok {write : α → Json} {read : Reader α} {d : Draft} {w : Json} :
    asJson write read d = .ok w ↔ ∃ a, read d = .ok a ∧ write a = w := map_eq_ok

theorem optional_null (read : Reader α) : optional read (ofJson .null) = .ok none := rfl

theorem optional_of_ne_null (read : Reader α) (proper : v ≠ .null) :
    optional read (ofJson v) = (read (ofJson v)).map some := by
  cases v with
  | null => exact absurd rfl proper
  | _ => rfl

end Draft

/-! ## Lists -/

theorem DraftItems.each_eq_ok {α : Type} {read : Reader α} {items : List Json} {done out : List α} :
    (DraftItems.ofValues items).each read done = .ok out ↔
      ∃ as, List.Forall₂ (fun v a => read (Draft.ofJson v) = .ok a) items as ∧
      out = as.reverse ++ done := by
  induction items generalizing done with
  | nil =>
    simp only [ofValues, each, Except.ok.injEq, List.forall₂_nil_left_iff, exists_eq_left,
      List.reverse_nil, List.nil_append]
    exact eq_comm
  | cons v rest ih =>
    simp only [ofValues, each, List.forall₂_cons_left_iff]
    cases found : read (Draft.ofJson v) with
    | error e => simp
    | ok a =>
      simp only [ih, Except.ok.injEq]
      constructor
      · rintro ⟨as, each, rfl⟩
        exact ⟨a :: as, ⟨a, as, rfl, each, rfl⟩, by simp⟩
      · rintro ⟨_, ⟨a, as, rfl, each, rfl⟩, rfl⟩
        exact ⟨as, each, by simp⟩

theorem Draft.list_eq_ok {α : Type} {read : Reader α} {v : Json} {as : List α} :
    Draft.list read (ofJson v) = .ok as ↔
      ∃ items, v = .array items ∧ List.Forall₂ (fun v a => read (ofJson v) = .ok a) items as := by
  cases v with
  | array items =>
    simp only [ofJson, list, Bool.false_eq_true, if_false, map_eq_ok, DraftItems.each_eq_ok,
      Json.array.injEq, exists_eq_left', List.append_nil]
    constructor
    · rintro ⟨_, ⟨as', each, rfl⟩, rfl⟩
      rwa [List.reverse_reverse]
    · intro each
      exact ⟨as.reverse, ⟨as, each, rfl⟩, List.reverse_reverse as⟩
  | _ => simp [ofJson, list, misfit]

/-! ## Records -/

namespace DraftMembers

variable {σ : Type} {step : σ → String → Reader σ}

theorem fold_ofValues_nil (s : σ) : (ofValues []).fold step s = .ok s := rfl

theorem fold_ofValues_cons {key : String} {v : Json} {rest : List (String × Json)} {s s' : σ} :
    (ofValues ((key, v) :: rest)).fold step s = .ok s' ↔
      ∃ mid, step s key (Draft.ofJson v) = .ok mid ∧ (ofValues rest).fold step mid = .ok s' := by
  simp only [ofValues, fold, DraftText.ofString]
  cases step s key (Draft.ofJson v) <;> simp

variable {β : Type}

/-- A member of a record shows in the part of the state that belongs to its key, and nowhere
else. -/
structure Local (view : σ → String → β) (takes : String → Json → β → β → Prop)
    (step : σ → String → Reader σ) : Prop where
  own : ∀ {s key v s'}, step s key (Draft.ofJson v) = .ok s' →
    takes key v (view s key) (view s' key)
  others : ∀ {s key v s' key'}, step s key (Draft.ofJson v) = .ok s' → key' ≠ key →
    view s' key' = view s key'

variable {view : σ → String → β} {takes : String → Json → β → β → Prop}

/-- What a key without a member shows is as it was. -/
theorem Local.absent (loc : Local view takes step) {members : List (String × Json)} {s s' : σ}
    (read : (ofValues members).fold step s = .ok s') {key : String}
    (absent : Assoc.get? key members = none) : view s' key = view s key := by
  induction members generalizing s with
  | nil => cases read; rfl
  | cons member rest ih =>
    obtain ⟨name, v⟩ := member
    obtain ⟨mid, first, later⟩ := fold_ofValues_cons.mp read
    by_cases same : key = name
    · simp [Assoc.get?, same] at absent
    · rw [ih later (by simpa [Assoc.get?, same] using absent), loc.others first same]

/-- What a key with a member shows is what the member made of it. -/
theorem Local.present (loc : Local view takes step) {members : List (String × Json)}
    (ordered : Assoc.Ordered members) {s s' : σ} (read : (ofValues members).fold step s = .ok s')
    {key : String} {v : Json} (found : Assoc.get? key members = some v) :
    takes key v (view s key) (view s' key) := by
  induction members generalizing s with
  | nil => cases found
  | cons member rest ih =>
    obtain ⟨name, w⟩ := member
    obtain ⟨mid, first, later⟩ := fold_ofValues_cons.mp read
    by_cases same : key = name
    · subst same
      obtain rfl : w = v := by simpa [Assoc.get?] using found
      rw [loc.absent later ordered.get?_rest]
      exact loc.own first
    · rw [← loc.others first same]
      exact ih (List.pairwise_cons.mp ordered).2 later (by simpa [Assoc.get?, same] using found)

/-- Members each of which can be taken in every state are taken. -/
theorem fold_ofValues_ok {members : List (String × Json)}
    (each : ∀ m ∈ members, ∀ s, ∃ s', step s m.1 (Draft.ofJson m.2) = .ok s') (s : σ) :
    ∃ s', (ofValues members).fold step s = .ok s' := by
  induction members generalizing s with
  | nil => exact ⟨s, rfl⟩
  | cons member rest ih =>
    obtain ⟨mid, first⟩ := each member List.mem_cons_self s
    obtain ⟨s', later⟩ := ih (fun m mem => each m (List.mem_cons_of_mem _ mem)) mid
    exact ⟨s', fold_ofValues_cons.mpr ⟨mid, first, later⟩⟩

/-- What every member preserves holds in the end. -/
theorem fold_ofValues_preserves {P : σ → Prop} {members : List (String × Json)}
    (keep : ∀ {s m s'}, m ∈ members → P s → step s m.1 (Draft.ofJson m.2) = .ok s' → P s')
    {s s' : σ} (start : P s) (read : (ofValues members).fold step s = .ok s') : P s' := by
  induction members generalizing s with
  | nil => cases read; exact start
  | cons member rest ih =>
    obtain ⟨mid, first, later⟩ := fold_ofValues_cons.mp read
    exact ih (fun mem => keep (List.mem_cons_of_mem _ mem))
      (keep List.mem_cons_self start first) later

end DraftMembers

theorem Draft.record_eq_ok {σ : Type} {step : σ → String → Reader σ} {s s' : σ} {v : Json} :
    Draft.record step s (ofJson v) = .ok s' ↔
      ∃ members, v = .object members ∧ (DraftMembers.ofValues members).fold step s = .ok s' := by
  cases v <;> simp [ofJson, record, misfit]

end WatchDispatch.Json
