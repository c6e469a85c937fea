import WatchDispatch.Json.Record

/-!
# Writing and reading

A form is a way to write values as JSON together with a way to read them. What a form writes it
reads again, and whatever a form reads, in whichever of the accepted spellings, it writes in one
canonical way that is read as the same value. The lemmas take a record, an option or a list back to
its parts.
-/

namespace WatchDispatch

/-- The pairs of a list without repeated keys are still there when it is put in order. -/
theorem Assoc.get?_ofList {α : Type} {entries : List (String × α)}
    (distinct : (entries.map Prod.fst).Nodup) (k : String) :
    get? k (ofList entries) = get? k entries := by
  have key : ∀ acc : List (String × α), get? k (entries.foldl (fun acc e => insert e.1 e.2 acc) acc)
      = (get? k entries).or (get? k acc) := by
    induction entries with
    | nil => exact fun _ => rfl
    | cons entry rest ih =>
      obtain ⟨name, value⟩ := entry
      obtain ⟨fresh, distinct⟩ := List.nodup_cons.mp distinct
      intro acc
      rw [List.foldl_cons, ih distinct, get?_insert]
      by_cases same : k = name
      · have absent : get? k rest = none := by
          rw [← Option.not_isSome_iff_eq_none, isSome_get?_iff, same]
          exact fresh
        simp [get?, same, same ▸ absent]
      · simp [get?, same]
  rw [ofList, key, get?_nil, Option.or_none]

namespace Json

variable {α : Type} {write : α → Json} {read : Json → Option α}

/-- Writing and reading fit together on the values that can be written. -/
structure RoundTrips (write : α → Json) (read : Json → Option α) (Fits : α → Prop) : Prop where
  /-- What is written is read as what it was. -/
  restores : ∀ a, Fits a → read (write a) = some a
  /-- What is read can be written; the writing is read as the same value and written as it is. -/
  canonical : ∀ value a, read value = some a →
    Fits a ∧ read (write a) = some a ∧ (read (write a)).map write = some (write a)

theorem RoundTrips.of_restores {Fits : α → Prop} (restores : ∀ a, Fits a → read (write a) = some a)
    (fits : ∀ value a, read value = some a → Fits a) : RoundTrips write read Fits where
  restores := restores
  canonical value a found := by
    have again := restores a (fits value a found)
    exact ⟨fits value a found, again, by rw [again, Option.map_some]⟩

/-! ## Parts -/

theorem fields?_ofMembers {members : List (String × Json)} (names : List String) :
    fields? names (ofMembers members) = some (Assoc.ofList members) := rfl

theorem optional?_ofOption {o : Option α} (restores : ∀ a ∈ o, read (write a) = some a)
    (proper : ∀ a, write a ≠ null) : optional? read (some (ofOption write o)) = some o := by
  cases o with
  | none => rfl
  | some a =>
    have found := restores a rfl
    rw [ofOption]
    cases written : write a with
    | null => exact absurd written (proper a)
    | _ => simp [optional?, ← written, found]

theorem list?_map {items : List α} (restores : ∀ a ∈ items, read (write a) = some a) :
    list? read (array (items.map write)) = some items := by
  simp only [list?, array?, Option.bind_some]
  induction items with
  | nil => rfl
  | cons a rest ih =>
    have later := ih (fun b mem => restores b (List.mem_cons_of_mem a mem))
    simp [List.map_cons, List.mapM_cons, restores a List.mem_cons_self, later]

theorem natBelow?_integer {bound n : Nat} (lt : n < bound) :
    natBelow? bound (integer n) = some n := by
  simp [natBelow?, integer?, lt]

@[simp] theorem text?_text (s : String) : text? (text s) = some s := rfl

@[simp] theorem bool?_bool (b : Bool) : bool? (bool b) = some b := rfl

theorem byte?_integer (b : UInt8) : byte? (integer b.toNat) = some b := by
  rw [byte?, natBelow?_integer b.toNat_lt, Option.map_some, UInt8.ofNat_toNat]

theorem nat32?_integer (n : UInt32) : nat32? (integer n.toNat) = some n.toNat :=
  natBelow?_integer n.toNat_lt

theorem nat64?_integer (n : UInt64) : nat64? (integer n.toNat) = some n.toNat :=
  natBelow?_integer n.toNat_lt

/-- An optional text. -/
theorem optional?_text (o : Option String) : optional? text? (some (ofOption text o)) = some o :=
  optional?_ofOption (fun _ _ => rfl) (fun _ => nofun)

/-- A list of texts. -/
theorem list?_texts (names : List String) : list? text? (array (names.map text)) = some names :=
  list?_map (fun _ _ => rfl)

end Json

end WatchDispatch
