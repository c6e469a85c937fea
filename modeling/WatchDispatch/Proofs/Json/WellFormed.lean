import WatchDispatch.Json.Draft

/-!
# Well-formed values

In a well-formed value the members of every object are a table: their keys strictly increase. Of
such a value the draft holds nothing else than the value itself, and every value that is kept of a
draft is well-formed.
-/

namespace WatchDispatch

namespace Assoc

variable {α : Type}

instance (entries : List (String × α)) : Decidable (Ordered entries) :=
  inferInstanceAs (Decidable (entries.Pairwise (fun a b => a.1 < b.1)))

theorem insert_of_below {entries : List (String × α)} {k : String} (v : α)
    (below : ∀ entry ∈ entries, entry.1 < k) : insert k v entries = entries ++ [(k, v)] := by
  induction entries with
  | nil => rfl
  | cons entry rest ih =>
    have lt := below entry List.mem_cons_self
    have different : k ≠ entry.1 := fun same => KeyOrder.irrefl entry.1 (same ▸ lt)
    have notAbove : ¬ k < entry.1 := fun gt => KeyOrder.irrefl entry.1 (KeyOrder.trans lt gt)
    rw [insert, if_neg different, if_neg notAbove,
      ih (fun entry mem => below entry (List.mem_cons_of_mem _ mem)), List.cons_append]

/-- Pairs whose keys strictly increase are in order already. -/
theorem ofList_of_ordered {entries : List (String × α)} (ordered : Ordered entries) :
    ofList entries = entries := by
  have key : ∀ done : List (String × α), Ordered (done ++ entries) →
      entries.foldl (fun acc entry => insert entry.1 entry.2 acc) done = done ++ entries := by
    clear ordered
    induction entries with
    | nil => simp
    | cons entry rest ih =>
      intro done ordered
      have below : ∀ e ∈ done, e.1 < entry.1 := fun e mem =>
        (List.pairwise_append.mp ordered).2.2 e mem entry List.mem_cons_self
      have onward : Ordered ((done ++ [entry]) ++ rest) := by simpa using ordered
      rw [List.foldl_cons, insert_of_below entry.2 below, ih _ onward, List.append_assoc]
      rfl
  exact key [] ordered

end Assoc

namespace Json

/-- The members of every object in the value have strictly increasing keys. -/
inductive WellFormed : Json → Prop where
  | null : WellFormed .null
  | bool (b : Bool) : WellFormed (.bool b)
  | integer (n : Int) : WellFormed (.integer n)
  | real (x : Json.Real) : WellFormed (.real x)
  | text (s : String) : WellFormed (.text s)
  | array {items : List Json} (each : ∀ v ∈ items, WellFormed v) : WellFormed (.array items)
  | object {members : List (String × Json)} (ordered : Assoc.Ordered members)
      (each : ∀ m ∈ members, WellFormed m.2) : WellFormed (.object members)

theorem WellFormed.of_array {items : List Json} (wellFormed : WellFormed (.array items)) :
    ∀ v ∈ items, WellFormed v := by
  cases wellFormed with
  | array each => exact each

theorem WellFormed.ordered {members : List (String × Json)}
    (wellFormed : WellFormed (.object members)) : Assoc.Ordered members := by
  cases wellFormed with
  | object ordered _ => exact ordered

theorem WellFormed.of_object {members : List (String × Json)}
    (wellFormed : WellFormed (.object members)) : ∀ m ∈ members, WellFormed m.2 := by
  cases wellFormed with
  | object _ each => exact each

theorem WellFormed.of_get? {members : List (String × Json)}
    (wellFormed : WellFormed (.object members)) {key : String} {v : Json}
    (found : Assoc.get? key members = some v) : WellFormed v :=
  wellFormed.of_object (key, v) (wellFormed.ordered.mem_iff_get?.mpr found)

/-! ## The draft of a value -/

mutual

/-- A well-formed value is what its draft holds. -/
theorem Draft.value_ofJson : ∀ {v : Json}, WellFormed v → (Draft.ofJson v).value = .ok v
  | .null, _ | .bool _, _ | .integer _, _ | .real _, _ | .text _, _ => rfl
  | .array items, wellFormed => by
    have items := DraftItems.values_ofValues items wellFormed.of_array []
    simp [Draft.ofJson, Draft.value, items, Except.map]
  | .object members, wellFormed => by
    have found := DraftMembers.values_ofValues members wellFormed.of_object []
    simp [Draft.ofJson, Draft.value, found, Except.map, ofMembers,
      Assoc.ofList_of_ordered wellFormed.ordered]

theorem DraftItems.values_ofValues : ∀ items : List Json, (∀ v ∈ items, WellFormed v) →
    ∀ done, (DraftItems.ofValues items).values done = .ok (items.reverse ++ done)
  | [], _, _ => rfl
  | v :: rest, each, done => by
    have first := Draft.value_ofJson (each v List.mem_cons_self)
    have later := DraftItems.values_ofValues rest (fun w mem => each w (List.mem_cons_of_mem v mem))
    simp [DraftItems.ofValues, DraftItems.values, first, later]

theorem DraftMembers.values_ofValues : ∀ members : List (String × Json),
    (∀ m ∈ members, WellFormed m.2) →
    ∀ done, (DraftMembers.ofValues members).values done = .ok (members.reverse ++ done)
  | [], _, _ => rfl
  | (key, v) :: rest, each, done => by
    have first := Draft.value_ofJson (each (key, v) List.mem_cons_self)
    have later := DraftMembers.values_ofValues rest
      (fun m mem => each m (List.mem_cons_of_mem (key, v) mem))
    simp [DraftMembers.ofValues, DraftMembers.values, DraftText.ofString, first, later]

end

end Json

end WatchDispatch
