import WatchDispatch.Proofs.Json.Records
import WatchDispatch.Proofs.Time.Texts
import WatchDispatch.Resource.Form

/-!
# Forms of resources and events

Uids, instants, identities, snapshots, actions and events are read as what was written. For an
instant this needs a year within the range, which every instant that was read has.
-/

namespace WatchDispatch

open Json

theorem Uid.ofJson?_toJson (u : Uid) : ofJson? u.toJson = some u := by
  rw [ofJson?, toJson, list?_map (fun b _ => byte?_integer b), Option.bind_some, ofBytes?,
    dif_pos u.size]

theorem Time.Instant.ofJson?_toJson {t : Instant} (range : yearInRange t.date.year = true) :
    ofJson? t.toJson = some t := by
  rw [ofJson?, toJson, text?_text, Option.bind_some, parse?_print range]

theorem Time.Instant.yearInRange_of_ofJson? {value : Json} {t : Instant}
    (found : ofJson? value = some t) : yearInRange t.date.year = true := by
  obtain ⟨s, -, read⟩ := Option.bind_eq_some_iff.mp found
  exact yearInRange_of_parse? read

theorem ResourceIdentity.ofJson?_toJson (r : ResourceIdentity) : ofJson? r.toJson = some r := by
  simp [ofJson?, toJson, fields?_ofMembers, required?, absentOr?, Assoc.get?_ofList, Assoc.get?,
    Uid.ofJson?_toJson, optional?_text]

/-! ## Snapshots -/

/-- The instant at which the deletion was asked for has a text. -/
def Snapshot.Dated (s : Snapshot) : Prop := ∀ t ∈ s.deletion, Time.yearInRange t.date.year = true

namespace Snapshot

theorem ofJson?_toJson {s : Snapshot} (dated : s.Dated) : ofJson? s.toJson = some s := by
  have deletion : optional? Time.Instant.ofJson? (some (ofOption Time.Instant.toJson s.deletion))
      = some s.deletion :=
    optional?_ofOption (fun t mem => Time.Instant.ofJson?_toJson (dated t mem)) (fun _ => nofun)
  -- The kernel must not unfold the bound of 64-bit numbers, so every step comes with its proof.
  simp -implicitDefEqProofs [ofJson?, toJson, fields?_ofMembers, required?, absentOr?,
    Assoc.get?_ofList, Assoc.get?, ResourceIdentity.ofJson?_toJson, nat64?_integer, deletion,
    list?_texts]

theorem dated_of_ofJson? {value : Json} {s : Snapshot} (found : ofJson? value = some s) :
    s.Dated := by
  simp only [ofJson?, Option.bind_eq_bind, Option.bind_eq_some_iff] at found
  obtain ⟨fields, -, identity, -, generation, -, deletion, read, _, -, _, -, same⟩ := found
  rintro t mem
  obtain rfl : deletion = some t := by
    rw [← Option.some.inj same] at mem
    exact mem
  rw [absentOr?] at read
  unfold optional? at read
  split at read
  · cases read
  · cases read
  · obtain ⟨t, readText, same⟩ := Option.map_eq_some_iff.mp read
    rw [← Option.some.inj same]
    exact Time.Instant.yearInRange_of_ofJson? readText

end Snapshot

/-! ## Events -/

theorem Action.ofJson?_toJson (a : Action) : ofJson? a.toJson = some a := by
  cases a <;> rfl

namespace Event

theorem ofJson?_toJson {e : Event} (dated : e.snapshot.Dated) : ofJson? e.toJson = some e := by
  simp [ofJson?, toJson, fields?_ofMembers, required?, Assoc.get?_ofList, Assoc.get?,
    Action.ofJson?_toJson, Snapshot.ofJson?_toJson dated]

theorem dated_of_ofJson? {value : Json} {e : Event} (found : ofJson? value = some e) :
    e.snapshot.Dated := by
  simp only [ofJson?, Option.bind_eq_bind, Option.bind_eq_some_iff] at found
  obtain ⟨fields, -, action, -, snapshot, read, same⟩ := found
  obtain ⟨_, -, read⟩ := Option.bind_eq_some_iff.mp read
  rw [← Option.some.inj same]
  exact Snapshot.dated_of_ofJson? read

end Event

end WatchDispatch
