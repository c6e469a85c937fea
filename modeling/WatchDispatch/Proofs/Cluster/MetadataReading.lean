import WatchDispatch.Proofs.Cluster.MetadataFields

/-!
# Reading metadata

Each field of metadata comes from the one member with its name. The members that metadata are
written with are read as the same metadata, except that the instant of the deletion has no fraction
of a second any more.
-/

namespace WatchDispatch.Cluster

open Json (Draft Reader map_eq_ok DraftMembers)
open Json.Draft (Canonical Settles)

namespace Metadata

variable {m m' : Metadata} {name : String} {v : Json} {members : List (String × Json)}

/-! ## One member -/

@[simp] theorem get?_put (m : Metadata) (name : String) (y : Option Json) (key : String) :
    Assoc.get? key (m.put name y).members = if key = name then y else Assoc.get? key m.members := by
  cases y with
  | none => simp [put, Assoc.get?_erase]
  | some w => simp [put, Assoc.get?_insert]

@[simp] theorem deletion_put (m : Metadata) (name : String) (y : Option Json) :
    (m.put name y).deletion = m.deletion := by
  cases y <;> rfl

theorem ordered_put {m : Metadata} (ordered : Assoc.Ordered m.members) (name : String)
    (y : Option Json) : Assoc.Ordered (m.put name y).members := by
  cases y with
  | none => exact ordered.erase name
  | some w => exact ordered.insert name w

def deletionValue : Reader Time.Instant := Draft.parsed Time.Instant.parse?

def cut (t : Time.Instant) : Json := .text t.printSecond

theorem step_deletion (m : Metadata) (d : Draft) :
    step m "deletionTimestamp" d = (Draft.optional deletionValue d).map
      (fun t => { m.put "deletionTimestamp" (t.map cut) with deletion := t }) := by
  rw [step]
  change (Draft.optional deletionValue d).bind _ = _
  cases Draft.optional deletionValue d <;> rfl

theorem step_field (m : Metadata) (d : Draft) {read : Reader Json}
    (known : metadataField? name = some read) :
    step m name d = (Draft.optional read d).map (m.put name) := by
  unfold step
  split
  · cases known
  · rw [known]

theorem step_unknown (m : Metadata) (d : Draft) (unknown : metadataField? name = none)
    (notDeletion : name ≠ "deletionTimestamp") : step m name d = Draft.ignored m d := by
  unfold step
  split
  · exact absurd rfl notDeletion
  · rw [unknown]

def field? (name : String) : Option (Reader Json) :=
  if name = "deletionTimestamp" then some instantValue else metadataField? name

theorem field?_settles {read : Reader Json} (known : field? name = some read)
    (notManagers : name ≠ "managedFields") : Settles read := by
  unfold field? at known
  split at known
  · cases known
    exact instantValue_settles
  · exact metadataField?_settles known notManagers

theorem optional_instantValue (d : Draft) :
    Draft.optional instantValue d = (Draft.optional deletionValue d).map (Option.map cut) := by
  have read (d : Draft) : (instantValue d).map some =
      ((deletionValue d).map some).map (Option.map cut) := by
    rw [instantValue, Draft.asJson, deletionValue]
    cases Draft.parsed Time.Instant.parse? d <;> rfl
  unfold Draft.optional
  split
  · rfl
  · exact read d

/-- All that a member can do. -/
theorem step_cases (taken : step m name (Draft.ofJson v) = .ok m') :
    (name = "deletionTimestamp" ∧ ∃ t, Draft.optional deletionValue (Draft.ofJson v) = .ok t ∧
      m' = { m.put "deletionTimestamp" (t.map cut) with deletion := t }) ∨
    (field? name = none ∧ m' = m) ∨
    (name ≠ "deletionTimestamp" ∧ ∃ read y, metadataField? name = some read ∧
      Draft.optional read (Draft.ofJson v) = .ok y ∧ m' = m.put name y) := by
  by_cases isDeletion : name = "deletionTimestamp"
  · subst isDeletion
    obtain ⟨t, found, rfl⟩ := map_eq_ok.mp (step_deletion m _ ▸ taken)
    exact .inl ⟨rfl, t, found, rfl⟩
  · refine .inr ?_
    cases known : metadataField? name with
    | some read =>
      obtain ⟨y, found, rfl⟩ := map_eq_ok.mp (step_field m _ known ▸ taken)
      exact .inr ⟨isDeletion, read, y, rfl, found, rfl⟩
    | none =>
      refine .inl ⟨by simp [field?, isDeletion, known], ?_⟩
      rw [step_unknown m _ known isDeletion, Draft.ignored, Draft.pass_ofJson] at taken
      exact (Except.ok.inj taken).symm

/-- A member of metadata shows under its name only. -/
theorem step_local : DraftMembers.Local (fun (m : Metadata) key => Assoc.get? key m.members)
    (Draft.Takes field?) step where
  own taken := by
    rcases step_cases taken with ⟨rfl, t, found, rfl⟩ | ⟨unknown, rfl⟩ |
      ⟨other, read, y, known, found, rfl⟩
    · simp [Draft.Takes, field?, optional_instantValue, found, Except.map]
    · simp [Draft.Takes, unknown]
    · simp [Draft.Takes, field?, other, known, found]
  others taken different := by
    rcases step_cases taken with ⟨rfl, t, found, rfl⟩ | ⟨unknown, rfl⟩ |
      ⟨other, read, y, known, found, rfl⟩
    · simp [different]
    · rfl
    · simp [different]

/-- The instant of the deletion comes from the member with its name. -/
theorem step_local_deletion : DraftMembers.Local
    (fun (m : Metadata) key => if key = "deletionTimestamp" then m.deletion else none)
    (fun name v _ after =>
      name = "deletionTimestamp" → Draft.optional deletionValue (Draft.ofJson v) =
      .ok after) step where
  own taken := by
    rintro rfl
    rcases step_cases taken with ⟨-, t, found, rfl⟩ | ⟨unknown, -⟩ | ⟨other, -⟩
    · simp [found]
    · simp [field?] at unknown
    · exact absurd rfl other
  others taken different := by
    rcases step_cases taken with ⟨rfl, t, found, rfl⟩ | ⟨unknown, rfl⟩ |
      ⟨other, read, y, known, found, rfl⟩
    · simp [different]
    · rfl
    · simp

theorem ordered_step (ordered : Assoc.Ordered m.members)
    (taken : step m name (Draft.ofJson v) = .ok m') : Assoc.Ordered m'.members := by
  rcases step_cases taken with ⟨rfl, t, found, rfl⟩ | ⟨unknown, rfl⟩ |
    ⟨other, read, y, known, found, rfl⟩
  · exact ordered_put ordered _ _
  · exact ordered
  · exact ordered_put ordered _ _

/-! ## All members -/

theorem read_eq_ok : read (Draft.ofJson v) = .ok m ↔
    ∃ members, v = .object members ∧ (DraftMembers.ofValues members).fold step empty = .ok m :=
  Draft.record_eq_ok

theorem ordered_read (found : read (Draft.ofJson v) = .ok m) : Assoc.Ordered m.members := by
  obtain ⟨members, rfl, found⟩ := read_eq_ok.mp found
  exact DraftMembers.fold_ofValues_preserves (P := fun m : Metadata => Assoc.Ordered m.members)
    (fun _ ordered taken => ordered_step ordered taken)
    (show Assoc.Ordered empty.members from List.Pairwise.nil) found

/-- Every field is read from the member with its name. -/
theorem read_get? (ordered : Assoc.Ordered members)
    (found : read (Draft.ofJson (.object members)) = .ok m) {read : Reader Json}
    (known : field? name = some read) :
    Draft.field read (Assoc.get? name members) = .ok (Assoc.get? name m.members) := by
  obtain ⟨_, ⟨⟩, found⟩ := read_eq_ok.mp found
  exact Draft.field_of_takes step_local ordered (fun _ => rfl) found known

/-- Nothing else is kept. -/
theorem read_get?_unknown (ordered : Assoc.Ordered members)
    (found : read (Draft.ofJson (.object members)) = .ok m) (unknown : field? name = none) :
    Assoc.get? name m.members = none := by
  obtain ⟨_, ⟨⟩, found⟩ := read_eq_ok.mp found
  exact Draft.none_of_takes step_local ordered (fun _ => rfl) found unknown

theorem read_deletion (ordered : Assoc.Ordered members)
    (found : read (Draft.ofJson (.object members)) = .ok m) :
    Draft.field deletionValue (Assoc.get? "deletionTimestamp" members) = .ok m.deletion := by
  obtain ⟨_, ⟨⟩, found⟩ := read_eq_ok.mp found
  cases member : Assoc.get? "deletionTimestamp" members with
  | none =>
    have same := step_local_deletion.absent found member
    simp only [if_true] at same
    rw [same]
    rfl
  | some v =>
    have taken := step_local_deletion.present ordered found member rfl
    simp only [if_true] at taken
    exact taken

def stripped (m : Metadata) : Metadata := m.put "managedFields" none

/-- Metadata without a record of managers that were read of ordered members, in the way in which
they are written. -/
structure Settled (m : Metadata) : Prop where
  ordered : Assoc.Ordered m.members
  canonical : ∀ name w, Assoc.get? name m.members = some w →
    ∃ read, field? name = some read ∧ Canonical read w
  deletion : Assoc.get? "deletionTimestamp" m.members = m.deletion.map cut
  inRange : ∀ t ∈ m.deletion, Time.yearInRange t.date.year = true

theorem settled_empty : empty.stripped.Settled := ⟨List.Pairwise.nil, nofun, rfl, nofun⟩

theorem settled_read (ordered : Assoc.Ordered members)
    (found : read (Draft.ofJson (.object members)) = .ok m) : m.stripped.Settled where
  ordered := ordered_put (ordered_read found) _ _
  canonical name w present := by
    rw [stripped, get?_put] at present
    split at present
    · cases present
    next notManagers =>
    cases known : field? name with
    | none =>
      rw [read_get?_unknown ordered found known] at present
      cases present
    | some read =>
      have taken := read_get? ordered found known
      rw [present] at taken
      rcases Draft.field_eq_ok.mp taken with ⟨-, ⟨⟩⟩ | ⟨v, _, -, taken, ⟨⟩⟩
      exact ⟨read, rfl, field?_settles known notManagers taken⟩
  deletion := by
    rw [stripped, get?_put, if_neg (by decide), deletion_put]
    have shown : Draft.field instantValue (Assoc.get? "deletionTimestamp" members)
        = .ok (Assoc.get? "deletionTimestamp" m.members) := read_get? ordered found rfl
    have kept := read_deletion ordered found
    cases member : Assoc.get? "deletionTimestamp" members with
    | none =>
      rw [member] at shown kept
      rw [← Except.ok.inj shown, ← Except.ok.inj kept]
      rfl
    | some v =>
      rw [member] at shown kept
      rw [Draft.field, optional_instantValue] at shown
      rw [Draft.field] at kept
      rw [kept] at shown
      exact (Except.ok.inj shown).symm
  inRange t mem := by
    rw [stripped, deletion_put] at mem
    have kept := read_deletion ordered found
    rw [Option.mem_def.mp mem] at kept
    rcases Draft.field_eq_ok.mp kept with ⟨-, ⟨⟩⟩ | ⟨v, _, -, taken, ⟨⟩⟩
    obtain ⟨s, -, read⟩ := Draft.parsed_eq_ok.mp taken
    exact Time.Instant.yearInRange_of_parse? read

theorem Settled.wellFormed (settled : m.Settled) : m.toJson.WellFormed := by
  refine .object settled.ordered (fun entry mem => ?_)
  obtain ⟨_, -, fits⟩ := settled.canonical entry.1 entry.2 (settled.ordered.mem_iff_get?.mp mem)
  exact fits.wellFormed

/-- The text of the deletion is read as the instant without its fraction. -/
theorem deletionValue_cut {t : Time.Instant} (inRange : Time.yearInRange t.date.year = true) :
    deletionValue (Draft.ofJson (cut t)) = .ok t.wholeSecond :=
  Draft.parsed_eq_ok.mpr ⟨_, rfl, Time.Instant.parse?_printSecond inRange⟩

theorem optional_deletionValue_cut {t : Time.Instant}
    (inRange : Time.yearInRange t.date.year = true) :
    Draft.optional deletionValue (Draft.ofJson (cut t)) = .ok (some t.wholeSecond) := by
  rw [Draft.optional_of_ne_null _ (show cut t ≠ .null from nofun), deletionValue_cut inRange]
  rfl

/-- What metadata are written as is read again, the deletion cut to whole seconds. -/
theorem Settled.read_toJson (settled : m.Settled) :
    read (Draft.ofJson m.toJson) = .ok ⟨m.members, m.deletion.map Time.Instant.wholeSecond⟩ := by
  have taken : ∀ entry ∈ m.members, ∀ before, ∃ after,
      step before entry.1 (Draft.ofJson entry.2) = .ok after := by
    rintro ⟨name, w⟩ mem before
    have present := settled.ordered.mem_iff_get?.mp mem
    by_cases isDeletion : name = "deletionTimestamp"
    · subst isDeletion
      rw [settled.deletion, Option.map_eq_some_iff] at present
      obtain ⟨t, found, rfl⟩ := present
      have read := optional_deletionValue_cut (settled.inRange t found)
      exact ⟨_, by rw [step_deletion, read]; rfl⟩
    · obtain ⟨read, known, fits⟩ := settled.canonical name w present
      have known : metadataField? name = some read := by simpa [field?, isDeletion] using known
      exact ⟨_, by rw [step_field before _ known, Draft.optional_of_ne_null _ fits.proper,
        fits.fixed]; rfl⟩
  obtain ⟨m', found⟩ := DraftMembers.fold_ofValues_ok taken empty
  have again : read (Draft.ofJson (.object m.members)) = .ok m' :=
    read_eq_ok.mpr ⟨m.members, rfl, found⟩
  have members : m'.members = m.members := (ordered_read again).eq_of_get? settled.ordered (fun _ =>
    Draft.same_of_takes step_local settled.ordered (fun _ => rfl) found settled.canonical)
  have deletion : m'.deletion = m.deletion.map Time.Instant.wholeSecond := by
    have kept := read_deletion settled.ordered again
    rw [settled.deletion] at kept
    cases t : m.deletion with
    | none =>
      rw [t] at kept
      exact (Except.ok.inj kept).symm
    | some t =>
      rw [t, Option.map_some, Draft.field, optional_deletionValue_cut (settled.inRange _ t)] at kept
      exact (Except.ok.inj kept).symm
  rw [toJson, again]
  obtain ⟨_, _⟩ := m'
  rw [← members, ← deletion]

end Metadata

end WatchDispatch.Cluster
