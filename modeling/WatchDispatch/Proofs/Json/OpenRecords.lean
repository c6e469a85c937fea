import WatchDispatch.Proofs.Json.FinishedDrafts

/-!
# Open records of finished values

An open record takes every field from the one member with its name. A value that a reading gives
back as it is counts as canonical for that reading. If the fields of a record have canonical values,
the record is read as it is.
-/

namespace WatchDispatch.Json

/-- The value unless it is `null`, which is as good as none. -/
def proper? : Json → Option Json
  | .null => none
  | v => some v

theorem proper?_eq_some {v w : Json} : v.proper? = some w ↔ v = w ∧ v ≠ .null := by
  cases v <;> simp [proper?]

theorem proper?_eq_none {v : Json} : v.proper? = none ↔ v = .null := by
  cases v <;> simp [proper?]

namespace Draft

variable {α : Type}

/-- What a field is read as: nothing if its member is absent or `null`. -/
def field (read : Reader α) : Option Json → Except ReadError (Option α)
  | none => .ok none
  | some v => optional read (ofJson v)

theorem field_eq_ok {read : Reader α} {member : Option Json} {found : Option α} :
    field read member = .ok found ↔
      member.bind proper? = none ∧ found = none ∨
      ∃ v a, member.bind proper? = some v ∧ read (ofJson v) = .ok a ∧ found = some a := by
  cases member with
  | none => simp [field, eq_comm]
  | some v =>
    cases proper : v.proper? with
    | none =>
      obtain rfl := proper?_eq_none.mp proper
      simp [field, optional_null, proper, eq_comm]
    | some w =>
      obtain ⟨rfl, notNull⟩ := proper?_eq_some.mp proper
      simp only [field, optional_of_ne_null read notNull, map_eq_ok, Option.bind_some, proper]
      constructor
      · rintro ⟨a, taken, rfl⟩
        exact .inr ⟨v, a, rfl, taken, rfl⟩
      · rintro (⟨⟨⟩, -⟩ | ⟨_, a, ⟨⟩, taken, rfl⟩)
        exact ⟨a, taken, rfl⟩

/-- A reading gives the value back as it is. -/
structure Canonical (read : Reader Json) (w : Json) : Prop where
  proper : w ≠ .null
  wellFormed : w.WellFormed
  fixed : read (ofJson w) = .ok w

/-- Whatever a reading makes of a value is canonical for it. -/
def Settles (read : Reader Json) : Prop :=
  ∀ {v w : Json}, read (ofJson v) = .ok w → Canonical read w

theorem Canonical.field {read : Reader Json} {w : Json} (canonical : Canonical read w) :
    field read (some w) = .ok (some w) :=
  field_eq_ok.mpr (.inr ⟨w, w, proper?_eq_some.mpr ⟨rfl, canonical.proper⟩, canonical.fixed, rfl⟩)

/-! ## Values by name -/

section Named

variable {read : Reader α} {members : List (String × Json)} {entries : List (String × α)}

def namedStep (read : Reader α) (entries : List (String × α)) (name : String) :
    Reader (List (String × α)) := fun d => (read d).map (fun a => Assoc.insert name a entries)

theorem named_eq (read : Reader α) : named read = record (namedStep read) [] := rfl

theorem namedStep_local (read : Reader α) :
    DraftMembers.Local (fun (entries : List (String × α)) key => Assoc.get? key entries)
      (fun _ v _ after => ∃ a, read (ofJson v) = .ok a ∧ after = some a) (namedStep read) where
  own taken := by
    obtain ⟨a, found, rfl⟩ := map_eq_ok.mp taken
    exact ⟨a, found, by simp [Assoc.get?_insert]⟩
  others taken other := by
    obtain ⟨a, -, rfl⟩ := map_eq_ok.mp taken
    simp [Assoc.get?_insert, other]

theorem named_ordered (found : named read (ofJson (.object members)) = .ok entries) :
    Assoc.Ordered entries := by
  rw [named_eq] at found
  obtain ⟨_, ⟨⟩, found⟩ := record_eq_ok.mp found
  refine DraftMembers.fold_ofValues_preserves (P := Assoc.Ordered) ?_ List.Pairwise.nil found
  intro before m after _ ordered taken
  obtain ⟨a, -, rfl⟩ := map_eq_ok.mp taken
  exact ordered.insert m.1 a

theorem named_get? (ordered : Assoc.Ordered members)
    (found : named read (ofJson (.object members)) = .ok entries) (key : String) :
    (Assoc.get? key members = none ∧ Assoc.get? key entries = none) ∨
      ∃ v a, Assoc.get? key members = some v ∧ read (ofJson v) = .ok a ∧
      Assoc.get? key entries = some a := by
  rw [named_eq] at found
  obtain ⟨_, ⟨⟩, found⟩ := record_eq_ok.mp found
  cases member : Assoc.get? key members with
  | none => exact .inl ⟨rfl, (namedStep_local read).absent found member⟩
  | some v =>
    obtain ⟨a, taken, after⟩ := (namedStep_local read).present ordered found member
    exact .inr ⟨v, a, rfl, taken, after⟩

/-- Every value was read. -/
theorem named_values (found : named read (ofJson (.object members)) = .ok entries) :
    ∀ entry ∈ entries, ∃ v, read (ofJson v) = .ok entry.2 := by
  rw [named_eq] at found
  obtain ⟨_, ⟨⟩, found⟩ := record_eq_ok.mp found
  refine DraftMembers.fold_ofValues_preserves
    (P := fun entries => ∀ entry ∈ entries, ∃ v, read (ofJson v) = .ok entry.2) ?_ nofun found
  intro before m after _ each taken entry mem
  obtain ⟨a, found, rfl⟩ := map_eq_ok.mp taken
  rcases Assoc.mem_insert mem with rfl | earlier
  · exact ⟨m.2, found⟩
  · exact each entry earlier

end Named

/-- Values by name each of which is read as it is are read as they are. -/
theorem named_fixed {read : Reader Json} {entries : List (String × Json)}
    (ordered : Assoc.Ordered entries)
    (fixed : ∀ entry ∈ entries, read (ofJson entry.2) = .ok entry.2) :
    named read (ofJson (.object entries)) = .ok entries := by
  have taken : ∀ m ∈ entries, ∀ s, ∃ s', namedStep read s m.1 (ofJson m.2) = .ok s' :=
    fun m mem s => ⟨_, map_eq_ok.mpr ⟨m.2, fixed m mem, rfl⟩⟩
  obtain ⟨entries', found⟩ := DraftMembers.fold_ofValues_ok taken []
  have found : named read (ofJson (.object entries)) = .ok entries' :=
    record_eq_ok.mpr ⟨entries, rfl, found⟩
  suffices same : entries = entries' by rw [found, same]
  refine ordered.eq_of_get? (named_ordered found) (fun key => ?_)
  rcases named_get? ordered found key with ⟨absent, absent'⟩ | ⟨v, a, present, taken, present'⟩
  · rw [absent, absent']
  · have same := fixed (key, v) (ordered.mem_iff_get?.mpr present)
    rw [taken] at same
    rw [present, present', Except.ok.inj same]

/-! ## Open records -/

section OpenRecord

variable {field? : String → Option (Reader Json)} {members entries : List (String × Json)}

/-- What a member of an open record shows after it was taken. -/
def Takes (field? : String → Option (Reader Json)) (name : String) (v : Json)
    (before after : Option Json) : Prop :=
  match field? name with
  | none => after = before
  | some read => optional read (ofJson v) = .ok after

section Takes

variable {σ : Type} {step : σ → String → Reader σ} {view : σ → String → Option Json} {s s' : σ}
    {name : String}
  (loc : DraftMembers.Local view (Takes field?) step) (ordered : Assoc.Ordered members)
  (fresh : ∀ name, view s name = none)
  (found : (DraftMembers.ofValues members).fold step s = .ok s')

include loc ordered fresh found

/-- A field shows what is read from the member with its name. -/
theorem field_of_takes {read : Reader Json} (known : field? name = some read) :
    field read (Assoc.get? name members) = .ok (view s' name) := by
  cases member : Assoc.get? name members with
  | none => rw [loc.absent found member, fresh]; rfl
  | some v =>
    have taken := loc.present ordered found member
    rw [Takes, known] at taken
    exact taken

/-- A name that no field has shows nothing. -/
theorem none_of_takes (unknown : field? name = none) : view s' name = none := by
  cases member : Assoc.get? name members with
  | none => rw [loc.absent found member, fresh]
  | some v =>
    have taken := loc.present ordered found member
    rw [Takes, unknown] at taken
    rw [taken, fresh]

/-- Members that are canonical for their fields show as they are. -/
theorem same_of_takes (canonical : ∀ name w, Assoc.get? name members = some w →
    ∃ read, field? name = some read ∧ Canonical read w) : view s' name =
      Assoc.get? name members := by
  cases member : Assoc.get? name members with
  | none => rw [loc.absent found member, fresh]
  | some w =>
    obtain ⟨read, known, fits⟩ := canonical name w member
    have taken := field_of_takes loc ordered fresh found known
    rw [member, fits.field] at taken
    exact (Except.ok.inj taken).symm

end Takes

def openStep (field? : String → Option (Reader Json)) (found : List (String × Json))
    (name : String) : Reader (List (String × Json)) := fun d =>
  match field? name with
  | none => ignored found d
  | some read =>
    match optional read d with
    | .error e => .error e
    | .ok none => .ok (Assoc.erase name found)
    | .ok (some v) => .ok (Assoc.insert name v found)

theorem openRecord_eq (field? : String → Option (Reader Json)) :
    openRecord field? = record (openStep field?) [] := rfl

theorem openStep_eq_ok {found found' : List (String × Json)} {name : String} {v : Json} :
    openStep field? found name (ofJson v) = .ok found' ↔
      (field? name = none ∧ found' = found) ∨
      ∃ read, field? name = some read ∧
        ((optional read (ofJson v) = .ok none ∧ found' = Assoc.erase name found) ∨
          ∃ w, optional read (ofJson v) = .ok (some w) ∧ found' = Assoc.insert name w found) := by
  unfold openStep
  cases field? name with
  | none => simp [ignored, pass_ofJson, Except.map, eq_comm]
  | some read =>
    cases taken : optional read (ofJson v) with
    | error e => simp [taken]
    | ok x => cases x <;> simp [taken, @eq_comm _ found']

theorem openStep_local (field? : String → Option (Reader Json)) :
    DraftMembers.Local (fun (found : List (String × Json)) key => Assoc.get? key found)
      (Takes field?) (openStep field?) where
  own taken := by
    unfold Takes
    rcases openStep_eq_ok.mp taken with ⟨unknown, rfl⟩ |
      ⟨read, known, ⟨nothing, rfl⟩ | ⟨w, found, rfl⟩⟩
    · simp [unknown]
    · simp [known, nothing, Assoc.get?_erase]
    · simp [known, found, Assoc.get?_insert]
  others taken other := by
    rcases openStep_eq_ok.mp taken with ⟨-, rfl⟩ | ⟨_, -, ⟨-, rfl⟩ | ⟨w, -, rfl⟩⟩
    · rfl
    · simp [Assoc.get?_erase, other]
    · simp [Assoc.get?_insert, other]

theorem openRecord_ordered (found : openRecord field? (ofJson (.object members)) = .ok entries) :
    Assoc.Ordered entries := by
  rw [openRecord_eq] at found
  obtain ⟨_, ⟨⟩, found⟩ := record_eq_ok.mp found
  refine DraftMembers.fold_ofValues_preserves (P := Assoc.Ordered) ?_ List.Pairwise.nil found
  intro before m after _ ordered taken
  rcases openStep_eq_ok.mp taken with ⟨-, rfl⟩ | ⟨_, -, ⟨-, rfl⟩ | ⟨w, -, rfl⟩⟩
  · exact ordered
  · exact ordered.erase m.1
  · exact ordered.insert m.1 w

/-- Every field of an open record is read from the member with its name. -/
theorem openRecord_get? (ordered : Assoc.Ordered members)
    (found : openRecord field? (ofJson (.object members)) = .ok entries) {name : String}
    {read : Reader Json} (known : field? name = some read) :
    field read (Assoc.get? name members) = .ok (Assoc.get? name entries) := by
  rw [openRecord_eq] at found
  obtain ⟨_, ⟨⟩, found⟩ := record_eq_ok.mp found
  exact field_of_takes (openStep_local field?) ordered (fun _ => rfl) found known

/-- A name that no field has is not kept. -/
theorem openRecord_get?_unknown (ordered : Assoc.Ordered members)
    (found : openRecord field? (ofJson (.object members)) = .ok entries) {name : String}
    (unknown : field? name = none) : Assoc.get? name entries = none := by
  rw [openRecord_eq] at found
  obtain ⟨_, ⟨⟩, found⟩ := record_eq_ok.mp found
  exact none_of_takes (openStep_local field?) ordered (fun _ => rfl) found unknown

/-- Every value that is kept was read for its field. -/
theorem openRecord_values (found : openRecord field? (ofJson (.object members)) = .ok entries) :
    ∀ entry ∈ entries, ∃ read v, field? entry.1 = some read ∧ read (ofJson v) = .ok entry.2 := by
  rw [openRecord_eq] at found
  obtain ⟨_, ⟨⟩, found⟩ := record_eq_ok.mp found
  refine DraftMembers.fold_ofValues_preserves
    (P := fun entries => ∀ entry ∈ entries, ∃ read v, field? entry.1 = some read ∧
      read (ofJson v) = .ok entry.2) ?_ nofun found
  intro before m after _ each taken entry mem
  rcases openStep_eq_ok.mp taken with ⟨-, rfl⟩ | ⟨read, known, ⟨-, rfl⟩ | ⟨w, found, rfl⟩⟩
  · exact each entry mem
  · exact each entry (List.mem_of_mem_filter mem)
  · rcases Assoc.mem_insert mem with rfl | earlier
    · rcases field_eq_ok.mp (show field read (some m.2) = .ok (some w) from found) with
        ⟨-, ⟨⟩⟩ | ⟨v, _, -, taken, ⟨⟩⟩
      exact ⟨read, v, known, taken⟩
    · exact each entry earlier

/-- An open record whose members are canonical for their fields is read as it is. -/
theorem openRecord_fixed (ordered : Assoc.Ordered entries)
    (canonical : ∀ name w, Assoc.get? name entries = some w →
      ∃ read, field? name = some read ∧ Canonical read w) :
    openRecord field? (ofJson (.object entries)) = .ok entries := by
  have taken : ∀ m ∈ entries, ∀ s, ∃ s', openStep field? s m.1 (ofJson m.2) = .ok s' := by
    rintro ⟨name, w⟩ mem s
    obtain ⟨read, known, fits⟩ := canonical name w (ordered.mem_iff_get?.mp mem)
    exact ⟨Assoc.insert name w s,
      openStep_eq_ok.mpr (.inr ⟨read, known, .inr ⟨w, fits.field, rfl⟩⟩)⟩
  obtain ⟨entries', found⟩ := DraftMembers.fold_ofValues_ok taken []
  have read : openRecord field? (ofJson (.object entries)) = .ok entries' :=
    record_eq_ok.mpr ⟨entries, rfl, found⟩
  have same : entries' = entries := (openRecord_ordered read).eq_of_get? ordered (fun _ =>
    same_of_takes (openStep_local field?) ordered (fun _ => rfl) found canonical)
  rw [read, same]

end OpenRecord

end Draft

end WatchDispatch.Json
