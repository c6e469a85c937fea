import WatchDispatch.Cluster.Object
import WatchDispatch.Proofs.Cluster.MetadataReading

/-!
# Reading objects

An object is read from the members of a value: the metadata from the member with that name, version
and kind if both are texts, and all others as they are. A version that is no text is lost, and then
the kind stays among the other members.
-/

namespace WatchDispatch

theorem Assoc.erase_of_absent {α : Type} {entries : List (String × α)} {k : String}
    (absent : get? k entries = none) : erase k entries = entries := by
  refine List.filter_eq_self.mpr (fun entry mem => ?_)
  have notMem := mt (isSome_get?_iff k entries).mpr (by simp [absent])
  simp only [decide_eq_true_eq, ne_eq]
  rintro rfl
  exact notMem (List.mem_map_of_mem mem)

namespace Cluster

open Json (Draft Reader map_eq_ok DraftMembers)

namespace Object

variable {entries : List (String × Json)}

/-! ## Version and kind -/

def textAt (key : String) (entries : List (String × Json)) : Option String :=
  (Assoc.get? key entries).bind Json.text?

/-- Whether the version is there and is no text. -/
def versionless (entries : List (String × Json)) : Bool :=
  (Assoc.get? "apiVersion" entries).any (fun v => v.text?.isNone)

theorem takeTypes_absent (apiVersion kind : Option String)
    (noVersion : Assoc.get? "apiVersion" entries = none)
    (noKind : Assoc.get? "kind" entries = none) :
    takeTypes apiVersion kind entries = (typesOf apiVersion kind, entries) := by
  induction entries with
  | nil => rfl
  | cons entry rest ih =>
    obtain ⟨name, v⟩ := entry
    have notVersion : name ≠ "apiVersion" := by
      rintro rfl
      simp [Assoc.get?] at noVersion
    have notKind : name ≠ "kind" := by
      rintro rfl
      simp [Assoc.get?] at noKind
    have later := ih (by simpa [Assoc.get?, Ne.symm notVersion] using noVersion)
      (by simpa [Assoc.get?, Ne.symm notKind] using noKind)
    simp [takeTypes, notVersion, notKind, later]

/-- Without a version among the members the kind is taken in any case. -/
theorem takeTypes_kind (apiVersion : Option String) (ordered : Assoc.Ordered entries)
    (noVersion : Assoc.get? "apiVersion" entries = none) :
    takeTypes apiVersion none entries
      = (typesOf apiVersion (textAt "kind" entries), Assoc.erase "kind" entries) := by
  induction entries with
  | nil => rfl
  | cons entry rest ih =>
    obtain ⟨name, v⟩ := entry
    have notVersion : name ≠ "apiVersion" := by
      rintro rfl
      simp [Assoc.get?] at noVersion
    have restVersion : Assoc.get? "apiVersion" rest = none := by
      simpa [Assoc.get?, Ne.symm notVersion] using noVersion
    by_cases isKind : name = "kind"
    · subst isKind
      have noKind : Assoc.get? "kind" rest = none := ordered.get?_rest
      have kept : Assoc.erase "kind" (("kind", v) :: rest) = rest := by
        simpa [Assoc.erase] using Assoc.erase_of_absent noKind
      cases v with
      | text s =>
        simp [takeTypes, firstText?, takeTypes_absent _ _ restVersion noKind, textAt, Assoc.get?,
          Json.text?, kept]
      | _ => cases apiVersion <;> simp [takeTypes, firstText?, textAt, Assoc.get?, Json.text?,
          kept, typesOf]
    · have later := ih (List.pairwise_cons.mp ordered).2 restVersion
      simp [takeTypes, notVersion, isKind, later, textAt, Assoc.get?, Ne.symm isKind, Assoc.erase]

/-- A version that comes after other members is before the kind. -/
theorem takeTypes_version (ordered : Assoc.Ordered entries) {v : Json}
    (version : Assoc.get? "apiVersion" entries = some v) :
    takeTypes none none entries = match v.text? with
      | some s => (typesOf (some s) (textAt "kind" entries),
          Assoc.erase "kind" (Assoc.erase "apiVersion" entries))
      | none => (none, Assoc.erase "apiVersion" entries) := by
  induction entries with
  | nil => cases version
  | cons entry rest ih =>
    obtain ⟨name, w⟩ := entry
    obtain ⟨above, restOrdered⟩ := List.pairwise_cons.mp ordered
    by_cases isVersion : name = "apiVersion"
    · subst isVersion
      obtain rfl : w = v := by simpa [Assoc.get?] using version
      have noVersion : Assoc.get? "apiVersion" rest = none := ordered.get?_rest
      have kept : Assoc.erase "apiVersion" (("apiVersion", w) :: rest) = rest := by
        simpa [Assoc.erase] using Assoc.erase_of_absent noVersion
      cases w with
      | text s =>
        simp [takeTypes, firstText?, takeTypes_kind _ restOrdered noVersion, kept,
          Json.text?, textAt, Assoc.get?]
      | _ => simp [takeTypes, firstText?, kept, Json.text?]
    · have later : Assoc.get? "apiVersion" rest = some v := by
        simpa [Assoc.get?, Ne.symm isVersion] using version
      have notKind : name ≠ "kind" := by
        rintro rfl
        have lt : "kind" < "apiVersion" :=
          above _ ((Assoc.Ordered.mem_iff_get? restOrdered).mpr later)
        exact absurd lt (by decide)
      rw [takeTypes, if_neg isVersion, if_neg notKind, ih restOrdered later]
      cases v.text? <;> simp [Assoc.erase, isVersion, notKind, textAt, Assoc.get?, Ne.symm notKind]

/-- What is taken out of ordered members, and what stays. -/
theorem takeTypes_eq (ordered : Assoc.Ordered entries) :
    takeTypes none none entries = (typesOf (textAt "apiVersion" entries) (textAt "kind" entries),
      if versionless entries then Assoc.erase "apiVersion" entries
      else Assoc.erase "kind" (Assoc.erase "apiVersion" entries)) := by
  cases version : Assoc.get? "apiVersion" entries with
  | none =>
    simp [takeTypes_kind none ordered version, textAt, versionless, version, typesOf,
      Assoc.erase_of_absent version]
  | some v =>
    rw [takeTypes_version ordered version]
    cases text : v.text? <;> simp [textAt, versionless, version, text, typesOf]

theorem takeTypes_types (ordered : Assoc.Ordered entries) :
    (takeTypes none none entries).1 =
    typesOf (textAt "apiVersion" entries) (textAt "kind" entries) := by
  rw [takeTypes_eq ordered]

theorem ordered_takeTypes (ordered : Assoc.Ordered entries) :
    Assoc.Ordered (takeTypes none none entries).2 := by
  rw [takeTypes_eq ordered]
  dsimp only
  split
  · exact ordered.erase _
  · exact (ordered.erase _).erase _

theorem get?_takeTypes (ordered : Assoc.Ordered entries) (key : String) :
    Assoc.get? key (takeTypes none none entries).2
      = if key = "apiVersion" ∨ key = "kind" ∧ versionless entries = false then none
        else Assoc.get? key entries := by
  rw [takeTypes_eq ordered]
  by_cases isVersion : key = "apiVersion"
  · cases versionless entries <;> simp [Assoc.get?_erase, isVersion]
  · cases versionless entries <;> simp [Assoc.get?_erase, isVersion]

/-! ## Members -/

variable {members : List (String × Json)} {o : Object}

theorem step_metadata (done : List (String × Json)) (d : Draft) :
    step (none, done) "metadata" d = (Metadata.read d).map (fun m => (some m, done)) := rfl

theorem step_other (p : Progress) {name : String} {v : Json} (other : name ≠ "metadata")
    (wellFormed : v.WellFormed) : step p name (Draft.ofJson v) = .ok (p.1, (name, v) :: p.2) := by
  unfold step
  split
  · exact absurd rfl other
  · rw [Draft.value_ofJson wellFormed]
    rfl

theorem fold_others {entries : List (String × Json)} (wellFormed : ∀ m ∈ entries, m.2.WellFormed)
    (absent : Assoc.get? "metadata" entries = none) (p : Progress) :
    (DraftMembers.ofValues entries).fold step p = .ok (p.1, entries.reverse ++ p.2) := by
  induction entries generalizing p with
  | nil => rfl
  | cons entry rest ih =>
    obtain ⟨name, v⟩ := entry
    have other : name ≠ "metadata" := by
      rintro rfl
      simp [Assoc.get?] at absent
    have later := ih (fun m mem => wellFormed m (List.mem_cons_of_mem _ mem))
      (by simpa [Assoc.get?, Ne.symm other] using absent) (p.1, (name, v) :: p.2)
    refine DraftMembers.fold_ofValues_cons.mpr
      ⟨_, step_other p other (wellFormed (name, v) List.mem_cons_self), ?_⟩
    simp [later]

/-- The metadata among members, if they are there. -/
def metadataAt (members : List (String × Json)) : Except Json.ReadError (Option Metadata) :=
  match Assoc.get? "metadata" members with
  | none => .ok none
  | some v => (Metadata.read (Draft.ofJson v)).map some

theorem fold_step (ordered : Assoc.Ordered members) (wellFormed : ∀ m ∈ members, m.2.WellFormed)
    {done : List (String × Json)} {p : Progress} :
    (DraftMembers.ofValues members).fold step (none, done) = .ok p ↔
      ∃ m, metadataAt members = .ok m ∧
      p = (m, (Assoc.erase "metadata" members).reverse ++ done) := by
  induction members generalizing done with
  | nil => simp [metadataAt, DraftMembers.fold_ofValues_nil, Assoc.erase, eq_comm]
  | cons entry rest ih =>
    obtain ⟨name, v⟩ := entry
    have restWellFormed : ∀ m ∈ rest, m.2.WellFormed :=
      fun m mem => wellFormed m (List.mem_cons_of_mem _ mem)
    rw [DraftMembers.fold_ofValues_cons]
    by_cases isMetadata : name = "metadata"
    · subst isMetadata
      have absent : Assoc.get? "metadata" rest = none := ordered.get?_rest
      have kept : Assoc.erase "metadata" (("metadata", v) :: rest) = rest := by
        simpa [Assoc.erase] using Assoc.erase_of_absent absent
      have found : metadataAt (("metadata", v) :: rest) =
          (Metadata.read (Draft.ofJson v)).map some := by
        simp [metadataAt, Assoc.get?]
      simp only [step_metadata, map_eq_ok, found, kept]
      constructor
      · rintro ⟨_, ⟨m, read, rfl⟩, later⟩
        rw [fold_others restWellFormed absent] at later
        exact ⟨some m, ⟨m, read, rfl⟩, (Except.ok.inj later).symm⟩
      · rintro ⟨_, ⟨m, read, rfl⟩, rfl⟩
        exact ⟨_, ⟨m, read, rfl⟩, fold_others restWellFormed absent _⟩
    · have found : metadataAt ((name, v) :: rest) = metadataAt rest := by
        simp [metadataAt, Assoc.get?, Ne.symm isMetadata]
      have kept : Assoc.erase "metadata" ((name, v) :: rest) =
          (name, v) :: Assoc.erase "metadata" rest := by
        simp [Assoc.erase, isMetadata]
      simp only [step_other _ isMetadata (wellFormed (name, v) List.mem_cons_self), Except.ok.injEq,
        exists_eq_left', ih (List.pairwise_cons.mp ordered).2 restWellFormed, found, kept,
        List.reverse_cons, List.append_assoc, List.cons_append, List.nil_append]

/-- An object is read exactly if its metadata are. -/
theorem ofJson?_eq_some (wellFormed : (Json.object members).WellFormed) :
    ofJson? (.object members) = some o ↔
      ∃ m, metadataAt members = .ok m ∧
        o = ⟨(takeTypes none none (Assoc.erase "metadata" members)).1, m.getD Metadata.empty,
          (takeTypes none none (Assoc.erase "metadata" members)).2⟩ := by
  have read : ofJson? (.object members) = some o ↔
      ∃ p, (DraftMembers.ofValues members).fold step (none, []) = .ok p ∧ ofProgress p = o := by
    rw [ofJson?, ← map_eq_ok]
    change (((DraftMembers.ofValues members).fold step (none, [])).map ofProgress).toOption =
      some o ↔ _
    cases (DraftMembers.ofValues members).fold step (none, [])
      <;> simp [Except.map, Except.toOption]
  simp only [read, fold_step wellFormed.ordered wellFormed.of_object]
  constructor
  · rintro ⟨_, ⟨m, found, rfl⟩, rfl⟩
    exact ⟨m, found, by simp [ofProgress]⟩
  · rintro ⟨m, found, rfl⟩
    exact ⟨_, ⟨m, found, rfl⟩, by simp [ofProgress]⟩

/-- The metadata of an object come from its member with that name; without it they are empty. -/
theorem metadata_of_ofJson? (wellFormed : (Json.object members).WellFormed)
    (read : ofJson? (.object members) = some o) :
    (Assoc.get? "metadata" members = none ∧ o.metadata = Metadata.empty) ∨
      ∃ fields, Assoc.get? "metadata" members = some (.object fields) ∧
        Metadata.read (Draft.ofJson (.object fields)) = .ok o.metadata := by
  obtain ⟨m, found, rfl⟩ := (ofJson?_eq_some wellFormed).mp read
  unfold metadataAt at found
  split at found
  · next absent =>
    obtain rfl := Except.ok.inj found
    exact .inl ⟨absent, rfl⟩
  · next v present =>
    obtain ⟨m, taken, rfl⟩ := map_eq_ok.mp found
    obtain ⟨fields, rfl, -⟩ := Metadata.read_eq_ok.mp taken
    exact .inr ⟨fields, present, taken⟩

end Object

end Cluster

end WatchDispatch
