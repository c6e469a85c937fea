import WatchDispatch.Cluster.Metadata
import WatchDispatch.Proofs.Json.OpenRecords
import WatchDispatch.Proofs.Time.Texts

/-!
# Fields of metadata

Every field of metadata keeps its value, apart from instants, which are cut to whole seconds, and
owner references, which get the texts they lack and lose what is no field of theirs. What a field
holds after that is read as it is.
-/

namespace WatchDispatch.Cluster

open Json (Draft Reader map_eq_ok)
open Json.Draft (Canonical Settles)

variable {v w : Json}

/-! ## Texts, truth values, numbers and instants -/

theorem textValue_eq_ok : textValue (Draft.ofJson v) = .ok w ↔ ∃ s, v = .text s ∧ w = v := by
  simp only [textValue, Draft.asJson_eq_ok, Draft.string_eq_ok]
  constructor
  · rintro ⟨s, rfl, rfl⟩
    exact ⟨s, rfl, rfl⟩
  · rintro ⟨s, rfl, rfl⟩
    exact ⟨s, rfl, rfl⟩

theorem textValue_settles : Settles textValue := by
  intro v w taken
  obtain ⟨s, rfl, rfl⟩ := textValue_eq_ok.mp taken
  exact ⟨nofun, .text s, taken⟩

theorem canonical_text (s : String) : Canonical textValue (.text s) :=
  textValue_settles (textValue_eq_ok.mpr ⟨s, rfl, rfl⟩)

theorem flagValue_eq_ok : flagValue (Draft.ofJson v) = .ok w ↔ ∃ b, v = .bool b ∧ w = v := by
  simp only [flagValue, Draft.asJson_eq_ok, Draft.flag_eq_ok]
  constructor
  · rintro ⟨b, rfl, rfl⟩
    exact ⟨b, rfl, rfl⟩
  · rintro ⟨b, rfl, rfl⟩
    exact ⟨b, rfl, rfl⟩

theorem flagValue_settles : Settles flagValue := by
  intro v w taken
  obtain ⟨b, rfl, rfl⟩ := flagValue_eq_ok.mp taken
  exact ⟨nofun, .bool b, taken⟩

theorem eq_of_numberValue (taken : numberValue (Draft.ofJson v) = .ok w) :
    ∃ n, v = .integer n ∧ w = v := by
  obtain ⟨n, read, rfl⟩ := Draft.asJson_eq_ok.mp taken
  obtain ⟨rfl, -⟩ := Draft.integerWithin_eq_ok.mp read
  exact ⟨n, rfl, rfl⟩

theorem numberValue_settles : Settles numberValue := by
  intro v w taken
  obtain ⟨n, rfl, rfl⟩ := eq_of_numberValue taken
  exact ⟨nofun, .integer n, taken⟩

theorem instantValue_eq_ok : instantValue (Draft.ofJson v) = .ok w ↔
    ∃ s t, v = .text s ∧ Time.Instant.parse? s = some t ∧ w = .text t.printSecond := by
  simp only [instantValue, Draft.asJson_eq_ok, Draft.parsed_eq_ok]
  constructor
  · rintro ⟨t, ⟨s, rfl, read⟩, rfl⟩
    exact ⟨s, t, rfl, read, rfl⟩
  · rintro ⟨s, t, rfl, read, rfl⟩
    exact ⟨t, ⟨s, rfl, read⟩, rfl⟩

/-- An instant that is cut to whole seconds stays as it is when it is cut again. -/
theorem instantValue_settles : Settles instantValue := by
  intro v w taken
  obtain ⟨s, t, rfl, read, rfl⟩ := instantValue_eq_ok.mp taken
  have again := Time.Instant.parse?_printSecond (Time.Instant.yearInRange_of_parse? read)
  refine ⟨nofun, .text _, instantValue_eq_ok.mpr ⟨_, _, rfl, again, ?_⟩⟩
  rw [Time.Instant.printSecond_wholeSecond]

/-! ## Lists and values by name -/

theorem forall₂_textValue {vs ws : List Json}
    (each : List.Forall₂ (fun v w => textValue (Draft.ofJson v) = .ok w) vs ws) :
    ws = vs ∧ ∀ v ∈ vs, ∃ s, v = .text s := by
  induction each with
  | nil => exact ⟨rfl, fun _ mem => (by cases mem)⟩
  | cons taken _ ih =>
    obtain ⟨s, rfl, rfl⟩ := textValue_eq_ok.mp taken
    refine ⟨by rw [ih.1], fun v mem => ?_⟩
    rcases List.mem_cons.mp mem with rfl | later
    · exact ⟨s, rfl⟩
    · exact ih.2 v later

theorem textsValue_eq (taken : textsValue (Draft.ofJson v) = .ok w) :
    ∃ vs, v = .array vs ∧ w = v ∧ ∀ v ∈ vs, ∃ s, v = .text s := by
  obtain ⟨ws, read, rfl⟩ := Draft.asJson_eq_ok.mp taken
  obtain ⟨vs, rfl, each⟩ := Draft.list_eq_ok.mp read
  obtain ⟨rfl, texts⟩ := forall₂_textValue each
  exact ⟨ws, rfl, rfl, texts⟩

theorem textsValue_settles : Settles textsValue := by
  intro v w taken
  obtain ⟨vs, rfl, rfl, texts⟩ := textsValue_eq taken
  refine ⟨nofun, .array (fun v mem => ?_), taken⟩
  obtain ⟨s, rfl⟩ := texts v mem
  exact .text s

/-- Texts by name are kept as they are. -/
theorem namedTextsValue_eq (wellFormed : v.WellFormed)
    (taken : namedTextsValue (Draft.ofJson v) = .ok w) : w = v := by
  obtain ⟨entries, read, rfl⟩ := Draft.asJson_eq_ok.mp taken
  obtain ⟨members, rfl, -⟩ := Draft.record_eq_ok.mp read
  congr 1
  refine (Draft.named_ordered read).eq_of_get? wellFormed.ordered (fun key => ?_)
  rcases Draft.named_get? wellFormed.ordered read key with ⟨absent, absent'⟩ |
    ⟨v, a, found, taken, found'⟩
  · rw [absent, absent']
  · obtain ⟨s, rfl, rfl⟩ := textValue_eq_ok.mp taken
    rw [found, found']

theorem namedTextsValue_settles : Settles namedTextsValue := by
  intro v w taken
  obtain ⟨entries, read, rfl⟩ := Draft.asJson_eq_ok.mp taken
  obtain ⟨members, rfl, -⟩ := Draft.record_eq_ok.mp read
  have canonical : ∀ entry ∈ entries, Canonical textValue entry.2 := by
    intro entry mem
    obtain ⟨v, found⟩ := Draft.named_values read entry mem
    exact textValue_settles found
  have ordered := Draft.named_ordered read
  refine ⟨nofun, .object ordered (fun entry mem => (canonical entry mem).wellFormed), ?_⟩
  exact Draft.asJson_eq_ok.mpr
    ⟨entries, Draft.named_fixed ordered (fun entry mem => (canonical entry mem).fixed), rfl⟩

/-! ## Owner references -/

/-- Adds the texts of some names that are absent. -/
def withTexts (names : List String) (fields : List (String × Json)) : List (String × Json) :=
  names.foldl (fun fields name =>
    if (Assoc.get? name fields).isSome then fields else Assoc.insert name (.text "") fields) fields

theorem withOwnerTexts_eq : withOwnerTexts = withTexts ownerTexts := rfl

theorem ordered_withTexts (names : List String) {fields : List (String × Json)}
    (ordered : Assoc.Ordered fields) : Assoc.Ordered (withTexts names fields) := by
  induction names generalizing fields with
  | nil => exact ordered
  | cons name rest ih =>
    rw [withTexts, List.foldl_cons]
    split
    · exact ih ordered
    · exact ih (ordered.insert name (.text ""))

theorem get?_withTexts (names : List String) (fields : List (String × Json)) (key : String) :
    Assoc.get? key (withTexts names fields)
      = if key ∈ names then some ((Assoc.get? key fields).getD (.text ""))
      else Assoc.get? key fields := by
  induction names generalizing fields with
  | nil => rfl
  | cons name rest ih =>
    rw [withTexts, List.foldl_cons, ← withTexts, ih]
    by_cases same : key = name
    · subst same
      cases present : Assoc.get? key fields <;> simp [present, Assoc.get?_insert]
    · have kept : Assoc.get? key (if (Assoc.get? name fields).isSome then fields
          else Assoc.insert name (.text "") fields) = Assoc.get? key fields := by
        split
        · rfl
        · simp [Assoc.get?_insert, same]
      simp [kept, same]

theorem ownerField?_settles {name : String} {read : Reader Json}
    (known : ownerField? name = some read) : Settles read := by
  unfold ownerField? at known
  split at known <;> cases known
  all_goals first | exact textValue_settles | exact flagValue_settles

theorem ownerField?_ownerTexts {name : String} (mem : name ∈ ownerTexts) :
    ownerField? name = some textValue := by
  simp only [ownerTexts, List.mem_cons, List.not_mem_nil, or_false] at mem
  rcases mem with rfl | rfl | rfl | rfl <;> rfl

theorem ownerValue_eq_ok : ownerValue (Draft.ofJson v) = .ok w ↔
    ∃ members found, v = .object members ∧
      Draft.openRecord ownerField? (Draft.ofJson (.object members)) = .ok found ∧
      w = .object (withTexts ownerTexts found) := by
  simp only [ownerValue, Draft.asJson_eq_ok, withOwnerTexts_eq]
  constructor
  · rintro ⟨found, read, rfl⟩
    obtain ⟨members, rfl, -⟩ := Draft.record_eq_ok.mp read
    exact ⟨members, found, rfl, read, rfl⟩
  · rintro ⟨members, found, rfl, read, rfl⟩
    exact ⟨found, read, rfl⟩

theorem ownerValue_settles : Settles ownerValue := by
  intro v w taken
  obtain ⟨members, found, rfl, read, rfl⟩ := ownerValue_eq_ok.mp taken
  have ordered := ordered_withTexts ownerTexts (Draft.openRecord_ordered read)
  have canonical : ∀ name w, Assoc.get? name (withTexts ownerTexts found) = some w →
      ∃ read, ownerField? name = some read ∧ Canonical read w := by
    have kept : ∀ name w, Assoc.get? name found = some w →
        ∃ read, ownerField? name = some read ∧ Canonical read w := by
      intro name w present
      have mem := (Draft.openRecord_ordered read).mem_iff_get?.mpr present
      obtain ⟨field, v, known, taken⟩ := Draft.openRecord_values read (name, w) mem
      exact ⟨field, known, ownerField?_settles known taken⟩
    intro name w present
    rw [get?_withTexts] at present
    split at present
    · next isText =>
      cases earlier : Assoc.get? name found with
      | none =>
        rw [earlier, Option.getD_none] at present
        obtain rfl := Option.some.inj present
        exact ⟨textValue, ownerField?_ownerTexts isText, canonical_text ""⟩
      | some v =>
        rw [earlier, Option.getD_some] at present
        exact kept name w (earlier.trans present)
    · exact kept name w present
  have again : withTexts ownerTexts (withTexts ownerTexts found) = withTexts ownerTexts found := by
    refine (ordered_withTexts ownerTexts ordered).eq_of_get? ordered (fun name => ?_)
    rw [get?_withTexts, get?_withTexts]
    split <;> rfl
  refine ⟨nofun, .object ordered (fun entry mem => ?_), ?_⟩
  · obtain ⟨_, -, fits⟩ := canonical entry.1 entry.2 (ordered.mem_iff_get?.mp mem)
    exact fits.wellFormed
  · exact ownerValue_eq_ok.mpr ⟨_, _, rfl, Draft.openRecord_fixed ordered canonical, by rw [again]⟩

def ownersValue : Reader Json := Draft.asJson .array (Draft.list ownerValue)

theorem ownersValue_eq_ok : ownersValue (Draft.ofJson v) = .ok w ↔
    ∃ vs ws, v = .array vs ∧ w = .array ws ∧
      List.Forall₂ (fun v w => ownerValue (Draft.ofJson v) = .ok w) vs ws := by
  simp only [ownersValue, Draft.asJson_eq_ok, Draft.list_eq_ok]
  constructor
  · rintro ⟨ws, ⟨vs, rfl, each⟩, rfl⟩
    exact ⟨vs, ws, rfl, rfl, each⟩
  · rintro ⟨vs, ws, rfl, rfl, each⟩
    exact ⟨ws, ⟨vs, rfl, each⟩, rfl⟩

theorem ownersValue_settles : Settles ownersValue := by
  intro v w taken
  obtain ⟨vs, ws, rfl, rfl, each⟩ := ownersValue_eq_ok.mp taken
  have canonical : ∀ w ∈ ws, Canonical ownerValue w := by
    clear taken
    induction each with
    | nil => exact fun _ mem => (by cases mem)
    | cons first _ ih => exact List.forall_mem_cons.mpr ⟨ownerValue_settles first, ih⟩
  refine ⟨fun same => (by cases same), .array (fun w mem => (canonical w mem).wellFormed), ?_⟩
  exact ownersValue_eq_ok.mpr ⟨ws, ws, rfl, rfl,
    List.forall₂_same.mpr (fun w mem => (canonical w mem).fixed)⟩

/-- Whatever a field of metadata is read as is read as it is. Nothing is said of the record of
managers, which is not read again. -/
theorem metadataField?_settles {name : String} {read : Reader Json}
    (known : metadataField? name = some read) (notManagers : name ≠ "managedFields") :
    Settles read := by
  unfold metadataField? at known
  split at known <;> cases known
  all_goals first
    | exact absurd rfl notManagers
    | exact namedTextsValue_settles
    | exact instantValue_settles
    | exact numberValue_settles
    | exact textsValue_settles
    | exact textValue_settles
    | exact ownersValue_settles

end WatchDispatch.Cluster
