import WatchDispatch.Proofs.Cluster.Payloads

/-!
# What a payload keeps

Two relations say how a field of metadata and an owner reference are kept. The main statement
compares a payload with the object it was taken of, key by key.
-/

namespace WatchDispatch.Cluster

open Json (Draft Reader map_eq_ok)

/-! ## Owner references -/

def ownerFlags : List String := ["blockOwnerDeletion", "controller"]

/-- An owner reference has its texts, empty ones where they were absent, and the truth values that
it had. -/
structure OwnerKept (v w : Json) : Prop where
  isObject : w.WellFormed ∧ w.object?.isSome
  texts : ∀ name ∈ ownerTexts, w.member? name =
    some (((v.member? name).bind Json.proper?).getD (.text ""))
  flags : ∀ name ∈ ownerFlags, w.member? name = (v.member? name).bind Json.proper?
  nothingElse : ∀ name, name ∉ ownerTexts → name ∉ ownerFlags → w.member? name = none

theorem ownerField?_ownerFlags {name : String} (mem : name ∈ ownerFlags) :
    ownerField? name = some flagValue := by
  simp only [ownerFlags, List.mem_cons, List.not_mem_nil, or_false] at mem
  rcases mem with rfl | rfl <;> rfl

theorem ownerField?_unknown {name : String} (notText : name ∉ ownerTexts)
    (notFlag : name ∉ ownerFlags) : ownerField? name = none := by
  unfold ownerField?
  split <;> first | rfl | simp [ownerTexts, ownerFlags] at notText notFlag

/-- A field whose values are kept has what its member has, unless that is `null`. -/
theorem eq_of_field {read : Reader Json} (same : ∀ {v w}, read (Draft.ofJson v) = .ok w → w = v)
    {member found : Option Json} (taken : Draft.field read member = .ok found) :
    found = member.bind Json.proper? := by
  rcases Draft.field_eq_ok.mp taken with ⟨absent, rfl⟩ | ⟨v, a, present, value, rfl⟩
  · exact absent.symm
  · rw [present, same value]

theorem ownerKept_of_ownerValue {v w : Json} (wellFormed : v.WellFormed)
    (taken : ownerValue (Draft.ofJson v) = .ok w) : OwnerKept v w := by
  obtain ⟨members, found, rfl, read, rfl⟩ := ownerValue_eq_ok.mp taken
  have field {name : String} {field : Reader Json} (known : ownerField? name = some field)
      (same : ∀ {v w}, field (Draft.ofJson v) = .ok w → w = v) :
      Assoc.get? name found = ((Json.object members).member? name).bind Json.proper? :=
    eq_of_field same (Draft.openRecord_get? wellFormed.ordered read known)
  have sameText {v w : Json} (taken : textValue (Draft.ofJson v) = .ok w) : w = v :=
    (textValue_eq_ok.mp taken).choose_spec.2
  have sameFlag {v w : Json} (taken : flagValue (Draft.ofJson v) = .ok w) : w = v :=
    (flagValue_eq_ok.mp taken).choose_spec.2
  refine ⟨⟨(ownerValue_settles taken).wellFormed, rfl⟩, fun name mem => ?_, fun name mem => ?_,
    fun name notText notFlag => ?_⟩
  · rw [Json.member?, get?_withTexts, if_pos mem, field (ownerField?_ownerTexts mem) sameText]
  · have notText : name ∉ ownerTexts := by
      simp only [ownerFlags, List.mem_cons, List.not_mem_nil, or_false] at mem
      rcases mem with rfl | rfl <;> decide
    rw [Json.member?, get?_withTexts, if_neg notText, field (ownerField?_ownerFlags mem) sameFlag]
  · rw [Json.member?, get?_withTexts, if_neg notText,
      Draft.openRecord_get?_unknown wellFormed.ordered read (ownerField?_unknown notText notFlag)]

/-! ## Fields of metadata -/

def instantFields : List String := ["creationTimestamp", "deletionTimestamp"]

def plainFields : List String :=
  ["annotations", "deletionGracePeriodSeconds", "finalizers", "generateName", "generation",
    "labels", "name", "namespace", "resourceVersion", "selfLink", "uid"]

/-- How a field of metadata is kept; a value that is `null` counts as none. -/
inductive FieldKept (name : String) : Option Json → Option Json → Prop where
  | absent : FieldKept name none none
  | plain (isPlain : name ∈ plainFields) (v : Json) : FieldKept name (some v) (some v)
  /-- An instant is written in UTC and cut to whole seconds. -/
  | instant (isInstant : name ∈ instantFields) {s : String} {t : Time.Instant}
      (before : Time.Instant.parse? s = some t)
      (after : Time.Instant.parse? t.printSecond = some t.wholeSecond) :
      FieldKept name (some (.text s)) (some (.text t.printSecond))
  | owners (isOwners : name = "ownerReferences") {vs ws : List Json}
      (each : List.Forall₂ OwnerKept vs ws) :
      FieldKept name (some (.array vs)) (some (.array ws))

/-- The fields of metadata that are kept. -/
def keptFields : List String := "ownerReferences" :: instantFields ++ plainFields

theorem field?_plain {name : String} (isPlain : name ∈ plainFields) :
    ∃ read, Metadata.field? name = some read ∧
      ∀ {v w}, v.WellFormed → read (Draft.ofJson v) = .ok w → w = v := by
  have text {v w : Json} (taken : textValue (Draft.ofJson v) = .ok w) : w = v :=
    (textValue_eq_ok.mp taken).choose_spec.2
  have number {v w : Json} (taken : numberValue (Draft.ofJson v) = .ok w) : w = v :=
    (eq_of_numberValue taken).choose_spec.2
  have texts {v w : Json} (taken : textsValue (Draft.ofJson v) = .ok w) : w = v :=
    (textsValue_eq taken).choose_spec.2.1
  simp only [plainFields, List.mem_cons, List.not_mem_nil, or_false] at isPlain
  rcases isPlain with rfl | rfl | rfl | rfl | rfl | rfl | rfl | rfl | rfl | rfl | rfl
  all_goals first
    | exact ⟨namedTextsValue, rfl, namedTextsValue_eq⟩
    | exact ⟨numberValue, rfl, fun _ => number⟩
    | exact ⟨textsValue, rfl, fun _ => texts⟩
    | exact ⟨textValue, rfl, fun _ => text⟩

theorem field?_instant {name : String} (isInstant : name ∈ instantFields) :
    Metadata.field? name = some instantValue := by
  simp only [instantFields, List.mem_cons, List.not_mem_nil, or_false] at isInstant
  rcases isInstant with rfl | rfl <;> rfl

theorem field?_unknown {name : String} (notKept : name ∉ keptFields)
    (notManagers : name ≠ "managedFields") : Metadata.field? name = none := by
  simp only [keptFields, instantFields, plainFields, List.cons_append, List.nil_append,
    List.mem_cons, List.not_mem_nil, or_false, not_or] at notKept
  unfold Metadata.field? metadataField?
  split
  · simp_all
  · split <;> simp_all

theorem forall₂_ownerKept {vs ws : List Json} (wellFormed : ∀ v ∈ vs, v.WellFormed)
    (each : List.Forall₂ (fun v w => ownerValue (Draft.ofJson v) = .ok w) vs ws) :
    List.Forall₂ OwnerKept vs ws := by
  induction each with
  | nil => exact .nil
  | cons taken _ ih =>
    obtain ⟨first, later⟩ := List.forall_mem_cons.mp wellFormed
    exact .cons (ownerKept_of_ownerValue first taken) (ih later)

/-- Every field of metadata is kept in its way. -/
theorem fieldKept_of_field {name : String} (isKept : name ∈ keptFields) {member found : Option Json}
    (wellFormed : ∀ v ∈ member, v.WellFormed)
    (taken : ∀ read, Metadata.field? name = some read → Draft.field read member = .ok found) :
    FieldKept name (member.bind Json.proper?) found := by
  have source {v : Json} (present : member.bind Json.proper? = some v) : v.WellFormed := by
    obtain ⟨w, there, proper⟩ := Option.bind_eq_some_iff.mp present
    exact (Json.proper?_eq_some.mp proper).1 ▸ wellFormed w there
  rcases List.mem_append.mp isKept with (special | isPlain)
  · rcases List.mem_cons.mp special with (rfl | isInstant)
    · rcases Draft.field_eq_ok.mp (taken ownersValue rfl) with ⟨absent, rfl⟩ |
        ⟨v, w, present, value, rfl⟩
      · rw [absent]
        exact .absent
      · obtain ⟨vs, ws, rfl, rfl, each⟩ := ownersValue_eq_ok.mp value
        exact present ▸ .owners rfl (forall₂_ownerKept (source present).of_array each)
    · rcases Draft.field_eq_ok.mp (taken _ (field?_instant isInstant)) with
        ⟨absent, rfl⟩ | ⟨v, w, present, value, rfl⟩
      · rw [absent]
        exact .absent
      · obtain ⟨s, t, rfl, read, rfl⟩ := instantValue_eq_ok.mp value
        exact present ▸ .instant isInstant read
          (Time.Instant.parse?_printSecond (Time.Instant.yearInRange_of_parse? read))
  · obtain ⟨read, known, same⟩ := field?_plain isPlain
    rcases Draft.field_eq_ok.mp (taken read known) with ⟨absent, rfl⟩ | ⟨v, w, present, value, rfl⟩
    · rw [absent]
      exact .absent
    · rw [present, same (source present) value]
      exact .plain isPlain v

/-! ## Objects -/

namespace Object

variable {members : List (String × Json)} {o : Object} {fallback : String} {s : Snapshot}

/-- Version and kind are both texts or both absent. -/
def TypesWhole (members : List (String × Json)) : Prop :=
  ((textAt "apiVersion" members).isSome ∧ (textAt "kind" members).isSome) ∨
    (Assoc.get? "apiVersion" members = none ∧ Assoc.get? "kind" members = none)

def namesTypes (members : List (String × Json)) : Bool :=
  (textAt "apiVersion" members).isSome && (textAt "kind" members).isSome

theorem text_of_textAt {key : String} (text : (textAt key members).isSome) :
    ∃ s, textAt key members = some s ∧ Assoc.get? key members = some (.text s) := by
  obtain ⟨s, found⟩ := Option.isSome_iff_exists.mp text
  obtain ⟨v, present, isText⟩ := Option.bind_eq_some_iff.mp found
  cases v with
  | text => exact ⟨s, found, by rw [present, Option.some.inj isText]⟩
  | _ => cases isText

/-- An object has types exactly if its members name them. -/
theorem ReadOf.types_cases (of : o.ReadOf members) :
    (namesTypes members = true ∧ ∃ types, o.types = some types ∧
      Assoc.get? "apiVersion" members = some (.text types.apiVersion) ∧
      Assoc.get? "kind" members = some (.text types.kind)) ∨
    namesTypes members = false ∧ o.types = none := by
  rw [of.types]
  unfold namesTypes
  cases version : textAt "apiVersion" members with
  | none => exact .inr ⟨rfl, rfl⟩
  | some apiVersion =>
    cases named : textAt "kind" members with
    | none => exact .inr ⟨rfl, rfl⟩
    | some kind =>
      obtain ⟨_, same, present⟩ := text_of_textAt (Option.isSome_of_eq_some version)
      obtain ⟨_, same', present'⟩ := text_of_textAt (Option.isSome_of_eq_some named)
      rw [version] at same
      rw [named] at same'
      cases same
      cases same'
      exact .inl ⟨rfl, _, rfl, present, present'⟩

/-- Version and kind are kept if both are texts. Otherwise nothing is left of them, except that the
kind stays where it was beside a version that is no text. -/
theorem types_of_payload (of : o.ReadOf members) :
    Assoc.get? "apiVersion" o.payloadMembers =
      (if namesTypes members then Assoc.get? "apiVersion" members else none) ∧
    Assoc.get? "kind" o.payloadMembers =
      if namesTypes members || versionless members then Assoc.get? "kind" members else none := by
  rw [of.get?_payloadMembers, of.get?_payloadMembers]
  rcases of.types_cases with ⟨named, types, found, version, kind⟩ | ⟨unnamed, none⟩
  · simp [named, found, version, kind, of.versionless_of_types found]
  · cases versionless members <;> simp [unnamed, none]

theorem get?_payloadMembers_of_whole (of : o.ReadOf members) (whole : TypesWhole members)
    (key : String) (other : key ≠ "metadata") :
    Assoc.get? key o.payloadMembers = Assoc.get? key members := by
  obtain ⟨version, kind⟩ := types_of_payload of
  by_cases isVersion : key = "apiVersion"
  · rw [isVersion, version]
    rcases whole with ⟨isText, isText'⟩ | ⟨absent, -⟩
    · simp [namesTypes, isText, isText']
    · simp [absent]
  by_cases isKind : key = "kind"
  · rw [isKind, kind]
    rcases whole with ⟨isText, isText'⟩ | ⟨-, absent⟩
    · simp [namesTypes, isText, isText']
    · simp [absent]
  · rw [of.get?_payloadMembers, if_neg other, if_neg isVersion, if_neg (fun both => isKind both.1)]

theorem get?_stripped (m : Metadata) (name : String) : Assoc.get? name m.stripped.members =
    if name = "managedFields" then none else Assoc.get? name m.members :=
  Metadata.get?_put m "managedFields" none name

/-- Nothing but the kept fields is in the metadata of a payload. -/
theorem get?_stripped_of_not_kept (wellFormed : (Json.object members).WellFormed)
    (read : ofJson? (.object members) = some o) {name : String} (notKept : name ∉ keptFields) :
    Assoc.get? name o.metadata.stripped.members = none := by
  rw [get?_stripped]
  split
  · rfl
  next notManagers =>
    rcases metadata_of_ofJson? wellFormed read with ⟨-, nothing⟩ | ⟨fields, present, taken⟩
    · rw [nothing]
      rfl
    · exact Metadata.read_get?_unknown (wellFormed.of_get? present).ordered taken
        (field?_unknown notKept notManagers)

theorem fieldKept_stripped (wellFormed : (Json.object members).WellFormed)
    (read : ofJson? (.object members) = some o) {name : String} (isKept : name ∈ keptFields) :
    FieldKept name
      ((((Json.object members).member? "metadata").bind (Json.member? name)).bind Json.proper?)
      (Assoc.get? name o.metadata.stripped.members) := by
  have notManagers : name ≠ "managedFields" := by
    rintro rfl
    exact absurd isKept (by decide)
  rw [get?_stripped, if_neg notManagers]
  rcases metadata_of_ofJson? wellFormed read with ⟨absent, nothing⟩ | ⟨fields, present, taken⟩
  · simp only [Json.member?, absent, nothing, Option.bind_none]
    exact .absent
  · have fieldsWellFormed := wellFormed.of_get? present
    simp only [Json.member?, present, Option.bind_some]
    exact fieldKept_of_field isKept (fun v there => fieldsWellFormed.of_get? there)
      (fun read known => Metadata.read_get? fieldsWellFormed.ordered taken known)

/-- The payload of a snapshot is the object it was taken of, key by key. Apart from the metadata
every member is the same, and so are version and kind if both are texts or both absent. In any other
case no version is left, and no kind but one beside a version that is no text. The metadata have
every field that was there and not `null`, kept in its way, and neither the record of managers nor
anything else. -/
theorem payload_keeps_object (wellFormed : (Json.object members).WellFormed)
    (read : ofJson? (.object members) = some o) (decoded : o.snapshot fallback = .ok s) :
    ∃ kept, s.payload.WellFormed ∧ s.payload.member? "metadata" = some (.object kept) ∧
      (∀ key, key ≠ "metadata" → (key = "apiVersion" ∨ key = "kind" → TypesWhole members) →
        s.payload.member? key = (Json.object members).member? key) ∧
      s.payload.member? "apiVersion" =
        (if namesTypes members then (Json.object members).member? "apiVersion" else none) ∧
      s.payload.member? "kind" =
        (if namesTypes members || versionless members then (Json.object members).member? "kind"
          else none) ∧
      Assoc.get? "managedFields" kept = none ∧
      (∀ name ∈ keptFields, FieldKept name
        ((((Json.object members).member? "metadata").bind (Json.member? name)).bind Json.proper?)
        (Assoc.get? name kept)) ∧
      ∀ name, name ∉ keptFields → Assoc.get? name kept = none := by
  have of := readOf wellFormed read
  obtain ⟨_, _, _, -, -, -, rfl⟩ := snapshot_eq_ok.mp decoded
  obtain ⟨version, kind⟩ := types_of_payload of
  refine ⟨o.metadata.stripped.members, wellFormed_payload wellFormed of, ?metadata, ?members,
    version, kind, get?_stripped_of_not_kept wellFormed read (by decide),
    fun _ isKept => fieldKept_stripped wellFormed read isKept,
    fun _ notKept => get?_stripped_of_not_kept wellFormed read notKept⟩
  case metadata => simp [Json.member?, of.get?_payloadMembers, Metadata.toJson]
  case members =>
    intro key other whole
    by_cases isType : key = "apiVersion" ∨ key = "kind"
    · exact get?_payloadMembers_of_whole of (whole isType) key other
    · rw [not_or] at isType
      rw [Json.member?, of.get?_payloadMembers, if_neg other, if_neg isType.1,
        if_neg (fun both => isType.2 both.1)]
      rfl

/-- An object with a kind but no version, an owner, a record of managers and members named as if
they belonged to the metadata. -/
def ownedWidget : List (String × Json) :=
  [("kind", .text "Widget"), ("managedFields", .array [.null]),
    ("metadata", .object [("managedFields", .array []), ("name", .text "w"),
      ("ownerReferences", .array [.object [("controller", .null), ("name", .text "o")]]),
      ("uid", .text "00000001-0000-4000-8000-000000000001"), ("unknown", .bool true)]),
    ("spec", .null)]

theorem wellFormed_ownedWidget : (Json.object ownedWidget).WellFormed := by
  have read : Json.parse ("\x7b\"kind\":\"Widget\",\"managedFields\":[null],\"spec\":null," ++
      "\"metadata\":\x7b\"managedFields\":[],\"name\":\"w\"," ++
      "\"ownerReferences\":[\x7b\"controller\":null,\"name\":\"o\"\x7d]," ++
      "\"uid\":\"00000001-0000-4000-8000-000000000001\",\"unknown\":true\x7d\x7d") =
      .ok (.object ownedWidget) := by cbv
  exact Json.wellFormed_of_parse read

/-- The lone kind is lost, and all else is kept. -/
theorem payload_keeps_ownedWidget :
    ∃ o s kept, ofJson? (.object ownedWidget) = some o ∧ o.snapshot "Widget" = .ok s ∧
      s.payload.member? "metadata" = some (.object kept) ∧
      s.payload.member? "managedFields" = some (.array [.null]) ∧
      s.payload.member? "spec" = some .null ∧
      s.payload.member? "apiVersion" = none ∧ s.payload.member? "kind" = none ∧
      Assoc.get? "managedFields" kept = none ∧ Assoc.get? "unknown" kept = none ∧
      FieldKept "ownerReferences"
        (some (.array [.object [("controller", .null), ("name", .text "o")]]))
        (Assoc.get? "ownerReferences" kept) := by
  have run : ((ofJson? (.object ownedWidget)).bind (fun o => (o.snapshot "Widget").toOption)).isSome
      = true := by
    decide +kernel
  obtain ⟨s, run⟩ := Option.isSome_iff_exists.mp run
  obtain ⟨o, read, decoded⟩ := Option.bind_eq_some_iff.mp run
  rw [Json.toOption_eq_some] at decoded
  obtain ⟨kept, -, metadata, same, version, kind, managers, fields, nothingElse⟩ :=
    payload_keeps_object wellFormed_ownedWidget read decoded
  exact ⟨o, s, kept, read, decoded, metadata,
    same "managedFields" (by decide) (fun isType => absurd isType (by decide)),
    same "spec" (by decide) (fun isType => absurd isType (by decide)), version, kind, managers,
    nothingElse "unknown" (by decide), fields "ownerReferences" (by decide)⟩

end Object

end WatchDispatch.Cluster
