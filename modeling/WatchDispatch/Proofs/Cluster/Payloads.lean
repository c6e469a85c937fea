import Mathlib
import WatchDispatch.Proofs.Json.Parsing
import WatchDispatch.Proofs.Cluster.ObjectReading

/-!
# Payloads

The payload of a snapshot is the object written back. It has the members of the object as they were,
apart from the metadata, of which every field is kept but the record of managers. Taking a snapshot
of the payload gives the same snapshot again, with the deletion cut to whole seconds.
-/

namespace WatchDispatch

/-- The value without a member; other values than objects are left as they are. -/
def Json.dropMember (key : String) : Json → Json
  | .object members => .object (Assoc.erase key members)
  | v => v

namespace Cluster

open Json (Draft)

namespace Object

variable {members : List (String × Json)} {o : Object}

/-! ## What an object is written as -/

/-- The members that an object is written with if these are its metadata. -/
def membersWith (o : Object) (m : Metadata) : List (String × Json) :=
  Assoc.ofList (o.others ++ ("metadata", m.toJson) :: typeMembers o.types)

/-- The metadata are written over what the others have, and are not written over. -/
theorem get?_membersWith (o : Object) (m m' : Metadata) (key : String) :
    Assoc.get? key (o.membersWith m) =
    if key = "metadata" then some m.toJson else Assoc.get? key (o.membersWith m') := by
  unfold membersWith Assoc.ofList
  rw [List.foldl_append, List.foldl_append]
  by_cases isMetadata : key = "metadata"
  · cases o.types <;> simp [typeMembers, Assoc.get?_insert, isMetadata]
  · cases o.types <;> simp [typeMembers, Assoc.get?_insert, isMetadata]

def payloadMembers (o : Object) : List (String × Json) := o.membersWith o.metadata.stripped

/-- To take the record of managers out of what was written is to write the metadata without it. -/
theorem stripManagers_toJson (o : Object) : stripManagers o.toJson = .object o.payloadMembers := by
  have written : o.toJson = .object (o.membersWith o.metadata) := rfl
  have metadata : Assoc.get? "metadata" (o.membersWith o.metadata) =
      some (.object o.metadata.members) := by
    rw [get?_membersWith o o.metadata o.metadata, if_pos rfl, Metadata.toJson]
  simp only [written, stripManagers, metadata, Json.object.injEq]
  refine ((Assoc.ordered_ofList _).insert "metadata" _).eq_of_get? (Assoc.ordered_ofList _)
    fun key => ?_
  change _ = Assoc.get? key (o.membersWith o.metadata.stripped)
  rw [Assoc.get?_insert, get?_membersWith o o.metadata.stripped o.metadata]
  rfl

/-- How the parts of an object that was read belong to the members that it was read of. -/
structure ReadOf (o : Object) (members : List (String × Json)) : Prop where
  types : o.types = typesOf (textAt "apiVersion" members) (textAt "kind" members)
  ordered : Assoc.Ordered o.others
  others : ∀ key, Assoc.get? key o.others =
    if key = "metadata" ∨ key = "apiVersion" ∨ key = "kind" ∧ versionless members = false then none
    else Assoc.get? key members
  metadata : o.metadata.stripped.Settled

theorem readOf (wellFormed : (Json.object members).WellFormed)
    (found : ofJson? (.object members) = some o) : o.ReadOf members := by
  have ordered := wellFormed.ordered.erase "metadata"
  have text (key : String) (other : key ≠ "metadata") :
      textAt key (Assoc.erase "metadata" members) = textAt key members := by
    simp [textAt, Assoc.get?_erase, other]
  have version : versionless (Assoc.erase "metadata" members) = versionless members := by
    simp [versionless, Assoc.get?_erase]
  have metadata : o.metadata.stripped.Settled := by
    rcases metadata_of_ofJson? wellFormed found with ⟨-, nothing⟩ | ⟨fields, present, taken⟩
    · exact nothing ▸ Metadata.settled_empty
    · exact Metadata.settled_read (wellFormed.of_get? present).ordered taken
  obtain ⟨m, -, rfl⟩ := (ofJson?_eq_some wellFormed).mp found
  refine ⟨?types, ordered_takeTypes ordered, ?others, metadata⟩
  case types =>
    rw [takeTypes_types ordered, text "apiVersion" (by decide), text "kind" (by decide)]
  case others =>
    intro key
    rw [get?_takeTypes ordered, version, Assoc.get?_erase]
    by_cases isMetadata : key = "metadata" <;> simp [isMetadata]

theorem ordered_payloadMembers (o : Object) : Assoc.Ordered o.payloadMembers :=
  Assoc.ordered_ofList _

namespace ReadOf

variable (of : o.ReadOf members)

include of

/-- An object with types has a version. -/
theorem versionless_of_types {t : TypeMeta} (types : o.types = some t) :
    versionless members = false := by
  rw [of.types] at types
  unfold typesOf at types
  split at types
  · next found _ =>
    obtain ⟨v, present, text⟩ := Option.bind_eq_some_iff.mp found
    simp [versionless, present, text]
  · cases types

/-- Version and kind are written over what the others have, and so are the metadata. -/
theorem get?_payloadMembers (key : String) : Assoc.get? key o.payloadMembers =
    if key = "metadata" then some o.metadata.stripped.toJson
    else if key = "apiVersion" then o.types.map (fun types => .text types.apiVersion)
    else if key = "kind" ∧ versionless members = false then
    o.types.map (fun types => .text types.kind)
    else Assoc.get? key members := by
  have start : o.others.foldl (fun acc entry => Assoc.insert entry.1 entry.2 acc) [] = o.others :=
    Assoc.ofList_of_ordered of.ordered
  rw [payloadMembers, membersWith, Assoc.ofList, List.foldl_append, start]
  by_cases isMetadata : key = "metadata"
  · cases o.types <;> simp [typeMembers, Assoc.get?_insert, isMetadata]
  by_cases isVersion : key = "apiVersion"
  · cases o.types <;> simp [typeMembers, Assoc.get?_insert, isVersion, of.others]
  by_cases isKind : key = "kind"
  · cases types : o.types with
    | none => simp [typeMembers, Assoc.get?_insert, isKind, of.others]
    | some t => simp [typeMembers, Assoc.get?_insert, isKind, of.versionless_of_types types]
  · cases o.types <;> simp [typeMembers, Assoc.get?_insert, isMetadata, isVersion,
      isKind, of.others]

/-- A payload never has a version that is no text. -/
theorem versionless_payloadMembers : versionless o.payloadMembers = false := by
  rw [versionless, of.get?_payloadMembers]
  cases o.types <;> simp [Json.text?]

theorem textAt_version :
    textAt "apiVersion" o.payloadMembers = o.types.map TypeMeta.apiVersion := by
  rw [textAt, of.get?_payloadMembers]
  cases o.types <;> simp [Json.text?]

/-- The types of a payload are those of the object. -/
theorem typesOf_payloadMembers :
    typesOf (textAt "apiVersion" o.payloadMembers) (textAt "kind" o.payloadMembers) = o.types := by
  rw [of.textAt_version]
  cases types : o.types with
  | none => rfl
  | some t =>
    have kind : textAt "kind" o.payloadMembers = some t.kind := by
      rw [textAt, of.get?_payloadMembers]
      simp [of.versionless_of_types types, types, Json.text?]
    rw [kind]
    rfl

end ReadOf

theorem wellFormed_payload (wellFormed : (Json.object members).WellFormed) (of : o.ReadOf members) :
    (Json.object o.payloadMembers).WellFormed := by
  refine .object o.ordered_payloadMembers (fun entry mem => ?_)
  have present := o.ordered_payloadMembers.mem_iff_get?.mp mem
  rw [of.get?_payloadMembers] at present
  split at present
  · exact Option.some.inj present ▸ of.metadata.wellFormed
  · split at present
    · obtain ⟨t, -, same⟩ := Option.map_eq_some_iff.mp present
      exact same ▸ .text t.apiVersion
    · split at present
      · obtain ⟨t, -, same⟩ := Option.map_eq_some_iff.mp present
        exact same ▸ .text t.kind
      · exact wellFormed.of_get? present

/-! ## Snapshots of payloads -/

/-- A payload is read as an object with the same types and the same metadata. -/
theorem ofJson?_payload (wellFormed : (Json.object members).WellFormed) (of : o.ReadOf members) :
    ∃ again, ofJson? (.object o.payloadMembers) = some again ∧ again.types = o.types ∧
      again.metadata = ⟨o.metadata.stripped.members,
        o.metadata.deletion.map Time.Instant.wholeSecond⟩ := by
  have payload := wellFormed_payload wellFormed of
  have metadata : metadataAt o.payloadMembers
      = .ok (some ⟨o.metadata.stripped.members,
        o.metadata.deletion.map Time.Instant.wholeSecond⟩) := by
    have deletion : o.metadata.stripped.deletion = o.metadata.deletion :=
      Metadata.deletion_put _ _ _
    simp [metadataAt, of.get?_payloadMembers, of.metadata.read_toJson, deletion, Except.map]
  have read := (ofJson?_eq_some payload).mpr ⟨_, metadata, rfl⟩
  refine ⟨_, read, ?_, rfl⟩
  rw [(readOf payload read).types, of.typesOf_payloadMembers]

/-- A payload is its own payload, except that a kind is lost that stood beside a version which is no
text. -/
theorem payloadMembers_payload {again : Object} (wellFormed : (Json.object members).WellFormed)
    (of : o.ReadOf members) (read : ofJson? (.object o.payloadMembers) = some again)
    (types : again.types = o.types)
    (metadata : again.metadata.stripped.members = o.metadata.stripped.members) :
    again.payloadMembers = if versionless members then Assoc.erase "kind" o.payloadMembers
      else o.payloadMembers := by
  have ofAgain := readOf (wellFormed_payload wellFormed of) read
  have written : again.metadata.stripped.toJson = o.metadata.stripped.toJson := by
    rw [Metadata.toJson, metadata, Metadata.toJson]
  have noTypes (lost : versionless members = true) : o.types = none := by
    cases types : o.types with
    | none => rfl
    | some t =>
      rw [of.versionless_of_types types] at lost
      cases lost
  have ordered : Assoc.Ordered (if versionless members then Assoc.erase "kind" o.payloadMembers
      else o.payloadMembers) := by
    split
    · exact o.ordered_payloadMembers.erase "kind"
    · exact o.ordered_payloadMembers
  refine again.ordered_payloadMembers.eq_of_get? ordered (fun key => ?_)
  rw [ofAgain.get?_payloadMembers, of.versionless_payloadMembers, types, written]
  cases lost : versionless members with
  | true =>
    simp only [if_true, Assoc.get?_erase, of.get?_payloadMembers, noTypes lost, lost]
    by_cases isKind : key = "kind"
    · simp [isKind]
    · simp only [isKind, false_and, if_false, Option.map_none]
      split
      · rfl
      · split <;> rfl
  | false =>
    simp only [Bool.false_eq_true, if_false, of.get?_payloadMembers, lost]
    split <;> simp_all

variable {fallback : String} {s : Snapshot}

/-- A snapshot is taken exactly of an object with a well-formed uid and a name. -/
theorem snapshot_eq_ok : o.snapshot fallback = .ok s ↔
    ∃ text uid name, o.metadata.uid? = some text ∧ Uid.parse? text = some uid ∧
    o.metadata.name? = some name ∧
      s = ⟨⟨uid, o.metadata.ns?, name, o.kindOr fallback⟩, o.metadata.generation,
        o.metadata.deletion, o.metadata.finalizers, .object o.payloadMembers⟩ := by
  unfold snapshot
  cases o.metadata.uid? with
  | none => simp
  | some text =>
    cases parsed : Uid.parse? text with
    | none => simp [parsed]
    | some uid =>
      cases o.metadata.name? <;> simp [parsed, stripManagers_toJson, eq_comm]

/-- A snapshot depends on the types and the members of the metadata, but not on the record of
managers, and beyond that carries the deletion and the payload. -/
theorem snapshot_of_same {again : Object} (types : again.types = o.types)
    (metadata : again.metadata.stripped.members = o.metadata.stripped.members)
    (decoded : o.snapshot fallback = .ok s) :
    again.snapshot fallback
      = .ok { s with
        deletion := again.metadata.deletion
        payload := .object again.payloadMembers } := by
  obtain ⟨text, uid, name, found, parsed, named, rfl⟩ := snapshot_eq_ok.mp decoded
  have field (key : String) (other : key ≠ "managedFields") :
      Assoc.get? key again.metadata.members = Assoc.get? key o.metadata.members := by
    have same := congrArg (Assoc.get? key) metadata
    simpa only [Metadata.stripped, Metadata.get?_put, if_neg other] using same
  have same (key : String) (other : key ≠ "managedFields") : again.metadata.text? key =
      o.metadata.text? key := by
    rw [Metadata.text?, field key other, Metadata.text?]
  have ns : again.metadata.ns? = o.metadata.ns? := same "namespace" (by decide)
  have kind : again.kindOr fallback = o.kindOr fallback := by rw [kindOr, types, kindOr]
  have generation : again.metadata.generation = o.metadata.generation := by
    rw [Metadata.generation, field _ (by decide), Metadata.generation]
  have finalizers : again.metadata.finalizers = o.metadata.finalizers := by
    rw [Metadata.finalizers, field _ (by decide), Metadata.finalizers]
  refine snapshot_eq_ok.mpr ⟨text, uid, name, (same "uid" (by decide)).trans found, parsed,
    (same "name" (by decide)).trans named, ?_⟩
  rw [ns, kind, generation, finalizers]

/-- Taking a snapshot of a payload changes nothing but the deletion, which is cut to whole seconds.
Only where the object had a version that is no text, and a kind beside it, does the payload lose
that kind in the second round. -/
theorem snapshot_of_payload (wellFormed : (Json.object members).WellFormed)
    (read : ofJson? (.object members) = some o) (decoded : o.snapshot fallback = .ok s) :
    ∃ again s', ofJson? s.payload = some again ∧ again.snapshot fallback = .ok s' ∧
      s'.identity = s.identity ∧ s'.generation = s.generation ∧ s'.finalizers = s.finalizers ∧
      s'.deletion = s.deletion.map Time.Instant.wholeSecond ∧
      s'.payload = if versionless members then s.payload.dropMember "kind" else s.payload := by
  have of := readOf wellFormed read
  obtain ⟨_, _, _, -, -, -, taken⟩ := snapshot_eq_ok.mp decoded
  have payload : s.payload = .object o.payloadMembers := by rw [taken]
  have deletion : s.deletion = o.metadata.deletion := by rw [taken]
  obtain ⟨again, readAgain, types, metadata⟩ := ofJson?_payload wellFormed of
  have sameMembers : again.metadata.stripped.members = o.metadata.stripped.members := by
    rw [metadata]
    exact Assoc.erase_of_absent (by simp [Metadata.stripped])
  refine ⟨again, _, payload ▸ readAgain,
    snapshot_of_same types sameMembers decoded, rfl, rfl, rfl, ?_, ?_⟩
  · rw [metadata, deletion]
  · rw [payloadMembers_payload wellFormed of readAgain types sameMembers, payload]
    cases versionless members <;> rfl

/-- An object whose deletion was asked for at half a second, two hours ahead of UTC. -/
def deletedWidget : List (String × Json) :=
  [("apiVersion", .text "example.com/v1"), ("kind", .text "Widget"),
    ("metadata", .object [("deletionTimestamp", .text "2024-05-01T12:00:00.5+02:00"),
      ("name", .text "w"), ("uid", .text "00000001-0000-4000-8000-000000000001")]), ("spec", .null)]

theorem wellFormed_deletedWidget : (Json.object deletedWidget).WellFormed := by
  have read : Json.parse (
      "\x7b\"apiVersion\":\"example.com/v1\",\"kind\":\"Widget\",\"spec\":null," ++
      "\"metadata\":\x7b\"deletionTimestamp\":\"2024-05-01T12:00:00.5+02:00\",\"name\":\"w\"," ++
      "\"uid\":\"00000001-0000-4000-8000-000000000001\"\x7d\x7d") =
      .ok (.object deletedWidget) := by cbv
  exact Json.wellFormed_of_parse read

theorem snapshot_of_payload_in_deletion :
    ∃ o s again s', ofJson? (.object deletedWidget) = some o ∧ o.snapshot "Fallback" = .ok s ∧
      s.deletion.map Time.Instant.print = some "2024-05-01T10:00:00.500Z" ∧
      ofJson? s.payload = some again ∧ again.snapshot "Fallback" = .ok s' ∧
      s'.deletion.map Time.Instant.print = some "2024-05-01T10:00:00Z" ∧
      s'.payload = s.payload := by
  have run : (ofJson? (.object deletedWidget)).bind
    (fun o => (o.snapshot "Fallback").toOption.bind (fun s =>
      some (s.deletion.map Time.Instant.print,
        (s.deletion.map Time.Instant.wholeSecond).map Time.Instant.print)))
      = some (some "2024-05-01T10:00:00.500Z", some "2024-05-01T10:00:00Z") := by decide +kernel
  obtain ⟨o, read, run⟩ := Option.bind_eq_some_iff.mp run
  obtain ⟨s, decoded, run⟩ := Option.bind_eq_some_iff.mp run
  obtain ⟨before, after⟩ := Prod.ext_iff.mp (Option.some.inj run)
  rw [Json.toOption_eq_some] at decoded
  obtain ⟨again, s', reread, redecoded, -, -, -, deletion, payload⟩ :=
    snapshot_of_payload wellFormed_deletedWidget read decoded
  exact ⟨o, s, again, s', read, decoded, before, reread, redecoded, deletion ▸ after, payload⟩

def unversionedWidget : List (String × Json) :=
  [("apiVersion", .integer 5), ("kind", .text "Widget"),
    ("metadata", .object [("name", .text "w"),
      ("uid", .text "00000001-0000-4000-8000-000000000001")])]

theorem wellFormed_unversionedWidget : (Json.object unversionedWidget).WellFormed := by
  have read : Json.parse ("\x7b\"apiVersion\":5,\"kind\":\"Widget\",\"metadata\":\x7b" ++
      "\"name\":\"w\",\"uid\":\"00000001-0000-4000-8000-000000000001\"\x7d\x7d") =
      .ok (.object unversionedWidget) := by cbv
  exact Json.wellFormed_of_parse read

/-- With a version that is a number the kind stays in the first payload and is lost from the
second. -/
theorem payload_not_always_kept :
    ¬ ∀ members o fallback s, (Json.object members).WellFormed →
    ofJson? (.object members) = some o →
      o.snapshot fallback = .ok s →
      ∃ again s', ofJson? s.payload = some again ∧ again.snapshot fallback = .ok s' ∧
      s'.payload = s.payload := by
  intro kept
  have run : (ofJson? (.object unversionedWidget)).bind
    (fun o => (o.snapshot "Fallback").toOption.bind (fun s =>
      some ((s.payload.member? "kind").isSome, ((ofJson? s.payload).bind (fun again =>
        (again.snapshot "Fallback").toOption.bind (fun s' => s'.payload.member? "kind"))).isSome)))
      = some (true, false) := by decide +kernel
  obtain ⟨o, read, run⟩ := Option.bind_eq_some_iff.mp run
  obtain ⟨s, decoded, run⟩ := Option.bind_eq_some_iff.mp run
  obtain ⟨first, second⟩ := Prod.ext_iff.mp (Option.some.inj run)
  rw [Json.toOption_eq_some] at decoded
  obtain ⟨again, s', reread, redecoded, same⟩ :=
    kept _ o "Fallback" s wellFormed_unversionedWidget read decoded
  simp only [reread, Option.bind_some, redecoded, Except.toOption, same] at first second
  rw [first] at second
  cases second

end Object

end Cluster

end WatchDispatch
