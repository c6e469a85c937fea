import Mathlib.Tactic
import WatchDispatch.Proofs.Cluster.Following
import WatchDispatch.Proofs.Cluster.Payloads
import WatchDispatch.Proofs.Json.Records
import WatchDispatch.Proofs.Resource.UidTexts

/-!
# Profiles

Apart from the kind and the payload, a snapshot comes from seven fields of the metadata. A profile
is what those fields can hold, each with its own type; whatever text an object was read from, its
metadata show exactly one. The profile decides whether there is a snapshot and what it says, and
with that what a watch makes of the object.
-/

namespace WatchDispatch

namespace Json

/-! ## Drafts of any kind -/

theorem bind_eq_ok {ε α β : Type} {x : Except ε α} {f : α → Except ε β} {b : β} :
    (do let a ← x; f a) = .ok b ↔ ∃ a, x = .ok a ∧ f a = .ok b := by
  cases x <;> simp [bind, Except.bind]

/-- What every member preserves holds of a record that was read, whatever stands in it. -/
theorem DraftMembers.fold_preserves {σ : Type} {step : σ → String → Reader σ} {P : σ → Prop}
    (keep : ∀ {s key d s'}, P s → step s key d = .ok s' → P s') :
    ∀ {members : DraftMembers} {s s' : σ}, P s → members.fold step s = .ok s' → P s'
  | .closed, s, s', start, read => by
    cases read
    exact start
  | .broken _, _, _, _, read => by cases read
  | .keyless _, _, _, _, read => by cases read
  | .member key d rest, s, s', start, read => by
    unfold fold at read
    split at read
    · cases read
    · split at read
      · cases read
      · next _ _ mid taken => exact fold_preserves keep (keep start taken) read

theorem Draft.record_preserves {σ : Type} {step : σ → String → Reader σ} {P : σ → Prop}
    (keep : ∀ {s key d s'}, P s → step s key d = .ok s' → P s') {s s' : σ} {d : Draft} (start : P s)
    (read : record step s d = .ok s') : P s' := by
  unfold record at read
  split at read
  · split at read
    · cases read
    · exact DraftMembers.fold_preserves keep start read
  · cases read

theorem DraftItems.each_preserves {α : Type} {read : Reader α} {P : α → Prop}
    (keep : ∀ {d a}, read d = .ok a → P a) :
    ∀ {items : DraftItems} {done out : List α}, (∀ a ∈ done, P a) → items.each read done = .ok out →
      ∀ a ∈ out, P a
  | .closed, _, _, start, found => by
    cases found
    exact start
  | .broken _, _, _, _, found => by cases found
  | .item d rest, done, out, start, found => by
    unfold each at found
    split at found
    · cases found
    · next _ a taken =>
      exact each_preserves keep (List.forall_mem_cons.mpr ⟨keep taken, start⟩) found

theorem Draft.list_preserves {α : Type} {read : Reader α} {P : α → Prop}
    (keep : ∀ {d a}, read d = .ok a → P a) {d : Draft} {as : List α}
    (found : list read d = .ok as) : ∀ a ∈ as, P a := by
  unfold list at found
  split at found
  · split at found
    · cases found
    · obtain ⟨out, taken, rfl⟩ := map_eq_ok.mp found
      intro a mem
      exact DraftItems.each_preserves keep (by simp) taken a (List.mem_reverse.mp mem)
  · cases found

/-- What is read of a value that may be `null` is read of a value. -/
theorem Draft.exists_of_optional {α : Type} {read : Reader α} {d : Draft} {a : α}
    (found : optional read d = .ok (some a)) : ∃ d, read d = .ok a := by
  unfold optional at found
  split at found
  · cases found
  · obtain ⟨b, taken, same⟩ := map_eq_ok.mp found
    cases same
    exact ⟨_, taken⟩

end Json

namespace Cluster

open Json (Draft DraftItems Reader map_eq_ok bind_eq_ok)

/-! ## Profiles -/

structure Profile where
  uid : Option String
  name : Option String
  ns : Option String
  resourceVersion : Option String
  generation : Option Int64
  /-- When the deletion was asked for, with its fraction of a second. -/
  deletion : Option Time.Instant
  finalizers : Option (List String)

/-- What is written in a field; `null` is as good as nothing. -/
def written? (name : String) (fields : List (String × Json)) : Option Json :=
  (Assoc.get? name fields).bind Json.proper?

/-- The profile is what is written in the fields. -/
structure Profile.WrittenIn (p : Profile) (fields : List (String × Json)) : Prop where
  uid : written? "uid" fields = p.uid.map .text
  name : written? "name" fields = p.name.map .text
  ns : written? "namespace" fields = p.ns.map .text
  resourceVersion : written? "resourceVersion" fields = p.resourceVersion.map .text
  generation : written? "generation" fields = p.generation.map (fun n => .integer n.toInt)
  /-- The instant is the one that the text writes, no matter in which offset. -/
  deletion : written? "deletionTimestamp" fields = none ∧ p.deletion = none ∨
    ∃ text, written? "deletionTimestamp" fields = some (.text text) ∧
      (Time.Instant.parse? text).isSome ∧ p.deletion = Time.Instant.parse? text
  finalizers : written? "finalizers" fields = p.finalizers.map (fun fs => .array (fs.map .text))

namespace Metadata

/-- The metadata have the fields of the profile, and those that it lacks are absent. -/
structure Shows (m : Metadata) (p : Profile) : Prop where
  uid : Assoc.get? "uid" m.members = p.uid.map .text
  name : Assoc.get? "name" m.members = p.name.map .text
  ns : Assoc.get? "namespace" m.members = p.ns.map .text
  resourceVersion : Assoc.get? "resourceVersion" m.members = p.resourceVersion.map .text
  generation : Assoc.get? "generation" m.members = p.generation.map (fun n => .integer n.toInt)
  deletion : m.deletion = p.deletion
  finalizers : Assoc.get? "finalizers" m.members =
    p.finalizers.map (fun fs => .array (fs.map .text))

variable {m : Metadata} {p : Profile}

namespace Shows

theorem uid?_eq (shown : m.Shows p) : m.uid? = p.uid := by
  rw [uid?, text?, shown.uid]
  cases p.uid <;> rfl

theorem name?_eq (shown : m.Shows p) : m.name? = p.name := by
  rw [name?, text?, shown.name]
  cases p.name <;> rfl

theorem ns?_eq (shown : m.Shows p) : m.ns? = p.ns := by
  rw [ns?, text?, shown.ns]
  cases p.ns <;> rfl

theorem resourceVersion?_eq (shown : m.Shows p) : m.resourceVersion? = p.resourceVersion := by
  rw [resourceVersion?, text?, shown.resourceVersion]
  cases p.resourceVersion <;> rfl

/-- A generation keeps its number over all that 64 bits with a sign can say; a negative one is
none. -/
theorem toNat_generation (shown : m.Shows p) :
    (m.generation.toNat : Int) = max 0 (p.generation.elim 0 Int64.toInt) := by
  have number : ((Assoc.get? "generation" m.members).bind Json.integer?).getD 0
      = p.generation.elim 0 Int64.toInt := by
    rw [shown.generation]
    cases p.generation <;> rfl
  have fits : p.generation.elim 0 Int64.toInt < 2 ^ 63 := by
    cases p.generation with
    | none => simp
    | some n => exact n.toInt_lt
  rw [Metadata.generation, number, UInt64.toNat_ofNat']
  omega

theorem finalizers_eq (shown : m.Shows p) : m.finalizers = p.finalizers.getD [] := by
  rw [Metadata.finalizers, shown.finalizers]
  cases p.finalizers with
  | none => rfl
  | some fs => simp [Json.list?_texts]

/-- Metadata show at most one profile. -/
theorem unique {q : Profile} (shown : m.Shows p) (also : m.Shows q) : p = q := by
  have generation : p.generation = q.generation :=
    Option.map_injective (fun a b same => Int64.toInt_inj.mp (Json.integer.inj same))
      (shown.generation.symm.trans also.generation)
  have finalizers : p.finalizers = q.finalizers := by
    refine Option.map_injective (fun a b same => ?_) (shown.finalizers.symm.trans also.finalizers)
    exact List.map_injective_iff.mpr (fun _ _ => Json.text.inj) (Json.array.inj same)
  obtain ⟨_, _, _, _, _, _, _⟩ := p
  obtain ⟨_, _, _, _, _, _, _⟩ := q
  simp only [Profile.mk.injEq]
  exact ⟨shown.uid?_eq.symm.trans also.uid?_eq, shown.name?_eq.symm.trans also.name?_eq,
    shown.ns?_eq.symm.trans also.ns?_eq,
    shown.resourceVersion?_eq.symm.trans also.resourceVersion?_eq,
    generation, shown.deletion.symm.trans also.deletion, finalizers⟩

end Shows

/-! ## Metadata that were read -/

/-- Every field holds what its reading made of some value. -/
def FieldsRead (m : Metadata) : Prop :=
  ∀ name read w, metadataField? name = some read → Assoc.get? name m.members = some w →
  ∃ d, read d = .ok w

theorem fieldsRead_step {m m' : Metadata} {name : String} {d : Draft} (fields : m.FieldsRead)
    (taken : step m name d = .ok m') : m'.FieldsRead := by
  have put (name : String) (y : Option Json)
      (own : ∀ read w, metadataField? name = some read → y = some w → ∃ d, read d = .ok w) :
      (m.put name y).FieldsRead := by
    intro key read w known present
    rw [get?_put] at present
    split at present
    case isTrue same => exact own read w (same ▸ known) present
    case isFalse => exact fields key read w known present
  by_cases isDeletion : name = "deletionTimestamp"
  · subst isDeletion
    obtain ⟨t, -, rfl⟩ := map_eq_ok.mp (step_deletion m d ▸ taken)
    exact put "deletionTimestamp" _ (fun _ _ known => (by cases known))
  cases known : metadataField? name with
  | some read =>
    obtain ⟨y, found, rfl⟩ := map_eq_ok.mp (step_field m d known ▸ taken)
    refine put name y (fun read' w known' present => ?_)
    obtain rfl : read = read' := Option.some.inj (known.symm.trans known')
    subst present
    exact Draft.exists_of_optional found
  | none =>
    obtain ⟨_, -, rfl⟩ := map_eq_ok.mp (step_unknown m d known isDeletion ▸ taken)
    exact fields

theorem fieldsRead_empty : empty.FieldsRead := nofun

theorem fieldsRead_read {d : Draft} (found : read d = .ok m) : m.FieldsRead :=
  Draft.record_preserves fieldsRead_step fieldsRead_empty found

theorem exists_text {d : Draft} {w : Json} (taken : textValue d = .ok w) : ∃ s, w = .text s := by
  obtain ⟨s, -, rfl⟩ := map_eq_ok.mp taken
  exact ⟨s, rfl⟩

theorem exists_int64 {d : Draft} {w : Json} (taken : numberValue d = .ok w) :
    ∃ n : Int64, w = .integer n.toInt := by
  obtain ⟨n, read, rfl⟩ := map_eq_ok.mp taken
  have within : -2 ^ 63 ≤ n ∧ n < 2 ^ 63 := by
    unfold Draft.int64 Draft.integerWithin at read
    split at read
    · split at read
      · next bounds =>
        obtain rfl := Except.ok.inj read
        omega
      · cases read
    · cases read
  exact ⟨Int64.ofInt n, by rw [Int64.toInt_ofInt_of_le within.1 within.2]⟩

theorem exists_texts {d : Draft} {w : Json} (taken : textsValue d = .ok w) :
    ∃ fs : List String, w = .array (fs.map .text) := by
  obtain ⟨ws, read, rfl⟩ := map_eq_ok.mp taken
  have texts : ws ∈ {l | ∀ w ∈ l, w ∈ Set.range Json.text} := fun w mem => by
    obtain ⟨s, rfl⟩ :=
      Draft.list_preserves (P := fun w => ∃ s, w = Json.text s) exists_text read w mem
    exact ⟨s, rfl⟩
  rw [← Set.range_list_map] at texts
  obtain ⟨fs, rfl⟩ := texts
  exact ⟨fs, rfl⟩

/-- Metadata whose fields were read show a profile. -/
theorem FieldsRead.exists_shows (fields : m.FieldsRead) : ∃ p, m.Shows p := by
  have field {α : Type} {write : α → Json} (name : String) {read : Reader Json}
      (known : metadataField? name = some read)
      (typed : ∀ {d w}, read d = .ok w → ∃ a, w = write a) :
      ∃ x : Option α, Assoc.get? name m.members = x.map write := by
    cases present : Assoc.get? name m.members with
    | none => exact ⟨none, rfl⟩
    | some w =>
      obtain ⟨d, taken⟩ := fields name read w known present
      obtain ⟨a, rfl⟩ := typed taken
      exact ⟨some a, rfl⟩
  obtain ⟨uid, hasUid⟩ := field "uid" rfl exists_text
  obtain ⟨name, hasName⟩ := field "name" rfl exists_text
  obtain ⟨ns, hasNs⟩ := field "namespace" rfl exists_text
  obtain ⟨version, hasVersion⟩ := field "resourceVersion" rfl exists_text
  obtain ⟨generation, hasGeneration⟩ := field "generation" rfl exists_int64
  obtain ⟨finalizers, hasFinalizers⟩ := field "finalizers" rfl exists_texts
  exact ⟨⟨uid, name, ns, version, generation, m.deletion, finalizers⟩,
    hasUid, hasName, hasNs, hasVersion, hasGeneration, rfl, hasFinalizers⟩

/-- A field that is taken as it is shows what is written in it. -/
theorem get?_eq_written? {members : List (String × Json)} {name : String} {reader : Reader Json}
    (ordered : Assoc.Ordered members) (found : read (Draft.ofJson (.object members)) = .ok m)
    (known : field? name = some reader)
    (exact_ : ∀ {v w}, reader (Draft.ofJson v) = .ok w → w = v) :
    Assoc.get? name m.members = written? name members := by
  rcases Draft.field_eq_ok.mp (read_get? ordered found known) with ⟨absent, none⟩ |
    ⟨v, w, here, taken, some⟩
  · rw [none, written?, absent]
  · rw [some, written?, here, exact_ taken]

/-- The profile of finished metadata is what is written in them. -/
theorem Shows.writtenIn {members : List (String × Json)} (ordered : Assoc.Ordered members)
    (found : read (Draft.ofJson (.object members)) = .ok m) (shown : m.Shows p) :
    p.WrittenIn members := by
  have text {v w : Json} (taken : textValue (Draft.ofJson v) = .ok w) : w = v := by
    obtain ⟨s, rfl, same⟩ := textValue_eq_ok.mp taken
    exact same
  have number {v w : Json} (taken : numberValue (Draft.ofJson v) = .ok w) : w = v := by
    obtain ⟨n, rfl, same⟩ := eq_of_numberValue taken
    exact same
  have texts {v w : Json} (taken : textsValue (Draft.ofJson v) = .ok w) : w = v := by
    obtain ⟨vs, rfl, same, -⟩ := textsValue_eq taken
    exact same
  exact {
    uid := (get?_eq_written? ordered found rfl text).symm.trans shown.uid
    name := (get?_eq_written? ordered found rfl text).symm.trans shown.name
    ns := (get?_eq_written? ordered found rfl text).symm.trans shown.ns
    resourceVersion := (get?_eq_written? ordered found rfl text).symm.trans shown.resourceVersion
    generation := (get?_eq_written? ordered found rfl number).symm.trans shown.generation
    deletion := by
      rcases Draft.field_eq_ok.mp (read_deletion ordered found) with ⟨absent, same⟩ |
        ⟨v, t, here, taken, same⟩
      · exact .inl ⟨absent, shown.deletion.symm.trans same⟩
      · obtain ⟨text, rfl, parsed⟩ := Draft.parsed_eq_ok.mp taken
        exact .inr ⟨text, here, by rw [parsed]; rfl, by rw [← shown.deletion, same, parsed]⟩
    finalizers := (get?_eq_written? ordered found rfl texts).symm.trans shown.finalizers }

end Metadata

namespace Object

variable {o : Object} {p : Profile} {fallback : String}

theorem fieldsRead_of_read {d : Draft} (found : read d = .ok o) : o.metadata.FieldsRead := by
  obtain ⟨progress, taken, rfl⟩ := map_eq_ok.mp found
  have all : ∀ m ∈ progress.1, m.FieldsRead := by
    refine Draft.record_preserves (P := fun progress : Progress => ∀ m ∈ progress.1, m.FieldsRead)
      (fun {before name d after} kept taken => ?_) (by simp) taken
    unfold step at taken
    split at taken
    · split at taken
      · cases taken
      · obtain ⟨m, found, rfl⟩ := map_eq_ok.mp taken
        rintro _ ⟨⟩
        exact Metadata.fieldsRead_read found
    · obtain ⟨v, -, rfl⟩ := map_eq_ok.mp taken
      exact kept
  change (progress.1.getD Metadata.empty).FieldsRead
  cases metadata : progress.1 with
  | none => exact Metadata.fieldsRead_empty
  | some m => exact all m metadata

/-- Whatever text an object was read from, its metadata show one profile. -/
theorem existsUnique_shows {d : Draft} (found : read d = .ok o) : ∃! p, o.metadata.Shows p := by
  obtain ⟨p, shown⟩ := (fieldsRead_of_read found).exists_shows
  exact ⟨p, shown, fun _ also => also.unique shown⟩

def metadataFields (members : List (String × Json)) : List (String × Json) :=
  ((Assoc.get? "metadata" members).bind Json.object?).getD []

/-- The profile of an object is what is written in its metadata. -/
theorem writtenIn_of_ofJson? {members : List (String × Json)}
    (wellFormed : (Json.object members).WellFormed) (found : ofJson? (.object members) = some o)
    (shown : o.metadata.Shows p) : p.WrittenIn (metadataFields members) := by
  rcases metadata_of_ofJson? wellFormed found with ⟨absent, none⟩ | ⟨fields, present, read⟩
  · rw [none] at shown
    rw [metadataFields, absent]
    exact ⟨shown.uid, shown.name, shown.ns, shown.resourceVersion, shown.generation,
      .inl ⟨rfl, shown.deletion.symm⟩, shown.finalizers⟩
  · have ordered : Assoc.Ordered fields :=
      (wellFormed.of_object _ ((wellFormed.ordered.mem_iff_get?).mpr present)).ordered
    rw [metadataFields, present]
    exact shown.writtenIn ordered read

/-! ## Snapshots -/

structure Extracts (o : Object) (p : Profile) (fallback : String) (s : Snapshot) : Prop where
  uid : ∃ text, p.uid = some text ∧ s.uid.SpelledBy text
  name : p.name = some s.identity.name
  ns : s.identity.ns = p.ns
  /-- The kind is the one that the object names. -/
  named : ∀ types, o.types = some types → types.kind ≠ "" → s.identity.kind = types.kind
  /-- The kind is the fallback if the object names none. -/
  unnamed : (∀ types, o.types = some types → types.kind = "") → s.identity.kind = fallback
  generation : (s.generation.toNat : Int) = max 0 (p.generation.elim 0 Int64.toInt)
  deleting : s.isDeleting = p.deletion.isSome
  deletion : s.deletion = p.deletion
  finalizers : s.finalizers = p.finalizers.getD []
  hasFinalizer : ∀ f, s.hasFinalizer f = true ↔ ∃ fs ∈ p.finalizers, f ∈ fs

theorem extracts_of_snapshot {s : Snapshot} (shown : o.metadata.Shows p)
    (taken : o.snapshot fallback = .ok s) : o.Extracts p fallback s := by
  obtain ⟨text, uid, name, hasUid, parsed, hasName, rfl⟩ := snapshot_eq_ok.mp taken
  exact {
    uid := ⟨text, shown.uid?_eq.symm.trans hasUid, Uid.parse?_eq_some.mp parsed⟩
    name := shown.name?_eq.symm.trans hasName
    ns := shown.ns?_eq
    named := fun types known nonempty => by simp [kindOr, known, nonempty]
    unnamed := fun nameless => by
      unfold kindOr
      split
      · next types known => exact if_pos (nameless types known)
      · rfl
    generation := shown.toNat_generation
    deleting := congrArg Option.isSome shown.deletion
    deletion := shown.deletion
    finalizers := shown.finalizers_eq
    hasFinalizer := fun f => by
      rw [Snapshot.hasFinalizer, shown.finalizers_eq, List.contains_iff_mem]
      cases p.finalizers <;> simp }

/-- There is a snapshot exactly of an object with a uid that is spelled in one of its forms, and a
name. -/
theorem exists_snapshot_iff (shown : o.metadata.Shows p) :
    (∃ s, o.snapshot fallback = .ok s) ↔
      (∃ text u, p.uid = some text ∧ Uid.SpelledBy u text) ∧ p.name.isSome := by
  constructor
  · rintro ⟨s, taken⟩
    have extracts := extracts_of_snapshot shown taken
    obtain ⟨text, hasUid, spelled⟩ := extracts.uid
    exact ⟨⟨text, s.uid, hasUid, spelled⟩, by rw [extracts.name]; rfl⟩
  · rintro ⟨⟨text, u, hasUid, spelled⟩, named⟩
    obtain ⟨name, hasName⟩ := Option.isSome_iff_exists.mp named
    exact ⟨_, snapshot_eq_ok.mpr ⟨text, u, name, shown.uid?_eq.trans hasUid,
      Uid.parse?_eq_some.mpr spelled, shown.name?_eq.trans hasName, rfl⟩⟩

end Object

/-! ## Watches -/

namespace WatchLine

variable {action : Action} {o : Object}

/-- What a line states comes from a type and some part of the line. -/
def Stated (line : WatchLine) : Prop := ∃ type d, ofType type d = .ok line

theorem stated_row {items : DraftItems} {line : WatchLine} (found : readRow items = .ok line) :
    line.Stated := by
  unfold readRow at found
  split at found
  · cases found
  · cases found
  · obtain ⟨type, -, found⟩ := bind_eq_ok.mp found
    split at found
    · cases found
    · cases found
    · obtain ⟨line', taken, found⟩ := bind_eq_ok.mp found
      split at found
      · obtain rfl := Except.ok.inj found
        exact ⟨type, _, taken⟩
      · cases found
      · cases found

theorem stated_whole {before after : Progress} {name : String} {d : Draft}
    (kept : ∀ line, before = .whole line → line.Stated) (taken : step before name d = .ok after) :
    ∀ line, after = .whole line → line.Stated := by
  rintro line rfl
  unfold step at taken
  split at taken
  · obtain ⟨_, -, same⟩ := map_eq_ok.mp taken
    cases same
  · obtain ⟨_, -, same⟩ := map_eq_ok.mp taken
    cases same
  · obtain ⟨_, found, same⟩ := map_eq_ok.mp taken
    cases same
    exact ⟨_, d, found⟩
  · obtain ⟨type, -, taken⟩ := bind_eq_ok.mp taken
    obtain ⟨_, found, same⟩ := bind_eq_ok.mp taken
    cases same
    exact ⟨type, _, found⟩
  · cases taken
  · cases taken
  · obtain ⟨_, -, same⟩ := map_eq_ok.mp taken
    exact kept line same

theorem stated_of_reading {d : Draft} {line : WatchLine} (found : reading d = .ok line) :
    line.Stated := by
  unfold reading at found
  split at found
  · exact stated_row found
  · split at found
    · cases found
    · next taken =>
      obtain rfl := Except.ok.inj found
      exact Draft.record_preserves (P := fun progress => ∀ line, progress = .whole line →
        line.Stated) stated_whole nofun taken _ rfl
    · cases found

/-- The object of a change was read from some part of its line. -/
theorem exists_read_of_change {text : String} (change : read? text = some (.change action o)) :
    ∃ d, Object.read d = .ok o := by
  have stated : (WatchLine.change action o).Stated := by
    unfold read? at change
    split at change
    · cases change
    · next line found =>
      obtain rfl := Option.some.inj change
      unfold Json.read at found
      dsimp only at found
      split at found
      · cases found
      · next taken =>
        split at found
        · obtain rfl := Except.ok.inj found
          exact stated_of_reading taken
        · cases found
    · cases change
  obtain ⟨type, d, taken⟩ := stated
  cases type with
  | change _ =>
    obtain ⟨_, read, same⟩ := map_eq_ok.mp taken
    cases same
    exact ⟨d, read⟩
  | bookmark =>
    obtain ⟨_, -, same⟩ := map_eq_ok.mp taken
    cases same
  | error =>
    obtain ⟨_, -, same⟩ := map_eq_ok.mp taken
    cases same

end WatchLine

/-- A change always tells something, be it that it cannot be decoded. -/
theorem WatchLine.telling_change (decoder : Decoder) (action : Action) (o : Object) :
    (change action o).telling decoder ≠ none := by
  cases taken : o.snapshot decoder.kind <;> simp [telling, taken]

/-- What a cursor makes of a changed object, and what is left of its stream. -/
theorem Cursor.read_of_change {decoder : Decoder} {c : Cursor} {passed rest : List String}
    {line : String} {finale : Finale} {action : Action} {o : Object}
    (silent : ∀ text ∈ passed, ∀ l, WatchLine.read? text = some l → l.telling decoder = none)
    (change : WatchLine.read? line = some (.change action o)) :
    read decoder finale (passed ++ line :: rest) c =
      let version := resumePoint c.resourceVersion (passed.filterMap WatchLine.read?)
      let told := tell decoder { c with resourceVersion := version } action o ⟨rest, finale⟩
      (some told.1, told.2) := by
  induction passed generalizing c with
  | nil => simp [read, change, resumePoint]
  | cons text passed ih =>
    have later := fun c => @ih c (fun text mem => silent text (List.mem_cons_of_mem _ mem))
    cases heard : WatchLine.read? text with
    | none => simp [read, heard, later]
    | some l =>
      have quiet := silent text List.mem_cons_self l heard
      cases l with
      | bookmark version => simp [read, heard, later, resumePoint_cons, WatchLine.version?]
      | change action o => exact absurd quiet (WatchLine.telling_change decoder action o)
      | failure e => simp [WatchLine.telling] at quiet

/-- The next item behind lines that tell nothing is that of the changed object. Its resource version
counts in any case; without a snapshot the stream tells one failure and is over. -/
theorem Cursor.next_of_change (params : WatchParams) {decoder : Decoder} {c : Cursor}
    (server : Server) {passed rest : List String} {line : String} {finale : Finale}
    {action : Action} {o : Object} {p : Profile} (shown : o.metadata.Shows p)
    (stage : c.stage = .reading ⟨passed ++ line :: rest, finale⟩)
    (silent : ∀ text ∈ passed, ∀ l, WatchLine.read? text = some l → l.telling decoder = none)
    (change : WatchLine.read? line = some (.change action o)) :
    let version :=
      p.resourceVersion.getD (resumePoint c.resourceVersion (passed.filterMap WatchLine.read?))
    (∀ s, o.snapshot decoder.kind = .ok s →
      c.next params decoder server =
      (.event ⟨action, s⟩, ⟨c.path, version, .reading ⟨rest, finale⟩⟩, server)) ∧
    (∀ e, o.snapshot decoder.kind = .error e →
      c.next params decoder server =
        (.fault (.failed s!"decoding {action.label} event: {e.message decoder.uidError}"),
          ⟨c.path, version, .finished⟩, server) ∧
      ∀ later, next params decoder ⟨c.path, version, .finished⟩ later =
        (.ended, ⟨c.path, version, .finished⟩, later)) := by
  have looked : c.look decoder = read decoder finale (passed ++ line :: rest) c := by
    rw [look, stage]
  rw [read_of_change silent change] at looked
  refine ⟨fun s taken => ?_, fun e failed =>
    ⟨?_, fun later => next_of_finished params decoder later rfl⟩⟩
  · simp [next, looked, tell, taken, shown.resourceVersion?_eq]
  · simp [next, looked, tell, failed, fail, shown.resourceVersion?_eq]

/-- Whatever an object was read from, its metadata show one profile, which is what is written in
them. With that profile there is a snapshot exactly if the uid is spelled in one of its four forms
and there is a name; the snapshot says what the profile says, and a watch tells it, or else one
failure as its last item. -/
theorem snapshot_extraction :
    (∀ d o, Object.read d = .ok o → ∃! p, o.metadata.Shows p) ∧
    (∀ text action o, WatchLine.read? text = some (.change action o) → ∃! p, o.metadata.Shows p) ∧
    (∀ members o p, (Json.object members).WellFormed → Object.ofJson? (.object members) = some o →
      o.metadata.Shows p → p.WrittenIn (Object.metadataFields members)) ∧
    ∀ (o : Object) (p : Profile), o.metadata.Shows p →
      (∀ fallback, (∃ s, o.snapshot fallback = .ok s) ↔
        (∃ text u, p.uid = some text ∧ Uid.SpelledBy u text) ∧ p.name.isSome) ∧
      (∀ fallback s, o.snapshot fallback = .ok s → o.Extracts p fallback s) ∧
      ∀ (params : WatchParams) (decoder : Decoder) (c : Cursor) (server : Server)
        (passed rest : List String) (line : String) (finale : Finale) (action : Action),
        c.stage = .reading ⟨passed ++ line :: rest, finale⟩ →
        (∀ text ∈ passed, ∀ l, WatchLine.read? text = some l → l.telling decoder = none) →
        WatchLine.read? line = some (.change action o) →
        let version := p.resourceVersion.getD
          (resumePoint c.resourceVersion (passed.filterMap WatchLine.read?))
        (∀ s, o.snapshot decoder.kind = .ok s → c.next params decoder server =
          (.event ⟨action, s⟩, ⟨c.path, version, .reading ⟨rest, finale⟩⟩, server)) ∧
        (∀ e, o.snapshot decoder.kind = .error e →
          c.next params decoder server =
          (.fault (.failed s!"decoding {action.label} event: {e.message decoder.uidError}"),
            ⟨c.path, version, .finished⟩, server) ∧
          ∀ later, Cursor.next params decoder ⟨c.path, version, .finished⟩ later =
            (.ended, ⟨c.path, version, .finished⟩, later)) := by
  refine ⟨fun _ _ found => Object.existsUnique_shows found, fun _ _ _ change => ?_,
    fun _ _ _ wellFormed found shown => Object.writtenIn_of_ofJson? wellFormed found shown,
    fun o p shown => ⟨fun _ => Object.exists_snapshot_iff shown,
      fun _ _ taken => Object.extracts_of_snapshot shown taken, ?_⟩⟩
  · obtain ⟨_, found⟩ := WatchLine.exists_read_of_change change
    exact Object.existsUnique_shows found
  · intro params decoder c server passed rest line finale action stage silent change
    exact Cursor.next_of_change params server shown stage silent change

/-- A line about an object with a uid in braces, the least generation and no kind. -/
def Sample.kindlessLine : String :=
  "\x7b\"type\":\"MODIFIED\",\"object\":\x7b\"apiVersion\":\"v1\",\"kind\":\"\"," ++
  "\"metadata\":\x7b\"uid\":\"\x7bABCDEF01-0000-4000-8000-00000000000A\x7d\",\"name\":\"w\"," ++
  "\"namespace\":null,\"generation\":-9223372036854775808,\"resourceVersion\":\"7\"," ++
  "\"finalizers\":[\"b\",\"a\",\"b\"]," ++
  "\"deletionTimestamp\":\"2024-05-01T12:00:00.5+02:00\"\x7d\x7d\x7d"

def WatchLine.object? (action : Action) : WatchLine → Option Object
  | .change told o => if told = action then some o else none
  | .bookmark _ => none
  | .failure _ => none

theorem WatchLine.object?_eq_some {action : Action} {line : WatchLine} {o : Object} :
    line.object? action = some o ↔ line = .change action o := by
  cases line <;> simp [object?]

theorem kindlessLine_extracted : ∃ o p s,
    WatchLine.read? Sample.kindlessLine = some (.change .modified o) ∧ o.metadata.Shows p ∧
      o.snapshot "Widget" = .ok s ∧ o.Extracts p "Widget" s ∧ s.generation = 0 ∧
      s.identity.kind = "Widget" ∧ s.finalizers = ["b", "a", "b"] ∧
      s.deletion.map Time.Instant.print = some "2024-05-01T10:00:00.500Z" ∧
      ∀ params uidError server, Cursor.next params ⟨"Widget", uidError⟩
        ⟨"/widgets", "3", .reading ⟨[Sample.kindlessLine], .hangs⟩⟩ server =
          (.event ⟨.modified, s⟩, ⟨"/widgets", "7", .reading ⟨[], .hangs⟩⟩, server) := by
  have run :
    ((WatchLine.read? Sample.kindlessLine).bind (WatchLine.object? .modified)).bind (fun o =>
      (o.snapshot "Widget").toOption.map (fun s => (s.generation, s.identity.kind, s.finalizers,
        s.deletion.map Time.Instant.print, o.metadata.resourceVersion?))) =
      some (0, "Widget", ["b", "a", "b"], some "2024-05-01T10:00:00.500Z", some "7") := by
    decide +kernel
  obtain ⟨o, change, run⟩ := Option.bind_eq_some_iff.mp run
  obtain ⟨s, taken, run⟩ := Option.map_eq_some_iff.mp run
  rw [Json.toOption_eq_some] at taken
  simp only [Prod.mk.injEq] at run
  obtain ⟨generation, kind, finalizers, deletion, version⟩ := run
  have change : WatchLine.read? Sample.kindlessLine = some (.change .modified o) := by
    obtain ⟨line, found, whole⟩ := Option.bind_eq_some_iff.mp change
    rw [found, WatchLine.object?_eq_some.mp whole]
  obtain ⟨-, ofLine, -, ofProfile⟩ := snapshot_extraction
  obtain ⟨p, shown, -⟩ := ofLine _ _ _ change
  obtain ⟨-, extracts, watched⟩ := ofProfile o p shown
  refine ⟨o, p, s, change, shown, taken, extracts _ _ taken, generation, kind, finalizers,
    deletion, ?_⟩
  intro params uidError server
  have told :=
    (watched params ⟨"Widget", uidError⟩ ⟨"/widgets", "3", .reading ⟨[Sample.kindlessLine], .hangs⟩⟩
    server [] [] _ .hangs .modified rfl (by simp) change).1 s taken
  rw [← shown.resourceVersion?_eq, version] at told
  exact told

end Cluster

end WatchDispatch
