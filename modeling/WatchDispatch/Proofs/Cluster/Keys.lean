import Mathlib.Data.List.Basic
import WatchDispatch.Cluster.Gvk

/-!
# Keys and the kinds they name

A key has one of two forms, `version/Kind` and `group/version/Kind`, and what it names is read off
its parts. Reading looks at the version and the kind of a key of three parts and takes its group as
it is, so a key of two parts is also taken with a slash in front of it. Apart from that slash the
two forms are all that is taken, and a kind has one key.
-/

namespace WatchDispatch.Cluster.Gvk

/-- What may stand between the slashes of a key. -/
def Part (s : String) : Prop := s ≠ "" ∧ '/' ∉ s.toList

/-- The two forms of a key, each with the kind it names. -/
inductive Spells : String → Gvk → Prop
  | core {version kind : String} (v : Part version) (k : Part kind) :
      Spells s!"{version}/{kind}" ⟨"", version, kind⟩
  | grouped {group version kind : String} (g : Part group) (v : Part version) (k : Part kind) :
      Spells s!"{group}/{version}/{kind}" ⟨group, version, kind⟩

theorem Spells.key_eq {key : String} {g : Gvk} (spells : Spells key g) : g.key = key := by
  cases spells with
  | core v k => simp [Gvk.key]
  | grouped g v k => simp [Gvk.key, g.1]

/-- The three parts of a kind without group begin with a slash. -/
theorem path_of_core {g : Gvk} (core : g.group = "") : g.path = "/" ++ g.key := by
  simp [path, Gvk.key, core, toString, String.append_assoc]

theorem path_of_grouped {g : Gvk} (grouped : g.group ≠ "") : g.path = g.key := by
  simp [path, Gvk.key, grouped]

/-- A key of a kind without group has two parts. -/
theorem split_eq_pair_iff {key version kind : String} :
    Text.split '/' key = [version, kind] ↔
      '/' ∉ version.toList ∧ '/' ∉ kind.toList ∧ key = s!"{version}/{kind}" := by
  rw [Text.split_eq_iff]
  simp [Text.join, String.intercalate_cons_cons, and_assoc, @eq_comm _ key, toString]

theorem split_eq_triple_iff {key group version kind : String} :
    Text.split '/' key = [group, version, kind] ↔
      '/' ∉ group.toList ∧ '/' ∉ version.toList ∧ '/' ∉ kind.toList ∧
        key = s!"{group}/{version}/{kind}" := by
  rw [Text.split_eq_iff]
  simp [Text.join, String.intercalate_cons_cons, and_assoc, @eq_comm _ key, toString,
    String.append_assoc]

/-- Reading asks for a version and a kind; the group between the slashes may be empty. -/
theorem parse?_eq_some_iff {key : String} {g : Gvk} :
    parse? key = some g ↔
      '/' ∉ g.group.toList ∧ Part g.version ∧ Part g.kind ∧
        (key = g.path ∨ g.group = "" ∧ key = s!"{g.version}/{g.kind}") := by
  obtain ⟨group, version, kind⟩ := g
  constructor
  · intro read
    unfold parse? at read
    split at read
    next v k parts =>
      obtain ⟨plainVersion, plainKind, rfl⟩ := split_eq_pair_iff.mp parts
      obtain ⟨⟨hasVersion, hasKind⟩, rfl, rfl, rfl⟩ := by simpa using read
      exact ⟨by simp, ⟨hasVersion, plainVersion⟩, ⟨hasKind, plainKind⟩, .inr ⟨rfl, rfl⟩⟩
    next g v k parts =>
      obtain ⟨plainGroup, plainVersion, plainKind, rfl⟩ := split_eq_triple_iff.mp parts
      obtain ⟨⟨hasVersion, hasKind⟩, rfl, rfl, rfl⟩ := by simpa using read
      exact ⟨plainGroup, ⟨hasVersion, plainVersion⟩, ⟨hasKind, plainKind⟩, .inl rfl⟩
    next => simp at read
  · rintro ⟨plainGroup, ⟨hasVersion, plainVersion⟩, ⟨hasKind, plainKind⟩, rfl | ⟨rfl, rfl⟩⟩
    · have parts := split_eq_triple_iff.mpr ⟨plainGroup, plainVersion, plainKind, rfl⟩
      simp [parse?, path, parts, hasVersion, hasKind]
    · have parts := split_eq_pair_iff.mpr ⟨plainVersion, plainKind, rfl⟩
      simp [parse?, parts, hasVersion, hasKind]

theorem Spells.parse?_eq {key : String} {g : Gvk} (spells : Spells key g) :
    parse? key = some g := by
  apply parse?_eq_some_iff.mpr
  cases spells with
  | core v k => exact ⟨by simp, v, k, .inr ⟨rfl, rfl⟩⟩
  | grouped g v k => exact ⟨g.2, v, k, .inl rfl⟩

/-- The key of a kind with a version and a kind, none of whose parts holds a slash, is of one of the
two forms. -/
theorem spells_key {g : Gvk} (plain : '/' ∉ g.group.toList) (version : Part g.version)
    (kind : Part g.kind) : Spells g.key g := by
  obtain ⟨group, v, k⟩ := g
  by_cases core : group = ""
  · subst core
    simpa [Gvk.key] using Spells.core version kind
  · simpa [Gvk.key, core] using Spells.grouped ⟨core, plain⟩ version kind

/-- What is taken is a key of one of the two forms, or one without group behind a slash. -/
theorem parse?_eq_some_iff_spells {key : String} {g : Gvk} :
    parse? key = some g ↔
      Spells key g ∨ g.group = "" ∧ Spells g.key g ∧ key = "/" ++ g.key := by
  constructor
  · intro read
    obtain ⟨plain, version, kind, written⟩ := parse?_eq_some_iff.mp read
    have spells := spells_key plain version kind
    by_cases core : g.group = ""
    · rcases written with rfl | ⟨-, rfl⟩
      · exact .inr ⟨core, spells, path_of_core core⟩
      · exact .inl (by simpa [Gvk.key, core] using spells)
    · rcases written with rfl | ⟨empty, -⟩
      · exact .inl (path_of_grouped core ▸ spells)
      · exact absurd empty core
  · rintro (spells | ⟨core, spells, rfl⟩)
    · exact spells.parse?_eq
    · obtain ⟨plain, version, kind, -⟩ := parse?_eq_some_iff.mp spells.parse?_eq
      exact parse?_eq_some_iff.mpr ⟨plain, version, kind, .inl (path_of_core core).symm⟩

/-- The key that was taken is the key of the kind, or that key with a slash in front. -/
theorem key_of_parse? {key : String} {g : Gvk} (read : parse? key = some g) :
    key = g.key ∨ g.group = "" ∧ key = "/" ++ g.key := by
  rcases parse?_eq_some_iff_spells.mp read with spells | ⟨core, -, slash⟩
  · exact .inl spells.key_eq.symm
  · exact .inr ⟨core, slash⟩

/-- A slash in front of the key of a kind makes it another key. -/
theorem not_spells_slash {g : Gvk} : ¬ Spells ("/" ++ g.key) g := by
  intro spells
  have longer := congrArg String.length spells.key_eq
  simp only [String.length_append, show "/".length = 1 from rfl] at longer
  omega

/-- Reading a key takes the two forms, and the form without group also behind a slash, and nothing
else; so the two forms alone are taken exactly where the key is none of these. The kind read has the
key it was read from, but for that slash; so two keys of one kind differ by it. The key of a kind is
read as that kind. -/
theorem keys_read_exactly (key : String) :
    (∀ g, parse? key = some g ↔ Spells key g ∨ g.group = "" ∧ Spells g.key g ∧ key = "/" ++ g.key) ∧
    ((∀ g, parse? key = some g ↔ Spells key g) ↔
      ¬ ∃ g : Gvk, g.group = "" ∧ Spells g.key g ∧ key = "/" ++ g.key) ∧
    (∀ g, parse? key = some g → key = g.key ∨ g.group = "" ∧ key = "/" ++ g.key) ∧
    (∀ other g, parse? key = some g → parse? other = some g →
      key = other ∨ g.group = "" ∧ (key = "/" ++ other ∨ other = "/" ++ key)) ∧
    ∀ g : Gvk, '/' ∉ g.group.toList → Part g.version → Part g.kind → parse? g.key = some g := by
  refine ⟨fun g => parse?_eq_some_iff_spells, ⟨?_, ?_⟩, fun g => key_of_parse?, ?_, ?_⟩
  · rintro documented ⟨g, core, spells, rfl⟩
    have read := parse?_eq_some_iff_spells.mpr (.inr ⟨core, spells, rfl⟩)
    exact not_spells_slash ((documented g).mp read)
  · intro documented g
    constructor
    · intro read
      rcases parse?_eq_some_iff_spells.mp read with spells | slash
      · exact spells
      · exact absurd ⟨g, slash⟩ documented
    · exact Spells.parse?_eq
  · intro other g read again
    rcases key_of_parse? read with rfl | ⟨core, rfl⟩ <;>
      rcases key_of_parse? again with rfl | ⟨core, rfl⟩ <;> simp_all
  · intro g plain version kind
    exact (spells_key plain version kind).parse?_eq

/-- A slash before a key of two parts is read over: the two texts name one kind, and the first is of
neither form. -/
theorem slash_in_front_read_over :
    parse? "/v1/Pod" = some ⟨"", "v1", "Pod"⟩ ∧ parse? "v1/Pod" = some ⟨"", "v1", "Pod"⟩ ∧
      ¬ ∃ g, Spells "/v1/Pod" g := by
  have read : parse? "/v1/Pod" = some ⟨"", "v1", "Pod"⟩ := by decide
  refine ⟨read, by decide, ?_⟩
  rintro ⟨g, spells⟩
  have same := spells.parse?_eq.symm.trans read
  obtain rfl := Option.some.inj same
  exact absurd spells.key_eq (by decide)

end WatchDispatch.Cluster.Gvk
