import Mathlib.Data.List.Forall2
import Mathlib.Data.List.Nodup
import WatchDispatch.Cluster.Discovery

/-!
# What a server shows of its kinds

A server shows its groups, then the list of kinds of every version of every group, then the same for
the core group, each at an address of its own. It is read completely if all these lists are shown
one after the other; then what is known afterwards is what was shown, but that of groups with one
name only the last one is kept. Nothing else makes the reading succeed.
-/

namespace WatchDispatch.Cluster.Discovery

structure ShownVersion where
  /-- Where the list of its kinds is asked for. -/
  address : String
  /-- Its name in its group. -/
  version : String
  /-- The group and the version that its list names. -/
  groupVersion : String
  /-- The kinds in its list. -/
  entries : List Entry

structure ShownGroup where
  name : String
  preferred : Option String
  versions : List ShownVersion

structure Shown where
  groups : List ShownGroup
  /-- The versions of the core group. -/
  core : List ShownVersion

namespace ShownVersion

def asked (v : ShownVersion) : String × String := (v.address, v.version)

def known (v : ShownVersion) : KnownVersion := ⟨v.version, resourcesOf v.groupVersion v.entries⟩

end ShownVersion

namespace ShownGroup

def known (g : ShownGroup) : KnownGroup := ⟨g.name, g.preferred, g.versions.map ShownVersion.known⟩

structure Listed (listing : GroupListing) (g : ShownGroup) : Prop where
  name : g.name = listing.name
  preferred : g.preferred = listing.preferred
  versions : g.versions.map ShownVersion.asked = listing.versions.map addressed

end ShownGroup

namespace Shown

/-- All groups, the core group last. It prefers `v1`. -/
def all (c : Shown) : List ShownGroup := c.groups ++ [⟨"", some "v1", c.core⟩]

def known (c : Shown) : List KnownGroup := latestOfName (c.all.map ShownGroup.known)

end Shown

/-! ## Lists that are shown one after the other -/

/-- The server shows the lists of these versions in turn. -/
inductive ShowsVersions : List ShownVersion → Server → Server → Prop
  | nil {s : Server} : ShowsVersions [] s s
  | cons {v : ShownVersion} {rest : List ShownVersion} {s next s' : Server}
      (first : fetchEntries v.address s = (.ok (v.groupVersion, v.entries), next))
      (others : ShowsVersions rest next s') : ShowsVersions (v :: rest) s s'

/-- The server shows the lists of a group, which has at least one version. -/
def ShowsGroup (g : ShownGroup) (s s' : Server) : Prop :=
  g.versions ≠ [] ∧ ShowsVersions g.versions s s'

/-- The server shows the lists of these groups in turn. -/
inductive ShowsGroups : List ShownGroup → Server → Server → Prop
  | nil {s : Server} : ShowsGroups [] s s
  | cons {g : ShownGroup} {rest : List ShownGroup} {s next s' : Server}
      (first : ShowsGroup g s next) (others : ShowsGroups rest next s') :
      ShowsGroups (g :: rest) s s'

def coreAddressed (version : String) : String × String := (Catalog.coreVersionPath version, version)

/-- The server shows all of this, and is left as `s'`. -/
inductive Shows (c : Shown) (s s' : Server) : Prop
  | intro {listings : List GroupListing} {versions : List String} {s₁ s₂ s₃ : Server}
      (groups : fetchGroups s = (.ok listings, s₁))
      (listed : List.Forall₂ ShownGroup.Listed listings c.groups)
      (groupLists : ShowsGroups c.groups s₁ s₂)
      (core : fetchVersions s₂ = (.ok versions, s₃))
      (coreListed : c.core.map ShownVersion.asked = versions.map coreAddressed)
      (coreLists : ShowsGroup ⟨"", some "v1", c.core⟩ s₃ s')

/-! ## Reading succeeds exactly where all lists are shown -/

theorem readVersions_eq_ok_iff {asked : List (String × String)} {known : List KnownVersion}
    {s s' : Server} :
    readVersions asked s = (.ok known, s') ↔ ∃ shown : List ShownVersion,
      shown.map ShownVersion.asked = asked ∧ ShowsVersions shown s s' ∧
        known = shown.map ShownVersion.known := by
  induction asked generalizing known s s' with
  | nil =>
    constructor
    · intro read
      obtain ⟨rfl, rfl⟩ : known = [] ∧ s = s' := by simpa [readVersions, eq_comm] using read
      exact ⟨[], rfl, .nil, rfl⟩
    · rintro ⟨shown, none, shows, rfl⟩
      obtain rfl := List.map_eq_nil_iff.mp none
      cases shows
      rfl
  | cons first rest ih =>
    obtain ⟨address, version⟩ := first
    constructor
    · intro read
      unfold readVersions at read
      split at read
      next => cases read
      next groupVersion entries next fetched =>
        split at read
        next others last readRest =>
          obtain ⟨shown, rfl, shows, rfl⟩ := ih.mp readRest
          cases read
          exact ⟨⟨address, version, groupVersion, entries⟩ :: shown, rfl, .cons fetched shows, rfl⟩
        next => cases read
    · rintro ⟨shown, parts, shows, rfl⟩
      cases shows with
      | nil => cases parts
      | cons fetched others =>
        obtain ⟨⟨rfl, rfl⟩, rfl⟩ := by simpa [ShownVersion.asked] using parts
        simp [readVersions, fetched, ih.mpr ⟨_, rfl, others, rfl⟩, ShownVersion.known]

theorem readGroup_eq_ok_iff {name : String} {preferred : Option String}
    {asked : List (String × String)} {known : KnownGroup} {s s' : Server} :
    readGroup name preferred asked s = (.ok known, s') ↔ ∃ shown : List ShownVersion,
      shown.map ShownVersion.asked = asked ∧ ShowsGroup ⟨name, preferred, shown⟩ s s' ∧
        known = ShownGroup.known ⟨name, preferred, shown⟩ := by
  constructor
  · intro read
    unfold readGroup at read
    split at read
    next => cases read
    next filled =>
      split at read
      next versions last readAll =>
        obtain ⟨shown, rfl, shows, rfl⟩ := readVersions_eq_ok_iff.mp readAll
        cases read
        exact ⟨shown, rfl, ⟨by simpa using filled, shows⟩, rfl⟩
      next => cases read
  · rintro ⟨shown, rfl, ⟨filled, shows⟩, rfl⟩
    have read := readVersions_eq_ok_iff.mpr ⟨shown, rfl, shows, rfl⟩
    have filled : (shown.map ShownVersion.asked).isEmpty = false := by simpa using filled
    simp [readGroup, read, filled, ShownGroup.known]

theorem readGroups_eq_ok_iff {listings : List GroupListing} {known : List KnownGroup}
    {s s' : Server} :
    readGroups listings s = (.ok known, s') ↔ ∃ shown : List ShownGroup,
      List.Forall₂ ShownGroup.Listed listings shown ∧ ShowsGroups shown s s' ∧
        known = shown.map ShownGroup.known := by
  induction listings generalizing known s s' with
  | nil =>
    constructor
    · intro read
      obtain ⟨rfl, rfl⟩ : known = [] ∧ s = s' := by simpa [readGroups, eq_comm] using read
      exact ⟨[], .nil, .nil, rfl⟩
    · rintro ⟨shown, listed, shows, rfl⟩
      cases listed
      cases shows
      rfl
  | cons listing rest ih =>
    constructor
    · intro read
      unfold readGroups at read
      split at read
      next group next readFirst =>
        obtain ⟨versions, asked, shows, rfl⟩ := readGroup_eq_ok_iff.mp readFirst
        split at read
        next others last readRest =>
          obtain ⟨shown, listed, showsRest, rfl⟩ := ih.mp readRest
          cases read
          exact ⟨_ :: shown, .cons ⟨rfl, rfl, asked⟩ listed, .cons shows showsRest, rfl⟩
        next => cases read
      next => cases read
    · rintro ⟨shown, listed, shows, rfl⟩
      cases shows with
      | nil => cases listed
      | @cons g _ _ _ _ first others =>
        obtain ⟨⟨name, preferred, asked⟩, listedRest⟩ := List.forall₂_cons.mp listed
        have readFirst := readGroup_eq_ok_iff.mpr ⟨g.versions, asked, first, rfl⟩
        rw [name, preferred] at readFirst
        have readRest := ih.mpr ⟨_, listedRest, others, rfl⟩
        simp [readGroups, readFirst, readRest, ShownGroup.known, name, preferred]

theorem readCore_eq_ok_iff {known : KnownGroup} {s s' : Server} :
    readCore s = (.ok known, s') ↔
    ∃ (versions : List String) (next : Server) (shown : List ShownVersion),
      fetchVersions s = (.ok versions, next) ∧
        shown.map ShownVersion.asked = versions.map coreAddressed ∧
        ShowsGroup ⟨"", some "v1", shown⟩ next s' ∧
        known = ShownGroup.known ⟨"", some "v1", shown⟩ := by
  constructor
  · intro read
    unfold readCore at read
    split at read
    next versions next fetched =>
      obtain ⟨shown, asked, shows, rfl⟩ := readGroup_eq_ok_iff.mp read
      exact ⟨versions, next, shown, fetched, asked, shows, rfl⟩
    next => cases read
  · rintro ⟨versions, next, shown, fetched, asked, shows, rfl⟩
    unfold readCore
    rw [fetched]
    exact readGroup_eq_ok_iff.mpr ⟨shown, asked, shows, rfl⟩

/-- Everything is read exactly where a server shows everything; then what it shows is known. -/
theorem readAll_eq_ok_iff {known : List KnownGroup} {s s' : Server} :
    readAll s = (.ok known, s') ↔ ∃ c, Shows c s s' ∧ known = c.known := by
  constructor
  · intro read
    unfold readAll at read
    split at read
    next listings s₁ fetched =>
      split at read
      next groups s₂ readGroups =>
        obtain ⟨shown, listed, shows, rfl⟩ := readGroups_eq_ok_iff.mp readGroups
        split at read
        next core last readCore =>
          obtain ⟨versions, s₃, coreShown, fetchedCore, asked, showsCore, rfl⟩ :=
            readCore_eq_ok_iff.mp readCore
          cases read
          refine ⟨⟨shown, coreShown⟩, .intro fetched listed shows fetchedCore asked showsCore, ?_⟩
          simp [Shown.known, Shown.all]
        next => cases read
      next => cases read
    next => cases read
  · rintro ⟨c, ⟨fetched, listed, shows, fetchedCore, asked, showsCore⟩, rfl⟩
    have readGroups := readGroups_eq_ok_iff.mpr ⟨c.groups, listed, shows, rfl⟩
    have readCore := readCore_eq_ok_iff.mpr ⟨_, _, c.core, fetchedCore, asked, showsCore, rfl⟩
    simp [readAll, fetched, readGroups, readCore, Shown.known, Shown.all]

/-! ## What is known afterwards -/

theorem exists_latestOfName_iff {groups : List KnownGroup} {name : String} :
    (∃ g ∈ latestOfName groups, g.name = name) ↔ ∃ g ∈ groups, g.name = name := by
  induction groups with
  | nil => simp [latestOfName]
  | cons first rest ih =>
    rw [List.exists_mem_cons_iff, ← ih]
    rw [latestOfName, List.foldr_cons, ← latestOfName]
    split
    next taken =>
      obtain ⟨g, mem, same⟩ : ∃ g ∈ latestOfName rest, g.name = first.name := by simpa using taken
      constructor
      · exact .inr
      · rintro (rfl | found)
        · exact ⟨g, mem, same⟩
        · exact found
    next => rw [List.exists_mem_cons_iff]

/-- A group counts if no later one has its name. -/
theorem latestOfName_cons (g : KnownGroup) (rest : List KnownGroup) :
    latestOfName (g :: rest) =
      if ∃ later ∈ rest, later.name = g.name then latestOfName rest
      else g :: latestOfName rest := by
  rw [latestOfName, List.foldr_cons, ← latestOfName]
  congr 1
  simpa using @exists_latestOfName_iff rest g.name

theorem mem_latestOfName_iff {groups : List KnownGroup} {g : KnownGroup} :
    g ∈ latestOfName groups ↔ ∃ earlier later, groups = earlier ++ g :: later ∧
      ∀ other ∈ later, other.name ≠ g.name := by
  induction groups with
  | nil => simp [latestOfName]
  | cons first rest ih =>
    constructor
    · intro mem
      rw [latestOfName_cons] at mem
      by_cases taken : ∃ later ∈ rest, later.name = first.name
      · rw [if_pos taken] at mem
        obtain ⟨earlier, later, rfl, others⟩ := ih.mp mem
        exact ⟨first :: earlier, later, rfl, others⟩
      · rw [if_neg taken] at mem
        rcases List.mem_cons.mp mem with rfl | mem
        · exact ⟨[], rest, rfl, by simpa using taken⟩
        · obtain ⟨earlier, later, rfl, others⟩ := ih.mp mem
          exact ⟨first :: earlier, later, rfl, others⟩
    · rintro ⟨earlier, later, parts, others⟩
      rw [latestOfName_cons]
      cases earlier with
      | nil =>
        obtain ⟨rfl, rfl⟩ := List.cons.inj parts
        have free : ¬ ∃ other ∈ rest, other.name = first.name := by simpa using others
        simp [free]
      | cons _ earlier =>
        obtain ⟨rfl, rfl⟩ := List.cons.inj parts
        have mem := ih.mpr ⟨earlier, later, rfl, others⟩
        split
        · exact mem
        · exact List.mem_cons_of_mem _ mem

/-- No two of the known groups have the same name. -/
theorem latestOfName_names (groups : List KnownGroup) :
    ((latestOfName groups).map KnownGroup.name).Nodup := by
  induction groups with
  | nil => exact .nil
  | cons first rest ih =>
    rw [latestOfName_cons]
    split
    · exact ih
    next free =>
      rw [List.map_cons]
      apply List.nodup_cons.mpr
      constructor
      · intro taken
        obtain ⟨later, mem, same⟩ := List.mem_map.mp taken
        exact free (exists_latestOfName_iff.mp ⟨later, mem, same⟩)
      · exact ih

end WatchDispatch.Cluster.Discovery
