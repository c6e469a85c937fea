import WatchDispatch.Proofs.Cluster.Discovering

/-!
# A server shows its catalog

A server that is started with a catalog has one reply for each list, under the address of the list.
What remains to be asked for says what the replies under every address are, whatever the order in
which different addresses are asked; so the whole catalog is read in the order of discovery.
-/

namespace WatchDispatch.Cluster

open Discovery

namespace Catalog

/-- A version of a group, as it is shown. -/
def shownVersion (g : Group) (v : VersionList) : ShownVersion where
  address := groupVersionPath (versionName g v).groupVersion
  version := v.version
  groupVersion := (versionName g v).groupVersion
  entries := v.entries

def shownGroup (g : Group) : ShownGroup := ⟨g.name, g.preferred, g.versions.map (shownVersion g)⟩

def shownCore (v : VersionList) : ShownVersion :=
  ⟨coreVersionPath v.version, v.version, v.version, v.entries⟩

def shown (c : Catalog) : Shown := ⟨c.groups.map shownGroup, c.core.map shownCore⟩

/-- The text is an address without a query. -/
structure Plain (address : String) : Prop where
  asked : Address.ofText address = .ok address
  path : Address.path address = address

instance (address : String) : Decidable (Plain address) :=
  decidable_of_iff (Address.ofText address = .ok address ∧ Address.path address = address)
    ⟨fun both => ⟨both.1, both.2⟩, fun plain => ⟨plain.asked, plain.path⟩⟩

/-- All lists have addresses, and no group is without versions. -/
structure Readable (c : Catalog) : Prop where
  addresses : ∀ l ∈ c.listings, Plain l.1
  groups : ∀ g ∈ c.groups, g.versions ≠ []
  core : c.core ≠ []

end Catalog

namespace Discovery

/-! ## Lists that are still to be asked for -/

/-- The replies of a server are these lists, under each address in this order. -/
def Holds (s : Server) (remaining : List (String × Listing)) : Prop :=
  ∀ address, (s.routes.get? address).getD [] =
    (remaining.filter (fun l => l.1 = address)).map (fun l => Reply.listing l.2)

/-- Between different addresses the order does not count. -/
theorem Holds.move {s : Server} {l : String × Listing} {front back : List (String × Listing)}
    (holds : Holds s (l :: front ++ back)) (other : ∀ m ∈ front, m.1 ≠ l.1) :
    Holds s (front ++ l :: back) := by
  intro address
  rw [holds address]
  by_cases same : l.1 = address
  · subst same
    have none : front.filter (fun m => m.1 = l.1) = [] := by simpa using other
    simp [none]
  · simp [same]

variable {s : Server}

theorem Holds.ask {address : String} {listing : Listing} {rest : List (String × Listing)}
    (holds : Holds s ((address, listing) :: rest)) (plain : Catalog.Plain address) :
    ∃ s', s.ask address = (.listing listing, s') ∧ Holds s' rest := by
  have here := holds address
  simp only [List.filter_cons, decide_true, if_true, List.map_cons] at here
  cases found : s.routes.get? address with
  | none => simp [found] at here
  | some replies =>
    rw [found, Option.getD_some] at here
    subst here
    refine ⟨_, by rw [Server.ask]; simp only [plain.path, found]; rfl, ?_⟩
    intro other
    rw [Table.get?_insert]
    by_cases same : other = address
    · subst same
      simp
    · have elsewhere := holds other
      rw [List.filter_cons_of_neg (by simpa using Ne.symm same)] at elsewhere
      simpa [same] using elsewhere

variable {α : Type} {reading : Json.Reader α} {ofListing : Listing → Option α}

theorem Holds.fetch {address : String} {listing : Listing} {rest : List (String × Listing)}
    (holds : Holds s ((address, listing) :: rest)) (plain : Catalog.Plain address) {x : α}
    (told : ofListing listing = some x) :
    ∃ s', fetch reading ofListing address s = (.ok x, s') ∧ Holds s' rest := by
  obtain ⟨s', replied, holds'⟩ := holds.ask plain
  exact ⟨s', by simp [Discovery.fetch, plain.asked, replied, told], holds'⟩

def ShownVersion.listing (v : ShownVersion) : String × Listing :=
  (v.address, .entries v.groupVersion v.entries)

theorem Holds.showsVersions {versions : List ShownVersion} {rest : List (String × Listing)}
    (holds : Holds s (versions.map ShownVersion.listing ++ rest))
    (plain : ∀ v ∈ versions, Catalog.Plain v.address) :
    ∃ s', ShowsVersions versions s s' ∧ Holds s' rest := by
  induction versions generalizing s with
  | nil => exact ⟨s, .nil, holds⟩
  | cons v versions ih =>
    obtain ⟨first, others⟩ := List.forall_mem_cons.mp plain
    obtain ⟨next, fetched, holdsNext⟩ : ∃ next,
        fetchEntries v.address s = (.ok (v.groupVersion, v.entries), next) ∧ Holds next _ :=
      holds.fetch first rfl
    obtain ⟨s', shows, holdsRest⟩ := ih holdsNext others
    exact ⟨s', .cons fetched shows, holdsRest⟩

theorem Holds.showsGroups {groups : List ShownGroup} {rest : List (String × Listing)}
    (holds : Holds s (groups.flatMap (fun g => g.versions.map ShownVersion.listing) ++ rest))
    (filled : ∀ g ∈ groups, g.versions ≠ [])
    (plain : ∀ g ∈ groups, ∀ v ∈ g.versions, Catalog.Plain v.address) :
    ∃ s', ShowsGroups groups s s' ∧ Holds s' rest := by
  induction groups generalizing s with
  | nil => exact ⟨s, .nil, holds⟩
  | cons g groups ih =>
    obtain ⟨plainFirst, plainOthers⟩ := List.forall_mem_cons.mp plain
    obtain ⟨filledFirst, filledOthers⟩ := List.forall_mem_cons.mp filled
    rw [List.flatMap_cons, List.append_assoc] at holds
    obtain ⟨next, shows, holdsNext⟩ := holds.showsVersions plainFirst
    obtain ⟨s', showsOthers, holdsRest⟩ := ih holdsNext filledOthers plainOthers
    exact ⟨s', .cons ⟨filledFirst, shows⟩ showsOthers, holdsRest⟩

/-! ## Starting with a catalog -/

theorem getD_addReply (routes : Table String (List Reply)) (path address : String) (r : Reply) :
    ((Server.addReply routes path r).get? address).getD []
      = (routes.get? address).getD [] ++ if path = address then [r] else [] := by
  rw [Server.addReply, Table.get?_insert]
  by_cases same : address = path
  · subst same
    simp
  · simp [same, Ne.symm same]

theorem getD_addReplies (listings : List (String × Listing)) (routes : Table String (List Reply))
    (address : String) :
    ((listings.foldl (fun routes l => Server.addReply routes l.1 (.listing l.2)) routes).get?
      address).getD [] = (routes.get? address).getD [] ++
        (listings.filter (fun l => l.1 = address)).map (fun l => Reply.listing l.2) := by
  induction listings generalizing routes with
  | nil => simp
  | cons l listings ih =>
    rw [List.foldl_cons, ih, getD_addReply, List.append_assoc, List.filter_cons]
    by_cases same : l.1 = address <;> simp [same]

theorem holds_start (c : Catalog) : Holds (Server.start Table.empty c) c.listings := by
  intro address
  rw [Server.start, getD_addReplies]
  simp

theorem groupVersionPath_ne_corePath (groupVersion : String) :
    Catalog.groupVersionPath groupVersion ≠ Catalog.corePath := by
  intro same
  have long := congrArg String.length same
  have short : "/api".length = 4 := rfl
  have prefixLong : "/apis/".length = 6 := rfl
  simp only [Catalog.groupVersionPath, Catalog.corePath, toString, String.length_append] at long
  omega

theorem listings_eq (c : Catalog) :
    c.listings = (Catalog.groupsPath, .groups (c.groups.map Catalog.groupListing)) ::
      (Catalog.corePath, .versions (c.core.map VersionList.version)) ::
        (c.shown.groups.flatMap (fun g => g.versions.map ShownVersion.listing) ++
          c.shown.core.map ShownVersion.listing) := by
  simp [Catalog.listings, Catalog.shown, Catalog.shownGroup, List.flatMap_map, Function.comp_def,
    ShownVersion.listing, Catalog.shownVersion, Catalog.shownCore]
  rfl

/-- A server that is started with a catalog shows all of it. -/
theorem start_shows {c : Catalog} (readable : c.Readable) :
    ∃ s', Shows c.shown (Server.start Table.empty c) s' := by
  have plain := readable.addresses
  have holds := holds_start c
  rw [listings_eq] at plain holds
  obtain ⟨plainGroups, plain⟩ := List.forall_mem_cons.mp plain
  obtain ⟨plainCore, plain⟩ := List.forall_mem_cons.mp plain
  obtain ⟨plainVersions, plainCoreVersions⟩ := List.forall_mem_append.mp plain
  obtain ⟨s₁, groups, holds⟩ : ∃ s₁, fetchGroups (Server.start Table.empty c) =
      (.ok (c.groups.map Catalog.groupListing), s₁) ∧ Holds s₁ _ := holds.fetch plainGroups rfl
  -- The core versions are asked for after the groups, but stand before them in the catalog.
  have apart : ∀ g ∈ c.shown.groups, ∀ v ∈ g.versions, v.address ≠ Catalog.corePath := by
    simp [Catalog.shown, Catalog.shownGroup, Catalog.shownVersion, groupVersionPath_ne_corePath]
  have holds := holds.move (by
    intro l mem
    obtain ⟨g, among, mem⟩ := List.mem_flatMap.mp mem
    obtain ⟨v, listed, rfl⟩ := List.mem_map.mp mem
    exact apart g among v listed)
  have filled : ∀ g ∈ c.shown.groups, g.versions ≠ [] := by
    simpa [Catalog.shown, Catalog.shownGroup] using readable.groups
  have plainLists : ∀ g ∈ c.shown.groups, ∀ v ∈ g.versions, Catalog.Plain v.address := by
    intro g among v listed
    exact plainVersions v.listing (List.mem_flatMap.mpr ⟨g, among, List.mem_map_of_mem listed⟩)
  obtain ⟨s₂, groupLists, holds⟩ := holds.showsGroups filled plainLists
  obtain ⟨s₃, core, holds⟩ : ∃ s₃, fetchVersions s₂ = (.ok (c.core.map VersionList.version), s₃) ∧
      Holds s₃ _ := holds.fetch plainCore rfl
  rw [← List.append_nil (c.shown.core.map ShownVersion.listing)] at holds
  obtain ⟨s', coreLists, -⟩ := holds.showsVersions (fun v listed =>
    plainCoreVersions v.listing (List.mem_map_of_mem listed))
  refine ⟨s', .intro groups ?_ groupLists core ?_ ⟨?_, coreLists⟩⟩
  · rw [Catalog.shown, List.forall₂_map_left_iff, List.forall₂_map_right_iff, List.forall₂_same]
    intro g _
    exact ⟨rfl, rfl, by simp [Catalog.shownGroup, Catalog.groupListing, ShownVersion.asked,
      addressed, Catalog.shownVersion, Catalog.versionName]⟩
  · simp [Catalog.shown, Catalog.shownCore, ShownVersion.asked, coreAddressed]
  · simpa [Catalog.shown] using readable.core

end Discovery

end WatchDispatch.Cluster
