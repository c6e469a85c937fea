import WatchDispatch.Proofs.Cluster.Catalogs
import WatchDispatch.Proofs.Cluster.Offers

/-!
# Finding the resource of a key

A key is resolved among the resources that the groups offer, one version of each. The search
succeeds exactly if such a version lists the kind, and what it finds is the resource of such an
entry, in whatever order the groups are visited. A kind that only versions list that their groups do
not offer is not found.
-/

namespace WatchDispatch.Cluster

namespace Entry

/-- The entry is a resource of its own and no part of another one. -/
def TopLevel (e : Entry) : Prop := '/' ∉ e.name.toList

def gvk (groupVersion : String) (e : Entry) : Gvk :=
  let (group, version) := Discovery.splitGroupVersion groupVersion
  ⟨e.group.getD group, e.version.getD version, e.kind⟩

def resource (groupVersion : String) (e : Entry) : ApiResource :=
  let (group, version) := Discovery.splitGroupVersion groupVersion
  ⟨e.group.getD group, e.version.getD version, ApiResource.groupVersion group version,
    e.kind, e.name⟩

end Entry

namespace Discovery

/-- The answer for a kind when the groups are visited in this order. -/
def answer (g : Gvk) (visited : List KnownGroup) : Except ConnectError Found :=
  match find? g visited with
  | some found => .ok found
  | none => .error (.notFound g)

structure Shown.Lists (c : Shown) (g : Gvk) (group : ShownGroup) (v : ShownVersion) (e : Entry) :
    Prop where
  ofServer : group ∈ c.all
  ofGroup : v ∈ group.versions
  ofVersion : e ∈ v.entries
  topLevel : e.TopLevel
  kind : e.gvk v.groupVersion = g

/-- The group is the last one of its name. -/
def Shown.Lasting (c : Shown) (group : ShownGroup) : Prop :=
  ∃ earlier later, c.all = earlier ++ group :: later ∧ ∀ other ∈ later, other.name ≠ group.name

/-- The group counts and offers the version. -/
structure Shown.Offers (c : Shown) (group : ShownGroup) (v : ShownVersion) : Prop where
  lasting : c.Lasting group
  offered : Offered ShownVersion.version group.preferred group.versions v

/-- A version that is offered lists an entry of the kind. -/
structure Shown.OffersKind (c : Shown) (g : Gvk) (group : ShownGroup) (v : ShownVersion)
    (e : Entry) : Prop where
  offers : c.Offers group v
  lists : c.Lists g group v e

/-! ## What is found -/

theorem isOf_resourceOf_iff {g : Gvk} {groupVersion : String} {entries : List Entry} {e : Entry} :
    isOf g (resourceOf groupVersion entries e) = true ↔ e.gvk groupVersion = g := by
  obtain ⟨group, version, kind⟩ := g
  rw [isOf, Bool.and_eq_true, Bool.and_eq_true, decide_eq_true_eq, decide_eq_true_eq,
    decide_eq_true_eq, and_assoc, Entry.gvk, Gvk.mk.injEq]
  exact Iff.rfl

/-- Whether the objects of a resource belong to namespaces is said by an entry of its name. -/
theorem exists_namespaced {groupVersion : String} {entries : List Entry} {e : Entry}
    (mem : e ∈ entries) : ∃ other ∈ entries, other.name = e.name ∧
      (resourceOf groupVersion entries e).2 = other.namespaced := by
  cases found : entries.find? (fun other => other.name = e.name) with
  | none =>
    have other : ¬ e.name = e.name := by simpa using List.find?_eq_none.mp found e mem
    exact absurd rfl other
  | some other =>
    exact ⟨other, List.mem_of_find?_eq_some found, by simpa using List.find?_some found,
      by simp [resourceOf, found]⟩

theorem mem_resourcesOf_iff {groupVersion : String} {entries : List Entry} {found : Found} :
    found ∈ resourcesOf groupVersion entries ↔
      ∃ e ∈ entries, e.TopLevel ∧ resourceOf groupVersion entries e = found := by
  simp [resourcesOf, Entry.TopLevel, and_assoc]

variable {c : Shown}

theorem mem_known_iff {known : KnownGroup} :
    known ∈ c.known ↔ ∃ group, c.Lasting group ∧ group.known = known := by
  rw [Shown.known, mem_latestOfName_iff]
  constructor
  · rintro ⟨earlier, later, parts, others⟩
    obtain ⟨front, back, all, rfl, behind⟩ := List.map_eq_append_iff.mp parts
    obtain ⟨group, rest, rfl, rfl, rfl⟩ := List.map_eq_cons_iff.mp behind
    exact ⟨group, ⟨front, rest, all, by simpa [ShownGroup.known] using others⟩, rfl⟩
  · rintro ⟨group, ⟨earlier, later, all, others⟩, rfl⟩
    refine ⟨earlier.map ShownGroup.known, later.map ShownGroup.known, by simp [all], ?_⟩
    simpa [ShownGroup.known] using others

theorem mem_resources_known_iff {group : ShownGroup} {found : Found} :
    found ∈ group.known.resources ↔
      ∃ v, Offered ShownVersion.version group.preferred group.versions v ∧
        ∃ e ∈ v.entries, e.TopLevel ∧ resourceOf v.groupVersion v.entries e = found := by
  rw [KnownGroup.mem_resources_iff]
  constructor
  · rintro ⟨known, offered, mem⟩
    obtain ⟨v, rfl, shown⟩ := offered_map_iff.mp offered
    exact ⟨v, shown, mem_resourcesOf_iff.mp mem⟩
  · rintro ⟨v, offered, listed⟩
    exact ⟨v.known, offered_map_iff.mpr ⟨v, rfl, offered⟩, mem_resourcesOf_iff.mpr listed⟩

theorem Shown.Lasting.mem {group : ShownGroup} (lasting : c.Lasting group) : group ∈ c.all := by
  obtain ⟨earlier, later, all, -⟩ := lasting
  simp [all]

/-- A group offers the kind exactly where one of its resources is of the kind. -/
theorem exists_isOf_iff {g : Gvk} {group : ShownGroup} (lasting : c.Lasting group) {found : Found} :
    (found ∈ group.known.resources ∧ isOf g found = true) ↔
      ∃ v e, c.OffersKind g group v e ∧ resourceOf v.groupVersion v.entries e = found := by
  rw [mem_resources_known_iff]
  constructor
  · rintro ⟨⟨v, offered, e, mem, topLevel, rfl⟩, same⟩
    exact ⟨v, e, ⟨⟨lasting, offered⟩, lasting.mem, offered.mem, mem, topLevel,
      isOf_resourceOf_iff.mp same⟩, rfl⟩
  · rintro ⟨v, e, ⟨offers, lists⟩, rfl⟩
    exact ⟨⟨v, offers.offered, e, lists.ofVersion, lists.topLevel, rfl⟩,
      isOf_resourceOf_iff.mpr lists.kind⟩

/-- The first hit in a list does not depend on its order if all hits are the same. -/
theorem findSome?_eq_of_perm {α β : Type} {f : α → Option β} {l l' : List α} (perm : l.Perm l')
    (agree : ∀ a ∈ l, ∀ b ∈ l, ∀ x y, f a = some x → f b = some y → x = y) :
    l.findSome? f = l'.findSome? f := by
  cases first : l.findSome? f with
  | none =>
    have none := List.findSome?_eq_none_iff.mp first
    exact (List.findSome?_eq_none_iff.mpr (fun a mem => none a (perm.mem_iff.mpr mem))).symm
  | some x =>
    obtain ⟨a, mem, hit⟩ := List.exists_of_findSome?_eq_some first
    cases second : l'.findSome? f with
    | none =>
      have miss := List.findSome?_eq_none_iff.mp second a (perm.mem_iff.mp mem)
      rw [hit] at miss
      cases miss
    | some y =>
      obtain ⟨b, mem', hit'⟩ := List.exists_of_findSome?_eq_some second
      rw [agree a mem b (perm.mem_iff.mpr mem') x y hit hit']

variable {g : Gvk} {visited : List KnownGroup} (order : visited.Perm c.known)

include order

theorem mem_visited_iff {found : Found} :
    (found ∈ visited.flatMap KnownGroup.resources ∧ isOf g found = true) ↔
      ∃ group v e, c.OffersKind g group v e ∧ resourceOf v.groupVersion v.entries e = found := by
  constructor
  · rintro ⟨mem, same⟩
    obtain ⟨known, among, mem⟩ := List.mem_flatMap.mp mem
    obtain ⟨group, lasting, rfl⟩ := mem_known_iff.mp (order.mem_iff.mp among)
    exact ⟨group, (exists_isOf_iff lasting).mp ⟨mem, same⟩⟩
  · rintro ⟨group, v, e, kind, rfl⟩
    have lasting := kind.offers.lasting
    obtain ⟨mem, same⟩ := (exists_isOf_iff lasting).mpr ⟨v, e, kind, rfl⟩
    have among := order.mem_iff.mpr (mem_known_iff.mpr ⟨group, lasting, rfl⟩)
    exact ⟨List.mem_flatMap.mpr ⟨_, among, mem⟩, same⟩

/-- What is answered is the resource of an entry that is offered. -/
theorem offersKind_of_answer {found : Found} (answered : answer g visited = .ok found) :
    ∃ group v e, c.OffersKind g group v e ∧ resourceOf v.groupVersion v.entries e = found := by
  apply (mem_visited_iff order).mp
  unfold answer at answered
  split at answered
  next r hit =>
    obtain rfl := Except.ok.inj answered
    exact ⟨List.mem_of_find?_eq_some hit, List.find?_some hit⟩
  next => cases answered

/-- A resource is found exactly if the kind is offered. -/
theorem exists_answer_iff :
    (∃ found, answer g visited = .ok found) ↔ ∃ group v e, c.OffersKind g group v e := by
  constructor
  · rintro ⟨found, answered⟩
    obtain ⟨group, v, e, kind, -⟩ := offersKind_of_answer order answered
    exact ⟨group, v, e, kind⟩
  · rintro ⟨group, v, e, kind⟩
    obtain ⟨mem, same⟩ := (mem_visited_iff order).mpr ⟨group, v, e, kind, rfl⟩
    cases hit : find? g visited with
    | some found => exact ⟨found, by rw [answer, hit]⟩
    | none => exact absurd same (List.find?_eq_none.mp hit _ mem)

theorem answer_eq_notFound (none : ∀ group v e, ¬ c.OffersKind g group v e) :
    answer g visited = .error (.notFound g) := by
  cases hit : find? g visited with
  | some found =>
    obtain ⟨group, v, e, kind⟩ := (exists_answer_iff order).mp ⟨found, by rw [answer, hit]⟩
    exact absurd kind (none group v e)
  | none => rw [answer, hit]

/-- If only one group offers the kind, the order in which groups are visited does not count. -/
theorem answer_eq_of_single (single : ∀ group v e group' v' e', c.OffersKind g group v e →
    c.OffersKind g group' v' e' → group.name = group'.name) :
    answer g visited = answer g c.known := by
  have same : find? g visited = find? g c.known := by
    rw [find?, find?, List.find?_flatMap, List.find?_flatMap]
    apply findSome?_eq_of_perm order
    intro known mem known' mem' found found' hit hit'
    obtain ⟨group, lasting, rfl⟩ := mem_known_iff.mp (order.mem_iff.mp mem)
    obtain ⟨group', lasting', rfl⟩ := mem_known_iff.mp (order.mem_iff.mp mem')
    obtain ⟨v, e, kind, -⟩ := (exists_isOf_iff lasting).mp
      ⟨List.mem_of_find?_eq_some hit, List.find?_some hit⟩
    obtain ⟨v', e', kind', -⟩ := (exists_isOf_iff lasting').mp
      ⟨List.mem_of_find?_eq_some hit', List.find?_some hit'⟩
    have named : group.known.name = group'.known.name := single _ _ _ _ _ _ kind kind'
    have one := List.inj_on_of_nodup_map (latestOfName_names _) (order.mem_iff.mp mem)
      (order.mem_iff.mp mem') named
    rw [one, hit'] at hit
    exact (Option.some.inj hit).symm
  rw [answer, answer, same]

omit order

/-! ## Resolving a key -/

theorem resolve_eq {key : String} {s s' : Server} (named : Gvk.parse? key = some g)
    (shows : Shows c s s') : resolve key s = (answer g c.known, s') := by
  have read := readAll_eq_ok_iff.mpr ⟨c, shows, rfl⟩
  cases hit : find? g c.known with
  | none => simp [resolve, named, read, answer, hit]
  | some found => simp [resolve, named, read, answer, hit]

/-- On a server that can be read completely a key is resolved by the groups that it shows, and the
answer is this for every order in which they are visited: a resource is found exactly if a version
that its group offers lists the kind, and else the kind is reported as not found. The resource is
the one of such an entry, and an entry of its name says whether its objects belong to namespaces; if
one group alone offers the kind, the order does not count at all. If every version that lists the
kind is offered, all kinds that are listed are found. -/
theorem resolves_what_is_offered {key : String} {s s' : Server}
    (named : Gvk.parse? key = some g) (shows : Shows c s s') :
    resolve key s = (answer g c.known, s') ∧
    ∀ visited, visited.Perm c.known →
      ((∃ found, answer g visited = .ok found) ↔ ∃ group v e, c.OffersKind g group v e) ∧
      ((∀ group v e, ¬ c.OffersKind g group v e) → answer g visited = .error (.notFound g)) ∧
      (∀ found, answer g visited = .ok found → ∃ group v e, c.OffersKind g group v e ∧
        found.1 = e.resource v.groupVersion ∧
        (∃ other ∈ v.entries, other.name = e.name ∧ found.2 = other.namespaced) ∧
        ((∀ other ∈ v.entries, other.name = e.name → other.namespaced = e.namespaced) →
          found.2 = e.namespaced)) ∧
      ((∀ group v e group' v' e', c.OffersKind g group v e → c.OffersKind g group' v' e' →
        group.name = group'.name) → answer g visited = answer g c.known) ∧
      ((∀ group v e, c.Lists g group v e → c.Offers group v) →
        ((∃ found, answer g visited = .ok found) ↔ ∃ group v e, c.Lists g group v e)) := by
  refine ⟨resolve_eq named shows, ?_⟩
  intro visited order
  have found_iff := @exists_answer_iff c g visited order
  refine ⟨found_iff, answer_eq_notFound order, ?_, answer_eq_of_single order, ?_⟩
  · intro found answered
    obtain ⟨group, v, e, kind, rfl⟩ := offersKind_of_answer order answered
    obtain ⟨other, mem, named, flag⟩ := exists_namespaced kind.lists.ofVersion
    refine ⟨group, v, e, kind, rfl, ⟨other, mem, named, flag⟩, ?_⟩
    intro alike
    exact flag.trans (alike other mem named)
  · intro offered
    rw [found_iff]
    constructor
    · rintro ⟨group, v, e, kind⟩
      exact ⟨group, v, e, kind.lists⟩
    · rintro ⟨group, v, e, lists⟩
      exact ⟨group, v, e, offered group v e lists, lists⟩

namespace Sample

def widget : Entry := ⟨"widgets", "Widget", true, none, none⟩

/-- Widgets in two versions, of which `v1` is preferred. -/
def widgetGroup : Group :=
  ⟨"example.com", some "v1", [⟨"v1", [widget]⟩, ⟨"v1beta1", [widget]⟩]⟩

/-- Widgets beside the pods of the core group. -/
def twoVersions : Catalog := ⟨[widgetGroup], [⟨"v1", [⟨"pods", "Pod", true, none, none⟩]⟩]⟩

theorem twoVersions_readable : twoVersions.Readable :=
  ⟨by decide +kernel, by simp [twoVersions, widgetGroup], by simp [twoVersions]⟩

theorem twoVersions_lists (version : VersionList) (mem : version ∈ widgetGroup.versions) :
    twoVersions.shown.Lists ⟨"example.com", version.version, "Widget"⟩
      (Catalog.shownGroup widgetGroup) (Catalog.shownVersion widgetGroup version) widget := by
  refine ⟨by simp [twoVersions, Catalog.shown, Shown.all], List.mem_map_of_mem mem, ?_,
    by simp [Entry.TopLevel, widget], ?_⟩
  all_goals
    simp only [widgetGroup, List.mem_cons, List.not_mem_nil, or_false] at mem
    rcases mem with rfl | rfl
    all_goals decide +kernel

theorem version_of_offers {group : ShownGroup} {v : ShownVersion}
    (offers : twoVersions.shown.Offers group v) : v.version = "v1" := by
  have preferred : ∀ group ∈ twoVersions.shown.all, group.preferred = some "v1" := by decide
  have offered := offers.offered
  rw [preferred group offers.lasting.mem] at offered
  exact (offered_some_iff.mp offered).1

end Sample

/-- The preferred version of widgets is found. -/
theorem preferred_widgets_found :
    Gvk.parse? "example.com/v1/Widget" = some ⟨"example.com", "v1", "Widget"⟩ ∧
    ∃ s', Shows Sample.twoVersions.shown (Server.start Table.empty Sample.twoVersions) s' ∧
      ∃ found, resolve "example.com/v1/Widget" (Server.start Table.empty Sample.twoVersions) =
        (.ok found, s') := by
  have named : Gvk.parse? "example.com/v1/Widget" = some ⟨"example.com", "v1", "Widget"⟩ := by
    decide
  obtain ⟨s', shows⟩ := start_shows Sample.twoVersions_readable
  obtain ⟨resolved, answers⟩ := resolves_what_is_offered named shows
  obtain ⟨finds, -⟩ := answers _ (List.Perm.refl _)
  have lists := Sample.twoVersions_lists ⟨"v1", [Sample.widget]⟩ (by simp [Sample.widgetGroup])
  have lasting : Sample.twoVersions.shown.Lasting (Catalog.shownGroup Sample.widgetGroup) :=
    ⟨[], _, rfl, by simp [Catalog.shownGroup, Sample.widgetGroup]⟩
  obtain ⟨found, answered⟩ := finds.mpr
    ⟨_, _, _, ⟨lasting, offered_some_iff.mpr ⟨rfl, [], _, rfl, by simp⟩⟩, lists⟩
  exact ⟨named, s', shows, found, by rw [resolved, answered]⟩

/-- The other version lists widgets too, but they are not found in it. -/
theorem other_widgets_not_found :
    Gvk.parse? "example.com/v1beta1/Widget" = some ⟨"example.com", "v1beta1", "Widget"⟩ ∧
    (∃ s', Shows Sample.twoVersions.shown (Server.start Table.empty Sample.twoVersions) s') ∧
    (∃ group v e, Sample.twoVersions.shown.Lists ⟨"example.com", "v1beta1", "Widget"⟩ group v e) ∧
    (resolve "example.com/v1beta1/Widget" (Server.start Table.empty Sample.twoVersions)).1 =
      .error (.notFound ⟨"example.com", "v1beta1", "Widget"⟩) := by
  have named : Gvk.parse? "example.com/v1beta1/Widget" =
      some ⟨"example.com", "v1beta1", "Widget"⟩ := by
    decide
  obtain ⟨s', shows⟩ := start_shows Sample.twoVersions_readable
  have lists := Sample.twoVersions_lists ⟨"v1beta1", [Sample.widget]⟩ (by simp [Sample.widgetGroup])
  have listed : ∀ group ∈ Sample.twoVersions.shown.all, ∀ v ∈ group.versions, ∀ e ∈ v.entries,
      e.gvk v.groupVersion = ⟨"example.com", "v1beta1", "Widget"⟩ → v.version = "v1beta1" := by
    decide +kernel
  refine ⟨named, ⟨s', shows⟩, ⟨_, _, _, lists⟩, ?_⟩
  rw [resolve_eq named shows]
  apply answer_eq_notFound (List.Perm.refl _)
  intro group v e kind
  have version := listed group kind.lists.ofServer v kind.lists.ofGroup e kind.lists.ofVersion
    kind.lists.kind
  rw [Sample.version_of_offers kind.offers] at version
  exact absurd version (by decide)

end Discovery

end WatchDispatch.Cluster
