import WatchDispatch.Cluster.Resource

/-!
Catalogs: what a server offers.

A server offers groups, each with versions and possibly a preferred one, and the versions of the
core group; every version lists its kinds. Each of these lists has an address of its own.
-/

namespace WatchDispatch.Cluster

structure Entry where
  /-- The plural name; one with a slash is a part of another resource. -/
  name : String
  kind : String
  namespaced : Bool
  /-- The group, if it is not that of the list. -/
  group : Option String
  /-- The version, if it is not that of the list. -/
  version : Option String
deriving DecidableEq, Repr, Inhabited

structure VersionList where
  version : String
  entries : List Entry
deriving Repr, Inhabited

structure Group where
  name : String
  preferred : Option String
  versions : List VersionList
deriving Repr, Inhabited

structure Catalog where
  groups : List Group
  /-- The versions of the core group. -/
  core : List VersionList
deriving Repr, Inhabited

structure VersionName where
  /-- The group and the version in one text, which is part of the address of the kinds. -/
  groupVersion : String
  version : String
deriving DecidableEq, Repr, Inhabited

structure GroupListing where
  name : String
  preferred : Option String
  versions : List VersionName
deriving DecidableEq, Repr, Inhabited

inductive Listing where
  | groups (groups : List GroupListing)
  /-- The versions of the core group. -/
  | versions (versions : List String)
  /-- The kinds of one version, under the version that the server names. -/
  | entries (groupVersion : String) (entries : List Entry)
deriving Repr, Inhabited

namespace Listing

def groups? : Listing → Option (List GroupListing)
  | groups found => some found
  | _ => none

def versions? : Listing → Option (List String)
  | versions found => some found
  | _ => none

def entries? : Listing → Option (String × List Entry)
  | entries groupVersion found => some (groupVersion, found)
  | _ => none

end Listing

namespace Catalog

def groupsPath : String := "/apis"

def corePath : String := "/api"

def groupVersionPath (groupVersion : String) : String := s!"/apis/{groupVersion}"

def coreVersionPath (version : String) : String := s!"/api/{version}"

def versionName (g : Group) (v : VersionList) : VersionName := ⟨s!"{g.name}/{v.version}", v.version⟩

def groupListing (g : Group) : GroupListing := ⟨g.name, g.preferred, g.versions.map (versionName g)⟩

def versionListing (g : Group) (v : VersionList) : String × Listing :=
  let groupVersion := (versionName g v).groupVersion
  (groupVersionPath groupVersion, .entries groupVersion v.entries)

/-- All lists with their addresses. Two lists with one address are shown one after the other. -/
def listings (c : Catalog) : List (String × Listing) :=
  (groupsPath, .groups (c.groups.map groupListing)) ::
    (corePath, .versions (c.core.map VersionList.version)) ::
    (c.groups.flatMap (fun g => g.versions.map (versionListing g)) ++
      c.core.map (fun v => (coreVersionPath v.version, .entries v.version v.entries)))

end Catalog

end WatchDispatch.Cluster
