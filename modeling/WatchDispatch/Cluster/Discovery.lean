import WatchDispatch.Cluster.Listing
import WatchDispatch.Cluster.Server
import WatchDispatch.Cluster.StatusCode
import WatchDispatch.Json.Parser
import WatchDispatch.Text.Numeral

/-!
Discovery: finding the resource of a kind on a server.

All groups with all their versions are read first, the core group last. Then each group offers the
resources of one version: the preferred one, or the latest one if none is preferred; the core group
prefers `v1`. Stable versions come before beta, alpha and irregular ones, higher numbers before
lower. The first list that is refused or cannot be read ends the search with its error.
-/

namespace WatchDispatch.Cluster

inductive Stability where
  | stable
  | beta
  | alpha
  | irregular
deriving DecidableEq, Repr, Inhabited

structure VersionRank where
  stability : Stability
  major : Nat
  /-- The number after `alpha` or `beta`. -/
  minor : Option Nat
  name : String
deriving DecidableEq, Repr, Inhabited

namespace VersionRank

/-- The stability and the number named behind the major number. -/
def suffix? (cs : List Char) : Option (Stability × Option Nat) :=
  let numbered (stability : Stability) (rest : List Char) : Option (Stability × Option Nat) :=
    if rest = [] then some (stability, none)
    else (Text.nat32? (String.ofList rest)).map (fun n => (stability, some n))
  match cs with
  | [] => some (.stable, none)
  | 'a' :: 'l' :: 'p' :: 'h' :: 'a' :: rest => numbered .alpha rest
  | 'b' :: 'e' :: 't' :: 'a' :: rest => numbered .beta rest
  | _ => none

/-- The rank of a version of the form `vN`, `vNbetaM` or `vNalphaM`. -/
def regular? (name : String) : Option VersionRank :=
  match name.toList with
  | 'v' :: cs => do
    let major ← Text.nat32? (String.ofList (cs.takeWhile Char.isDigit))
    let (stability, minor) ← suffix? (cs.dropWhile Char.isDigit)
    some ⟨stability, major, minor, ""⟩
  | _ => none

def ofName (name : String) : VersionRank := (regular? name).getD ⟨.irregular, 0, none, name⟩

def place : Stability → Nat
  | .stable => 3
  | .beta => 2
  | .alpha => 1
  | .irregular => 0

/-- A number that may be missing: missing ones come last. -/
def minorPlace : Option Nat → Nat
  | none => 0
  | some n => n + 1

/-- Whether a version comes strictly before another one. -/
def before (a b : VersionRank) : Bool :=
  if place a.stability ≠ place b.stability then decide (place b.stability < place a.stability)
  else if a.major ≠ b.major then decide (b.major < a.major)
  else if minorPlace a.minor ≠ minorPlace b.minor then
    decide (minorPlace b.minor < minorPlace a.minor)
  else decide (a.name < b.name)

end VersionRank

/-- A resource with the question whether its objects belong to namespaces. -/
abbrev Found := ApiResource × Bool

structure KnownVersion where
  version : String
  resources : List Found
deriving Repr, Inhabited

/-- A group after all its versions were read. -/
structure KnownGroup where
  name : String
  preferred : Option String
  versions : List KnownVersion
deriving Repr, Inhabited

inductive ConnectError where
  | invalidKey (key : String)
  | client (e : ClientError)
  | notFound (g : Gvk)
deriving DecidableEq, Repr, Inhabited

def ConnectError.chain : ConnectError → String
  | invalidKey key => Gvk.invalidKey key
  | client e => e.chain
  | notFound g => s!"GVK not found: {g.path}"

namespace KnownGroup

/-- The versions, the latest first. -/
def ranked (g : KnownGroup) : List KnownVersion :=
  g.versions.mergeSort
    (fun a b => !(VersionRank.ofName b.version).before (VersionRank.ofName a.version))

/-- The version that the group offers. -/
def offered (g : KnownGroup) : Option String :=
  match g.preferred with
  | some version => some version
  | none => g.ranked.head?.map KnownVersion.version

/-- The resources that the group offers. -/
def resources (g : KnownGroup) : List Found :=
  match g.ranked.find? (fun v => some v.version = g.offered) with
  | some v => v.resources
  | none => []

end KnownGroup

namespace Discovery

/-- The group and the version in a text, on both sides of its first slash; a text without slash is a
version of the core group. -/
def splitGroupVersion (s : String) : String × String :=
  let cs := s.toList
  match cs.dropWhile (· != '/') with
  | [] => ("", s)
  | _ :: version => (String.ofList (cs.takeWhile (· != '/')), String.ofList version)

/-- The resource of an entry in the list of a version. Whether its objects belong to namespaces is
said by the first entry of its name. -/
def resourceOf (groupVersion : String) (entries : List Entry) (e : Entry) : Found :=
  let (group, version) := splitGroupVersion groupVersion
  let first := (entries.find? (fun other => other.name = e.name)).getD e
  let apiVersion := ApiResource.groupVersion group version
  (⟨e.group.getD group, e.version.getD version, apiVersion, e.kind, e.name⟩, first.namespaced)

/-- The resources in the list of a version; parts of resources are left out. -/
def resourcesOf (groupVersion : String) (entries : List Entry) : List Found :=
  (entries.filter (fun e => !e.name.toList.contains '/')).map (resourceOf groupVersion entries)

/-- The failure that an answer reports: the status that it holds, or one made up of its code and its
body. -/
def failure (a : Answer) : Status :=
  match Json.read Status.read a.body with
  | .ok status => status
  | .error _ =>
    ⟨StatusCode.text a.status, Text.quoted a.body, "Failed to parse error data", a.status⟩

/-- What an answer holds. The body is taken in full before its code is looked at. -/
def document {α : Type} (reading : Json.Reader α) (a : Answer) : Except ClientError α :=
  match a.ending with
  | .breaksOff => .error (.service "unexpected EOF during chunk" [])
  | .resets => .error (.service "connection reset" [])
  | .closes | .hangs =>
    if StatusCode.isFailure a.status then .error (.response (failure a))
    else ((Json.read reading a.body).mapError (fun _ => .unreadable))

/-- Asks for a list, which is written in an answer or one of the catalog. -/
def fetch {α : Type} (reading : Json.Reader α) (ofListing : Listing → Option α) (path : String)
    (s : Server) : Except ClientError α × Server :=
  match Address.ofText path with
  | .error e => (.error (.address e), s)
  | .ok uri =>
    match s.ask uri with
    | (.refused e, s) => (.error e, s)
    | (.listing listing, s) => ((ofListing listing).elim (.error .unreadable) .ok, s)
    | (.answer a, s) => (document reading a, s)

def fetchGroups : Server → Except ClientError (List GroupListing) × Server :=
  fetch Listing.readGroups Listing.groups? Catalog.groupsPath

def fetchVersions : Server → Except ClientError (List String) × Server :=
  fetch Listing.readVersions Listing.versions? Catalog.corePath

def fetchEntries : String → Server → Except ClientError (String × List Entry) × Server :=
  fetch Listing.readEntries Listing.entries?

/-- Reads versions, given by their addresses and names, in order up to the first error. -/
def readVersions :
    List (String × String) → Server → Except ClientError (List KnownVersion) × Server
  | [], s => (.ok [], s)
  | (path, version) :: rest, s =>
    match fetchEntries path s with
    | (.error e, s) => (.error e, s)
    | (.ok (groupVersion, entries), s) =>
      match readVersions rest s with
      | (.ok known, s) => (.ok (⟨version, resourcesOf groupVersion entries⟩ :: known), s)
      | (.error e, s) => (.error e, s)

/-- Reads a group, given by its name, its preferred version and all its versions; one without
versions is an error. -/
def readGroup (name : String) (preferred : Option String) (versions : List (String × String))
    (s : Server) : Except ClientError KnownGroup × Server :=
  if versions.isEmpty then (.error (.emptyGroup name), s)
  else
    match readVersions versions s with
    | (.ok known, s) => (.ok ⟨name, preferred, known⟩, s)
    | (.error e, s) => (.error e, s)

def addressed (v : VersionName) : String × String :=
  (Catalog.groupVersionPath v.groupVersion, v.version)

/-- Reads groups in order, up to the first error. -/
def readGroups : List GroupListing → Server → Except ClientError (List KnownGroup) × Server
  | [], s => (.ok [], s)
  | g :: rest, s =>
    match readGroup g.name g.preferred (g.versions.map addressed) s with
    | (.ok group, s) =>
      match readGroups rest s with
      | (.ok groups, s) => (.ok (group :: groups), s)
      | (.error e, s) => (.error e, s)
    | (.error e, s) => (.error e, s)

def readCore (s : Server) : Except ClientError KnownGroup × Server :=
  match fetchVersions s with
  | (.ok versions, s) =>
    readGroup "" (some "v1")
      (versions.map (fun version => (Catalog.coreVersionPath version, version))) s
  | (.error e, s) => (.error e, s)

/-- Drops a group if a later one has the same name. -/
def latestOfName (groups : List KnownGroup) : List KnownGroup :=
  groups.foldr
    (fun g kept => if kept.any (fun later => later.name = g.name) then kept else g :: kept) []

def readAll (s : Server) : Except ClientError (List KnownGroup) × Server :=
  match fetchGroups s with
  | (.ok listings, s) =>
    match readGroups listings s with
    | (.ok groups, s) =>
      match readCore s with
      | (.ok core, s) => (.ok (latestOfName (groups ++ [core])), s)
      | (.error e, s) => (.error e, s)
    | (.error e, s) => (.error e, s)
  | (.error e, s) => (.error e, s)

def isOf (g : Gvk) (found : Found) : Bool :=
  found.1.group = g.group && found.1.version = g.version && found.1.kind = g.kind

def find? (g : Gvk) (groups : List KnownGroup) : Option Found :=
  (groups.flatMap KnownGroup.resources).find? (isOf g)

/-- The resource that a key names. The key is looked at before anything is asked. -/
def resolve (key : String) (s : Server) : Except ConnectError Found × Server :=
  match Gvk.parse? key with
  | none => (.error (.invalidKey key), s)
  | some g =>
    match readAll s with
    | (.error e, s) => (.error (.client e), s)
    | (.ok groups, s) =>
      match find? g groups with
      | some found => (.ok found, s)
      | none => (.error (.notFound g), s)

end Discovery

end WatchDispatch.Cluster
