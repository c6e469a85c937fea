import WatchDispatch.Cluster.Catalog
import WatchDispatch.Json.Reading

/-!
Written lists of what a server offers.

All of them are open records, and every field may be missing or `null`: an absent text is empty, an
absent list has no items, and what is not said to belong to namespaces does not. The fields that
name the kind of a list have to name the one that was asked for.
-/

namespace WatchDispatch.Cluster

open Json (Draft Reader)

namespace Listing

def optionalText : Reader String :=
  fun d => (Draft.optional Draft.string d).map (fun s => s.getD "")

def optionalList {α : Type} (read : Reader α) : Reader (List α) := fun d =>
  (Draft.optional (Draft.list read) d).map (fun items => items.getD [])

/-- The fields that all written lists have: the version of the form, which is `v1`, and its kind.
Other fields are passed over. -/
def formStep {σ : Type} (kind : String) (s : σ) : String → Reader σ
  | "apiVersion", d => (Draft.constant "v1" d).map (fun _ => s)
  | "kind", d => (Draft.constant kind d).map (fun _ => s)
  | _, d => Draft.ignored s d

/-- The fields of a server address, none of which is kept. -/
def addressField? : String → Option (Reader Json)
  | "clientCIDR" | "serverAddress" => some (Draft.asJson .text Draft.string)
  | _ => none

/-- Addresses of the server, which are checked and dropped. -/
def passAddresses {σ : Type} (s : σ) : Reader σ := fun d =>
  (Draft.optional (Draft.list (Draft.openRecord addressField?)) d).map (fun _ => s)

def versionStep (v : VersionName) : String → Reader VersionName
  | "groupVersion", d => (optionalText d).map (fun s => { v with groupVersion := s })
  | "version", d => (optionalText d).map (fun s => { v with version := s })
  | _, d => Draft.ignored v d

def versionName : Reader VersionName := Draft.record versionStep ⟨"", ""⟩

def groupStep (g : GroupListing) : String → Reader GroupListing
  | "name", d => (optionalText d).map (fun s => { g with name := s })
  | "preferredVersion", d =>
    (Draft.optional versionName d).map (fun v => { g with preferred := v.map VersionName.version })
  | "serverAddressByClientCIDRs", d => passAddresses g d
  | "versions", d => (optionalList versionName d).map (fun vs => { g with versions := vs })
  | name, d => formStep "APIGroup" g name d

def group : Reader GroupListing := Draft.record groupStep ⟨"", none, []⟩

def groupsStep (groups : List GroupListing) : String → Reader (List GroupListing)
  | "groups", d => optionalList group d
  | name, d => formStep "APIGroupList" groups name d

def readGroups : Reader (List GroupListing) := Draft.record groupsStep []

def coreStep (versions : List String) : String → Reader (List String)
  | "serverAddressByClientCIDRs", d => passAddresses versions d
  | "versions", d => optionalList Draft.string d
  | name, d => formStep "APIVersions" versions name d

def readVersions : Reader (List String) := Draft.record coreStep []

def passTexts {σ : Type} (s : σ) : Reader σ := fun d =>
  (optionalList Draft.string d).map (fun _ => s)

def entryStep (e : Entry) : String → Reader Entry
  | "name", d => (optionalText d).map (fun s => { e with name := s })
  | "kind", d => (optionalText d).map (fun s => { e with kind := s })
  | "namespaced", d =>
    (Draft.optional Draft.flag d).map (fun b => { e with namespaced := b.getD false })
  | "group", d => (Draft.optional Draft.string d).map (fun s => { e with group := s })
  | "version", d => (Draft.optional Draft.string d).map (fun s => { e with version := s })
  | "singularName", d | "storageVersionHash", d => (optionalText d).map (fun _ => e)
  | "categories", d | "shortNames", d | "verbs", d => passTexts e d
  | _, d => Draft.ignored e d

def entry : Reader Entry := Draft.record entryStep ⟨"", "", false, none, none⟩

def entriesStep (found : String × List Entry) : String → Reader (String × List Entry)
  | "groupVersion", d => (optionalText d).map (fun s => (s, found.2))
  | "resources", d => (optionalList entry d).map (fun entries => (found.1, entries))
  | name, d => formStep "APIResourceList" found name d

/-- The list of kinds, under the version that it names. -/
def readEntries : Reader (String × List Entry) := Draft.record entriesStep ("", [])

end Listing

end WatchDispatch.Cluster
