import WatchDispatch.Cluster.ClientError
import WatchDispatch.Cluster.Gvk
import WatchDispatch.Scope.Watch
import WatchDispatch.Text.FormEncoded

/-!
Resources of the cluster, the addresses of their collections and the requests that watch them.

A collection holds the objects of one resource, either of all namespaces or of one. A watch request
names the collection, the timeout and the resource version to start from; it is built only if the
timeout is below the limit and the text is an address.
-/

namespace WatchDispatch.Cluster

structure ApiResource where
  group : String
  version : String
  /-- The group and version under which the server lists it. -/
  apiVersion : String
  kind : String
  plural : String
deriving DecidableEq, Repr, Inhabited

namespace ApiResource

/-- A group and a version in one text; the core group is left out. -/
def groupVersion (group version : String) : String :=
  if group = "" then version else s!"{group}/{version}"

def ofGvk (g : Gvk) (plural : String) : ApiResource :=
  ⟨g.group, g.version, groupVersion g.group g.version, g.kind, plural⟩

def crdName (r : ApiResource) : String :=
  if r.group = "" then r.plural else s!"{r.plural}.{r.group}"

/-- The address of the objects of one namespace, or of all of them. -/
def path (r : ApiResource) (ns : Option String) : String :=
  let root := if r.group = "" then "api" else "apis"
  let part := match ns with
    | some ns => s!"namespaces/{ns}/"
    | none => ""
  s!"/{root}/{r.apiVersion}/{part}{r.plural}"

end ApiResource

structure WatchParams where
  /-- The server-side timeout in seconds. -/
  timeout : Nat
  bookmarks : Bool
deriving DecidableEq, Repr, Inhabited

/-- The timeout that the client refuses. -/
def timeoutLimit : Nat := 295

/-- The text of the address of a watch on a collection, from a resource version on. -/
def watchText (p : WatchParams) (path resourceVersion : String) : String :=
  let bookmarks := if p.bookmarks then "&allowWatchBookmarks=true" else ""
  let version := Text.formEncode resourceVersion
  s!"{path}?&watch=true&timeoutSeconds={p.timeout}{bookmarks}&resourceVersion={version}"

/-- The address of a watch, or why the request cannot be built. -/
def watchRequest (p : WatchParams) (path resourceVersion : String) : Except RequestError String :=
  if timeoutLimit ≤ p.timeout then .error .timeoutTooLong
  else (Address.ofText (watchText p path resourceVersion)).mapError .address

end WatchDispatch.Cluster
