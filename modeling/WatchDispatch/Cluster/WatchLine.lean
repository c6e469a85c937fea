import WatchDispatch.Cluster.ClientError
import WatchDispatch.Cluster.Object
import WatchDispatch.Json.Parser

/-!
Lines of a watch stream.

A line is a JSON record of a type and an object, or an array of the two. Types `ADDED`, `MODIFIED`
and `DELETED` carry an object, `BOOKMARK` a resource version, `ERROR` a status. A line that only
breaks off is passed over. Any other line that cannot be read is the error that it states, if it is
a status itself, else an unreadable answer; so is a line that breaks off behind something that does
not fit.
-/

namespace WatchDispatch.Cluster

open Json (Draft DraftItems DraftMembers Reader ReadError)

/-- What a line of a watch stream says. -/
inductive WatchLine where
  | change (action : Action) (o : Object)
  /-- A resource version to go on from. -/
  | bookmark (resourceVersion : String)
  | failure (e : ClientError)
deriving Repr, Inhabited

inductive LineType where
  | change (action : Action)
  | bookmark
  | error
deriving DecidableEq, Repr, Inhabited

namespace LineType

def ofName? : String → Option LineType
  | "ADDED" => some (.change .added)
  | "MODIFIED" => some (.change .modified)
  | "DELETED" => some (.change .deleted)
  | "BOOKMARK" => some .bookmark
  | "ERROR" => some .error
  | _ => none

/-- What follows the only member of a type that is written as an object. -/
def readEnd : DraftMembers → Except ReadError Unit
  | .closed => .ok ()
  | .broken e => .error e
  | _ => .error .malformed

/-- A type: its name, or an object with its name as the only key and `null` as the value. Whatever
starts with neither a quote nor a brace does not fit. -/
def read : Reader LineType
  | .missing e => .error e
  | .text t => Draft.parsed ofName? (.text t)
  | .object true _ => .error .malformed
  | .object false (.broken e) => .error e
  | .object false (.keyless d) => .error d.misfit
  | .object false (.member key d rest) => do
    let type ← Draft.parsed ofName? (.text key)
    match d with
    | .word (.ok .null) => readEnd rest
    | d => .error d.misfit
    return type
  | _ => .error .malformed

end LineType

namespace WatchLine

def bookmarkFields : Json.Fields :=
  [("resourceVersion", textValue), ("annotations", namedTextsValue)]

def bookmarkMetadata : Reader String := fun d =>
  match bookmarkFields.read d with
  | .error e => .error e
  | .ok found => ((Assoc.get? "resourceVersion" found).bind Json.text?).elim (.error .malformed) .ok

/-- A bookmark while its members are taken: the resource version, and the other members, the last
one first. -/
abbrev BookmarkProgress := Option String × List (String × Json)

def bookmarkStep (p : BookmarkProgress) : String → Reader BookmarkProgress
  | "metadata", d =>
    match p.1 with
    | some _ => .error .malformed
    | none => (bookmarkMetadata d).map (fun version => (some version, p.2))
  | name, d => d.value.map (fun v => (p.1, (name, v) :: p.2))

/-- The resource version of a bookmark, which names a version and a kind as well. -/
def readBookmark : Reader String := fun d =>
  match Draft.record bookmarkStep (none, []) d with
  | .error e => .error e
  | .ok (none, _) => .error .malformed
  | .ok (some version, others) =>
    match Object.takeTypes none none others.reverse with
    | (some _, _) => .ok version
    | (none, _) => .error .malformed

/-- The line of a type with an object. -/
def ofType : LineType → Reader WatchLine
  | .change action, d => (Object.read d).map (change action)
  | .bookmark, d => (readBookmark d).map bookmark
  | .error, d => (Status.read d).map (fun status => failure (.response status))

/-- A line while its members are taken. The object can only be read once the type is known, so one
that comes first has to be a value. -/
inductive Progress where
  | nothing
  | type (type : LineType)
  | object (d : Draft)
  | whole (line : WatchLine)

def step : Progress → String → Reader Progress
  | .nothing, "type", d => (LineType.read d).map .type
  | .nothing, "object", d => d.value.map (fun _ => .object d)
  | .type type, "object", d => (ofType type d).map .whole
  | .object content, "type", d => do
    let type ← LineType.read d
    return .whole (← ofType type content)
  | _, "type", _ => .error .malformed
  | _, "object", _ => .error .malformed
  | p, _, d => Draft.ignored p d

/-- A line written as an array. -/
def readRow : DraftItems → Except ReadError WatchLine
  | .closed => .error .malformed
  | .broken e => .error e
  | .item d rest => do
    let type ← LineType.read d
    match rest with
    | .closed => .error .malformed
    | .broken e => .error e
    | .item d rest =>
      let line ← ofType type d
      match rest with
      | .closed => .ok line
      | .broken e => .error e
      | .item _ _ => .error .malformed

def reading : Reader WatchLine
  | .array false items => readRow items
  | d =>
    match Draft.record step .nothing d with
    | .error e => .error e
    | .ok (.whole line) => .ok line
    | .ok _ => .error .malformed

/-- The line written in a text; `none` for one that is passed over. -/
def read? (text : String) : Option WatchLine :=
  match Json.read reading text with
  | .error .incomplete => none
  | .ok line => some line
  | .error .malformed =>
    some (failure ((Json.read Status.read text).toOption.elim .unreadable .response))

end WatchLine

end WatchDispatch.Cluster
