import WatchDispatch.Cluster.Server
import WatchDispatch.Json.Printer
import WatchDispatch.Json.Record

/-!
Servers laid out in a JSON document.

The catalog lists groups and core versions, the routes lists of replies by address. A reply is
either an error text, or a status with a body: a document, then lines, then a tail without line
feed.
-/

namespace WatchDispatch.Cluster.Script

/-- A member that may be missing or `null`, read if it is there. -/
def optionalMember? {α : Type} (read : Json → Option α) (value : Json) (key : String) :
    Option (Option α) := Json.optional? read (value.member? key)

def listOrEmpty? {α : Type} (read : Json → Option α) (value : Json) (key : String) :
    Option (List α) :=
  (optionalMember? (Json.list? read) value key).map (fun items => items.getD [])

def text? (value : Json) (key : String) : Option String := (value.member? key).bind Json.text?

/-- A kind; it belongs to namespaces unless the document says otherwise. -/
def entry? (value : Json) : Option Entry := do
  let namespaced ← optionalMember? Json.bool? value "namespaced"
  let group ← optionalMember? Json.text? value "group"
  let version ← optionalMember? Json.text? value "version"
  some ⟨← text? value "name", ← text? value "kind", namespaced.getD true, group, version⟩

def versionList? (value : Json) : Option VersionList := do
  some ⟨← text? value "version", ← listOrEmpty? entry? value "resources"⟩

def group? (value : Json) : Option Group := do
  let preferred ← optionalMember? Json.text? value "preferred"
  some ⟨← text? value "name", preferred, ← listOrEmpty? versionList? value "versions"⟩

def catalog? (value : Json) : Option Catalog := do
  some ⟨← listOrEmpty? group? value "groups", ← listOrEmpty? versionList? value "core"⟩

def ending? : String → Option Ending
  | "close" => some .closes
  | "hang" => some .hangs
  | "eof" => some .breaksOff
  | "error" => some .resets
  | _ => none

/-- A line of a body: a text as it is, any other value as its JSON text. -/
def line : Json → String
  | .text s => s
  | value => value.print

/-- A body made of a document, lines and a tail. -/
def body (document : Option Json) (lines : List Json) (tail : String) : String :=
  let head := (document.map Json.print).getD ""
  head ++ String.join (lines.map (fun value => line value ++ "\n")) ++ tail

def reply? (value : Json) : Option Reply := do
  match ← optionalMember? Json.text? value "error" with
  | some reason => some (.refused (.service reason []))
  | none =>
    let status ← optionalMember? Json.nat16? value "status"
    let lines ← listOrEmpty? some value "lines"
    let tail ← optionalMember? Json.text? value "tail"
    let ending ← ending? ((← optionalMember? Json.text? value "end").getD "close")
    some (.answer ⟨status.getD 200, body (value.member? "json") lines (tail.getD ""), ending⟩)

def route? (member : String × Json) : Option (String × List Reply) := do
  some (member.1, ← member.2.list? reply?)

def routes? (value : Json) : Option (Table String (List Reply)) := do
  let routes ← (← value.object?).mapM route?
  some (routes.foldl (fun table route => table.insert route.1 route.2) Table.empty)

/-- A server with its catalog and its routes, both of which may be missing. -/
def server? (value : Json) : Option Server := do
  let catalog ← optionalMember? catalog? value "discovery"
  let routes ← optionalMember? routes? value "routes"
  some (Server.start (routes.getD Table.empty) (catalog.getD ⟨[], []⟩))

end WatchDispatch.Cluster.Script
