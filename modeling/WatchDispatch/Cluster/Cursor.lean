import WatchDispatch.Cluster.Response
import WatchDispatch.Cluster.WatchLine
import WatchDispatch.Watch.Transport

/-!
Cursors: one subscription to a collection, over as many watch requests as it takes.

A cursor remembers the last resource version that it was told, by an object or by a bookmark, and
starts with `0`. When an answer ends, it asks again from that version. Every error is told once and
ends the cursor, an object of which no snapshot can be taken included.
-/

namespace WatchDispatch.Cluster

open Watch (Item)

inductive CursorStage where
  | reading (lines : LineStream)
  /-- The request failed when it asked again. -/
  | failing (e : ClientError)
  | finished
deriving Repr, Inhabited

/-- How the objects of a collection are decoded. -/
structure Decoder where
  /-- The kind of objects that name none. -/
  kind : String
  /-- What is said of a text that is no uid. -/
  uidError : String → String

/-- One subscription to a collection. -/
structure Cursor where
  /-- The address of the collection. -/
  path : String
  resourceVersion : String
  stage : CursorStage
deriving Repr, Inhabited

/-- The resource version of a fresh baseline: the objects that exist come first. -/
def baseline : String := "0"

/-- The error of a connection that is reset while a stream is read. -/
def resetError : ClientError := .reading "ServiceError: connection reset"

namespace Cursor

/-- A bound for the items that a cursor can still take. -/
def work (c : Cursor) : Nat :=
  match c.stage with
  | .reading lines => lines.work
  | .failing _ => 1
  | .finished => 0

def fail (c : Cursor) (f : Fault) : Item × Cursor := (.fault f, { c with stage := .finished })

/-- Tells a change of an object; its resource version counts even if no snapshot can be taken of
it. -/
def tell (decoder : Decoder) (c : Cursor) (action : Action) (o : Object) (rest : LineStream) :
    Item × Cursor :=
  let c := { c with resourceVersion := o.metadata.resourceVersion?.getD c.resourceVersion }
  match o.snapshot decoder.kind with
  | .ok snapshot => (.event ⟨action, snapshot⟩, { c with stage := .reading rest })
  | .error e => c.fail (.failed s!"decoding {action.label} event: {e.message decoder.uidError}")

/-- Reads lines until one of them tells something; `none` if they end before and there is more to
ask for. -/
def read (decoder : Decoder) (finale : Finale) : List String → Cursor → Option Item × Cursor
  | [], c =>
    let c := { c with stage := .reading ⟨[], finale⟩ }
    match finale with
    | .ends => (none, c)
    | .hangs => (some .idle, c)
    | .resets =>
      let (item, c) := c.fail resetError.fault
      (some item, c)
  | line :: rest, c =>
    match WatchLine.read? line with
    | none => read decoder finale rest c
    | some (.bookmark version) => read decoder finale rest { c with resourceVersion := version }
    | some (.change action o) =>
      let (item, c) := c.tell decoder action o ⟨rest, finale⟩
      (some item, c)
    | some (.failure e) =>
      let (item, c) := c.fail e.fault
      (some item, c)

/-- What a cursor has to tell before it asks again; `none` if it has to ask. -/
def look (decoder : Decoder) (c : Cursor) : Option Item × Cursor :=
  match c.stage with
  | .reading lines => read decoder lines.finale lines.lines c
  | .failing e =>
    let (item, c) := c.fail e.fault
    (some item, c)
  | .finished => (some .ended, c)

/-- Asks for the collection from the last resource version on. -/
def ask (params : WatchParams) (c : Cursor) (s : Server) : Item × Cursor × Server :=
  match s.watch params c.path c.resourceVersion with
  | (.stream lines, s) => (.busy, { c with stage := .reading lines }, s)
  | (.refused e, s) => (.busy, { c with stage := .failing e }, s)
  | (.unbuilt e, s) =>
    let (item, c) := c.fail (ClientError.fault (.request e))
    (item, c, s)

def next (params : WatchParams) (decoder : Decoder) (c : Cursor) (s : Server) :
    Item × Cursor × Server :=
  match c.look decoder with
  | (some item, c) => (item, c, s)
  | (none, c) => c.ask params s

end Cursor

end WatchDispatch.Cluster
