import WatchDispatch.Cluster.Catalog
import WatchDispatch.Cluster.ClientError
import WatchDispatch.Text.Split

/-!
Replies of the server.

A request either fails with an error of the client or gets a status and a body. The body ends in one
of four ways; only whole lines count, except that a last line without a line feed counts if the body
simply closes.
-/

namespace WatchDispatch.Cluster

inductive Ending where
  | closes
  /-- It stays open for ever. -/
  | hangs
  /-- It breaks off in the middle, which counts as an end. -/
  | breaksOff
  /-- The connection is reset. -/
  | resets
deriving DecidableEq, Repr, Inhabited

structure Answer where
  status : Nat
  body : String
  ending : Ending
deriving Repr, Inhabited

inductive Reply where
  /-- The request fails, be it that the connection does. -/
  | refused (e : ClientError)
  | answer (a : Answer)
  /-- A list of the catalog. -/
  | listing (l : Listing)
deriving Repr, Inhabited

/-- What follows the last line of a stream. -/
inductive Finale where
  | ends
  | hangs
  | resets
deriving DecidableEq, Repr, Inhabited

/-- A body that is read line by line. -/
structure LineStream where
  /-- The lines that are still to be read. -/
  lines : List String
  finale : Finale
deriving Repr, Inhabited

namespace Answer

/-- A line without the carriage return at its end. -/
def dropReturn (line : List Char) : List Char :=
  if line.getLast? = some '\r' then line.dropLast else line

/-- The lines of the body that end in a line feed. -/
def wholeLines (a : Answer) : List String :=
  ((Text.splitChars '\n' a.body.toList).dropLast).map (fun line => String.ofList (dropReturn line))

/-- The last line, if it has no line feed and is not empty. -/
def openLine (a : Answer) : List String :=
  match (Text.splitChars '\n' a.body.toList).getLast? with
  | none | some [] | some ['\r'] => []
  | some line => [String.ofList (dropReturn line)]

def stream (a : Answer) : LineStream :=
  match a.ending with
  | .closes => ⟨a.wholeLines ++ a.openLine, .ends⟩
  | .hangs => ⟨a.wholeLines, .hangs⟩
  | .breaksOff => ⟨a.wholeLines, .ends⟩
  | .resets => ⟨a.wholeLines, .resets⟩

end Answer

/-- A bound for the items that a stream still yields, the question that follows it included. -/
def LineStream.work (s : LineStream) : Nat := s.lines.length + 2

/-- A bound for the items that a reply can yield. -/
def Reply.work : Reply → Nat
  | refused _ => 3
  | answer a => a.stream.work + 1
  | listing _ => 4

end WatchDispatch.Cluster
