import WatchDispatch.Cluster.Resource
import WatchDispatch.Cluster.Server

/-!
Responses to watch requests.

A watch on a collection from a resource version on is asked for once. The client either cannot build
the request, or the request fails, or a stream of lines follows, whatever status the answer has.
-/

namespace WatchDispatch.Cluster

/-- What a watch request comes to. -/
inductive Response where
  /-- The request cannot be built, so nothing is asked. -/
  | unbuilt (e : RequestError)
  | refused (e : ClientError)
  | stream (lines : LineStream)
deriving Repr, Inhabited

namespace Response

/-- The stream of a list of the catalog, which holds no events. -/
def listingStream : LineStream := ⟨["\x7b\x7d"], .ends⟩

/-- What a reply is for a watch. -/
def ofReply : Reply → Response
  | .refused e => refused e
  | .answer a => stream a.stream
  | .listing _ => stream listingStream

/-- The error for which there is no stream. -/
def error? : Response → Option ClientError
  | unbuilt e => some (.request e)
  | refused e => some e
  | stream _ => none

theorem error?_eq_none_iff {r : Response} : r.error? = none ↔ ∃ lines, r = stream lines := by
  cases r <;> simp [error?]

end Response

/-- Asks for a watch on the collection with an address, from a resource version on. -/
def Server.watch (params : WatchParams) (path resourceVersion : String) (s : Server) :
    Response × Server :=
  match watchRequest params path resourceVersion with
  | .error e => (.unbuilt e, s)
  | .ok uri =>
    let (reply, s) := s.ask uri
    (.ofReply reply, s)

end WatchDispatch.Cluster
