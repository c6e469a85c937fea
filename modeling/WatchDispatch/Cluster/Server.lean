import WatchDispatch.Cluster.Address
import WatchDispatch.Cluster.Reply
import WatchDispatch.Size
import WatchDispatch.Table

/-!
A server with replies laid out in advance.

Every address has a list of replies; a request takes the next one, and an address without replies
left breaks the connection. The lists of the catalog come after the other replies of their
addresses, each once. All requests are noted.
-/

namespace WatchDispatch.Cluster

structure Server where
  /-- The replies that are left, by address. -/
  routes : Table String (List Reply)
  /-- The addresses asked for, latest first. -/
  requests : List String

namespace Server

/-- Adds a reply behind the others of an address. -/
def addReply (routes : Table String (List Reply)) (path : String) (r : Reply) :
    Table String (List Reply) := routes.insert path ((routes.get? path).getD [] ++ [r])

def start (routes : Table String (List Reply)) (catalog : Catalog) : Server :=
  ⟨catalog.listings.foldl (fun routes l => addReply routes l.1 (.listing l.2)) routes, []⟩

instance : Inhabited Server := ⟨⟨Table.empty, []⟩⟩

def noReply : Reply := .refused (.service "no reply scripted" [])

def ask (uri : String) (s : Server) : Reply × Server :=
  let path := Address.path uri
  let s := { s with requests := uri :: s.requests }
  match s.routes.get? path with
  | some (reply :: rest) => (reply, { s with routes := s.routes.insert path rest })
  | _ => (noReply, s)

/-- A bound for the items that the replies can yield. -/
def work (s : Server) : Nat := totalSize (totalSize Reply.work) s.routes.values

/-- The addresses asked for since the last look, oldest first. -/
def takeRequests (s : Server) : List String × Server :=
  (s.requests.reverse, { s with requests := [] })

end Server

end WatchDispatch.Cluster
