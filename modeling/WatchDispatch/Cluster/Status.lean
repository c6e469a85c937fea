import WatchDispatch.Fault
import WatchDispatch.Json.Reading
import WatchDispatch.Json.Record

/-!
Status documents: how the server says that something failed.

Code 410 says that the resource version of a watch is too old, so the watch expired; every other
code is a failure.
-/

namespace WatchDispatch.Cluster

open Json (Draft Reader)

structure Status where
  status : String
  message : String
  reason : String
  code : Nat
deriving DecidableEq, Repr, Inhabited

namespace Status

def fields : Json.Fields :=
  [("status", Draft.asJson .text Draft.string), ("message", Draft.asJson .text Draft.string),
    ("reason", Draft.asJson .text Draft.string), ("code", Draft.asJson Json.ofNat Draft.nat16)]

/-- The status with these fields: message and reason may be missing. -/
def ofFields? (found : List (String × Json)) : Option Status := do
  let status ← (Assoc.get? "status" found).bind Json.text?
  let code ← (Assoc.get? "code" found).bind Json.nat16?
  let message := ((Assoc.get? "message" found).bind Json.text?).getD ""
  let reason := ((Assoc.get? "reason" found).bind Json.text?).getD ""
  some ⟨status, message, reason, code⟩

def read : Reader Status := fun d =>
  match fields.read d with
  | .error e => .error e
  | .ok found => (ofFields? found).elim (.error .malformed) .ok

def ofJson? (value : Json) : Option Status := (read (.ofJson value)).toOption

/-- The code of an expired watch. -/
def gone : Nat := 410

/-- The fault that a status reports on a watch. -/
def fault (s : Status) : Fault :=
  if s.code = gone then .expired s!"{s.message} ({s.reason})"
  else .failed s!"watch error {s.code}: {s.message} ({s.reason})"

end Status

end WatchDispatch.Cluster
