import WatchDispatch.Cluster.Address
import WatchDispatch.Cluster.Status
import WatchDispatch.Text.Quoted
import WatchDispatch.Text.Split

/-!
Errors of the cluster client.

An error has a text and a chain of causes. On a watch only an answer of the server can say that the
watch expired; every other error is a failure with the text of the error.
-/

namespace WatchDispatch.Cluster

inductive RequestError where
  /-- The timeout reaches the limit of the client. -/
  | timeoutTooLong
  | address (e : AddressError)
deriving DecidableEq, Repr, Inhabited

/-- What can go wrong between the client and the server. -/
inductive ClientError where
  /-- The server answers with a failure. -/
  | response (status : Status)
  /-- The connection fails; the causes come after the first text. -/
  | service (reason : String) (causes : List String)
  /-- The stream of events breaks. -/
  | reading (reason : String)
  /-- An answer or a line of a stream cannot be read. -/
  | unreadable
  | lineTooLong
  | tlsRequired
  /-- The server lists no such kind. -/
  | missingKind (kind : String)
  /-- The server lists a group without versions. -/
  | emptyGroup (group : String)
  | request (error : RequestError)
  /-- A list has no proper address. -/
  | address (e : AddressError)
deriving DecidableEq, Repr, Inhabited

def RequestError.message : RequestError → String
  | timeoutTooLong => "failed to validate request: WatchParams::timeout must be < 295s"
  | address e => s!"failed to build request: {e.message}"

def Status.record (s : Status) : String :=
  s!"ErrorResponse \x7b status: {Text.quoted s.status}, message: {Text.quoted s.message}, " ++
    s!"reason: {Text.quoted s.reason}, code: {s.code} \x7d"

namespace ClientError

def message : ClientError → String
  | response status => s!"ApiError: {status.message}: {status.reason} ({status.record})"
  | service reason _ => s!"ServiceError: {reason}"
  | reading reason => s!"Error reading events stream: {reason}"
  | unreadable => "Error deserializing response"
  | lineTooLong => "Error finding newline character"
  | tlsRequired => "TLS required but no TLS stack selected"
  | missingKind kind => s!"Error from discovery: Missing Kind: {kind}"
  | emptyGroup group => s!"Error from discovery: Empty Api Group: {group}"
  | request error => s!"Failed to build request: {error.message}"
  | address e => s!"HttpError: {e.message}"

def causes : ClientError → List String
  | response status => [s!"{status.message}: {status.reason}"]
  | service reason causes => reason :: causes
  | reading reason => [reason]
  | missingKind kind => [s!"Missing Kind: {kind}"]
  | emptyGroup group => [s!"Empty Api Group: {group}"]
  | request error => [error.message]
  | address e => [e.message]
  | _ => []

def chain (e : ClientError) : String := Text.join ": " (e.message :: e.causes)

def fault : ClientError → Fault
  | response status => status.fault
  | other => .failed other.message

end ClientError

end WatchDispatch.Cluster
