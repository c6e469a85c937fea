import WatchDispatch.Cluster.Script
import WatchDispatch.Daemon
import WatchDispatch.Json.Parser

/-!
The command line of the daemon.

It takes its settings from the environment and, as its only argument, a file that lays out the
server. Without one there is no server to be reached. It prints its log and ends with its exit code.
-/

namespace WatchDispatch.CommandLine

def variableNames : List String :=
  ["WARDEN_WATCH_TIMEOUT_SECS", "WARDEN_WATCH_BOOKMARKS", "WARDEN_GVK", "WARDEN_CRD_NAME",
    "WARDEN_CONTROLLER", "WARDEN_NAMESPACES", "WARDEN_GENERATION_AWARE"]

def networkOf (text : String) : Daemon.Network :=
  let network? := do
    let document ← (Json.parse text).toOption
    let server ← Cluster.Script.server? document
    let ns ← Cluster.Script.optionalMember? Json.text? document "default_namespace"
    some (Daemon.Network.reachable server (ns.getD "default"))
  network?.getD (.unreachable Daemon.noRoute)

/-- The exit code after a run. -/
def exitCode (r : Daemon.Report) : UInt32 :=
  match r.ending with
  | .exit code => UInt32.ofNat code
  | .failed _ => 1
  | .waiting => 0

def lines (r : Daemon.Report) : List String :=
  let failure := match r.ending with
    | .failed e => [Daemon.Record.mk .error "wardend failed" [("error", e.message)]]
    | _ => []
  (r.log ++ failure).map Daemon.Record.line

end WatchDispatch.CommandLine

open WatchDispatch in
def main (args : List String) : IO UInt32 := do
  let values ← CommandLine.variableNames.mapM (fun name => do return (name, ← IO.getEnv name))
  let network ← match args with
    | file :: _ => do pure (CommandLine.networkOf (← IO.FS.readFile file))
    | [] => pure (.unreachable Daemon.noRoute)
  let report := Daemon.run (fun name => (values.lookup name).join) network none
  for line in CommandLine.lines report do
    IO.println line
  return CommandLine.exitCode report
