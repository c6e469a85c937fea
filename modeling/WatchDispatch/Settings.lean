import WatchDispatch.Scope.Target
import WatchDispatch.Text.Numeral
import WatchDispatch.Text.Split

/-!
Settings of the daemon, read from environment variables.

Every variable may be missing; one that cannot be read counts as missing. The timeout of a watch
request lies between 1 and 290 seconds, since the client refuses 295 and more and 0 would mean the
server's own choice.
-/

namespace WatchDispatch

structure Settings where
  /-- The server-side timeout of one watch request, in seconds. -/
  watchTimeout : UInt32
  watchBookmarks : Bool
  gvk : Option String
  crdName : Option String
  controller : String
  target : TargetScope
  generationAware : Bool

namespace Settings

/-- The greatest timeout of a watch request that the environment can ask for. -/
def longestTimeout : Nat := 290

def initial : Settings := ⟨290, true, none, none, "warden", .all, true⟩

instance : Inhabited Settings := ⟨initial⟩

/-- The timeout read from a text: at most the longest one, which also stands for zero, for numbers
that are too large and for texts that are no number. -/
def readTimeout (s : Option String) : Nat :=
  match s.bind Text.nat32? with
  | some n => if n = 0 then longestTimeout else min n longestTimeout
  | none => longestTimeout

/-- The truth value written in a text, blanks and case aside. -/
def readBool? (s : String) : Option Bool :=
  match Text.lowerAscii (Text.trim s) with
  | "1" | "true" | "yes" | "on" => some true
  | "0" | "false" | "no" | "off" => some false
  | _ => none

/-- A text that is not blank. -/
def visible? (s : Option String) : Option String := s.filter (fun s => !Text.allBlank s)

def ofEnvironment (get : String → Option String) : Settings where
  watchTimeout := UInt32.ofNat (readTimeout (get "WARDEN_WATCH_TIMEOUT_SECS"))
  watchBookmarks := ((get "WARDEN_WATCH_BOOKMARKS").bind readBool?).getD true
  gvk := visible? (get "WARDEN_GVK")
  crdName := visible? (get "WARDEN_CRD_NAME")
  controller := (visible? (get "WARDEN_CONTROLLER")).getD initial.controller
  target := ((get "WARDEN_NAMESPACES").map
    (fun s => TargetScope.ofNames (Text.split ',' s))).getD .all
  generationAware := ((get "WARDEN_GENERATION_AWARE").bind readBool?).getD true

end Settings

end WatchDispatch
