import WatchDispatch.Text.Split

/-!
Keys of resource kinds.

A kind is named by group, version and kind. The key leaves the group of the core kinds out:
`version/Kind`, else `group/version/Kind`.
-/

namespace WatchDispatch.Cluster

/-- Group, version and kind; the core kinds have the empty group. -/
structure Gvk where
  group : String
  version : String
  kind : String
deriving DecidableEq, Repr, Inhabited

namespace Gvk

/-- The kind that a key names: two or three parts between slashes, of which version and kind are not
empty. -/
def parse? (key : String) : Option Gvk :=
  match Text.split '/' key with
  | [version, kind] => if version ≠ "" ∧ kind ≠ "" then some ⟨"", version, kind⟩ else none
  | [group, version, kind] => if version ≠ "" ∧ kind ≠ "" then some ⟨group, version, kind⟩ else none
  | _ => none

def invalidKey (key : String) : String :=
  s!"invalid gvk key: {key} (expect v1/Kind or group/v1/Kind)"

def key (g : Gvk) : String :=
  if g.group = "" then s!"{g.version}/{g.kind}" else s!"{g.group}/{g.version}/{g.kind}"

/-- The three parts, also of a kind without group. -/
def path (g : Gvk) : String := s!"{g.group}/{g.version}/{g.kind}"

end Gvk

end WatchDispatch.Cluster
