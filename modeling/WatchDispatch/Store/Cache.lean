import WatchDispatch.Resource.Snapshot

/-!
The cache: the snapshot that was delivered last, per resource.
-/

namespace WatchDispatch

/-- The latest snapshot of each resource. -/
abbrev Cache := Table Uid Snapshot

namespace Cache

def empty : Cache := Table.empty

/-- Keeps a snapshot in place of the previous one of the same resource. -/
def upsert (c : Cache) (s : Snapshot) : Cache := c.insert s.uid s

/-- All snapshots by increasing uid. -/
def snapshots (c : Cache) : List Snapshot := c.values

theorem get?_upsert (c : Cache) (s : Snapshot) (u : Uid) :
    (c.upsert s).get? u = if u = s.uid then some s else c.get? u :=
  Table.get?_insert c s.uid u s

end Cache

end WatchDispatch
