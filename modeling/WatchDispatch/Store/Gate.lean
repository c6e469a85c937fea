import WatchDispatch.Resource.Snapshot

/-!
The generation gate: the generation that was handled last, per resource.

A delivery whose generation was handled already can be passed over. A resource whose deletion was
asked for never is, because its generation stands still while its finalizers are removed. Only what
carries the controller's finalizer leaves a mark.
-/

namespace WatchDispatch

/-- The generation of each resource that was handled last. -/
abbrev Gate := Table Uid UInt64

namespace Gate

def empty : Gate := Table.empty

/-- Whether a snapshot can be passed over. -/
def passesOver (g : Gate) (s : Snapshot) (generationAware : Bool) : Bool :=
  generationAware && !s.isDeleting &&
    match g.get? s.uid with
    | none => false
    | some last => decide (s.generation ≤ last)

/-- Marks the generation of a handled snapshot, if the controller looks at generations and the
resource carries its finalizer. -/
def mark (g : Gate) (s : Snapshot) (generationAware : Bool) (finalizer : String) : Gate :=
  if generationAware && s.hasFinalizer finalizer then g.insert s.uid s.generation else g

theorem get?_mark (g : Gate) (s : Snapshot) (aware : Bool) (finalizer : String) (u : Uid) :
    (g.mark s aware finalizer).get? u =
      if (aware && s.hasFinalizer finalizer) = true ∧ u = s.uid then some s.generation
      else g.get? u := by
  unfold mark
  split <;> simp_all [Table.get?_insert]

end Gate

end WatchDispatch
