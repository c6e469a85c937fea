/-!
Sums of sizes.

The work that is left in queues, streams and lists of replies is the sum of the sizes of their
parts.
-/

namespace WatchDispatch

def totalSize {α : Type} (size : α → Nat) : List α → Nat
  | [] => 0
  | item :: items => size item + totalSize size items

theorem totalSize_append {α : Type} (size : α → Nat) (xs ys : List α) :
    totalSize size (xs ++ ys) = totalSize size xs + totalSize size ys := by
  induction xs with
  | nil => simp [totalSize]
  | cons x xs ih => simp [totalSize, ih, Nat.add_assoc]

end WatchDispatch
