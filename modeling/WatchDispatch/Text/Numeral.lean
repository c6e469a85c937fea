/-!
Decimal numerals.

Leading zeros are allowed, and so is one plus sign in front.
-/

namespace WatchDispatch.Text

def ofDigits (ds : List Char) : Nat := ds.foldl (fun n c => n * 10 + (c.toNat - '0'.toNat)) 0

/-- The digits of a numeral after an optional plus sign; `none` for any other text. -/
def digits? (s : String) : Option (List Char) :=
  let cs := match s.toList with
    | '+' :: rest => rest
    | cs => cs
  if cs ≠ [] ∧ cs.all Char.isDigit then some cs else none

def nat32? (s : String) : Option Nat := do
  let n := ofDigits (← digits? s)
  if n < UInt32.size then some n else none

end WatchDispatch.Text
