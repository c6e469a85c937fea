import WatchDispatch.Table

/-!
Resource uids.

A uid is sixteen bytes, assigned by the control plane; uids are ordered byte by byte. Its text is
the hyphenated hexadecimal form `8-4-4-4-12` in lower case. Reading accepts that form, the 32 digits
without hyphens, the hyphenated form in braces and the one after `urn:uuid:`, letters in either
case.
-/

namespace WatchDispatch

/-- Sixteen bytes that identify a resource. -/
structure Uid where
  bytes : List UInt8
  size : bytes.length = 16
deriving DecidableEq, Repr

namespace Uid

instance : Inhabited Uid := ⟨⟨List.replicate 16 0, rfl⟩⟩

instance : LT Uid := ⟨fun a b => a.bytes < b.bytes⟩

/-- Uids are ordered by their first different byte. -/
instance : KeyOrder Uid where
  decLt a b := inferInstanceAs (Decidable (a.bytes < b.bytes))
  decEq := inferInstance
  irrefl a := List.lt_irrefl a.bytes
  trans := fun {a b c} h k =>
    List.lt_trans (show a.bytes < b.bytes from h) (show b.bytes < c.bytes from k)
  total := fun {a b} h ne => by
    rcases Decidable.em (b.bytes < a.bytes) with hb | hb
    · exact hb
    · have same : a.bytes = b.bytes :=
        List.le_antisymm (List.not_lt.mp hb) (List.not_lt.mp h)
      obtain ⟨_, _⟩ := a
      obtain ⟨_, _⟩ := b
      subst same
      exact absurd rfl ne

/-- The uid with these bytes, if there are sixteen. -/
def ofBytes? (bytes : List UInt8) : Option Uid :=
  if h : bytes.length = 16 then some ⟨bytes, h⟩ else none

def hexDigit (n : Nat) : Char := if n < 10 then Char.ofNat (48 + n) else Char.ofNat (87 + n)

def hexValue? (c : Char) : Option Nat :=
  let n := c.toNat
  if 48 ≤ n ∧ n ≤ 57 then some (n - 48)
  else if 97 ≤ n ∧ n ≤ 102 then some (n - 87)
  else if 65 ≤ n ∧ n ≤ 70 then some (n - 55)
  else none

/-- The two digits of each byte. -/
def digitsOf (bytes : List UInt8) : List Char :=
  bytes.flatMap (fun b => [hexDigit (b.toNat / 16), hexDigit (b.toNat % 16)])

def digits (u : Uid) : List Char := digitsOf u.bytes

/-- Puts hyphens behind the 8th, 12th, 16th and 20th digit. -/
def hyphenate (ds : List Char) : List Char :=
  ds.take 8 ++ '-' :: ((ds.drop 8).take 4 ++ '-' :: ((ds.drop 12).take 4 ++
    '-' :: ((ds.drop 16).take 4 ++ '-' :: ds.drop 20)))

def print (u : Uid) : String := String.ofList (hyphenate u.digits)

def bytesOf? : List Char → Option (List UInt8)
  | [] => some []
  | [_] => none
  | a :: b :: rest => do
    let high ← hexValue? a
    let low ← hexValue? b
    let bytes ← bytesOf? rest
    some (UInt8.ofNat (high * 16 + low) :: bytes)

def ofDigits? (ds : List Char) : Option Uid := (bytesOf? ds).bind ofBytes?

/-- Drops the hyphens of the form `8-4-4-4-12`; `none` if one is missing. -/
def dropHyphens? (cs : List Char) : Option (List Char) :=
  if cs[8]? = some '-' ∧ cs[13]? = some '-' ∧ cs[18]? = some '-' ∧ cs[23]? = some '-' then
    some (cs.take 8 ++ ((cs.drop 9).take 4 ++ ((cs.drop 14).take 4 ++ ((cs.drop 19).take 4 ++
      cs.drop 24))))
  else none

def ofHyphenated? (cs : List Char) : Option Uid :=
  if cs.length = 36 then (dropHyphens? cs).bind ofDigits? else none

/-- The text in front of a uid written as a uniform resource name. -/
def urn : List Char := "urn:uuid:".toList

def parse? (s : String) : Option Uid :=
  let cs := s.toList
  if cs.length = 32 then ofDigits? cs
  else if cs.length = 36 then ofHyphenated? cs
  else if cs.length = 38 then
    if cs.head? = some '{' ∧ cs.getLast? = some '}' then
      ofHyphenated? ((cs.drop 1).take 36) else none
  else if cs.length = 45 then
    if (cs.take 9).map Char.toLower = urn then ofHyphenated? (cs.drop 9) else none
  else none

end Uid

end WatchDispatch
