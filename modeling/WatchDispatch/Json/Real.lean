/-!
Finite binary floating-point numbers with 53 bits of mantissa, as JSON numbers that are not integers
are kept, and their decimal texts.

Reading rounds: `nearest?` takes a quotient to the nearest such number, a tie to the even mantissa,
and `ofDecimal?` reads `digits * 10^scale` with one rounding for the digits, one for the power of
ten and one for their product. Writing is exact in the other direction: `shortest` gives the fewest
decimal digits that lie nearer to the number than to any other.
-/

namespace WatchDispatch.Json

/-- The number `± mantissa * 2^exponent`. -/
structure Real where
  negative : Bool
  mantissa : Nat
  exponent : Int
deriving DecidableEq, Repr, Inhabited

namespace Real

def leastMantissa : Nat := 4503599627370496

/-- The mantissas lie below this number. -/
def mantissaBound : Nat := 9007199254740992

def leastExponent : Int := -1074

def greatestExponent : Int := 971

def zero (negative : Bool) : Real := ⟨negative, 0, leastExponent⟩

/-- The fraction `num / den` divided by `2^e`, as a fraction. -/
def scaleDown (num den : Nat) (e : Int) : Nat × Nat :=
  if 0 ≤ e then (num, den * Nat.pow 2 e.toNat) else (num * Nat.pow 2 (-e).toNat, den)

/-- The quotient to the nearest integer, a tie to the even one. -/
def divNearest (num den : Nat) : Nat :=
  let q := num / den
  let r := num % den
  if den < 2 * r ∨ (2 * r = den ∧ q % 2 = 1) then q + 1 else q

/-- The number nearest to `num / den`; `none` if that lies beyond the largest one. -/
def nearest? (negative : Bool) (num den : Nat) : Option Real :=
  if num = 0 then some (zero negative)
  else
    let guess : Int := max ((Nat.log2 num : Int) - Nat.log2 den - 53) leastExponent
    let (n, d) := scaleDown num den guess
    let e := if mantissaBound ≤ n / d then guess + 1 else guess
    let (n, d) := scaleDown num den e
    let m := divNearest n d
    let (m, e) := if m = mantissaBound then (leastMantissa, e + 1) else (m, e)
    if greatestExponent < e then none else some ⟨negative, m, e⟩

def fraction (x : Real) : Nat × Nat :=
  if 0 ≤ x.exponent then (x.mantissa * Nat.pow 2 x.exponent.toNat, 1)
  else (x.mantissa, Nat.pow 2 (-x.exponent).toNat)

def mul? (x y : Real) : Option Real :=
  let (a, b) := x.fraction
  let (c, d) := y.fraction
  nearest? x.negative (a * c) (b * d)

def div? (x y : Real) : Option Real :=
  let (a, b) := x.fraction
  let (c, d) := y.fraction
  nearest? x.negative (a * d) (b * c)

/-- Powers of ten up to this one are numbers. -/
def greatestPower : Nat := 308

/-- Divides by powers of ten, at most the greatest one at a time. -/
def shrink? : Nat → Real → Nat → Option Real
  | 0, x, _ => some (zero x.negative)
  | fuel + 1, x, places =>
    if x.mantissa = 0 then some x
    else if places ≤ greatestPower then do x.div? (← nearest? false (Nat.pow 10 places) 1)
    else do
      shrink? fuel (← x.div? (← nearest? false (Nat.pow 10 greatestPower) 1))
        (places - greatestPower)

/-- The number read from `digits * 10^scale`; `none` if it lies beyond the largest one. After four
divisions by the greatest power of ten nothing but zero is left. -/
def ofDecimal? (negative : Bool) (digits : Nat) (scale : Int) : Option Real := do
  let x ← nearest? negative digits 1
  if x.mantissa = 0 then some x
  else if scale < 0 then shrink? 4 x (-scale).toNat
  else if scale.toNat ≤ greatestPower then x.mul? (← nearest? false (Nat.pow 10 scale.toNat) 1)
  else none

def digitCount (n : Nat) : Nat := (Nat.toDigits 10 n).length

/-- The place `k` with `10^(k-1) ≤ num/den < 10^k`. -/
def decimalPlace (num den : Nat) : Int :=
  if den ≤ num then digitCount (num / den)
  else
    let c := (den + num - 1) / num
    1 - (digitCount (c - 1) : Int)

/-- Whether `c * 10^scale` is read as the number with this mantissa and exponent: it lies between
the midpoints to the two neighbours, which belong to a number with an even mantissa. -/
def readsBack (x : Real) (c : Nat) (scale : Int) : Bool :=
  let narrow := x.mantissa = leastMantissa ∧ leastExponent < x.exponent
  -- everything is measured in quarters of the last bit
  let low := if narrow then 4 * x.mantissa - 1 else 4 * x.mantissa - 2
  let high := 4 * x.mantissa + 2
  let (n, d) :=
    if 0 ≤ scale then (c * Nat.pow 10 scale.toNat, 1) else (c, Nat.pow 10 (-scale).toNat)
  let (n, d) := scaleDown n d (x.exponent - 2)
  if x.mantissa % 2 = 0 then decide (low * d ≤ n ∧ n ≤ high * d)
  else decide (low * d < n ∧ n < high * d)

/-- Looks on the decimal grids with `count`, `count + 1`, ... digits for one that reads back. -/
def shortestFrom (x : Real) (num den : Nat) (place : Int) : Nat → Nat → Nat × Int
  | 0, count => (0, place - count)
  | fuel + 1, count =>
    let scale := place - count
    let (n, d) := if 0 ≤ scale then (num, den * Nat.pow 10 scale.toNat)
      else (num * Nat.pow 10 (-scale).toNat, den)
    let below := n / d
    let above := below + 1
    let near := divNearest n d
    if readsBack x near scale then (near, scale)
    else if readsBack x below scale then (below, scale)
    else if readsBack x above scale then (above, scale)
    else shortestFrom x num den place fuel (count + 1)

def dropZeros : Nat → Nat × Int → Nat × Int
  | 0, found => found
  | fuel + 1, (c, scale) =>
      if c ≠ 0 ∧ c % 10 = 0 then dropZeros fuel (c / 10, scale + 1) else (c, scale)

/-- The fewest decimal digits that read back, with the power of ten of the last one. Seventeen are
always enough; a candidate that was rounded up to a power of ten ends in zeros. -/
def shortest (x : Real) : Nat × Int :=
  if x.mantissa = 0 then (0, 0)
  else
    let (num, den) := x.fraction
    dropZeros 17 (shortestFrom x num den (decimalPlace num den) 17 1)

/-- The decimal text: positional from `0.00001` up to sixteen places before the point, with an
exponent outside that range. -/
def print (x : Real) : String :=
  let (c, scale) := x.shortest
  let digits := Nat.toDigits 10 c
  let len : Int := digits.length
  let place := len + scale
  let body : List Char :=
    if c = 0 then "0.0".toList
    else if 0 ≤ scale ∧ place ≤ 16 then digits ++ List.replicate scale.toNat '0' ++ ".0".toList
    else if 0 < place ∧ place ≤ 16 then digits.take place.toNat ++ '.' :: digits.drop place.toNat
    else if -5 < place ∧ place ≤ 0 then "0.".toList ++ List.replicate (-place).toNat '0' ++ digits
    else
      let mantissa := if digits.length = 1 then digits else digits.take 1 ++ '.' :: digits.drop 1
      mantissa ++ 'e' :: (toString (place - 1)).toList
  String.ofList (if x.negative then '-' :: body else body)

end Real

end WatchDispatch.Json
