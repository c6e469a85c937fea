import WatchDispatch.Text.Blank
import WatchDispatch.Text.Numeral
import WatchDispatch.Time.Date

/-!
Instants of time and their texts.

An instant is a date and a time of day in UTC with nanoseconds; a leap second is second 59 with a
nanosecond count of a thousand million or more. The text form is that of RFC 3339. Reading takes any
offset, any number of fraction digits (those after the ninth are dropped), blanks between the parts
and numbers without leading zeros; it refuses a time without offset. Writing gives UTC, ending in
`Z`, either with the fewest fraction digits out of 0, 3, 6 and 9 that are exact or cut to whole
seconds.
-/

namespace WatchDispatch.Time

structure Clock where
  hour : Nat
  minute : Nat
  second : Nat
  nano : Nat
  hour_lt : hour < 24
  minute_lt : minute < 60
  second_lt : second < 60
  nano_lt : nano < 2000000000
  leap : 1000000000 ≤ nano → second = 59
deriving DecidableEq, Repr

/-- A point in time, given in UTC. -/
structure Instant where
  date : Date
  clock : Clock
deriving DecidableEq, Repr

/-- The years that an instant may lie in. -/
def yearInRange (year : Int) : Bool := -262143 ≤ year && year ≤ 262142

namespace Clock

/-- The time of day with these numbers; second 60 is the leap second after second 59. -/
def ofNumbers? (hour minute second nano : Nat) : Option Clock :=
  if h : hour < 24 ∧ minute < 60 ∧ second < 60 ∧ nano < 1000000000 then
    some ⟨hour, minute, second, nano, h.1, h.2.1, h.2.2.1, by omega, by omega⟩
  else if h : hour < 24 ∧ minute < 60 ∧ second = 60 ∧ nano < 1000000000 then
    some ⟨hour, minute, 59, nano + 1000000000, h.1, h.2.1, by omega, by omega, by omega⟩
  else none

/-- The second as it is written: 60 in a leap second. -/
def shownSecond (c : Clock) : Nat := if 1000000000 ≤ c.nano then c.second + 1 else c.second

/-- The nanoseconds within the second that is written. -/
def shownNano (c : Clock) : Nat := if 1000000000 ≤ c.nano then c.nano - 1000000000 else c.nano

/-- The time of day without its fraction of a second. -/
def wholeSecond (c : Clock) : Clock :=
  if h : 1000000000 ≤ c.nano then
    ⟨c.hour, c.minute, c.second, 1000000000, c.hour_lt, c.minute_lt, c.second_lt, by omega,
      fun _ => c.leap h⟩
  else ⟨c.hour, c.minute, c.second, 0, c.hour_lt, c.minute_lt, c.second_lt, by omega, by omega⟩

def withMinutes (c : Clock) (minutes : Nat) : Clock :=
  ⟨minutes / 60 % 24, minutes % 60, c.second, c.nano, Nat.mod_lt _ (by omega),
    Nat.mod_lt _ (by omega), c.second_lt, c.nano_lt, c.leap⟩

end Clock

namespace Instant

/-- The instant whose local date and time lie `offset` minutes ahead of UTC. -/
def ofLocal (date : Date) (clock : Clock) (offset : Int) : Instant :=
  let minutes : Int := clock.hour * 60 + clock.minute - offset
  if minutes < 0 then ⟨date.previous, clock.withMinutes (minutes + 1440).toNat⟩
  else if 1440 ≤ minutes then ⟨date.next, clock.withMinutes (minutes - 1440).toNat⟩
  else ⟨date, clock.withMinutes minutes.toNat⟩

def wholeSecond (t : Instant) : Instant := ⟨t.date, t.clock.wholeSecond⟩

/-! Writing. -/

/-- A number with at least `width` digits. -/
def padded (width n : Nat) : List Char :=
  let digits := Nat.toDigits 10 n
  List.replicate (width - digits.length) '0' ++ digits

/-- A year: four digits, outside of the years 0 to 9999 with a sign and at least four. -/
def yearText (year : Int) : List Char :=
  if year < 0 then '-' :: padded 4 year.natAbs
  else if 9999 < year then '+' :: padded 4 year.toNat
  else padded 4 year.toNat

def secondText (t : Instant) : List Char :=
  yearText t.date.year ++ '-' :: padded 2 t.date.month ++ '-' :: padded 2 t.date.day ++
    'T' :: padded 2 t.clock.hour ++ ':' :: padded 2 t.clock.minute ++
      ':' :: padded 2 t.clock.shownSecond

/-- The fraction of a second with the fewest digits out of 0, 3, 6 and 9 that are exact. -/
def fractionText (nano : Nat) : List Char :=
  if nano = 0 then []
  else if nano % 1000000 = 0 then '.' :: padded 3 (nano / 1000000)
  else if nano % 1000 = 0 then '.' :: padded 6 (nano / 1000)
  else '.' :: padded 9 nano

/-- The instant with the fewest exact fraction digits. -/
def print (t : Instant) : String :=
  String.ofList (t.secondText ++ fractionText t.clock.shownNano ++ ['Z'])

def printSecond (t : Instant) : String := String.ofList (t.secondText ++ ['Z'])

/-! Reading. -/

/-- A number of one to `most` digits. -/
def readDigits (most : Nat) (cs : List Char) : Option (Nat × List Char) :=
  let digits := (cs.take most).takeWhile Char.isDigit
  if digits = [] then none else some (Text.ofDigits digits, cs.drop digits.length)

/-- A number of one to `most` digits, blanks before it allowed. -/
def readNumber (most : Nat) (cs : List Char) : Option (Nat × List Char) :=
  readDigits most (Text.trimStart cs)

/-- A year: with a sign of any length, without one of up to four digits. -/
def readYear (cs : List Char) : Option (Int × List Char) :=
  match Text.trimStart cs with
  | '-' :: rest => (readDigits rest.length rest).map (fun (n, rest) => (-(n : Int), rest))
  | '+' :: rest => (readDigits rest.length rest).map (fun (n, rest) => ((n : Int), rest))
  | cs => (readDigits 4 cs).map (fun (n, rest) => ((n : Int), rest))

def readMark (mark : Char) (cs : List Char) : Option (List Char) :=
  match Text.trimStart cs with
  | c :: rest => if c = mark then some (Text.trimStart rest) else none
  | [] => none

/-- The fraction of a second, in nanoseconds; nothing counts as zero. -/
def readFraction : List Char → Option (Nat × List Char)
  | '.' :: rest =>
    let digits := rest.takeWhile Char.isDigit
    if digits = [] then none
    else
      let kept := digits.take 9
      some (Text.ofDigits kept * Nat.pow 10 (9 - kept.length), rest.dropWhile Char.isDigit)
  | cs => some (0, cs)

/-- The minutes of an offset after its sign: two digits of hours, two of minutes, colons or blanks
between them. -/
def readOffsetMinutes : List Char → Option (Nat × List Char)
  | h :: h' :: rest =>
    match rest.dropWhile (fun c => c == ':' || Text.isBlank c) with
    | m :: m' :: rest =>
      let hours := Text.ofDigits [h, h']
      let minutes := Text.ofDigits [m, m']
      if h.isDigit && h'.isDigit && m.isDigit && m'.isDigit && hours < 24 && minutes < 60 then
        some (hours * 60 + minutes, rest)
      else none
    | _ => none
  | _ => none

/-- The offset from UTC in minutes: `Z`, `UTC`, or a sign (a minus may be the mathematical one) with
hours and minutes. -/
def readOffset (cs : List Char) : Option (Int × List Char) :=
  if (cs.take 3).map Char.toLower = ['u', 't', 'c'] then some (0, cs.drop 3)
  else
    match cs with
    | 'Z' :: rest | 'z' :: rest => some (0, rest)
    | '+' :: rest => (readOffsetMinutes rest).map (fun (n, rest) => ((n : Int), rest))
    | '-' :: rest | '−' :: rest =>
      (readOffsetMinutes rest).map (fun (n, rest) => (-(n : Int), rest))
    | _ => none

def readDate (cs : List Char) : Option (Date × List Char) := do
  let (year, cs) ← readYear cs
  let (month, cs) ← readNumber 2 (← readMark '-' cs)
  let (day, cs) ← readNumber 2 (← readMark '-' cs)
  if yearInRange year then some (← Date.ofNumbers? year month day, cs) else none

def readClock (cs : List Char) : Option (Clock × List Char) := do
  let (hour, cs) ← readNumber 2 cs
  let (minute, cs) ← readNumber 2 (← readMark ':' cs)
  let (second, cs) ← readNumber 2 (← readMark ':' cs)
  let (nano, cs) ← readFraction cs
  some (← Clock.ofNumbers? hour minute second nano, cs)

/-- The letter or the blank between a date and a time. -/
def readBetween : List Char → Option (List Char)
  | 'T' :: rest | 't' :: rest | ' ' :: rest => some rest
  | _ => none

def parse? (s : String) : Option Instant := do
  let (date, cs) ← readDate s.toList
  let (clock, cs) ← readClock (← readBetween cs)
  let (offset, cs) ← readOffset (Text.trimStart cs)
  let t := ofLocal date clock offset
  if (Text.trimStart cs).isEmpty && yearInRange t.date.year then some t else none

end Instant

end WatchDispatch.Time
