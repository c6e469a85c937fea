import WatchDispatch.Json.Reading

/-!
Reading JSON texts.

A text is first made into a draft, which holds the value as far as the text does; a reading of the
draft then tells what it is. `Json.read` is any such reading of a whole text with nothing but blanks
around the value, `Json.parse` the one that keeps the value as it is. Arrays and objects that are
kept nest at most 127 deep.
-/

namespace WatchDispatch.Json

namespace Parser

/-- Blanks between the parts of a value: space, tab, line feed and carriage return. -/
def isSpace (c : Char) : Bool := c == ' ' || c == '\t' || c == '\n' || c == '\r'

def skip (cs : List Char) : List Char := cs.dropWhile isSpace

/-- A part of a draft with the text that follows it; `none` if the text breaks off or goes wrong. -/
abbrev Part (α : Type) := α × Option (List Char)

def word (value : Json) : List Char → List Char → Part Draft
  | [], cs => (.word (.ok value), some cs)
  | _ :: _, [] => (.word (.error .incomplete), none)
  | w :: ws, c :: cs => if w = c then word value ws cs else (.word (.error .malformed), none)

/-! Strings. -/

def hexDigit? (c : Char) : Option Nat :=
  if c.isDigit then some (c.toNat - '0'.toNat)
  else if 'a' ≤ c ∧ c ≤ 'f' then some (c.toNat - 'a'.toNat + 10)
  else if 'A' ≤ c ∧ c ≤ 'F' then some (c.toNat - 'A'.toNat + 10)
  else none

def shortEscape? : Char → Option Char
  | '"' => some '"'
  | '\\' => some '\\'
  | '/' => some '/'
  | 'b' => some '\x08'
  | 'f' => some '\x0c'
  | 'n' => some '\n'
  | 'r' => some '\r'
  | 't' => some '\t'
  | _ => none

def holdsBytes : Nat → List Char → Bool
  | 0, _ => true
  | _ + 1, [] => false
  | n + 1, c :: cs => holdsBytes (n + 1 - c.utf8Size) cs

/-- How far an escape was read. -/
inductive Escape where
  | none
  /-- After the backslash. -/
  | opened
  /-- After so many of four digits, which make this number. -/
  | digits (count value : Nat)
deriving DecidableEq, Repr

/-- How far a string was read. -/
structure Scan where
  /-- The characters, the last one first, or why it has none. -/
  done : Except ReadError (List Char)
  /-- The high half of a surrogate pair whose low half has to come next. -/
  high : Option Nat
  escape : Escape

namespace Scan

def start : Scan := ⟨.ok [], Option.none, .none⟩

/-- After a character that stands for itself or was escaped by one letter. -/
def put (s : Scan) (c : Char) : Scan :=
  match s.done, s.high with
  | .ok done, Option.none => ⟨.ok (c :: done), Option.none, .none⟩
  | .ok _, some _ => ⟨.error .malformed, Option.none, .none⟩
  | .error e, _ => ⟨.error e, Option.none, .none⟩

/-- After an escape of four digits. The halves of a surrogate pair come one after the other and make
one character; no half stands alone. -/
def putUnit (s : Scan) (n : Nat) : Scan :=
  let isLow := 0xDC00 ≤ n && n ≤ 0xDFFF
  match s.done, s.high with
  | .ok done, Option.none =>
    if isLow then ⟨.error .malformed, Option.none, .none⟩
    else if 0xD800 ≤ n && n ≤ 0xDBFF then ⟨.ok done, some n, .none⟩
    else ⟨.ok (Char.ofNat n :: done), Option.none, .none⟩
  | .ok done, some high =>
    if isLow then
      let c := Char.ofNat (0x10000 + (high - 0xD800) * 0x400 + (n - 0xDC00))
      ⟨.ok (c :: done), Option.none, .none⟩
    else ⟨.error .malformed, Option.none, .none⟩
  | .error e, _ => ⟨.error e, Option.none, .none⟩

/-- The string after its closing quote. -/
def close (s : Scan) : DraftText :=
  match s.done, s.high with
  | .ok done, Option.none => ⟨.ok (String.ofList done.reverse), Option.none⟩
  | .ok _, some _ => ⟨.error .malformed, Option.none⟩
  | .error e, _ => ⟨.error e, Option.none⟩

/-- The string at a place where the text breaks off or goes wrong; what was wrong before stays
so. -/
def stop (s : Scan) (e : ReadError) : DraftText :=
  match s.done with
  | .ok _ => ⟨.error e, some e⟩
  | .error first => ⟨.error first, some e⟩

end Scan

/-- The rest of a string after its opening quote. -/
def string (s : Scan) : List Char → Part DraftText
  | [] => (s.stop .incomplete, none)
  | c :: cs =>
    match s.escape with
    | .none =>
      if c = '"' then (s.close, some cs)
      else if c = '\\' then string { s with escape := .opened } cs
      else if c.toNat < 0x20 then (s.stop .malformed, none)
      else string (s.put c) cs
    | .opened =>
      if c = 'u' then
        if holdsBytes 4 cs then string { s with escape := .digits 0 0 } cs
        else (s.stop .incomplete, none)
      else
        match shortEscape? c with
        | some decoded => string (s.put decoded) cs
        | none => (s.stop .malformed, none)
    | .digits count value =>
      match hexDigit? c with
      | none => (s.stop .malformed, none)
      | some d =>
        if count = 3 then string (s.putUnit (value * 16 + d)) cs
        else string { s with escape := .digits (count + 1) (value * 16 + d) } cs

/-! Numbers. -/

def digit? (c : Char) : Option Nat := if c.isDigit then some (c.toNat - '0'.toNat) else none

/-- The greatest number that the digits of a floating-point number are gathered to. -/
def greatestSignificand : Nat := 18446744073709551615

/-- Appends digits to a number for as long as it stays in range, and counts those appended. -/
def gather : Nat → List Nat → Nat × Nat
  | n, [] => (n, 0)
  | n, d :: ds =>
    if n * 10 + d ≤ greatestSignificand then
      let (total, taken) := gather (n * 10 + d) ds
      (total, taken + 1)
    else (n, 0)

/-- At least one digit, and all that follow. -/
def digits (cs : List Char) : Except ReadError (List Nat × List Char) :=
  match cs with
  | [] => .error .incomplete
  | c :: _ =>
    if c.isDigit then .ok ((cs.takeWhile Char.isDigit).filterMap digit?, cs.dropWhile Char.isDigit)
    else .error .malformed

/-- The exponent after its letter. -/
def exponent (cs : List Char) : Except ReadError (Int × List Char) := do
  let (sign, cs) := match cs with
    | '+' :: rest => ((1 : Int), rest)
    | '-' :: rest => (-1, rest)
    | _ => (1, cs)
  let (ds, rest) ← digits cs
  let size : Nat := ds.foldl (fun n d => n * 10 + d) 0
  .ok (sign * (size : Int), rest)

/-- The value of a number's parts: an integer if there is neither fraction nor exponent and it is
one of 64 bits with or without sign, a floating-point number otherwise. Minus zero is of the second
kind. Digits that no longer fit into the significand only shift the point. -/
def number? (negative : Bool) (whole fraction : List Nat) (scale : Option Int) : Option Json :=
  let n : Nat := whole.foldl (fun n d => n * 10 + d) 0
  if fraction = [] ∧ scale = none ∧ !negative ∧ n < UInt64.size then some (integer n)
  else if fraction = [] ∧ scale = none ∧ negative ∧ 0 < n ∧
  n ≤ 9223372036854775808 then some (integer (-n))
  else
    let (c, takenWhole) := gather 0 whole
    let (c, takenFraction) := gather c fraction
    let shift : Int := (whole.length : Int) - takenWhole - takenFraction
    (Real.ofDecimal? negative c (shift + scale.getD 0)).map real

/-- The parts of a number: the digits before and after the point, and the exponent. -/
structure Numeral where
  whole : List Nat
  fraction : List Nat
  scale : Option Int
deriving Repr, Inhabited

/-- The parts of a number after its sign, with the text that follows. -/
def numeral (cs : List Char) : Except ReadError (Numeral × List Char) := do
  let (whole, cs) ← match cs with
    | '0' :: rest =>
      match rest with
      | c :: _ => if c.isDigit then .error .malformed else .ok ([0], rest)
      | [] => .ok ([0], rest)
    | _ => digits cs
  let (fraction, cs) ← match cs with
    | '.' :: rest => digits rest
    | _ => .ok ([], cs)
  let (scale, cs) ← match cs with
    | 'e' :: rest | 'E' :: rest => do
      let (e, rest) ← exponent rest
      .ok (some e, rest)
    | _ => .ok (none, cs)
  .ok (⟨whole, fraction, scale⟩, cs)

/-- A number after its sign. One that is too large to be kept can still be passed over. -/
def number (negative : Bool) (cs : List Char) : Part Draft :=
  match numeral cs with
  | .error e => (.number (.error e) false, none)
  | .ok (n, rest) =>
    match number? negative n.whole n.fraction n.scale with
    | some value => (.number (.ok value) true, some rest)
    | none => (.number (.error .malformed) true, some rest)

/-! Arrays and objects. -/

/-- How deep arrays and objects that are kept nest. -/
def greatestDepth : Nat := 127

/-- Items in front of others, given the last one first. -/
def prependItems (done : List Draft) (rest : DraftItems) : DraftItems :=
  done.foldl (fun rest d => .item d rest) rest

/-- Members in front of others, given the last one first. -/
def prependMembers (done : List (DraftText × Draft)) (rest : DraftMembers) : DraftMembers :=
  done.foldl (fun rest m => .member m.1 m.2 rest) rest

/-- A member without key. -/
def noKey (e : ReadError) : DraftText × Draft := (⟨.error e, some e⟩, .missing e)

/-- What follows a value: a closing bracket, a comma, or something wrong. -/
inductive Follow where
  | closed (rest : List Char)
  | comma (rest : List Char)
  | wrong (e : ReadError)

/-- What follows a value inside of brackets, of which `bracket` is the closing one. -/
def follow (bracket : Char) (cs : List Char) : Follow :=
  match skip cs with
  | [] => .wrong .incomplete
  | c :: rest =>
      if c = bracket then .closed rest else if c = ',' then .comma rest else .wrong .malformed

mutual

/-- A value at the start of a text, inside of `level` arrays and objects. Every value takes at least
one character, and so does every bracket and every comma, so fuel of twice the length is enough. -/
def value : Nat → Nat → List Char → Part Draft
  | 0, _, _ => (.missing .malformed, none)
  | _ + 1, _, [] => (.missing .incomplete, none)
  | fuel + 1, level, c :: rest =>
    if c = '"' then
      let (t, rest) := string .start rest
      (.text t, rest)
    else if c = '[' then
      let deep := decide (greatestDepth ≤ level)
      match skip rest with
      | [] => (.array deep (.broken .incomplete), none)
      | c :: cs =>
        if c = ']' then (.array deep .closed, some cs)
        else
          let (found, rest) := items fuel (level + 1) [] (c :: cs)
          (.array deep found, rest)
    else if c = '{' then
      let deep := decide (greatestDepth ≤ level)
      match skip rest with
      | [] => (.object deep (.broken .incomplete), none)
      | c :: cs =>
        if c = '}' then (.object deep .closed, some cs)
        else if c = '"' then
          let (found, rest) := members fuel (level + 1) [] cs
          (.object deep found, rest)
        else (.object deep (.keyless (value fuel (level + 1) (c :: cs)).1), none)
    else if c = 'n' then word .null "ull".toList rest
    else if c = 't' then word (.bool true) "rue".toList rest
    else if c = 'f' then word (.bool false) "alse".toList rest
    else if c = '-' then number true rest
    else if c.isDigit then number false (c :: rest)
    else (.missing .malformed, none)

/-- Items after an opening bracket or a comma. -/
def items : Nat → Nat → List Draft → List Char → Part DraftItems
  | 0, _, done, _ => (prependItems done (.broken .malformed), none)
  | fuel + 1, level, done, cs =>
    match value fuel level (skip cs) with
    | (d, none) => (prependItems (d :: done) (.broken .malformed), none)
    | (d, some rest) =>
      match follow ']' rest with
      | .closed rest => (prependItems (d :: done) .closed, some rest)
      | .comma rest => items fuel level (d :: done) rest
      | .wrong e => (prependItems (d :: done) (.broken e), none)

/-- Members after an opening brace or a comma and the quote of the first key. -/
def members : Nat → Nat → List (DraftText × Draft) → List Char → Part DraftMembers
  | 0, _, done, _ => (prependMembers done (.broken .malformed), none)
  | fuel + 1, level, done, cs =>
    match string .start cs with
    | (key, none) =>
        (prependMembers ((key, .missing .malformed) :: done) (.broken .malformed), none)
    | (key, some rest) =>
      match skip rest with
      | [] => (prependMembers ((key, .missing .incomplete) :: done) (.broken .malformed), none)
      | c :: rest =>
        if c = ':' then
          match value fuel level (skip rest) with
          | (d, none) => (prependMembers ((key, d) :: done) (.broken .malformed), none)
          | (d, some rest) =>
            let done := (key, d) :: done
            match follow '}' rest with
            | .closed rest => (prependMembers done .closed, some rest)
            | .wrong e => (prependMembers done (.broken e), none)
            | .comma rest =>
              match skip rest with
              | [] => (prependMembers (noKey .incomplete :: done) .closed, none)
              | c :: rest =>
                if c = '"' then members fuel level done rest
                else (prependMembers (noKey .malformed :: done) .closed, none)
        else (prependMembers ((key, .missing .malformed) :: done) (.broken .malformed), none)

end

end Parser

/-- The draft of the value that a text starts with, and whether nothing but blanks follows it. -/
def draft (s : String) : Draft × Bool :=
  let cs := s.toList
  match Parser.value (2 * cs.length + 2) 0 (Parser.skip cs) with
  | (d, none) => (d, true)
  | (d, some rest) => (d, (Parser.skip rest).isEmpty)

def read {α : Type} (reading : Reader α) (s : String) : Except ReadError α :=
  let (d, alone) := draft s
  match reading d with
  | .error e => .error e
  | .ok a => if alone then .ok a else .error .malformed

def parse (s : String) : Except ReadError Json := read Draft.value s

end WatchDispatch.Json
