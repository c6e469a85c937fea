import WatchDispatch.Json.Basic

/-!
Drafts: JSON values as far as a text holds them.

A text can break off, or go wrong, in the middle of its value. A draft keeps all that stands in
front of that place, in the order of the text, keys that occur twice included. What is wrong with a
draft depends on who reads it. A value that is only passed over has to have the outer form of JSON:
numbers of any size, any escape of four digits and any depth will do. A value that is kept has to be
one.

`Draft.pass` and `Draft.value` are the two readings. Both go from left to right and tell the first
thing that is wrong. `Draft.ofJson` is the draft of a finished value; it can always be passed over.
-/

namespace WatchDispatch.Json

inductive ReadError where
  /-- The text ends before its value does. -/
  | incomplete
  /-- No continuation makes the text a value of the wanted form. -/
  | malformed
deriving DecidableEq, Repr, Inhabited

/-- A string as far as a text holds it. -/
structure DraftText where
  /-- Its characters, or why it has none. -/
  value : Except ReadError String
  /-- Why it cannot even be passed over; `none` if it can. -/
  fault : Option ReadError
deriving Inhabited

mutual

/-- A value as far as a text holds it. -/
inductive Draft where
  /-- Nothing that starts a value. -/
  | missing (e : ReadError)
  /-- One of the words `null`, `true` and `false`. -/
  | word (value : Except ReadError Json)
  /-- A number, and whether it has the outer form of one. -/
  | number (value : Except ReadError Json) (formed : Bool)
  | text (t : DraftText)
  /-- An array, and whether it is nested too deep to be kept. -/
  | array (deep : Bool) (items : DraftItems)
  /-- An object, and whether it is nested too deep to be kept. -/
  | object (deep : Bool) (members : DraftMembers)

/-- The items of an array. A comma is always followed by an item, a missing one if need be. -/
inductive DraftItems where
  | closed
  /-- Neither a comma nor the closing bracket comes next. -/
  | broken (e : ReadError)
  | item (d : Draft) (rest : DraftItems)

/-- The members of an object. A comma is always followed by a member, one without key if need be. -/
inductive DraftMembers where
  | closed
  /-- Neither a key nor a comma nor the closing brace comes next. -/
  | broken (e : ReadError)
  /-- A value stands where the first key should. -/
  | keyless (d : Draft)
  /-- A key with its value, which is missing if no colon follows the key. -/
  | member (key : DraftText) (value : Draft) (rest : DraftMembers)

end

instance : Inhabited Draft := ⟨.missing .incomplete⟩
instance : Inhabited DraftItems := ⟨.closed⟩
instance : Inhabited DraftMembers := ⟨.closed⟩

/-- A reading of drafts. -/
abbrev Reader (α : Type) := Draft → Except ReadError α

def DraftText.pass (t : DraftText) : Except ReadError Unit :=
  match t.fault with
  | none => .ok ()
  | some e => .error e

def DraftText.ofString (s : String) : DraftText := ⟨.ok s, none⟩

mutual

def Draft.pass : Draft → Except ReadError Unit
  | .missing e => .error e
  | .word (.error e) => .error e
  | .word (.ok _) => .ok ()
  | .number _ formed => if formed then .ok () else .error .malformed
  | .text t => t.pass
  | .array _ items => items.pass
  | .object _ members => members.pass

def DraftItems.pass : DraftItems → Except ReadError Unit
  | .closed => .ok ()
  | .broken e => .error e
  | .item d rest => do
    d.pass
    rest.pass

def DraftMembers.pass : DraftMembers → Except ReadError Unit
  | .closed => .ok ()
  | .broken e => .error e
  | .keyless _ => .error .malformed
  | .member key d rest => do
    key.pass
    d.pass
    rest.pass

end

mutual

/-- The value that a draft holds in full. -/
def Draft.value : Draft → Except ReadError Json
  | .missing e => .error e
  | .word v => v
  | .number v _ => v
  | .text t => t.value.map Json.text
  | .array deep items =>
    if deep then .error .malformed else (items.values []).map (fun done => Json.array done.reverse)
  | .object deep members =>
    if deep then .error .malformed else (members.values []).map (fun done => ofMembers done.reverse)

/-- The values of items, the last one first, in front of those found before. -/
def DraftItems.values (done : List Json) : DraftItems → Except ReadError (List Json)
  | .closed => .ok done
  | .broken e => .error e
  | .item d rest =>
    match d.value with
    | .error e => .error e
    | .ok v => rest.values (v :: done)

/-- The members with their values, the last one first, in front of those found before. -/
def DraftMembers.values (done : List (String × Json)) :
    DraftMembers → Except ReadError (List (String × Json))
  | .closed => .ok done
  | .broken e => .error e
  | .keyless _ => .error .malformed
  | .member key d rest =>
    match key.value with
    | .error e => .error e
    | .ok name =>
      match d.value with
      | .error e => .error e
      | .ok v => rest.values ((name, v) :: done)

end

mutual

def Draft.ofJson : Json → Draft
  | .integer n => .number (.ok (.integer n)) true
  | .real x => .number (.ok (.real x)) true
  | .text s => .text (.ofString s)
  | .array items => .array false (DraftItems.ofValues items)
  | .object members => .object false (DraftMembers.ofValues members)
  | .null => .word (.ok .null)
  | .bool b => .word (.ok (.bool b))

def DraftItems.ofValues : List Json → DraftItems
  | [] => .closed
  | v :: rest => .item (Draft.ofJson v) (DraftItems.ofValues rest)

def DraftMembers.ofValues : List (String × Json) → DraftMembers
  | [] => .closed
  | (key, v) :: rest => .member (.ofString key) (Draft.ofJson v) (DraftMembers.ofValues rest)

end

mutual

theorem Draft.pass_ofJson : ∀ v : Json, (Draft.ofJson v).pass = .ok ()
  | .null | .bool _ | .integer _ | .real _ | .text _ => rfl
  | .array items => DraftItems.pass_ofValues items
  | .object members => DraftMembers.pass_ofValues members

theorem DraftItems.pass_ofValues : ∀ items : List Json, (DraftItems.ofValues items).pass = .ok ()
  | [] => rfl
  | v :: rest => by
    rw [DraftItems.ofValues, DraftItems.pass, Draft.pass_ofJson v]
    exact DraftItems.pass_ofValues rest

theorem DraftMembers.pass_ofValues :
    ∀ members : List (String × Json), (DraftMembers.ofValues members).pass = .ok ()
  | [] => rfl
  | (key, v) :: rest => by
    rw [DraftMembers.ofValues, DraftMembers.pass, Draft.pass_ofJson v]
    exact DraftMembers.pass_ofValues rest

end

/-- The error of a value that is not of the wanted kind. It is finished first, except for an array
or an object, of which the opening bracket tells the kind. -/
def Draft.misfit : Draft → ReadError
  | .missing e => e
  | .word (.error e) => e
  | .number (.error e) _ => e
  | .text ⟨.error e, _⟩ => e
  | _ => .malformed

end WatchDispatch.Json
