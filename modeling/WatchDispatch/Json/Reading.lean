import WatchDispatch.Json.Draft

/-!
Readings of drafts for values of a wanted form.

Every reading goes through the draft from left to right and tells the first thing that does not fit,
so a text that breaks off counts as incomplete only if everything in front of the break fits. There
are two kinds of records. An open record is an object whose members are taken one by one. An exact
record has a list of fields: as an object it names no field twice, as an array it has the fields in
their order. Members that no field is named for are passed over in both.
-/

namespace WatchDispatch.Json

namespace Draft

def string : Reader String
  | .text t => t.value
  | d => .error d.misfit

def flag : Reader Bool
  | .word (.ok (.bool b)) => .ok b
  | d => .error d.misfit

def integerWithin (least greatest : Int) : Reader Int
  | .number (.ok (.integer n)) _ => if least ≤ n ∧ n ≤ greatest then .ok n else .error .malformed
  | d => .error d.misfit

def int64 : Reader Int := integerWithin (-9223372036854775808) 9223372036854775807

def nat16 : Reader Nat := fun d => (integerWithin 0 65535 d).map Int.toNat

def optional {α : Type} (read : Reader α) : Reader (Option α)
  | .word (.ok .null) => .ok none
  | d => (read d).map some

/-- A reading whose outcome is written as a value. -/
def asJson {α : Type} (write : α → Json) (read : Reader α) : Reader Json := fun d =>
  (read d).map write

/-- A string that has to be this one. -/
def constant (expected : String) : Reader Unit := fun d =>
  match d.string with
  | .error e => .error e
  | .ok s => if s = expected then .ok () else .error .malformed

def parsed {α : Type} (parse? : String → Option α) : Reader α := fun d =>
  match d.string with
  | .error e => .error e
  | .ok s =>
    match parse? s with
    | some a => .ok a
    | none => .error .malformed

end Draft

/-- Items of one kind, the last one first, in front of those read before. -/
def DraftItems.each {α : Type} (read : Reader α) (done : List α) :
    DraftItems → Except ReadError (List α)
  | .closed => .ok done
  | .broken e => .error e
  | .item d rest =>
    match read d with
    | .error e => .error e
    | .ok a => rest.each read (a :: done)

def DraftMembers.fold {σ : Type} (step : σ → String → Reader σ) (s : σ) :
    DraftMembers → Except ReadError σ
  | .closed => .ok s
  | .broken e => .error e
  | .keyless _ => .error .malformed
  | .member key d rest =>
    match key.value with
    | .error e => .error e
    | .ok name =>
      match step s name d with
      | .error e => .error e
      | .ok s => rest.fold step s

namespace Draft

def list {α : Type} (read : Reader α) : Reader (List α)
  | .array deep items =>
    if deep then .error .malformed else (items.each read []).map List.reverse
  | d => .error d.misfit

/-- An object whose members are taken one by one. -/
def record {σ : Type} (step : σ → String → Reader σ) (s : σ) : Reader σ
  | .object deep members => if deep then .error .malformed else members.fold step s
  | d => .error d.misfit

def ignored {σ : Type} (s : σ) : Reader σ := fun d => d.pass.map (fun _ => s)

/-- Values of one kind by name; of two with one name the later stays. -/
def named {α : Type} (read : Reader α) : Reader (List (String × α)) :=
  record (fun entries name d => (read d).map (fun a => Assoc.insert name a entries)) []

/-- An open record with these fields. A field that is `null` is as good as absent; of two fields
with one name the later counts. -/
def openRecord (field? : String → Option (Reader Json)) : Reader (List (String × Json)) :=
  record (fun found name d =>
    match field? name with
    | none => ignored found d
    | some read =>
      match optional read d with
      | .error e => .error e
      | .ok none => .ok (Assoc.erase name found)
      | .ok (some v) => .ok (Assoc.insert name v found)) []

end Draft

/-- The fields of an exact record. -/
abbrev Fields := List (String × Reader Json)

namespace Fields

/-- Takes the member of an exact record. A field that was there before is wrong, whatever its
value. -/
def step (fields : Fields) (found : List (String × Json)) (name : String) :
    Reader (List (String × Json)) := fun d =>
  match fields.lookup name with
  | none => Draft.ignored found d
  | some read =>
    if (Assoc.get? name found).isSome then .error .malformed
    else (read d).map (fun v => Assoc.insert name v found)

/-- Takes the items of an array as fields in their order. Fields may be missing at the end, but no
item may be left over. -/
def row (found : List (String × Json)) :
    Fields → DraftItems → Except ReadError (List (String × Json))
  | _, .closed => .ok found
  | _, .broken e => .error e
  | [], .item _ _ => .error .malformed
  | (name, read) :: fields, .item d rest =>
    match read d with
    | .error e => .error e
    | .ok v => row (Assoc.insert name v found) fields rest

/-- An exact record with the fields that are there. -/
def read (fields : Fields) : Reader (List (String × Json))
  | .object deep members => if deep then .error .malformed else members.fold fields.step []
  | .array deep items => if deep then .error .malformed else row [] fields items
  | d => .error d.misfit

end Fields

end WatchDispatch.Json
