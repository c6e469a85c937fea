import WatchDispatch.Proofs.Cluster.Wire
import WatchDispatch.Proofs.Scope.Targets

/-!
# Collections

A scope stands for a collection of objects, and each collection has an address. A stream of a
transport asks for the collection of its scope and tells what the server tells under its address: of
the objects in the collection, if the server keeps to that.
-/

namespace WatchDispatch

/-- Of two scopes of one target, both are names. -/
theorem TargetScope.named_of_ne {target : TargetScope} {one other : Scope}
    (mem : one ∈ target.watchScopes) (mem' : other ∈ target.watchScopes) (apart : one ≠ other) :
    ∃ name name', name ≠ name' ∧ one = .named name ∧ other = .named name' := by
  have single : ∀ scope, one ∈ [scope] → other ∈ [scope] → one = other := by
    intro scope here there
    rw [List.mem_singleton.mp here, List.mem_singleton.mp there]
  unfold watchScopes at mem mem'
  cases target with
  | all => exact absurd (single _ mem mem') apart
  | defaultNamespace => exact absurd (single _ mem mem') apart
  | names set =>
    dsimp only at mem mem'
    split at mem
    next empty =>
      rw [if_pos empty] at mem'
      exact absurd (single _ mem mem') apart
    next filled =>
      rw [if_neg filled] at mem'
      obtain ⟨name, -, rfl⟩ := List.mem_map.mp mem
      obtain ⟨name', -, rfl⟩ := List.mem_map.mp mem'
      exact ⟨name, name', fun same => apart (congrArg _ same), rfl, rfl⟩

namespace Cluster

open Watch (Item)

/-! ## Addresses -/

/-- The collections of different namespaces have different addresses. -/
theorem ApiResource.path_injective {r : ApiResource} {ns other : String}
    (same : r.path (some ns) = r.path (some other)) : ns = other := by
  have text : ∀ ns, r.path (some ns) = "/" ++ (if r.group = "" then "api" else "apis") ++ "/" ++
      r.apiVersion ++ "/" ++ ("namespaces/" ++ ns ++ "/") ++ r.plural := fun _ => rfl
  rw [text, text] at same
  have letters := congrArg String.toList same
  simp only [String.toList_append, List.append_assoc, List.append_cancel_left_eq,
    List.append_cancel_right_eq] at letters
  exact String.toList_inj.mp letters

/-- Nothing of the text is cut off when it is the path of an address. -/
def Address.Unmarked (path : String) : Prop := '?' ∉ path.toList ∧ '#' ∉ path.toList

instance (path : String) : Decidable (Address.Unmarked path) :=
  inferInstanceAs (Decidable ('?' ∉ path.toList ∧ '#' ∉ path.toList))

theorem takeWhile_ne_of_not_mem {c : Char} {front back : List Char} (absent : c ∉ front) :
    (front ++ back).takeWhile (· != c) = front ++ back.takeWhile (· != c) := by
  apply List.takeWhile_append_of_pos
  intro d mem
  simpa using fun same : d = c => absent (same ▸ mem)

/-- A watch on a collection is asked for at its address. -/
theorem path_watchRequest {params : WatchParams} {path version uri : String}
    (unmarked : Address.Unmarked path) (request : watchRequest params path version = .ok uri) :
    Address.path uri = path := by
  obtain ⟨rest, text⟩ : ∃ rest, (watchText params path version).toList =
      path.toList ++ '?' :: rest := by
    have text : watchText params path version = path ++ "?&watch=true&timeoutSeconds=" ++
        toString params.timeout ++ (if params.bookmarks then "&allowWatchBookmarks=true" else "") ++
        "&resourceVersion=" ++ Text.formEncode version := rfl
    simp [text]
  have written : Address.ofText (watchText params path version) = .ok uri := by
    unfold watchRequest at request
    split at request
    · cases request
    · cases found : Address.ofText (watchText params path version) with
      | error e => simp [found, Except.mapError] at request
      | ok u => simpa [found, Except.mapError] using request
  obtain rfl : String.ofList ((watchText params path version).toList.takeWhile (· != '#')) =
      uri := by
    unfold Address.ofText at written
    dsimp only at written
    split at written
    · cases written
    · split at written <;> cases written
      rfl
  rw [Address.path, text, takeWhile_ne_of_not_mem unmarked.2]
  simp [takeWhile_ne_of_not_mem unmarked.1]

/-! ## Objects of collections -/

namespace Api

/-- The collection that a scope stands for holds an object with this identity. -/
def Holds (a : Api) (scope : Scope) (r : ResourceIdentity) : Prop :=
  ∀ ns, a.namespaceOf scope = some ns → r.ns = some ns

/-- Objects without namespaces are all in one collection, whatever the scope. -/
theorem one_collection {a : Api} (whole : a.namespaced = false) (scope : Scope) :
    a.pathOf scope = a.resource.path none ∧ ∀ r, a.Holds scope r := by
  have none : a.namespaceOf scope = none := by cases scope <;> simp [namespaceOf, whole]
  exact ⟨congrArg a.resource.path none, fun r ns found => by rw [none] at found; cases found⟩

/-- Objects that belong to namespaces are in different collections for different names. -/
theorem collections_ne {a : Api} (own : a.namespaced = true) {name name' : String}
    (apart : name ≠ name') :
    a.pathOf (.named name) ≠ a.pathOf (.named name') ∧ ∀ r r', a.Holds (.named name) r →
      a.Holds (.named name') r' → r.ns ≠ r'.ns := by
  have ns : ∀ name, a.namespaceOf (.named name) = some name := by simp [namespaceOf, own]
  constructor
  · intro same
    rw [pathOf, pathOf, ns, ns] at same
    exact apart (ApiResource.path_injective same)
  · intro r r' held held' same
    rw [held name (ns name), held' name' (ns name')] at same
    exact apart (Option.some.inj same)

/-- Under the address of a collection, the replies of a server tell only what they may for its
scope. -/
def Tells (a : Api) (May : Scope → Event → Prop) (s : Server) : Prop :=
  ∀ scope replies, s.routes.get? (a.pathOf scope) = some replies → ∀ reply ∈ replies,
    ∀ e, .event e ∈ told a.decoder (Response.ofReply reply).news → May scope e

/-- Under the address of a collection, the replies of a server tell only of objects in it. -/
abbrev Honest (a : Api) (s : Server) : Prop :=
  a.Tells (fun scope e => a.Holds scope e.snapshot.identity) s

end Api

/-! ## Streams of a collection -/

/-- A cursor reads the collection of a scope and has left to tell only what it may. -/
structure Cursor.Within (a : Api) (May : Scope → Event → Prop) (scope : Scope) (c : Cursor) :
    Prop where
  path : c.path = a.pathOf scope
  news : Address.Unmarked (a.pathOf scope) →
    ∀ e, .event e ∈ told a.decoder c.stage.news → May scope e

variable {a : Api} {May : Scope → Event → Prop} {scope : Scope}

section Answers

variable {s : Server} (tells : a.Tells May s)

include tells

/-- A request takes a reply from the server and adds none. -/
theorem Api.Tells.watch (path version : String) :
    a.Tells May (s.watch a.params path version).2 := by
  unfold Server.watch
  split
  next => exact tells
  next uri request =>
    intro scope replies found reply mem
    simp only [Server.ask] at found
    split at found
    next first rest here =>
      rw [Table.get?_insert] at found
      split at found
      next same =>
        cases found
        exact tells scope (first :: replies) (same ▸ here) reply (List.mem_cons_of_mem _ mem)
      next => exact tells scope replies found reply mem
    next => exact tells scope replies found reply mem

theorem Api.Tells.next (c : Cursor) (decoder : Decoder) :
    a.Tells May (c.next a.params decoder s).2.2 := by
  unfold Cursor.next
  rcases c.look decoder with ⟨_ | item, between⟩
  · have after := tells.watch between.path between.resourceVersion
    dsimp only [Cursor.ask]
    rcases answer : s.watch a.params between.path between.resourceVersion with
      ⟨_ | error | lines, s'⟩ <;>
      rw [answer] at after <;> exact after
  · exact tells

/-- The response to a watch on a collection tells what it may. -/
theorem Api.Tells.response (unmarked : Address.Unmarked (a.pathOf scope)) (version : String)
    {e : Event}
    (mem : .event e ∈ told a.decoder (s.watch a.params (a.pathOf scope) version).1.news) :
    May scope e := by
  have silent : ∀ error : ClientError, .event e ∉ told a.decoder [.failure error] := by
    intro error
    simp [told, reported, WatchLine.telling]
  unfold Server.watch at mem
  split at mem
  next => exact absurd mem (silent _)
  next uri request =>
    simp only [Server.ask] at mem
    split at mem
    next reply rest found =>
      rw [path_watchRequest unmarked request] at found
      exact tells scope _ found reply List.mem_cons_self e mem
    next => exact absurd mem (silent _)

/-- A cursor that is read stays within its collection and tells only what it may. -/
theorem Cursor.Within.next {c c' : Cursor} {item : Item} {s' : Server}
    (within : c.Within a May scope) (taken : c.next a.params a.decoder s = (item, c', s')) :
    c'.Within a May scope ∧
      ∀ e, item = .event e → Address.Unmarked (a.pathOf scope) → May scope e := by
  -- What a cursor has left to tell it had to tell before.
  have onward : ∀ {shown c'}, c.Passes a.decoder shown c' → c'.Within a May scope := by
    intro shown c' passes
    refine ⟨passes.path.symm.trans within.path, fun unmarked e mem => within.news unmarked e ?_⟩
    rw [passes.told]
    exact List.mem_append_right _ mem
  have quiet : ∀ {c' : Cursor}, c'.path = c.path → c'.stage = .finished →
      c'.Within a May scope := by
    intro c' path stage
    refine ⟨path.trans within.path, fun _ e mem => ?_⟩
    simp [stage, CursorStage.news] at mem
  have looks := look_looks a.decoder c
  unfold Cursor.next at taken
  rcases look : c.look a.decoder with ⟨found, between⟩
  rw [look] at looks taken
  cases looks with
  | event passes stage =>
    cases taken
    refine ⟨onward passes, fun e same unmarked => within.news unmarked e ?_⟩
    rw [passes.told]
    exact List.mem_append_left _ (by simp_all)
  | idle passes => cases taken; exact ⟨onward passes, by simp⟩
  | trouble _ _ stage path => cases taken; exact ⟨quiet path stage, by simp⟩
  | ended stage => cases taken; exact ⟨within, by simp⟩
  | asks passes =>
    have path := passes.path.symm.trans within.path
    have news : Address.Unmarked (a.pathOf scope) → ∀ e,
        .event e ∈
        told a.decoder (s.watch a.params (a.pathOf scope) between.resourceVersion).1.news →
        May scope e := fun unmarked _ mem => tells.response unmarked _ mem
    dsimp only [Cursor.ask] at taken
    rw [path] at taken
    rcases answer : s.watch a.params (a.pathOf scope) between.resourceVersion with
      ⟨_ | error | lines, after⟩ <;>
      rw [answer] at taken news <;> cases taken
    · exact ⟨quiet passes.path.symm rfl, by simp [Cursor.fail]⟩
    · refine ⟨⟨rfl, fun _ e mem => ?_⟩, by simp⟩
      simp [CursorStage.news, told, reported, WatchLine.telling] at mem
    · exact ⟨⟨rfl, news⟩, by simp⟩

end Answers

end Cluster

end WatchDispatch
