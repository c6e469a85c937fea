import WatchDispatch.Proofs.Cluster.Collections
import WatchDispatch.Proofs.Cluster.ResumePoint
import WatchDispatch.Proofs.Dispatch.SourceScopes

/-!
# What watch requests ask for

A watch request says in the query of its address how long it may last, once and as the transport was
told, unless the path of the collection ends early. The other fields cannot say it a second time: a
resource version is encoded. All that a transport asks the server for are such requests, whatever is
done to it.
-/

namespace WatchDispatch

/-! ## Encoded texts -/

namespace Text

theorem isPlain_upperHex : ∀ n < 16, isPlain (upperHex n) = true := by decide

/-- An encoded text holds no sign with a meaning in queries but the plus and the percent sign. -/
theorem isPlain_of_mem_formEncode {s : String} {c : Char} (mem : c ∈ (formEncode s).toList) :
    isPlain c = true ∨ c = '+' ∨ c = '%' := by
  rw [formEncode, String.toList_ofList, List.mem_flatMap] at mem
  obtain ⟨d, -, mem⟩ := mem
  unfold formChar at mem
  split at mem
  next plain => exact .inl (List.mem_singleton.mp mem ▸ plain)
  next =>
    split at mem
    · exact .inr (.inl (List.mem_singleton.mp mem))
    · obtain ⟨b, -, mem⟩ := List.mem_flatMap.mp mem
      have byte : b.toNat < 256 := b.toNat_lt
      rcases List.mem_cons.mp mem with rfl | mem
      · exact .inr (.inr rfl)
      · rcases List.mem_cons.mp mem with rfl | mem
        · exact .inl (isPlain_upperHex _ (by omega))
        · rw [List.mem_singleton.mp mem]
          exact .inl (isPlain_upperHex _ (by omega))

/-- A decimal number holds digits only. -/
theorem isDigit_of_mem_toString {n : Nat} {c : Char} (mem : c ∈ (toString n).toList) :
    c.isDigit = true := by
  rw [Nat.toString_eq_repr, Nat.toList_repr] at mem
  exact Nat.isDigit_of_mem_toDigits (by omega) (by omega) mem

end Text

namespace Cluster

/-! ## Queries -/

theorem dropWhile_ne_of_not_mem {c : Char} {front : List Char} (absent : c ∉ front)
    (back : List Char) : (front ++ c :: back).dropWhile (· != c) = c :: back := by
  have others : ∀ d ∈ front, (d != c) = true := by
    intro d mem
    simpa using fun same : d = c => absent (same ▸ mem)
  rw [List.dropWhile_append_of_pos others]
  simp

namespace Address

/-- The part of an address behind its path, without the question mark. -/
def query (uri : String) : String := String.ofList ((uri.toList.dropWhile (· != '?')).drop 1)

/-- A name and its value, as they are written. -/
def field (f : String × String) : String := f.1 ++ "=" ++ f.2

def readField (part : String) : String × String :=
  (String.ofList (part.toList.takeWhile (· != '=')),
    String.ofList ((part.toList.dropWhile (· != '=')).drop 1))

def fields (uri : String) : List (String × String) :=
  ((Text.split '&' (query uri)).filter (fun part => part ≠ "")).map readField

def values (name uri : String) : List String :=
  ((fields uri).filter (fun f => f.1 = name)).map Prod.snd

theorem toList_field (f : String × String) :
    (field f).toList = f.1.toList ++ '=' :: f.2.toList := by
  simp [field]

theorem readField_field {f : String × String} (name : '=' ∉ f.1.toList) :
    readField (field f) = f := by
  have front : (f.1.toList ++ '=' :: f.2.toList).takeWhile (· != '=') = f.1.toList := by
    rw [takeWhile_ne_of_not_mem name]
    simp
  rw [readField, toList_field, front, dropWhile_ne_of_not_mem name, List.drop_one, List.tail_cons,
    String.ofList_toList, String.ofList_toList]

/-- Fields behind the question mark are read back. -/
theorem fields_eq {uri path : String} {fs : List (String × String)} (unmarked : '?' ∉ path.toList)
    (text : uri = path ++ "?" ++ Text.join "&" ("" :: fs.map field))
    (names : ∀ f ∈ fs, '=' ∉ f.1.toList) (plain : ∀ f ∈ fs, '&' ∉ (field f).toList) :
    fields uri = fs := by
  have asked : query uri = Text.join "&" ("" :: fs.map field) := by
    have letters : uri.toList = path.toList ++ '?' ::
        (Text.join "&" ("" :: fs.map field)).toList := by
      simp [text]
    rw [query, letters, dropWhile_ne_of_not_mem unmarked, List.drop_one, List.tail_cons,
      String.ofList_toList]
  have parts : Text.split '&' (query uri) = "" :: fs.map field := by
    refine Text.split_eq_iff.mpr ⟨List.cons_ne_nil _ _, ?_, asked.symm⟩
    rintro part (_ | ⟨_, mem⟩)
    · exact List.not_mem_nil
    · obtain ⟨f, among, rfl⟩ := List.mem_map.mp mem
      exact plain f among
  have filled : ("" :: fs.map field).filter (fun part => part ≠ "") = fs.map field := by
    rw [List.filter_cons_of_neg (by simp)]
    refine List.filter_eq_self.mpr ?_
    intro part mem
    obtain ⟨f, -, rfl⟩ := List.mem_map.mp mem
    simp [field]
  rw [fields, parts, filled, List.map_map]
  refine (List.map_congr_left ?_).trans fs.map_id
  intro f mem
  exact readField_field (names f mem)

end Address

/-! ## The query of a watch -/

/-- What a watch says behind the question mark. -/
def watchFields (p : WatchParams) (version : String) : List (String × String) :=
  ("watch", "true") :: ("timeoutSeconds", toString p.timeout) ::
    ((if p.bookmarks then [("allowWatchBookmarks", "true")] else []) ++
      [("resourceVersion", Text.formEncode version)])

section Watches

variable (p : WatchParams) (path version : String)

theorem watchText_eq : watchText p path version =
    path ++ "?" ++ Text.join "&" ("" :: (watchFields p version).map Address.field) := by
  have text : watchText p path version =
    path ++ "?&watch=true&timeoutSeconds=" ++ toString p.timeout ++
      (if p.bookmarks then "&allowWatchBookmarks=true" else "") ++ "&resourceVersion=" ++
      Text.formEncode version := rfl
  rw [text, ← String.toList_inj]
  cases told : p.bookmarks <;> simp [told, watchFields, Address.field, Text.join]

/-- The fields of a watch hold letters, digits and an encoded text, and no sign that would end
them. -/
theorem plain_watchFields {f : String × String} (mem : f ∈ watchFields p version) {c : Char}
    (sign : c = '&' ∨ c = '#') : '=' ∉ f.1.toList ∧ c ∉ (Address.field f).toList := by
  have number : c ∉ (toString p.timeout).toList := by
    intro mem
    have digit := Text.isDigit_of_mem_toString mem
    rcases sign with rfl | rfl <;> simp [Char.isDigit] at digit
  have encoded : c ∉ (Text.formEncode version).toList := by
    intro mem
    have plain := Text.isPlain_of_mem_formEncode mem
    rcases sign with rfl | rfl <;> revert plain <;> decide
  have written : ∀ {name value : String}, '=' ∉ name.toList → c ∉ name.toList → c ∉ value.toList →
      '=' ∉ name.toList ∧ c ∉ (Address.field (name, value)).toList := by
    intro name value whole front back
    have apart : c ≠ '=' := by rcases sign with rfl | rfl <;> decide
    refine ⟨whole, ?_⟩
    simp [Address.toList_field, front, back, apart]
  have letters : ∀ text ∈ ["watch", "timeoutSeconds", "allowWatchBookmarks",
    "resourceVersion", "true"], '=' ∉ text.toList ∧ c ∉ text.toList := by
    rcases sign with rfl | rfl <;> decide
  simp only [List.forall_mem_cons] at letters
  obtain ⟨watch, timeout, bookmarks, resource, yes, -⟩ := letters
  simp only [watchFields, List.mem_cons, List.mem_append, List.not_mem_nil, or_false] at mem
  rcases mem with rfl | rfl | mem | rfl
  · exact written watch.1 watch.2 yes.2
  · exact written timeout.1 timeout.2 number
  · split at mem
    · obtain rfl := List.mem_singleton.mp mem
      exact written bookmarks.1 bookmarks.2 yes.2
    · cases mem
  · exact written resource.1 resource.2 encoded

end Watches

section Requests

variable {p : WatchParams} {path version uri : String}

/-- A request that can be built goes to the text of the watch, up to the first `#`. -/
theorem uri_of_watchRequest (request : watchRequest p path version = .ok uri) :
    uri.toList = (watchText p path version).toList.takeWhile (· != '#') := by
  unfold watchRequest Address.ofText at request
  split at request
  · cases request
  · dsimp only at request
    split at request
    · cases request
    · split at request <;> cases request
      rw [String.toList_ofList]

/-- At the address of a collection whose path does not end early the watch is asked for as it is
meant. -/
theorem fields_watchRequest (unmarked : Address.Unmarked path)
    (request : watchRequest p path version = .ok uri) :
    Address.fields uri = watchFields p version := by
  have uncut : '#' ∉ (watchText p path version).toList := by
    rw [watchText_eq, String.toList_append, String.toList_append, List.mem_append, List.mem_append]
    rintro ((front | sign) | behind)
    · exact unmarked.2 front
    · revert sign
      decide
    · rcases Text.mem_join behind with sign | ⟨part, among, inside⟩
      · revert sign
        decide
      · rcases List.mem_cons.mp among with rfl | among
        · cases inside
        · obtain ⟨f, mem, rfl⟩ := List.mem_map.mp among
          exact (plain_watchFields p version mem (.inr rfl)).2 inside
  have whole : uri = watchText p path version := by
    rw [← String.toList_inj, uri_of_watchRequest request]
    have kept := @takeWhile_ne_of_not_mem '#' _ [] uncut
    simpa using kept
  rw [watchText_eq] at whole
  exact Address.fields_eq unmarked.1 whole
    (fun f mem => (plain_watchFields p version mem (.inl rfl)).1)
    (fun f mem => (plain_watchFields p version mem (.inl rfl)).2)

theorem values_watchRequest (unmarked : Address.Unmarked path)
    (request : watchRequest p path version = .ok uri) :
    Address.values "timeoutSeconds" uri = [toString p.timeout] := by
  rw [Address.values, fields_watchRequest unmarked request, watchFields]
  split <;> simp

/-- Only the timeout and the text can keep a watch request from being built. -/
theorem watchRequest_of_lt (below : p.timeout < timeoutLimit) :
    watchRequest p path version = (Address.ofText (watchText p path version)).mapError .address :=
  if_neg (Nat.not_le_of_lt below)

end Requests

/-! ## What a transport asks for -/

/-- A request that goes out for a watch on a scope, which may last so many seconds. Unless the path
of the collection ends early, the address names the collection and this time, and no other time. -/
structure Api.Asks (a : Api) (seconds : Nat) (scope : Scope) (uri : String) : Prop where
  request : ∃ version, watchRequest a.params (a.pathOf scope) version = .ok uri
  timeout : a.params.timeout = seconds
  query : Address.Unmarked (a.pathOf scope) →
    Address.path uri = a.pathOf scope ∧ Address.values "timeoutSeconds" uri = [toString seconds]

theorem Api.asks_of_watchRequest {a : Api} {scope : Scope} {version uri : String}
    (request : watchRequest a.params (a.pathOf scope) version = .ok uri) :
    a.Asks a.params.timeout scope uri where
  request := ⟨version, request⟩
  timeout := rfl
  query := fun unmarked =>
    ⟨path_watchRequest unmarked request, values_watchRequest unmarked request⟩

/-- After the earlier requests the server was asked for watches on these scopes, which may last so
many seconds, and for nothing else. -/
def Api.Asked (a : Api) (seconds : Nat) (Targeted : Scope → Prop) (before : List String)
    (s : Server) : Prop :=
  ∃ sent, s.requests = sent ++ before ∧ ∀ uri ∈ sent, ∃ scope, Targeted scope ∧
  a.Asks seconds scope uri

/-- All requests were for watches on these scopes, and so are those of the cursors that there
are. -/
structure Asking (a : Api) (Targeted : Scope → Prop) (before : List String) (x : ApiState) :
    Prop where
  asked : a.Asked a.params.timeout Targeted before x.server
  paths : ∀ id c, x.cursors.lookup id = some c → ∃ scope, Targeted scope ∧ c.path = a.pathOf scope

section Asking

variable {a : Api} {Targeted : Scope → Prop} {before : List String} {s : Server} {scope : Scope}

theorem asking_start (a : Api) (Targeted : Scope → Prop) (server : Server) :
    Asking a Targeted server.requests (ApiState.start server) where
  asked := ⟨[], rfl, fun _ mem => by cases mem⟩
  paths := fun _ _ found => by cases found

theorem Api.Asked.watch (asked : a.Asked a.params.timeout Targeted before s)
    (targeted : Targeted scope) (version : String) :
    a.Asked a.params.timeout Targeted before (s.watch a.params (a.pathOf scope) version).2 := by
  obtain ⟨sent, all, each⟩ := asked
  refine ⟨(watchRequest a.params (a.pathOf scope) version).toOption.toList ++ sent, ?_, ?_⟩
  · rw [watch_requests, all, List.append_assoc]
  · intro uri mem
    rcases List.mem_append.mp mem with new | old
    · cases request : watchRequest a.params (a.pathOf scope) version with
      | error e => simp [request, Except.toOption] at new
      | ok text =>
        obtain rfl : uri = text := by simpa [request, Except.toOption] using new
        exact ⟨scope, targeted, Api.asks_of_watchRequest request⟩
    · exact each uri old

theorem Cursor.look_path (decoder : Decoder) (c : Cursor) : (c.look decoder).2.path = c.path := by
  have looks := look_looks decoder c
  rcases found : c.look decoder with ⟨item, c'⟩
  rw [found] at looks
  cases looks with
  | event passes => exact passes.path.symm
  | idle passes => exact passes.path.symm
  | asks passes => exact passes.path.symm
  | trouble _ _ _ path => exact path
  | ended => rfl

/-- A cursor asks for its own collection only, and goes on with it. -/
theorem Api.Asked.next (asked : a.Asked a.params.timeout Targeted before s)
    (targeted : Targeted scope) {c : Cursor} (path : c.path = a.pathOf scope) (decoder : Decoder) :
    a.Asked a.params.timeout Targeted before (c.next a.params decoder s).2.2 ∧
      (c.next a.params decoder s).2.1.path = c.path := by
  have same := c.look_path decoder
  unfold Cursor.next
  rcases found : c.look decoder with ⟨_ | item, c'⟩ <;> rw [found] at same <;> dsimp only at same ⊢
  · have after := asked.watch targeted c'.resourceVersion
    rw [← path, ← same] at after
    unfold Cursor.ask
    rcases answer : s.watch a.params c'.path c'.resourceVersion with ⟨_ | _ | _, s'⟩ <;>
      rw [answer] at after <;> exact ⟨after, same⟩
  · exact ⟨asked, same⟩

/-- A transport that is asked for certain scopes only asks the server for watches on them only. -/
theorem keeps_asking (a : Api) (Targeted : Scope → Prop) (before : List String) :
    a.transport.KeepsFor Targeted (Asking a Targeted before) where
  subscribe := by
    intro scope x targeted asking
    change Asking a Targeted before (a.subscribe scope x).2
    refine ⟨?_, ?_⟩
    · rw [subscribe_server]
      exact asking.asked.watch targeted baseline
    · cases failed : (x.server.watch a.params (a.pathOf scope) baseline).1.error? with
      | some e =>
        rw [Api.subscribe_of_error failed]
        exact asking.paths
      | none =>
        obtain ⟨l, opened⟩ := Response.error?_eq_none_iff.mp failed
        rw [Api.subscribe_of_stream opened]
        intro id c found
        rw [lookup_cons_eq_ite] at found
        split at found
        · cases found
          exact ⟨scope, targeted, rfl⟩
        · exact asking.paths id c found
  unsubscribe := by
    intro h x asking
    change Asking a Targeted before (Api.unsubscribe h x).2
    unfold Api.unsubscribe
    split
    · exact ⟨asking.asked, asking.paths⟩
    · exact asking
  next := by
    intro h x asking
    change Asking a Targeted before (a.next h x).2
    cases here : x.cursors.lookup h.id with
    | none =>
      rw [Api.next_of_none here]
      exact asking
    | some c =>
      obtain ⟨scope, targeted, path⟩ := asking.paths h.id c here
      have next := asking.asked.next targeted path a.decoder
      rcases taken : c.next a.params a.decoder x.server with ⟨item, c', server⟩
      rw [taken] at next
      rw [Api.next_of_lookup here taken]
      refine ⟨next.1, ?_⟩
      intro id d found
      change (x.setCursor h.id c').cursors.lookup id = some d at found
      rw [lookup_setCursor, here] at found
      split at found
      · cases found
        exact ⟨scope, targeted, next.2.trans path⟩
      · exact asking.paths id d found
  abandon := by
    intro h x asking
    refine ⟨asking.asked, ?_⟩
    intro id c found
    change (Api.abandon h x).cursors.lookup id = some c at found
    rw [lookup_abandon] at found
    split at found
    · cases found
    · exact asking.paths id c found

end Asking

end Cluster

end WatchDispatch
