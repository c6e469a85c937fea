import WatchDispatch.Proofs.Cluster.RemainingWork
import WatchDispatch.Proofs.Cluster.Following

/-!
# The wire

The transport over a cluster with a log of its calls, each with the watch request that it made. The
log of one subscription is sound in every state that operations on the transport lead to: what was
told is the beginning of what the responses have to tell, requests follow one another as `Resumed`
says, and a reader that was put off has been told everything.
-/

namespace WatchDispatch.Cluster

open Watch (Item Released Subscribed Transport TransportCall)

/-- A call of the transport with the watch request that it made, if it made one. -/
structure Note where
  call : TransportCall
  exchange : Option Exchange

def Note.shown (id : Nat) (note : Note) : List Item :=
  match note.call with
  | .next h item => if h.id = id then Cursor.shown item else []
  | _ => []

/-- The state of the transport with its log, latest call first. -/
structure Wire where
  state : ApiState
  log : List Note

/-- The exchanges of a subscription, first one first. -/
def exchanges (id : Nat) : List Note → List Exchange
  | [] => []
  | note :: earlier => exchanges id earlier ++ note.exchange.toList.filter (fun e => e.id = id)

/-- What a subscription has told, first item first. -/
def items (id : Nat) : List Note → List Item
  | [] => []
  | note :: earlier => items id earlier ++ note.shown id

/-- All that the server has said to a subscription. -/
def said (id : Nat) (log : List Note) : List WatchLine := newsOf (exchanges id log)

namespace Api

/-- The transport over the cluster, which keeps a log and otherwise does the same. -/
def wire (a : Api) : Transport Wire where
  subscribe scope w :=
    let (answer, state) := a.subscribe scope w.state
    let response := (w.state.server.watch a.params (a.pathOf scope) baseline).1
    (answer, ⟨state,
      ⟨.subscribe scope answer, some ⟨w.state.nextId, a.pathOf scope, baseline, response⟩⟩ ::
      w.log⟩)
  unsubscribe h w :=
    let (result, state) := unsubscribe h w.state
    (result, ⟨state, ⟨.unsubscribe h result, none⟩ :: w.log⟩)
  next h w :=
    let (item, state) := a.next h w.state
    let exchange := (w.state.cursors.lookup h.id).bind fun c =>
      c.asking a.params a.decoder h.id w.state.server
    (item, ⟨state, ⟨.next h item, exchange⟩ :: w.log⟩)
  abandon h w := { w with state := abandon h w.state }
  suspends := true
  work w := w.state.work
  breakdown := Watch.panicked

end Api

/-- The log adds no work. -/
theorem wire_dwindles (a : Api) : a.wire.Dwindles (fun w => Numbered w.state) :=
  have dwindles := transport_dwindles a
  ⟨dwindles.subscribe, dwindles.unsubscribe, dwindles.abandon, dwindles.next, dwindles.uses⟩

/-! ## Cursors that stay -/

section Others

variable (a : Api) (x : ApiState)

theorem unsubscribe_cursors (h : Handle) :
    (Api.unsubscribe h x).2.cursors = x.cursors ∧ (Api.unsubscribe h x).2.nextId = x.nextId := by
  unfold Api.unsubscribe
  split <;> exact ⟨rfl, rfl⟩

theorem unsubscribe_ne_crashed (h : Handle) (x : ApiState) :
    (Api.unsubscribe h x).1 ≠ .crashed := by
  unfold Api.unsubscribe
  split <;> simp

theorem next_cursors (h : Handle) :
    (a.next h x).2.nextId = x.nextId ∧ ∀ id, id ≠ h.id →
      (a.next h x).2.cursors.lookup id = x.cursors.lookup id := by
  cases here : x.cursors.lookup h.id with
  | none =>
    rw [Api.next_of_none here]
    exact ⟨rfl, fun _ _ => rfl⟩
  | some c =>
    rcases taken : c.next a.params a.decoder x.server with ⟨item, c', server⟩
    rw [Api.next_of_lookup here taken]
    refine ⟨rfl, fun id other => ?_⟩
    change (x.setCursor h.id c').cursors.lookup id = x.cursors.lookup id
    rw [lookup_setCursor, if_neg other]

theorem subscribe_cursors (scope : Scope) :
    (a.subscribe scope x).2.nextId = x.nextId + 1 ∧ ∀ id, id ≠ x.nextId →
      (a.subscribe scope x).2.cursors.lookup id = x.cursors.lookup id := by
  cases failed : (x.server.watch a.params (a.pathOf scope) baseline).1.error? with
  | some e =>
    rw [Api.subscribe_of_error failed]
    exact ⟨rfl, fun _ _ => rfl⟩
  | none =>
    obtain ⟨l, opened⟩ := Response.error?_eq_none_iff.mp failed
    rw [Api.subscribe_of_stream opened]
    exact ⟨rfl, fun id other => by rw [lookup_cons_eq_ite, if_neg other]⟩

end Others

/-! ## Subscriptions -/

/-- The answer to a subscription that comes of the response to its first request. -/
def Response.answer (r : Response) (h : Handle) : Subscribed :=
  match r.error? with
  | none => .granted h
  | some e => .refused e.fault

/-- A subscription takes the next number, is answered as the first response says, and has a cursor
at the beginning of that response if it is granted. -/
theorem subscribe_eq (a : Api) (scope : Scope) (x : ApiState) :
    (a.subscribe scope x).1 =
      (x.server.watch a.params (a.pathOf scope) baseline).1.answer ⟨x.nextId, scope⟩ ∧
    (a.subscribe scope x).2.nextId = x.nextId + 1 ∧
    ∀ id c, (a.subscribe scope x).2.cursors.lookup id = some c →
      (id = x.nextId ∧ ∃ l, (x.server.watch a.params (a.pathOf scope) baseline).1 = .stream l ∧
        c = ⟨a.pathOf scope, baseline, .reading l⟩) ∨ x.cursors.lookup id = some c := by
  cases failed : (x.server.watch a.params (a.pathOf scope) baseline).1.error? with
  | some e =>
    rw [Api.subscribe_of_error failed]
    exact ⟨by simp [Response.answer, failed], rfl, fun id c found => .inr found⟩
  | none =>
    obtain ⟨l, opened⟩ := Response.error?_eq_none_iff.mp failed
    rw [Api.subscribe_of_stream opened]
    refine ⟨by simp [Response.answer, failed], rfl, ?_⟩
    intro id c found
    rw [lookup_cons_eq_ite] at found
    by_cases same : id = x.nextId
    · rw [if_pos same] at found
      exact .inl ⟨same, l, opened, (Option.some.inj found).symm⟩
    · rw [if_neg same] at found
      exact .inr found

/-! ## Sound logs -/

/-- A note says what an operation of the transport does on the wire after the earlier notes: a
subscription is new, and a reader asks again once it has told all that was said. -/
inductive Note.Fits (a : Api) (earlier : List Note) : Note → Prop
  | subscribe (scope response) {id} : exchanges id earlier = [] → items id earlier = [] →
      Fits a earlier ⟨.subscribe scope (response.answer ⟨id, scope⟩),
        some ⟨id, a.pathOf scope, baseline, response⟩⟩
  | unsubscribe (h) {result} : result ≠ .crashed → Fits a earlier ⟨.unsubscribe h result, none⟩
  | next (h item) : Fits a earlier ⟨.next h item, none⟩
  | ask (item path version response) {h : Handle} : exchanges h.id earlier ≠ [] →
      items h.id earlier = told a.decoder (said h.id earlier) →
      Fits a earlier ⟨.next h item, some ⟨h.id, path, version, response⟩⟩

namespace Note.Fits

variable {a : Api} {earlier : List Note} {note : Note} (fits : note.Fits a earlier)

include fits

theorem eq_of_subscribe {scope : Scope} {answer : Subscribed}
    (call : note.call = .subscribe scope answer) :
    ∃ id r, note = ⟨.subscribe scope (r.answer ⟨id, scope⟩),
      some ⟨id, a.pathOf scope, baseline, r⟩⟩ ∧
      answer = r.answer ⟨id, scope⟩ ∧ exchanges id earlier = [] ∧ items id earlier = [] := by
  cases fits with
  | subscribe scope' r unasked untold =>
    obtain ⟨rfl, rfl⟩ := TransportCall.subscribe.inj call
    exact ⟨_, r, rfl, rfl, unasked, untold⟩
  | _ => cases call

theorem eq_of_unsubscribe {h : Handle} {result : Released}
    (call : note.call = .unsubscribe h result) :
    note = ⟨.unsubscribe h result, none⟩ ∧ result ≠ .crashed := by
  cases fits with
  | unsubscribe h' whole =>
    obtain ⟨rfl, rfl⟩ := TransportCall.unsubscribe.inj call
    exact ⟨rfl, whole⟩
  | _ => cases call

end Note.Fits

/-- Every note fits those before it. -/
def Fitting (a : Api) : List Note → Prop
  | [] => True
  | note :: earlier => note.Fits a earlier ∧ Fitting a earlier

theorem Fitting.of_append {a : Api} {later earlier : List Note}
    (fitting : Fitting a (later ++ earlier)) : Fitting a earlier := by
  induction later with
  | nil => exact fitting
  | cons note later ih => exact ih fitting.2

/-- What taking an item does on the wire if the subscription has a cursor. -/
structure Wire.Took (a : Api) (h : Handle) (c c' : Cursor) (item : Item) (w w' : Wire) : Prop where
  advances : c'.Advances a.decoder c.path (exchanges h.id w'.log) (items h.id w.log) item
  nextId : w'.state.nextId = w.state.nextId
  cursors : ∀ id, w'.state.cursors.lookup id = if id = h.id then some c'
    else w.state.cursors.lookup id
  exchanges : ∀ id, id ≠ h.id → exchanges id w'.log = exchanges id w.log
  items : ∀ id, items id w'.log = items id w.log ++ if h.id = id then Cursor.shown item else []
  log : ∃ asked, w'.log = ⟨.next h item, asked⟩ :: w.log ∧ Note.Fits a w.log ⟨.next h item, asked⟩

/-- The subscription was asked for on this wire. Others may share the transport; what they ask for
is not in the log. -/
def Wire.Owns (w : Wire) (id : Nat) : Prop := exchanges id w.log ≠ []

structure Wire.Sound (a : Api) (w : Wire) : Prop where
  numbered : Numbered w.state
  unused : ∀ id, w.state.nextId ≤ id → exchanges id w.log = [] ∧ items id w.log = []
  follows : ∀ id c, w.Owns id → w.state.cursors.lookup id = some c →
    c.Follows a.decoder (exchanges id w.log) (items id w.log)
  resumed : ∀ id, ∃ path, Resumed a.decoder path (exchanges id w.log) ∧
    ∀ c, w.Owns id → w.state.cursors.lookup id = some c → c.path = path
  told : ∀ id, items id w.log <+: told a.decoder (said id w.log)
  idle : ∀ note ∈ w.log.head?, ∀ h, note.call = .next h .idle →
    PutOff a.decoder (exchanges h.id w.log) (items h.id w.log)
  fitting : Fitting a w.log

section Logs

variable {id : Nat} {note : Note} {log : List Note}

theorem exchanges_cons_of_none (quiet : note.exchange = none) :
    exchanges id (note :: log) = exchanges id log := by
  simp [exchanges, quiet]

theorem exchanges_cons_of_some {e : Exchange} (asked : note.exchange = some e) :
    exchanges id (note :: log) = if e.id = id then exchanges id log ++ [e]
    else exchanges id log := by
  by_cases same : e.id = id <;> simp [exchanges, asked, same]

theorem items_cons_of_nil (silent : note.shown id = []) :
    items id (note :: log) = items id log := by
  simp [items, silent]

end Logs

namespace Wire.Sound

variable {a : Api} {w : Wire} (sound : w.Sound a)

include sound

/-- Whatever becomes of the server and of other streams, what was said and told stays. -/
theorem become {state : ApiState} (numbered : Numbered state)
    (later : w.state.nextId ≤ state.nextId)
    (kept : ∀ id c, w.Owns id → state.cursors.lookup id = some c →
      w.state.cursors.lookup id = some c) :
    Wire.Sound a ⟨state, w.log⟩ := by
  refine { sound with numbered := numbered, unused := ?_, follows := ?_, resumed := ?_ }
  · exact fun id new => sound.unused id (Nat.le_trans later new)
  · exact fun id c owned found => sound.follows id c owned (kept id c owned found)
  · intro id
    obtain ⟨path, resumed, same⟩ := sound.resumed id
    exact ⟨path, resumed, fun c owned found => same c owned (kept id c owned found)⟩

/-- A call that asks nothing and tells nothing can be noted. -/
theorem quiet {note : Note} (asks : note.exchange = none) (shows : ∀ id, note.shown id = [])
    (puts : ∀ h, note.call ≠ .next h .idle) (fits : note.Fits a w.log) :
    Wire.Sound a ⟨w.state, note :: w.log⟩ := by
  have es : ∀ id, exchanges id (note :: w.log) = exchanges id w.log :=
    fun id => exchanges_cons_of_none asks
  have is : ∀ id, items id (note :: w.log) = items id w.log :=
    fun id => items_cons_of_nil (shows id)
  constructor
  case numbered => exact sound.numbered
  case unused =>
    intro id new
    rw [es, is]
    exact sound.unused id new
  case follows =>
    intro id c owned found
    rw [Wire.Owns, es] at owned
    rw [es, is]
    exact sound.follows id c owned found
  case resumed =>
    intro id
    rw [es]
    obtain ⟨path, resumed, same⟩ := sound.resumed id
    refine ⟨path, resumed, fun c owned found => ?_⟩
    rw [Wire.Owns, es] at owned
    exact same c owned found
  case told =>
    intro id
    rw [is, said, es]
    exact sound.told id
  case idle =>
    intro first head h idle
    obtain rfl : note = first := by simpa using head
    exact absurd idle (puts h)
  case fitting => exact ⟨fits, sound.fitting⟩

theorem unsubscribe (h : Handle) : (a.wire.unsubscribe h w).2.Sound a := by
  have same := unsubscribe_cursors w.state h
  have numbered := ((transport_dwindles a).unsubscribe h sound.numbered).1
  have kept : Wire.Sound a ⟨(Api.unsubscribe h w.state).2, w.log⟩ :=
    sound.become numbered (Nat.le_of_eq same.2.symm) (fun id c _ found => same.1 ▸ found)
  exact kept.quiet rfl (fun _ => rfl) (by simp) (.unsubscribe h (unsubscribe_ne_crashed h w.state))

theorem abandon (h : Handle) : (a.wire.abandon h w).Sound a := by
  have numbered := ((transport_dwindles a).abandon h sound.numbered).1
  refine sound.become numbered (Nat.le_refl _) ?_
  intro id c _ found
  change (Api.abandon h w.state).cursors.lookup id = some c at found
  rw [lookup_abandon] at found
  split at found
  · cases found
  · exact found

/-- A new subscription has made one request and told nothing. -/
theorem subscribe (scope : Scope) : (a.wire.subscribe scope w).2.Sound a := by
  obtain ⟨answer, next, cursors⟩ := subscribe_eq a scope w.state
  obtain ⟨noExchange, noItem⟩ := sound.unused w.state.nextId (Nat.le_refl _)
  have noCursor := sound.numbered.lookup_eq_none (Nat.le_refl _)
  let r := (w.state.server.watch a.params (a.pathOf scope) baseline).1
  let e : Exchange := ⟨w.state.nextId, a.pathOf scope, baseline, r⟩
  let note : Note := ⟨.subscribe scope (a.subscribe scope w.state).1, some e⟩
  have own : exchanges w.state.nextId (note :: w.log) = [e] := by
    rw [exchanges_cons_of_some rfl, if_pos rfl, noExchange]
    rfl
  have es : ∀ id, id ≠ w.state.nextId → exchanges id (note :: w.log) = exchanges id w.log := by
    intro id other
    rw [exchanges_cons_of_some rfl, if_neg (Ne.symm other)]
  have is : ∀ id, items id (note :: w.log) = items id w.log := fun id => items_cons_of_nil rfl
  change Wire.Sound a ⟨(a.subscribe scope w.state).2, note :: w.log⟩
  constructor
  case numbered => exact ((transport_dwindles a).subscribe scope sound.numbered).1
  case unused =>
    intro id new
    have above : w.state.nextId + 1 ≤ id := next ▸ new
    obtain ⟨none, silent⟩ := sound.unused id (by omega)
    exact ⟨(es id (by omega)).trans none, (is id).trans silent⟩
  case follows =>
    intro id c owned found
    rw [is]
    rcases cursors id c found with ⟨rfl, l, opened, rfl⟩ | old
    · rw [own, noItem]
      have news : newsOf [e] = l.news := by simp [newsOf, e, r, opened, Response.news]
      refine .inl ⟨fun none =>
        (by cases none), congrArg (Cluster.told a.decoder) news, congrArg (trouble? a.decoder) news,
        congrArg (resumePoint baseline) news, ?_⟩
      rintro _ ⟨⟩ last mem
      obtain rfl : e = last := by simpa using mem
      exact ⟨l.lines, opened⟩
    · have other : id ≠ w.state.nextId := by
        rintro rfl
        rw [old] at noCursor
        cases noCursor
      rw [Wire.Owns, es id other] at owned
      rw [es id other]
      exact sound.follows id c owned old
  case resumed =>
    intro id
    by_cases same : id = w.state.nextId
    · subst same
      rw [own]
      refine ⟨a.pathOf scope, .first rfl rfl, ?_⟩
      intro c _ found
      rcases cursors _ c found with ⟨-, l, -, rfl⟩ | old
      · rfl
      · rw [old] at noCursor
        cases noCursor
    · obtain ⟨path, resumed, paths⟩ := sound.resumed id
      rw [es id same]
      refine ⟨path, resumed, ?_⟩
      intro c owned found
      rw [Wire.Owns, es id same] at owned
      rcases cursors id c found with ⟨mine, -⟩ | old
      · exact absurd mine same
      · exact paths c owned old
  case told =>
    intro id
    rw [is]
    by_cases same : id = w.state.nextId
    · rw [same, noItem]
      exact List.nil_prefix
    · rw [said, es id same]
      exact sound.told id
  case idle =>
    intro first head h idle
    obtain rfl : note = first := by simpa using head
    cases idle
  case fitting =>
    refine ⟨?_, sound.fitting⟩
    change Note.Fits a w.log ⟨.subscribe scope (a.subscribe scope w.state).1, some e⟩
    rw [answer]
    exact .subscribe scope r noExchange noItem

/-- Taking the next item of a subscription that is followed. -/
theorem took {h : Handle} {c : Cursor} (owned : w.Owns h.id)
    (here : w.state.cursors.lookup h.id = some c) :
    ∃ c', Took a h c c' (a.wire.next h w).1 w (a.wire.next h w).2 := by
  obtain ⟨path, resumed, paths⟩ := sound.resumed h.id
  obtain rfl := paths c owned here
  have follows := sound.follows h.id c owned here
  have advances := follows.next a.params h.id w.state.server resumed
  rcases taken : c.next a.params a.decoder w.state.server with ⟨item, c', server⟩
  rw [taken] at advances
  have next : a.next h w.state = (item, { w.state.setCursor h.id c' with server }) :=
    Api.next_of_lookup here taken
  rcases question : c.asking a.params a.decoder h.id w.state.server with _ | e
  · have same : a.wire.next h w = (item,
        ⟨{ w.state.setCursor h.id c' with server }, ⟨.next h item, none⟩ :: w.log⟩) := by
      simp [Api.wire, next, here, question]
    have quiet : ∀ id, exchanges id (⟨.next h item, none⟩ :: w.log) = exchanges id w.log :=
      fun id => exchanges_cons_of_none rfl
    rw [question, Option.toList_none, List.append_nil] at advances
    rw [same]
    refine ⟨c', (quiet h.id).symm ▸ advances, rfl, ?_, fun id _ => quiet id, fun id => rfl,
      none, rfl, ?_⟩
    · intro id
      rw [lookup_setCursor, here]
      rfl
    · exact .next h item
  · obtain mine : e.id = h.id := Cursor.asking_id question
    have same : a.wire.next h w = (item,
        ⟨{ w.state.setCursor h.id c' with server }, ⟨.next h item, some e⟩ :: w.log⟩) := by
      simp [Api.wire, next, here, question]
    have asked : exchanges h.id (⟨.next h item, some e⟩ :: w.log) =
        exchanges h.id w.log ++ [e] := by
      rw [exchanges_cons_of_some rfl, if_pos mine]
    rw [question, Option.toList_some] at advances
    rw [same]
    refine ⟨c', asked.symm ▸ advances, rfl, ?_, ?_, fun id => rfl, some e, rfl, ?_⟩
    · intro id
      rw [lookup_setCursor, here]
      rfl
    · intro id other
      rw [exchanges_cons_of_some rfl, if_neg (mine ▸ Ne.symm other)]
    · obtain ⟨id, path, version, response⟩ := e
      obtain rfl : id = h.id := mine
      exact .ask item path version response owned (follows.told_of_asking question)

/-- Taking the next item of one subscription leaves the others alone. -/
theorem next (h : Handle) (owned : ∀ c, w.state.cursors.lookup h.id = some c → w.Owns h.id) :
    (a.wire.next h w).2.Sound a := by
  have numbered := ((transport_dwindles a).next h sound.numbered).1
  cases here : w.state.cursors.lookup h.id with
  | none =>
    -- Nobody follows this subscription, so nothing happens.
    have same : (a.wire.next h w).2 = ⟨w.state, ⟨.next h .ended, none⟩ :: w.log⟩ := by
      simp [Api.wire, Api.next_of_none here, here]
    rw [same]
    refine sound.quiet rfl ?_ (by simp) (.next h .ended)
    intro id
    by_cases mine : h.id = id <;> simp [Note.shown, Cursor.shown, mine]
  | some c =>
    obtain ⟨c', took⟩ := sound.took (owned c here) here
    have known : h.id < w.state.nextId := sound.numbered.2 h.id (mem_of_lookup here)
    have numbered : Numbered (a.wire.next h w).2.state := numbered
    generalize (a.wire.next h w).1 = item, (a.wire.next h w).2 = w' at took numbered ⊢
    have others : ∀ id, id ≠ h.id → items id w'.log = items id w.log := by
      intro id other
      rw [took.items, if_neg (Ne.symm other), List.append_nil]
    have own : items h.id w'.log = items h.id w.log ++ Cursor.shown item := by
      rw [took.items, if_pos rfl]
    constructor
    case numbered => exact numbered
    case unused =>
      intro id new
      rw [took.nextId] at new
      have other : id ≠ h.id := by omega
      rw [took.exchanges id other, others id other]
      exact sound.unused id new
    case follows =>
      intro id d mine found
      rw [took.cursors] at found
      by_cases other : id = h.id
      · subst other
        rw [if_pos rfl] at found
        obtain rfl := Option.some.inj found
        exact own ▸ took.advances.follows
      · rw [if_neg other] at found
        rw [Wire.Owns, took.exchanges id other] at mine
        rw [took.exchanges id other, others id other]
        exact sound.follows id d mine found
    case resumed =>
      intro id
      by_cases mine : id = h.id
      · subst mine
        refine ⟨c.path, took.advances.resumed, ?_⟩
        intro d _ found
        rw [took.cursors, if_pos rfl] at found
        obtain rfl := Option.some.inj found
        exact took.advances.path
      · obtain ⟨path, resumed, paths⟩ := sound.resumed id
        rw [took.exchanges id mine]
        refine ⟨path, resumed, ?_⟩
        intro d owned found
        rw [Wire.Owns, took.exchanges id mine] at owned
        rw [took.cursors, if_neg mine] at found
        exact paths d owned found
    case told =>
      intro id
      by_cases mine : id = h.id
      · subst mine
        exact own ▸ took.advances.follows.told_prefix
      · rw [said, took.exchanges id mine, others id mine]
        exact sound.told id
    case idle =>
      obtain ⟨asked, log, -⟩ := took.log
      intro first head g idle
      obtain rfl : ⟨.next h item, asked⟩ = first := by simpa [log] using head
      obtain ⟨rfl, rfl⟩ : h = g ∧ item = .idle := by simpa using idle
      have off := took.advances.idle rfl
      rw [own]
      simpa [Cursor.shown] using off
    case fitting =>
      obtain ⟨asked, log, fits⟩ := took.log
      rw [log]
      exact ⟨fits, sound.fitting⟩

end Wire.Sound

end WatchDispatch.Cluster
