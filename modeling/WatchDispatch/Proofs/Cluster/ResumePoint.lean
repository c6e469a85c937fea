import WatchDispatch.Proofs.Cluster.Sessions

/-!
# The resume point

The log of a wire holds all watch requests that reach the server. A subscription asks from the
baseline first, and then each time from the last resource version that the responses before have
supplied, after it has told all of them. What supplies no version does not move the resume point,
and a subscription that takes the place of an expired one starts anew.
-/

namespace WatchDispatch.Cluster

open Watch (Noted Owner Sink)

/-! ## What reaches the server -/

/-- The address that a request asks for, if it can be built. -/
def Exchange.address? (params : WatchParams) (e : Exchange) : Option String :=
  (watchRequest params e.path e.resourceVersion).toOption

/-- The addresses that the requests of a log ask for, latest first. -/
def requested (params : WatchParams) (log : List Note) : List String :=
  log.filterMap (fun note => note.exchange.bind (Exchange.address? params))

theorem watch_requests (params : WatchParams) (path version : String) (s : Server) :
    (s.watch params path version).2.requests =
      (watchRequest params path version).toOption.toList ++ s.requests := by
  unfold Server.watch
  cases watchRequest params path version with
  | error e => rfl
  | ok uri =>
    dsimp only [Server.ask]
    split <;> rfl

/-- Taking an item sends the request that it asks, and no other. -/
theorem Cursor.next_requests (params : WatchParams) (decoder : Decoder) (id : Nat) (c : Cursor)
    (s : Server) :
    (c.next params decoder s).2.2.requests =
      ((c.asking params decoder id s).bind (Exchange.address? params)).toList ++ s.requests := by
  unfold Cursor.next asking
  rcases c.look decoder with ⟨_ | item, c'⟩
  · have same : (c'.ask params s).2.2 = (s.watch params c'.path c'.resourceVersion).2 := by
      unfold Cursor.ask
      rcases s.watch params c'.path c'.resourceVersion with ⟨_ | _ | _, s'⟩ <;> rfl
    exact (congrArg Server.requests same).trans (watch_requests params _ _ s)
  · rfl

theorem requested_cons (params : WatchParams) (note : Note) (log : List Note) :
    requested params (note :: log) =
      (note.exchange.bind (Exchange.address? params)).toList ++ requested params log := by
  unfold requested
  rw [List.filterMap_cons]
  cases note.exchange.bind (Exchange.address? params) <;> rfl

theorem subscribe_server (a : Api) (scope : Scope) (x : ApiState) :
    (a.subscribe scope x).2.server = (x.server.watch a.params (a.pathOf scope) baseline).2 := by
  unfold Api.subscribe
  dsimp only
  split <;> simp_all

namespace Wire

variable {a : Api} {w : Wire} {before : List String}

/-- The log accounts for what reaches the server. -/
theorem requests_perform (all : w.state.server.requests = requested a.params w.log ++ before)
    (operation : Operation) :
    (w.perform a operation).state.server.requests =
      requested a.params (w.perform a operation).log ++ before := by
  rw [perform_state]
  cases operation with
  | subscribe scope =>
    change (a.subscribe scope w.state).2.server.requests = requested a.params (_ :: w.log) ++ before
    rw [subscribe_server, watch_requests, requested_cons, all, List.append_assoc]
    rfl
  | unsubscribe h =>
    have quiet : (Api.unsubscribe h w.state).2.server = w.state.server := by
      unfold Api.unsubscribe
      split <;> rfl
    exact (congrArg Server.requests quiet).trans all
  | next h =>
    change (a.next h w.state).2.server.requests = requested a.params (_ :: w.log) ++ before
    rw [requested_cons]
    cases here : w.state.cursors.lookup h.id with
    | none =>
      rw [Api.next_of_none here]
      exact all
    | some c =>
      have sent := c.next_requests a.params a.decoder h.id w.state.server
      rcases taken : c.next a.params a.decoder w.state.server with ⟨item, c', server⟩
      rw [taken] at sent
      rw [Api.next_of_lookup here taken, List.append_assoc, ← all]
      exact sent
  | abandon h => exact all
  | serves routes => exact all

theorem requests_after (all : w.state.server.requests = requested a.params w.log ++ before)
    (run : List Operation) :
    (w.after a run).state.server.requests = requested a.params (w.after a run).log ++ before := by
  induction run with
  | nil => exact all
  | cons operation earlier ih => exact requests_perform ih operation

end Wire

/-! ## From where requests ask -/

/-- The resource versions that responses have supplied, first one first. -/
def supplied (es : List Exchange) : List String := (newsOf es).filterMap WatchLine.version?

/-- How the watch requests of a log are made. -/
structure Requests (a : Api) (log : List Note) : Prop where
  /-- Whoever asks has told all that was said before. -/
  told : ∀ later call e earlier, log = later ++ ⟨call, some e⟩ :: earlier →
    items e.id earlier = told a.decoder (said e.id earlier)
  path : ∀ id, ∃ path, ∀ e ∈ exchanges id log, e.path = path
  first : ∀ id e after, exchanges id log = e :: after → e.resourceVersion = "0"
  /-- All responses before have ended, and none has told a trouble. -/
  ended : ∀ id before e after, exchanges id log = before ++ e :: after →
    (∀ previous ∈ before, previous.response.Ended) ∧ trouble? a.decoder (newsOf before) = none
  version : ∀ id before e after, exchanges id log = before ++ e :: after →
    e.resourceVersion = (supplied before).getLast?.getD "0"
  baseline : ∀ id before e after, exchanges id log = before ++ e :: after →
    e.resourceVersion = "0" →
    supplied before = [] ∨ (supplied before).getLast? = some "0"

theorem Wire.Sound.requests {a : Api} {w : Wire} (sound : w.Sound a) : Requests a w.log := by
  have version : ∀ id before e after, exchanges id w.log = before ++ e :: after →
      e.resourceVersion = (supplied before).getLast?.getD "0" := by
    intro id before e after split
    obtain ⟨path, resumed, -⟩ := sound.resumed id
    exact (resumed before e after split).2.1
  constructor
  case told =>
    intro later call e earlier split
    have fitting := sound.fitting
    rw [split] at fitting
    rcases fitting.of_append.1 with ⟨scope, r, unasked, untold⟩ | _ | _ |
      ⟨item, path, version, r, _, all⟩
    · simp [untold, said, unasked, newsOf]
    · exact all
  case path =>
    intro id
    obtain ⟨path, resumed, -⟩ := sound.resumed id
    refine ⟨path, ?_⟩
    intro e mem
    obtain ⟨before, after, split⟩ := List.append_of_mem mem
    exact (resumed before e after split).1
  case first => exact fun id e after split => version id [] e after split
  case ended =>
    intro id before e after split
    obtain ⟨path, resumed, -⟩ := sound.resumed id
    exact (resumed before e after split).2.2
  case version => exact version
  case baseline =>
    intro id before e after split zero
    rw [version id before e after split] at zero
    cases last : (supplied before).getLast? with
    | none => exact .inl (List.getLast?_eq_none_iff.mp last)
    | some v =>
      rw [last] at zero
      exact .inr (congrArg some zero)

/-- What supplies no version does not move the resume point. -/
theorem resumePoint_of_silent {line : WatchLine} (silent : line.version? = none) (start : String)
    (news more : List WatchLine) :
    resumePoint start (news ++ line :: more) = resumePoint start (news ++ more) := by
  simp [resumePoint, silent]

/-- In every run, whatever the server answers, its requests are those of the log. The first request
of a subscription asks from version 0, and each later one, made after all responses before have
ended without trouble, from the last version that they have supplied; objects without a version do
not count. A subscription that a session makes after an expiry has made no request before and asks
from version 0, whatever the expired one has seen and whatever others do meanwhile. -/
theorem resume_point (a : Api) (server : Server) (run : List Operation) :
    let w := (Wire.start server).after a run
    w.state.server.requests = requested a.params w.log ++ server.requests ∧ Requests a w.log ∧
    (∀ action o, o.metadata.resourceVersion? = none → ∀ news more,
      resumePoint "0" (news ++ .change action o :: more) = resumePoint "0" (news ++ more)) ∧
    ∀ (σ : Type) (sink : Sink σ) gvkKey scope y o,
      Owner.open? a.wire sink.noted gvkKey scope (Wire.joined a server run) ⟨y, []⟩ = some o →
      ∀ happenings, let log := (o.served a sink happenings).wire.log
        Requests a log ∧ ∀ later h reason asked earlier,
          log = later ++ ⟨.next h (.fault (.expired reason)), asked⟩ :: earlier →
          ∃ result, later = [⟨.unsubscribe h result, none⟩] ∨ ∃ more id r,
            later = more ++
            [⟨.subscribe scope (r.answer ⟨id, scope⟩), some ⟨id, a.pathOf scope, "0", r⟩⟩,
              ⟨.unsubscribe h result, none⟩] ∧ exchanges id earlier = [] := by
  intro w
  have started := Wire.sound_start a server
  obtain ⟨sound, -⟩ := started.1.after started.2 run
  refine ⟨?_, sound.requests, ?_, ?_⟩
  · exact @Wire.requests_after a (Wire.start server) server.requests rfl run
  · intro action o silent news more
    have quiet : (WatchLine.change action o).version? = none := silent
    exact resumePoint_of_silent quiet "0" news more
  · intro σ sink gvkKey scope y o opened happenings log
    obtain ⟨v, -, onWire, -⟩ := Owner.served_onWire opened happenings
    refine ⟨onWire.attached.tapped.sound.requests, ?_⟩
    intro later h reason asked earlier split
    exact onWire.after_expired split

end WatchDispatch.Cluster
