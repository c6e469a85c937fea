import WatchDispatch.Proofs.Dispatch.Erasure
import WatchDispatch.Proofs.Dispatch.Starting
import WatchDispatch.Proofs.Watch.StepsAtScope

/-!
# The scopes that sources ask for

A source subscribes to scopes of its target, and its deliveries subscribe again to their own. So
what a transport keeps as long as it is asked for these scopes alone is kept by all that can be done
to the source.
-/

namespace WatchDispatch

open Watch

variable {τ σ ε : Type} {Targeted : Scope → Prop} {P : τ → Prop} {t : Transport τ}

namespace Watch

/-- A transport that is asked for certain scopes only keeps what is said of its states. -/
structure Transport.KeepsFor (t : Transport τ) (Targeted : Scope → Prop) (P : τ → Prop) : Prop where
  subscribe : ∀ {scope} x, Targeted scope → P x → P (t.subscribe scope x).2
  unsubscribe : ∀ h x, P x → P (t.unsubscribe h x).2
  next : ∀ h x, P x → P (t.next h x).2
  abandon : ∀ h x, P x → P (t.abandon h x)

/-- All deliveries are for certain scopes, and this is said of the state of their transport. -/
structure Pool.Within (Targeted : Scope → Prop) (P : τ → Prop) (p : Pool τ σ) : Prop where
  scopes : ∀ (n : Nat) (d : Delivery), p.deliveries[n]? = some d → Targeted d.scope
  transport : P p.transport

theorem Delivery.step_scope (t : Transport τ) (sink : Sink σ) (d : Delivery) (x : τ) (y : σ) :
    (d.step t sink x y).delivery.scope = d.scope := by
  have erased := d.step_erase t sink ⟨x, []⟩ y
  obtain ⟨_, _, -, -, -, move⟩ := d.step_moves t sink ⟨x, []⟩ y
  rw [← erased]
  exact move.own_eq.2

namespace Pool

variable {p p' : Pool τ σ} {sink : Sink σ}

/-- A change that leaves the scopes of the deliveries and the transport alone. -/
theorem Within.modify (within : p.Within Targeted P) (n : Nat) (change : Delivery → Delivery)
    (scope : ∀ d, (change d).scope = d.scope)
    (deliveries : p'.deliveries = (p.modify n change).deliveries)
    (transport : p'.transport = p.transport) : p'.Within Targeted P where
  scopes := by
    intro m e found
    rw [deliveries] at found
    rcases getElem?_modify_cases found with ⟨_, old⟩ | ⟨rfl, d, old, rfl⟩
    · exact within.scopes m e old
    · exact scope d ▸ within.scopes m d old
  transport := transport ▸ within.transport

theorem Within.requestStop (within : p.Within Targeted P) (session : Session) :
    (p.requestStop session).Within Targeted P := by
  obtain ⟨ready, woken, -, -⟩ :=
    wake_eq session.number (p.modify session.number fun d => { d with stopAsked := true })
  rw [Pool.requestStop, woken]
  exact within.modify session.number (fun d => { d with stopAsked := true }) (fun _ => rfl) rfl rfl

theorem Within.spawn (within : p.Within Targeted P) (gvkKey : String) {scope : Scope}
    (targeted : Targeted scope) (h : Handle) : (p.spawn gvkKey scope h).2.Within Targeted P where
  scopes := by
    intro m e found
    rcases getElem?_spawn_cases found with ⟨_, old⟩ | ⟨_, rfl⟩
    · exact within.scopes m e old
    · exact targeted
  transport := within.transport

section Runs

variable (keeps : t.KeepsFor Targeted P)

include keeps

/-- A delivery asks for its own scope and keeps it. -/
theorem Within.turn (within : p.Within Targeted P) : (p.turn t sink).Within Targeted P := by
  refine turn_kept ?_ (fun _ _ within => ⟨within.scopes, within.transport⟩) within
  intro p n others d _ there within
  have own := within.scopes n d there
  refine ⟨?_, ?_⟩
  · intro m e found
    rcases getElem?_advance_cases there found with ⟨rfl, rfl⟩ | ⟨_, old⟩
    · rw [Delivery.step_scope]
      exact own
    · exact within.scopes m e old
  · exact d.step_transport_kept sink p.sink (fun x => keeps.subscribe x own)
      (fun h _ => keeps.unsubscribe h)
      (fun h _ => keeps.next h) (fun h _ => keeps.abandon h) within.transport

theorem Within.settle (within : p.Within Targeted P) : (p.settle t sink).Within Targeted P :=
  settle_induction (fun _ within => Within.turn keeps within) within

theorem Within.finish (within : p.Within Targeted P) (session : Session) :
    (p.finish t sink session).2.2.Within Targeted P := by
  rcases p.finish_cases t sink session with ⟨_, same⟩ | ⟨_, ⟨d, outcome, -, -, same⟩ | same⟩
    <;> rw [same]
  · exact within
  · exact (Within.settle keeps within).modify session.number (fun d => { d with state := .closed })
      (fun _ => rfl) rfl rfl
  · exact Within.settle keeps within

theorem Within.turns (within : p.Within Targeted P) (numbers : List Nat) :
    (p.turns t sink numbers).Within Targeted P := by
  induction numbers generalizing p with
  | nil => exact within
  | cons n later ih =>
    exact ih (Within.turn keeps (p := p.pick n) ⟨within.scopes, within.transport⟩)

/-- A session is opened while the others stay within their scopes. -/
theorem Within.openWhile (within : p.Within Targeted P) {meanwhile : Pool τ σ → Pool τ σ}
    (others : ∀ {q}, q.Within Targeted P → (meanwhile q).Within Targeted P) (gvkKey : String)
    {scope : Scope} (targeted : Targeted scope) :
    (p.openWhile t meanwhile gvkKey scope).2.Within Targeted P := by
  have asked : { p with transport := (t.subscribe scope p.transport).2 }.Within Targeted P :=
    ⟨within.scopes, keeps.subscribe p.transport targeted within.transport⟩
  unfold Pool.openWhile
  rcases answer : t.subscribe scope p.transport with ⟨h | f | _, x⟩ <;> rw [answer] at asked
  · exact (others asked).spawn gvkKey targeted h
  · exact others asked
  · exact others asked

theorem Within.openSession (within : p.Within Targeted P) (sink : Sink σ) (gvkKey : String)
    {scope : Scope} (targeted : Targeted scope) :
    (p.openSession t sink gvkKey scope).2.Within Targeted P := by
  have others : ∀ {q : Pool τ σ}, q.Within Targeted P → (q.goOn t sink).Within Targeted P :=
    fun within => goOn_kept (fun _ within => Within.turn keeps within) within
  have opened := Within.openWhile keeps within others gvkKey targeted
  unfold Pool.openSession
  rcases result : p.openWhile t (goOn t sink) gvkKey scope with ⟨session | f | _, q⟩
    <;> rw [result] at opened
  · exact opened
  · exact opened
  · exact Within.settle keeps opened

end Runs

end Pool

end Watch

namespace Dispatch.Source

variable {p : Pool τ Stores} {s : Source τ}

theorem requestStops_within (sessions : List Session) (within : p.Within Targeted P) :
    (requestStops sessions p).Within Targeted P := by
  induction sessions generalizing p with
  | nil => exact within
  | cons session more ih => exact ih (within.requestStop session)

section Runs

variable (keeps : t.KeepsFor Targeted P)

include keeps

theorem finishAll_within (sink : Sink Stores) (sessions : List Session)
    (within : p.Within Targeted P) : (finishAll t sink sessions p).2.Within Targeted P := by
  induction sessions generalizing p with
  | nil => exact within
  | cons session more ih => exact ih (Pool.Within.finish keeps within session)

theorem closeWhile_within {meanwhile : Pool τ Stores → Pool τ Stores}
    (others : ∀ {q}, q.Within Targeted P → (meanwhile q).Within Targeted P)
    (within : s.pool.Within Targeted P) : (s.closeWhile t meanwhile).2.pool.Within Targeted P :=
  finishAll_within keeps s.sink s.sessions (others (requestStops_within s.sessions within))

theorem close_within (within : s.pool.Within Targeted P) : (s.close t).2.pool.Within Targeted P :=
  closeWhile_within keeps id within

theorem closeAmid_within (schedule : Schedule τ) (within : s.pool.Within Targeted P) :
    (s.closeAmid t schedule).2.pool.Within Targeted P :=
  closeWhile_within keeps (fun within => Pool.Within.turns keeps within _) within

omit keeps in
theorem openEach_within {opens : Source τ → Scope → Opening × Pool τ Stores}
    {closes : Source τ → Nat × Source τ}
    (opened : ∀ {s : Source τ} {scope}, Targeted scope → s.pool.Within Targeted P →
      (opens s scope).2.Within Targeted P)
    (closed : ∀ {s : Source τ}, s.pool.Within Targeted P → (closes s).2.pool.Within Targeted P)
    {scopes : List Scope} (targeted : ∀ scope ∈ scopes, Targeted scope)
    (within : s.pool.Within Targeted P) :
    (openEach opens closes scopes s).2.pool.Within Targeted P := by
  induction scopes generalizing s with
  | nil => exact within
  | cons scope more ih =>
    obtain ⟨first, others⟩ := List.forall_mem_cons.mp targeted
    have opened := opened first within
    rw [openEach]
    rcases answer : opens s scope with ⟨session | f | _, pool⟩ <;> rw [answer] at opened
    · exact ih others opened
    · exact closed opened
    · exact opened

theorem openAll_within {scopes : List Scope} (targeted : ∀ scope ∈ scopes, Targeted scope)
    (within : s.pool.Within Targeted P) : (openAll t scopes s).2.pool.Within Targeted P :=
  openEach_within (fun {s} _ targeted within =>
    Pool.Within.openSession keeps within s.sink _ targeted) (close_within keeps) targeted within

theorem openAllAmid_within (schedule : Schedule τ) {scopes : List Scope}
    (targeted : ∀ scope ∈ scopes, Targeted scope) (within : s.pool.Within Targeted P) :
    (openAllAmid t schedule scopes s).2.pool.Within Targeted P := by
  refine openEach_within (fun {s} scope targeted within => ?_) (closeAmid_within keeps schedule)
    targeted within
  exact Pool.Within.openWhile keeps (Pool.Within.turns keeps within _)
    (fun within => Pool.Within.turns keeps within _) s.config.gvkKey targeted

/-- Whatever is done to a source whose target has these scopes only. -/
theorem deeds_within {env : ε → τ → τ} (outside : ∀ change x, P x → P (env change x))
    (targeted : ∀ scope ∈ s.config.target.watchScopes, Targeted scope) (none : s.sessions = [])
    (within : s.pool.Within Targeted P) (run : List (Deed ε)) :
    (s.deeds t env run).pool.Within Targeted P := by
  induction run with
  | nil => exact within
  | cons deed earlier ih =>
    have config := (scopes_deeds t env none earlier).1
    rw [← config] at targeted
    cases deed with
    | start =>
      simp only [deeds, perform, start_eq]
      split
      · exact openAll_within keeps targeted ih
      · exact ih
    | abandonStart opened =>
      simp only [deeds, perform]
      split
      · exact openAll_within keeps (fun scope mem => targeted scope (List.mem_of_mem_take mem)) ih
      · exact ih
    | close => exact close_within keeps ih
    | drop => exact requestStops_within _ ih
    | onEvent e => exact ⟨ih.scopes, ih.transport⟩
    | deregister uid => exact ⟨ih.scopes, ih.transport⟩
    | tick tick =>
      cases tick with
      | pick n => exact ⟨ih.scopes, ih.transport⟩
      | turn => exact Pool.Within.turn keeps ih
      | settle => exact Pool.Within.settle keeps ih
      | outside change => exact ⟨ih.scopes, outside change _ ih.transport⟩

end Runs

end Dispatch.Source

end WatchDispatch
