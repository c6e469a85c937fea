import WatchDispatch.Proofs.Dispatch.History

/-!
# Resources are independent

What a source keeps and calls for a resource follows from what it was told about that resource.
Inputs about others change nothing of it, so histories can be mixed in any way as long as the inputs
about each resource keep their order. Nothing is assumed of the dispatcher but that its crashes
depend on the event alone.
-/

namespace WatchDispatch.Dispatch

open Watch

def Input.uid : Input → Uid
  | .event e => e.snapshot.uid
  | .gone uid => uid

/-- Whether the dispatcher crashes depends on the event that it is handed, and on nothing else. -/
def Determined (d : Dispatcher) : Prop :=
  ∀ calls calls' call call', call.action = call'.action → call.snapshot = call'.snapshot →
    (d calls call = .done ↔ d calls' call' = .done)

namespace Source

variable {τ : Type}

/-- The calls of the dispatcher for these resources, latest first. -/
def callsAbout (s : Source τ) (about : Uid → Bool) : List Call :=
  s.calls.filter (fun call => about call.snapshot.uid)

/-- The sources are alike in all that concerns these resources. -/
structure AgreeOn (about : Uid → Bool) (s s' : Source τ) : Prop where
  config : s.config = s'.config
  dispatcher : s.dispatcher = s'.dispatcher
  calls : s.callsAbout about = s'.callsAbout about
  cache : ∀ u, about u = true → s.cache.get? u = s'.cache.get? u
  gate : ∀ u, about u = true → s.gate.get? u = s'.gate.get? u

variable {about : Uid → Bool} {s s' s'' : Source τ}

theorem AgreeOn.symm (agree : s.AgreeOn about s') : s'.AgreeOn about s :=
  ⟨agree.config.symm, agree.dispatcher.symm, agree.calls.symm,
    fun u among => (agree.cache u among).symm, fun u among => (agree.gate u among).symm⟩

theorem AgreeOn.trans (agree : s.AgreeOn about s') (onward : s'.AgreeOn about s'') :
    s.AgreeOn about s'' :=
  ⟨agree.config.trans onward.config, agree.dispatcher.trans onward.dispatcher,
    agree.calls.trans onward.calls,
    fun u among => (agree.cache u among).trans (onward.cache u among),
    fun u among => (agree.gate u among).trans (onward.gate u among)⟩

/-! ## One input -/

theorem tell_dispatcher (s : Source τ) (input : Input) :
    (s.tell input).dispatcher = s.dispatcher := by
  cases input <;> rfl

/-- An event goes well unless it is handed on and the dispatcher crashes. -/
theorem onEvent_done_iff (s : Source τ) (e : Event) :
    (s.onEvent e).1 = .done ↔
      (Due s.config (s.gate.get? e.snapshot.uid) e →
        s.dispatcher s.calls (s.callFor e) = .done) := by
  have cached : (s.pool.sink.cache.upsert e.snapshot).get? e.snapshot.uid = some e.snapshot := by
    simp [Cache.get?_upsert]
  have call : (s.pool.sink.keep e.snapshot).callFor (.ofConfiguration s.config) e =
      s.callFor e := by
    simp [Stores.callFor, Stores.keep, cached, callFor, handle, gate]
  have due : s.pool.sink.passes s.config e = true ↔ Due s.config (s.gate.get? e.snapshot.uid) e :=
    passes_iff_due s.config e s.pool.sink
  rw [← due]
  change (s.pool.sink.deliver s.config s.dispatcher e).1 = .done ↔ _
  cases passes : s.pool.sink.passes s.config e with
  | false => simp [Stores.deliver_of_not_passes _ _ _ _ passes]
  | true =>
    rw [Stores.deliver_of_passes _ _ _ _ passes, Stores.dispatch, call]
    cases handled : s.dispatcher s.calls (s.callFor e) <;> simp_all [calls]

/-- What is told about another resource changes nothing here. -/
theorem tell_agreeOn_of_not {input : Input} (other : about input.uid = false) (s : Source τ) :
    (s.tell input).AgreeOn about s := by
  have apart : ∀ u, about u = true → u ≠ input.uid := by
    rintro u among rfl
    rw [other] at among
    cases among
  refine ⟨s.tell_config input, s.tell_dispatcher input, ?_, ?_, ?_⟩
  · cases input with
    | event e =>
      have here : about e.snapshot.uid = false := other
      simp only [callsAbout, tell, onEvent_calls, List.filter_append]
      split <;> simp [callFor, here]
    | gone uid => rfl
  · intro u among
    cases input with
    | event e => exact (s.onEvent_cache e u).trans (if_neg (apart u among))
    | gone uid => exact (s.deregister_cache uid u).trans (if_neg (apart u among))
  · intro u among
    cases input with
    | event e => exact (s.onEvent_gate e u).trans (if_neg fun both => apart u among both.1.symm)
    | gone uid => exact (s.deregister_gate uid u).trans (if_neg (apart u among))

/-- Sources that are alike in a resource mark it with the same events. -/
theorem AgreeOn.marks_iff (agree : s.AgreeOn about s') (determined : Determined s.dispatcher)
    {e : Event} (among : about e.snapshot.uid = true) : s.Marks e ↔ s'.Marks e := by
  have mark := agree.gate _ among
  have same : s.dispatcher s.calls (s.callFor e) = .done ↔
      s'.dispatcher s'.calls (s'.callFor e) = .done := by
    rw [← agree.dispatcher]
    exact determined _ _ _ _ rfl rfl
  rw [Marks, Marks, Completes, Completes, hands_iff, hands_iff, onEvent_done_iff, onEvent_done_iff,
    agree.config, mark, same]

/-- What is told about a resource has the same effect on sources that are alike in it. -/
theorem AgreeOn.tell (agree : s.AgreeOn about s') (determined : Determined s.dispatcher)
    {input : Input} (among : about input.uid = true) :
    (s.tell input).AgreeOn about (s'.tell input) := by
  refine ⟨?_, ?_, ?_, ?_, ?_⟩
  · rw [tell_config, tell_config, agree.config]
  · rw [tell_dispatcher, tell_dispatcher, agree.dispatcher]
  · cases input with
    | event e =>
      have mark : s.gate.get? e.snapshot.uid = s'.gate.get? e.snapshot.uid := agree.gate _ among
      have call : s.callFor e = s'.callFor e := by
        rw [callFor, callFor, handle, handle, agree.config, mark]
      have calls : s.calls.filter (fun call => about call.snapshot.uid) =
          s'.calls.filter (fun call => about call.snapshot.uid) := agree.calls
      simp only [callsAbout, Source.tell, onEvent_calls, List.filter_append, agree.config, mark,
        call, calls]
    | gone uid => exact agree.calls
  · intro u there
    cases input with
    | event e => simp only [Source.tell, onEvent_cache, agree.cache u there]
    | gone uid => simp only [Source.tell, deregister_cache, agree.cache u there]
  · intro u there
    cases input with
    | event e =>
      have marks := agree.marks_iff determined among
      simp only [Source.tell, onEvent_gate, marks, agree.gate u there]
    | gone uid => simp only [Source.tell, deregister_gate, agree.gate u there]

/-! ## Whole histories -/

/-- A source is, as far as some resources are concerned, as if it had been told about these
alone. -/
theorem after_agreeOn (determined : Determined s.dispatcher) (about : Uid → Bool)
    (history : List Input) :
    (s.after history).AgreeOn about (s.after (history.filter (fun input => about input.uid))) ∧
      (s.after history).dispatcher = s.dispatcher := by
  induction history with
  | nil => exact ⟨⟨rfl, rfl, rfl, fun _ _ => rfl, fun _ _ => rfl⟩, rfl⟩
  | cons input earlier ih =>
    obtain ⟨agree, same⟩ := ih
    refine ⟨?_, (tell_dispatcher _ input).trans same⟩
    cases among : about input.uid with
    | true =>
      rw [List.filter_cons_of_pos (by simpa using among)]
      exact agree.tell (same.symm ▸ determined) among
    | false =>
      rw [List.filter_cons_of_neg (by simp [among])]
      exact (tell_agreeOn_of_not among _).trans agree

/-- Histories that tell the same about some resources lead to the same for these. -/
theorem after_agreeOn_of_filter_eq (determined : Determined s.dispatcher)
    {history history' : List Input} (same : history.filter (fun input => about input.uid) =
      history'.filter (fun input => about input.uid)) :
    (s.after history).AgreeOn about (s.after history') := by
  have agree := (after_agreeOn determined about history).1
  have agree' := (after_agreeOn determined about history').1
  rw [← same] at agree'
  exact agree.trans agree'.symm

end Source

/-! ## Histories that are woven into one -/

/-- The history consists of these parts: the inputs of each part in their order, mixed with those of
the others in any way. -/
def Weaves (parts : Scope → List Input) (woven : List (Scope × Input)) : Prop :=
  ∀ scope, (woven.filter (fun entry => entry.1 = scope)).map Prod.snd = parts scope

theorem Weaves.mem {parts : Scope → List Input} {woven : List (Scope × Input)}
    (weaves : Weaves parts woven) {entry : Scope × Input} (mem : entry ∈ woven) :
    entry.2 ∈ parts entry.1 := by
  rw [← weaves entry.1]
  exact List.mem_map.mpr ⟨entry, List.mem_filter.mpr ⟨mem, by simp⟩, rfl⟩

/-- What is told about resources of which only one part tells is what that part tells. -/
theorem Weaves.filter_eq {parts : Scope → List Input} {woven : List (Scope × Input)}
    (weaves : Weaves parts woven) {about : Uid → Bool} {scope : Scope}
    (only : ∀ other, ∀ input ∈ parts other, about input.uid = true → other = scope) :
    (woven.map Prod.snd).filter (fun input => about input.uid) =
      (parts scope).filter (fun input => about input.uid) := by
  rw [← weaves scope, List.filter_map, List.filter_map, List.filter_filter]
  congr 1
  refine List.filter_congr ?_
  intro entry mem
  cases among : about entry.2.uid with
  | true => simp [among, only entry.1 entry.2 (weaves.mem mem) among]
  | false => simp [among]

def tellsAbout (part : List Input) (u : Uid) : Bool := part.any (fun input => input.uid = u)

/-- What a source keeps and calls for a resource depends only on what it was told about that
resource. So parts that tell about different resources can be woven into one history in any way:
cache and gate become the same, and for the resources of each part the dispatcher gets the same
calls in the same order. -/
theorem resources_independent {τ : Type} (s : Source τ) (determined : Determined s.dispatcher) :
    (∀ (u : Uid) (history history' : List Input),
      history.filter (fun input => input.uid = u) = history'.filter (fun input => input.uid = u) →
      (s.after history).callsAbout (· = u) = (s.after history').callsAbout (· = u) ∧
      (s.after history).cache.get? u = (s.after history').cache.get? u ∧
      (s.after history).gate.get? u = (s.after history').gate.get? u) ∧
    ∀ (parts : Scope → List Input) (woven woven' : List (Scope × Input)),
      Weaves parts woven → Weaves parts woven' →
      (∀ scope scope', scope ≠ scope' → ∀ input ∈ parts scope, ∀ input' ∈ parts scope',
        input.uid ≠ input'.uid) →
      let t := s.after (woven.map Prod.snd)
      let t' := s.after (woven'.map Prod.snd)
      t.cache = t'.cache ∧ t.gate = t'.gate ∧
        ∀ scope, t.callsAbout (tellsAbout (parts scope)) =
        t'.callsAbout (tellsAbout (parts scope)) := by
  refine ⟨?_, ?_⟩
  · intro u history history' same
    have agree : (s.after history).AgreeOn (· = u) (s.after history') :=
      Source.after_agreeOn_of_filter_eq determined same
    exact ⟨agree.calls, agree.cache u (by simp), agree.gate u (by simp)⟩
  · intro parts woven woven' weaves weaves' disjoint t t'
    have alike : ∀ {about : Uid → Bool} {scope : Scope},
        (∀ other, ∀ input ∈ parts other, about input.uid = true → other = scope) →
        t.AgreeOn about t' := by
      intro about scope only
      exact Source.after_agreeOn_of_filter_eq determined
        ((weaves.filter_eq only).trans (weaves'.filter_eq only).symm)
    have agree : ∀ u, t.AgreeOn (· = u) t' := by
      intro u
      -- Either one part tells about the resource or none does.
      by_cases told : ∃ scope, ∃ input ∈ parts scope, input.uid = u
      · obtain ⟨scope, input, mem, rfl⟩ := told
        have only : ∀ other, ∀ i ∈ parts other, decide (i.uid = input.uid) = true →
            other = scope := by
          intro other i there same
          refine Decidable.byContradiction fun apart => ?_
          exact disjoint other scope apart i there input mem (of_decide_eq_true same)
        exact alike only
      · have only : ∀ other, ∀ i ∈ parts other, decide (i.uid = u) = true → other = default :=
          fun other i there about => absurd ⟨other, i, there, of_decide_eq_true about⟩ told
        exact alike only
    refine ⟨Table.ext_get? fun u =>
      (agree u).cache u (by simp), Table.ext_get? fun u => (agree u).gate u (by simp), ?_⟩
    intro scope
    have only : ∀ other, ∀ input ∈ parts other, tellsAbout (parts scope) input.uid = true →
        other = scope := by
      intro other input there among
      obtain ⟨input', mem, same⟩ := List.any_eq_true.mp among
      refine Decidable.byContradiction fun apart => ?_
      exact disjoint other scope apart input there input' mem (of_decide_eq_true same).symm
    exact (alike only).calls

namespace Sample

def modified (number : UInt8) (generation : UInt64) : Input :=
  .event ⟨.modified, { snapshot generation false with
    identity := ⟨⟨List.replicate 16 number, rfl⟩, none, "r", "Widget"⟩ }⟩

/-- A source whose dispatcher crashes at generation 2. -/
def fragile : Source Unit :=
  Source.make configuration
    (fun _ call => if call.snapshot.generation = 2 then .crashed none else .done) ()

/-- One resource in each of two namespaces, the second one deregistered meanwhile; latest input
first. -/
def parts (scope : Scope) : List Input :=
  if scope = .named "a" then [modified 1 3, modified 1 2]
  else if scope = .named "b" then [modified 2 1, .gone (modified 2 1).uid, modified 2 4]
  else []

theorem of_mem_parts {scope : Scope} {input : Input} (mem : input ∈ parts scope) :
    scope = .named "a" ∧ input.uid = (modified 1 2).uid ∨
      scope = .named "b" ∧ input.uid = (modified 2 1).uid := by
  unfold parts at mem
  split at mem
  next here =>
    simp only [List.mem_cons, List.not_mem_nil, or_false] at mem
    rcases mem with rfl | rfl <;> exact .inl ⟨here, rfl⟩
  next =>
    split at mem
    next here =>
      simp only [List.mem_cons, List.not_mem_nil, or_false] at mem
      rcases mem with rfl | rfl | rfl <;> exact .inr ⟨here, rfl⟩
    next => cases mem

def inTurn : List (Scope × Input) :=
  (parts (.named "b")).map (fun input => (.named "b", input)) ++
    (parts (.named "a")).map (fun input => (.named "a", input))

/-- The inputs of the one namespace between those of the other. -/
def alternating : List (Scope × Input) :=
  [(.named "b", modified 2 1), (.named "a", modified 1 3), (.named "b", .gone (modified 2 1).uid),
    (.named "a", modified 1 2), (.named "b", modified 2 4)]

theorem weaves_parts {woven : List (Scope × Input)}
    (a : (woven.filter (fun entry => entry.1 = .named "a")).map Prod.snd = parts (.named "a"))
    (b : (woven.filter (fun entry => entry.1 = .named "b")).map Prod.snd = parts (.named "b"))
    (only : ∀ entry ∈ woven, entry.1 = .named "a" ∨ entry.1 = .named "b") : Weaves parts woven := by
  intro scope
  by_cases first : scope = .named "a"
  · exact first ▸ a
  · by_cases second : scope = .named "b"
    · exact second ▸ b
    · have none : woven.filter (fun entry => entry.1 = scope) = [] := by
        refine List.filter_eq_nil_iff.mpr ?_
        intro entry mem
        rcases only entry mem with here | here <;> simp [here, Ne.symm first, Ne.symm second]
      simp [none, parts, first, second]

end Sample

/-- The crash at one resource and the deregistration of the other do not reach across. -/
theorem resources_independent_of_weaving :
    let t := Sample.fragile.after (Sample.inTurn.map Prod.snd)
    let t' := Sample.fragile.after (Sample.alternating.map Prod.snd)
    t.calls.map (fun call => call.snapshot.generation) = [1, 4, 3, 2] ∧
      t'.calls.map (fun call => call.snapshot.generation) = [1, 3, 2, 4] ∧ t.cache = t'.cache ∧
      t.gate = t'.gate ∧ t.callsAbout (tellsAbout (Sample.parts (.named "a"))) =
        t'.callsAbout (tellsAbout (Sample.parts (.named "a"))) := by
  have determined : Determined Sample.fragile.dispatcher := by
    intro calls calls' call call' _ snapshot
    simp [Sample.fragile, Source.make, snapshot]
  have disjoint : ∀ scope scope', scope ≠ scope' → ∀ input ∈ Sample.parts scope,
      ∀ input' ∈ Sample.parts scope', input.uid ≠ input'.uid := by
    intro scope scope' apart input mem input' mem'
    rcases Sample.of_mem_parts mem with ⟨rfl, here⟩ | ⟨rfl, here⟩ <;>
      rcases Sample.of_mem_parts mem' with ⟨rfl, there⟩ | ⟨rfl, there⟩ <;> rw [here, there]
    · exact absurd rfl apart
    · decide
    · decide
    · exact absurd rfl apart
  obtain ⟨cache, gate, calls⟩ := (resources_independent Sample.fragile determined).2 Sample.parts
    Sample.inTurn Sample.alternating (Sample.weaves_parts rfl rfl (by decide))
    (Sample.weaves_parts rfl rfl (by decide)) disjoint
  exact ⟨by decide, by decide, cache, gate, calls (.named "a")⟩

end WatchDispatch.Dispatch
