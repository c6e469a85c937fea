import WatchDispatch.Proofs.Cluster.News

/-!
# Following a collection

A cursor is compared with the responses that its subscription got. Whatever it has told and whatever
is left of the current response make up all that the responses have to tell; the resource version
that it holds is the one to go on from. A look at the next item keeps this account, asking again
puts a response into it, and once a trouble was told nothing is left and nothing is asked.
-/

namespace WatchDispatch.Cluster

open Watch (Item)

structure Exchange where
  /-- The number of the subscription for which it is made. -/
  id : Nat
  path : String
  resourceVersion : String
  response : Response

def newsOf (es : List Exchange) : List WatchLine := es.flatMap (fun e => e.response.news)

theorem newsOf_concat (es : List Exchange) (e : Exchange) :
    newsOf (es ++ [e]) = newsOf es ++ e.response.news := by
  simp [newsOf]

/-- The response ended and left nothing open. -/
def Response.Ended (r : Response) : Prop := ∃ lines, r = .stream ⟨lines, .ends⟩

/-- All was told to the reader of a subscription, and the last response is left open. -/
structure PutOff (decoder : Decoder) (es : List Exchange) (items : List Item) : Prop where
  told : items = told decoder (newsOf es)
  calm : trouble? decoder (newsOf es) = none
  opens : ∀ last ∈ es.getLast?, ∃ lines, last.response = .stream ⟨lines, .hangs⟩

/-- The exchanges of one subscription, first one first: each asks for the same collection, from the
baseline at first and then from the last resource version of all before, and only after these have
ended without trouble. -/
def Resumed (decoder : Decoder) (path : String) (es : List Exchange) : Prop :=
  ∀ before e after, es = before ++ e :: after →
    e.path = path ∧ e.resourceVersion = resumePoint baseline (newsOf before) ∧
      (∀ previous ∈ before, previous.response.Ended) ∧ trouble? decoder (newsOf before) = none

theorem Resumed.nil (decoder : Decoder) (path : String) : Resumed decoder path [] := by
  intro before e after split
  simp at split

theorem Resumed.concat {decoder : Decoder} {path : String} {es : List Exchange} {e : Exchange}
    (resumed : Resumed decoder path es) (same : e.path = path)
    (version : e.resourceVersion = resumePoint baseline (newsOf es))
    (ended : ∀ last ∈ es.getLast?, last.response.Ended)
    (calm : trouble? decoder (newsOf es) = none) : Resumed decoder path (es ++ [e]) := by
  intro before other after split
  rcases List.eq_nil_or_concat after with rfl | ⟨front, last, rfl⟩
  · obtain ⟨rfl, one⟩ := List.append_inj' split rfl
    obtain rfl : e = other := by simpa using one
    refine ⟨same, version, ?_, calm⟩
    intro previous mem
    obtain ⟨older, newer, rfl⟩ := List.append_of_mem mem
    rcases List.eq_nil_or_concat newer with rfl | ⟨more, latest, rfl⟩
    · exact ended previous (by simp)
    · -- All but the last had ended when the last was made.
      have whole : older ++ previous :: more.concat latest =
          (older ++ previous :: more) ++ latest :: [] := by
        simp
      exact (resumed _ _ _ whole).2.2.1 previous (by simp)
  · have inner : es ++ [e] = (before ++ other :: front) ++ [last] := by simpa using split
    obtain ⟨rfl, -⟩ := List.append_inj' inner rfl
    exact resumed before other front rfl

/-- The first exchange of a subscription. -/
theorem Resumed.first {decoder : Decoder} {path : String} {e : Exchange} (same : e.path = path)
    (version : e.resourceVersion = baseline) : Resumed decoder path [e] :=
  (Resumed.nil decoder path).concat same version (by simp) rfl

namespace CursorStage

/-- How the response that is being read ends. -/
def finale? : CursorStage → Option Finale
  | .reading l => some l.finale
  | _ => none

end CursorStage

namespace Cursor

/-! ## Looking for the next item -/

/-- The cursor has shown some items and has the same account left. -/
structure Passes (decoder : Decoder) (shown : List Item) (c c' : Cursor) : Prop where
  told : told decoder c.stage.news = shown ++ told decoder c'.stage.news
  trouble : trouble? decoder c.stage.news = trouble? decoder c'.stage.news
  version : resumePoint c.resourceVersion c.stage.news =
    resumePoint c'.resourceVersion c'.stage.news
  finale : c.stage.finale? = c'.stage.finale?
  path : c.path = c'.path

inductive Looks (decoder : Decoder) (c : Cursor) : Option Item × Cursor → Prop
  | event {e rest} {c' : Cursor} : c.Passes decoder [.event e] c' → c'.stage = .reading rest →
      Looks decoder c (some (.event e), c')
  | idle {c' : Cursor} : c.Passes decoder [] c' → c'.stage = .reading ⟨[], .hangs⟩ →
      Looks decoder c (some .idle, c')
  | asks {c' : Cursor} : c.Passes decoder [] c' → c'.stage = .reading ⟨[], .ends⟩ →
      Looks decoder c (none, c')
  | trouble {t} {c' : Cursor} : told decoder c.stage.news = [.fault t.fault] →
      trouble? decoder c.stage.news = some t → c'.stage = .finished → c'.path = c.path →
      Looks decoder c (some (.fault t.fault), c')
  | ended : c.stage = .finished → Looks decoder c (some .ended, c)

theorem Passes.refl (decoder : Decoder) (c : Cursor) : c.Passes decoder [] c :=
  ⟨rfl, rfl, rfl, rfl, rfl⟩

variable {decoder : Decoder} {c c' : Cursor}

theorem Passes.trans {shown : List Item} {c'' : Cursor} (silent : c.Passes decoder [] c')
    (passes : c'.Passes decoder shown c'') : c.Passes decoder shown c'' :=
  ⟨silent.told.trans passes.told, silent.trouble.trans passes.trouble,
    silent.version.trans passes.version, silent.finale.trans passes.finale,
    silent.path.trans passes.path⟩

/-- What passes without an item does not change what a look comes to. -/
theorem Looks.of_passes {found : Option Item × Cursor} (silent : c.Passes decoder [] c')
    (going : c'.stage ≠ .finished) (looks : c'.Looks decoder found) : c.Looks decoder found := by
  cases looks with
  | event passes stage => exact .event (silent.trans passes) stage
  | idle passes stage => exact .idle (silent.trans passes) stage
  | asks passes stage => exact .asks (silent.trans passes) stage
  | trouble alone met stage path =>
    have told := silent.told
    rw [List.nil_append] at told
    exact .trouble (told.trans alone) (silent.trouble.trans met) stage (path.trans silent.path.symm)
  | ended stage => exact absurd stage going

/-- The resource version that a line leaves behind. -/
theorem resumePoint_cons (start : String) (line : WatchLine) (news : List WatchLine) :
    resumePoint start (line :: news) = resumePoint (line.version?.getD start) news := by
  rw [← List.singleton_append, resumePoint_append]
  congr 1
  cases version : line.version? <;> simp [resumePoint, version]

section Lines

variable {line : WatchLine} {l rest : LineStream} (news : l.news = line :: rest.news)

include news

/-- A line that tells nothing is passed over, but its version counts. -/
theorem passes_of_silent (silent : line.telling decoder = none) (finale : l.finale = rest.finale) :
    Passes decoder [] { c with stage := .reading l }
      { c with
        resourceVersion := line.version?.getD c.resourceVersion
        stage := .reading rest } := by
  obtain ⟨told, trouble⟩ := told_cons_of_silent rest.news silent
  refine ⟨?_, ?_, ?_, congrArg some finale, rfl⟩
  · exact (congrArg (Cluster.told decoder) news).trans told
  · exact (congrArg (trouble? decoder) news).trans trouble
  · exact (congrArg (resumePoint c.resourceVersion) news).trans (resumePoint_cons _ _ _)

theorem passes_of_event {e : Event} (event : line.telling decoder = some (.inr e))
    (finale : l.finale = rest.finale) :
    Passes decoder [.event e] { c with stage := .reading l }
      { c with
        resourceVersion := line.version?.getD c.resourceVersion
        stage := .reading rest } := by
  obtain ⟨told, trouble⟩ := told_cons_of_event rest.news event
  refine ⟨?_, ?_, ?_, congrArg some finale, rfl⟩
  · exact (congrArg (Cluster.told decoder) news).trans told
  · exact (congrArg (trouble? decoder) news).trans trouble
  · exact (congrArg (resumePoint c.resourceVersion) news).trans (resumePoint_cons _ _ _)

theorem looks_of_trouble {t : Trouble} (trouble : line.telling decoder = some (.inl t))
    (version : String) :
    Looks decoder { c with stage := .reading l }
      (some (.fault t.fault), { c with resourceVersion := version, stage := .finished }) := by
  obtain ⟨told, met⟩ := told_cons_of_trouble rest.news trouble
  rw [← news] at told met
  exact .trouble told met rfl rfl

end Lines

/-- A change is told as an event if a snapshot can be taken, and as a trouble if not. -/
theorem tell_looks {action : Action} {o : Object} {l rest : LineStream}
    (news : l.news = .change action o :: rest.news) (finale : l.finale = rest.finale) :
    Looks decoder { c with stage := .reading l }
      (some (c.tell decoder action o rest).1, (c.tell decoder action o rest).2) := by
  cases taken : o.snapshot decoder.kind with
  | ok snapshot =>
    have event : (WatchLine.change action o).telling decoder = some (.inr ⟨action, snapshot⟩) := by
      simp [WatchLine.telling, taken]
    simp only [tell, taken]
    exact .event (passes_of_event news event finale) rfl
  | error e =>
    have trouble : (WatchLine.change action o).telling decoder =
        some (.inl (.undecodable action (e.message decoder.uidError))) := by
      simp [WatchLine.telling, taken]
    simp only [tell, taken]
    exact looks_of_trouble news trouble _

/-- Reading tells the next item of the lines, whatever lies in front of it. -/
theorem read_looks (decoder : Decoder) (finale : Finale) (lines : List String) (c : Cursor) :
    Looks decoder { c with stage := .reading ⟨lines, finale⟩ } (read decoder finale lines c) := by
  induction lines generalizing c with
  | nil =>
    cases finale with
    | ends => exact .asks (Passes.refl _ _) rfl
    | hangs => exact .idle (Passes.refl _ _) rfl
    | resets =>
      have error :
          (WatchLine.failure resetError).telling decoder = some (.inl (.error resetError)) := rfl
      have news : (LineStream.mk [] .resets).news =
          .failure resetError :: (LineStream.mk [] .ends).news :=
        rfl
      exact looks_of_trouble news error c.resourceVersion
  | cons text lines ih =>
    unfold read
    cases read : WatchLine.read? text with
    | none =>
      have news :
          (LineStream.mk (text :: lines) finale).news = (LineStream.mk lines finale).news := by
        simp [LineStream.news, read]
      have same : Passes decoder [] { c with stage := .reading ⟨text :: lines, finale⟩ }
          { c with stage := .reading ⟨lines, finale⟩ } :=
        ⟨congrArg (Cluster.told decoder) news, congrArg (trouble? decoder) news,
          congrArg (resumePoint c.resourceVersion) news, rfl, rfl⟩
      exact (ih c).of_passes same (by simp)
    | some line =>
      have news : (LineStream.mk (text :: lines) finale).news =
          line :: (LineStream.mk lines finale).news := by
        simp [LineStream.news, read]
      cases line with
      | change action o => exact tell_looks news rfl
      | bookmark version =>
        have passes := @passes_of_silent decoder c _ _ _ news rfl rfl
        exact (ih { c with resourceVersion := version }).of_passes passes (by simp)
      | failure e => exact looks_of_trouble news rfl c.resourceVersion

theorem look_looks (decoder : Decoder) (c : Cursor) : c.Looks decoder (c.look decoder) := by
  unfold look
  cases stage : c.stage with
  | reading l =>
    have looks := read_looks decoder l.finale l.lines c
    have same : { c with stage := .reading ⟨l.lines, l.finale⟩ } = c := by
      rw [show LineStream.mk l.lines l.finale = l from rfl, ← stage]
    rwa [same] at looks
  | failing e =>
    have error : (WatchLine.failure e).telling decoder = some (.inl (.error e)) := rfl
    obtain ⟨told, met⟩ := told_cons_of_trouble [] error
    have failing : c.stage.news = [.failure e] := by simp [stage, CursorStage.news]
    rw [← failing] at told met
    exact .trouble told met rfl rfl
  | finished => exact .ended stage

/-! ## The account of a subscription -/

/-- The item as something that was told; putting the reader off and the end of the stream are
not. -/
def shown : Item → List Item
  | .event e => [.event e]
  | .fault f => [.fault f]
  | _ => []

/-- The request that is made for the next item, with what it comes to. -/
def asking (params : WatchParams) (decoder : Decoder) (id : Nat) (c : Cursor) (s : Server) :
    Option Exchange :=
  match c.look decoder with
  | (some _, _) => none
  | (none, c) => some ⟨id, c.path, c.resourceVersion, (s.watch params c.path c.resourceVersion).1⟩

theorem asking_id {params : WatchParams} {decoder : Decoder} {id : Nat} {c : Cursor} {s : Server}
    {e : Exchange} (asked : c.asking params decoder id s = some e) : e.id = id := by
  unfold asking at asked
  split at asked <;> cases asked
  rfl

/-- The account of a cursor that goes on: what was told and what is left make up all that was
said. -/
structure Going (decoder : Decoder) (es : List Exchange) (items : List Item) (c : Cursor) :
    Prop where
  stage : c.stage ≠ .finished
  told : told decoder (newsOf es) = items ++ told decoder c.stage.news
  trouble : trouble? decoder (newsOf es) = trouble? decoder c.stage.news
  version : resumePoint baseline (newsOf es) = resumePoint c.resourceVersion c.stage.news
  finale : ∀ finale, c.stage.finale? = some finale →
    ∀ last ∈ es.getLast?, ∃ lines, last.response = .stream ⟨lines, finale⟩

/-- The account of a cursor that has met a trouble: everything was told, and the trouble is the end
of it. -/
structure Done (decoder : Decoder) (es : List Exchange) (items : List Item) (c : Cursor) :
    Prop where
  stage : c.stage = .finished
  told : items = Cluster.told decoder (newsOf es)
  trouble : ∃ t, trouble? decoder (newsOf es) = some t

def Follows (decoder : Decoder) (es : List Exchange) (items : List Item) (c : Cursor) : Prop :=
  c.Going decoder es items ∨ c.Done decoder es items

variable {es : List Exchange} {items : List Item}

theorem Follows.told_prefix (follows : c.Follows decoder es items) :
    items <+: Cluster.told decoder (newsOf es) := by
  rcases follows with going | done
  · rw [going.told]
    exact List.prefix_append _ _
  · simp [done.told]

/-- Whoever has told the fault has nothing left. -/
theorem Follows.finished_of_fault {f : Fault} (follows : c.Follows decoder es items)
    (mem : .fault f ∈ items) : c.stage = .finished := by
  have all := eq_told_of_fault_mem follows.told_prefix mem
  rcases follows with going | done
  · obtain ⟨t, met, -⟩ := fault_mem_told_iff.mp (all ▸ mem)
    have left : .fault t.fault ∈ Cluster.told decoder c.stage.news :=
      fault_mem_told_iff.mpr ⟨t, going.trouble ▸ met, rfl⟩
    have none : Cluster.told decoder c.stage.news = [] := by
      have told := going.told
      rw [← all] at told
      simpa using told
    rw [none] at left
    cases left
  · exact done.stage

theorem next_of_finished (params : WatchParams) (decoder : Decoder) (s : Server)
    (finished : c.stage = .finished) : c.next params decoder s = (.ended, c, s) := by
  simp [Cursor.next, look, finished]

theorem Going.passes {shown : List Item} (going : c.Going decoder es items)
    (passes : c.Passes decoder shown c') (stage : c'.stage ≠ .finished) :
    c'.Going decoder es (items ++ shown) := by
  refine ⟨stage, ?_, going.trouble.trans passes.trouble, going.version.trans passes.version, ?_⟩
  · rw [going.told, passes.told, List.append_assoc]
  · intro finale same
    exact going.finale finale (passes.finale.trans same)

/-- The current response has nothing more to tell. -/
theorem Going.told_eq (going : c.Going decoder es items) {finale : Finale}
    (stage : c.stage = .reading ⟨[], finale⟩) (quiet : finale ≠ .resets) :
    items = Cluster.told decoder (newsOf es) ∧ trouble? decoder (newsOf es) = none ∧
      resumePoint baseline (newsOf es) = c.resourceVersion := by
  have none : c.stage.news = [] := by
    cases finale <;> simp_all [CursorStage.news, LineStream.news, Finale.news]
  have told := going.told
  have trouble := going.trouble
  have version := going.version
  rw [none] at told trouble version
  exact ⟨by simpa using told.symm, trouble, version⟩

/-- Whoever asks again has told all that was said. -/
theorem Follows.told_of_asking {params : WatchParams} {id : Nat} {s : Server} {e : Exchange}
    (follows : c.Follows decoder es items) (asked : c.asking params decoder id s = some e) :
    items = Cluster.told decoder (newsOf es) := by
  rcases follows with going | done
  · have looks := look_looks decoder c
    unfold asking at asked
    rcases found : c.look decoder with ⟨_ | item, c'⟩
    · rw [found] at looks
      cases looks with
      | asks passes stage =>
        have goes := going.passes passes (by simp [stage])
        rw [List.append_nil] at goes
        exact (goes.told_eq stage (by simp)).1
    · simp [found] at asked
  · exact done.told

/-- A response that is asked for comes behind what was told. -/
theorem Going.hear {e : Exchange} {stage : CursorStage} (going : c.Going decoder es items)
    (ended : c.stage = .reading ⟨[], .ends⟩) (news : stage.news = e.response.news)
    (goes : stage ≠ .finished)
    (finale : ∀ finale, stage.finale? = some finale →
      ∃ lines, e.response = .stream ⟨lines, finale⟩) :
    Going decoder (es ++ [e]) items { c with stage } := by
  obtain ⟨told, calm, version⟩ := going.told_eq ended (by simp)
  refine ⟨goes, ?_, ?_, ?_, ?_⟩
  · rw [newsOf_concat, told_append_of_calm calm, ← told, news]
  · rw [newsOf_concat, trouble?_append, calm, Option.none_or, news]
  · rw [newsOf_concat, resumePoint_append, version, news]
  · intro f same last mem
    obtain rfl : e = last := by simpa using mem
    exact finale f same

/-- A trouble is told, and nothing is left. -/
theorem Going.fail {t : Trouble} (going : c.Going decoder es items)
    (told : Cluster.told decoder c.stage.news = [.fault t.fault])
    (met : trouble? decoder c.stage.news = some t) (stage : c'.stage = .finished) :
    c'.Done decoder es (items ++ [.fault t.fault]) :=
  ⟨stage, by rw [going.told, told], t, going.trouble.trans met⟩

structure Advances (decoder : Decoder) (path : String) (es : List Exchange) (items : List Item)
    (item : Item) (c' : Cursor) : Prop where
  follows : c'.Follows decoder es (items ++ shown item)
  resumed : Resumed decoder path es
  path : c'.path = path
  idle : item = .idle → PutOff decoder es items
  ended : item = .ended → c'.Done decoder es items

/-- What comes of asking again: the response is the next one to be told. -/
theorem Going.ask (params : WatchParams) (id : Nat) (s : Server) (going : c.Going decoder es items)
    (resumed : Resumed decoder c.path es) (stage : c.stage = .reading ⟨[], .ends⟩) :
    Advances decoder c.path
      (es ++ [⟨id, c.path, c.resourceVersion, (s.watch params c.path c.resourceVersion).1⟩]) items
      (c.ask params s).1 (c.ask params s).2.1 := by
  obtain ⟨told, calm, version⟩ := going.told_eq stage (by simp)
  have ends : ∀ last ∈ es.getLast?, last.response.Ended :=
    going.finale .ends (by simp [stage, CursorStage.finale?])
  have again : ∀ r, Resumed decoder c.path (es ++ [⟨id, c.path, c.resourceVersion, r⟩]) :=
    fun r => resumed.concat rfl version.symm ends calm
  unfold Cursor.ask
  rcases s.watch params c.path c.resourceVersion with ⟨e | e | l, s'⟩
  · -- A request that cannot be built is a trouble at once.
    have error : (WatchLine.failure (.request e)).telling decoder =
      some (.inl (.error (.request e))) := rfl
    obtain ⟨alone, met⟩ := told_cons_of_trouble [] error
    refine ⟨.inr ⟨rfl, ?_, .error (.request e), ?_⟩, again _, rfl, nofun, nofun⟩
    · rw [newsOf_concat, told_append_of_calm calm, ← told]
      exact congrArg (items ++ ·) alone.symm
    · rw [newsOf_concat, trouble?_append, calm]
      exact met
  · have heard : Going decoder (es ++ [⟨id, c.path, c.resourceVersion, .refused e⟩]) items
        { c with stage := .failing e } := going.hear stage rfl nofun nofun
    refine ⟨.inl ?_, again _, rfl, nofun, nofun⟩
    simpa [shown] using heard
  · have opens : ∀ finale, (CursorStage.reading l).finale? = some finale →
        ∃ lines, Response.stream l = .stream ⟨lines, finale⟩ := by
      rintro _ ⟨⟩
      exact ⟨l.lines, rfl⟩
    have heard : Going decoder (es ++ [⟨id, c.path, c.resourceVersion, .stream l⟩]) items
        { c with stage := .reading l } := going.hear stage rfl nofun opens
    refine ⟨.inl ?_, again _, rfl, nofun, nofun⟩
    simpa [shown] using heard

/-- Taking the next item keeps the account. -/
theorem Follows.next (params : WatchParams) (id : Nat) (s : Server)
    (follows : c.Follows decoder es items) (resumed : Resumed decoder c.path es) :
    Advances decoder c.path (es ++ (c.asking params decoder id s).toList) items
      (c.next params decoder s).1 (c.next params decoder s).2.1 := by
  have looks := look_looks decoder c
  unfold Cursor.next asking
  rcases found : c.look decoder with ⟨item, c'⟩
  rw [found] at looks
  rcases follows with going | done
  · cases looks with
    | event passes stage =>
      have goes := going.passes passes (by simp [stage])
      refine ⟨.inl ?_, ?_, passes.path.symm, nofun, nofun⟩
      · simpa [shown] using goes
      · simpa using resumed
    | idle passes stage =>
      have goes := going.passes passes (by simp [stage])
      rw [List.append_nil] at goes
      obtain ⟨told, calm, -⟩ := goes.told_eq stage (by simp)
      have opens := goes.finale .hangs (by simp [stage, CursorStage.finale?])
      refine ⟨.inl ?_, ?_, passes.path.symm, fun _ => ?_, nofun⟩
      · simpa [shown] using goes
      · simpa using resumed
      · simpa using PutOff.mk told calm opens
    | asks passes stage =>
      have goes := going.passes passes (by simp [stage])
      rw [List.append_nil] at goes
      rw [passes.path] at resumed ⊢
      exact goes.ask params id s resumed stage
    | trouble alone met stage path =>
      have done := going.fail alone met stage
      refine ⟨.inr ?_, ?_, path, nofun, nofun⟩
      · simpa [shown] using done
      · simpa using resumed
    | ended stage => exact absurd stage going.stage
  · -- What is over has nothing left to tell.
    have silent : c.look decoder = (some .ended, c) := by simp [look, done.stage]
    obtain ⟨rfl, rfl⟩ := Prod.mk.inj (found.symm.trans silent)
    refine ⟨.inr ?_, ?_, rfl, nofun, fun _ => ?_⟩
    · simpa [shown] using done
    · simpa using resumed
    · simpa using done

end Cursor

end WatchDispatch.Cluster
