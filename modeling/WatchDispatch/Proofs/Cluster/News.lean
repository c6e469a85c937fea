import WatchDispatch.Cluster.Cursor

/-!
# What the server says on a watch

Responses are compared by their news: the lines that can be read, one after the other, whatever
response they came with. A normal end is no news; an error in place of a stream and a reset at the
end of one are. What a subscription has to tell is read off the news alone: an event for each
change, up to the first trouble, and then that trouble as the last item. So it does not depend on
where a response was cut.
-/

namespace WatchDispatch.Cluster

open Watch (Item)

inductive Trouble where
  | error (e : ClientError)
  /-- No snapshot can be taken of a changed object. -/
  | undecodable (action : Action) (reason : String)

namespace Trouble

def fault : Trouble → Fault
  | error e => e.fault
  | undecodable action reason => .failed s!"decoding {action.label} event: {reason}"

/-- The server says that the resource version is gone. -/
def IsGone (t : Trouble) : Prop :=
  ∃ status, t = error (.response status) ∧ status.code = Status.gone

/-- A trouble that is no gone version is a failure. -/
theorem fault_of_not_gone {t : Trouble} (other : ¬ t.IsGone) :
    ∃ reason, t.fault = .failed reason := by
  cases t with
  | undecodable action e => exact ⟨_, rfl⟩
  | error e =>
    cases e with
    | response status =>
      have code : status.code ≠ Status.gone := fun same => other ⟨status, rfl, same⟩
      exact ⟨_, if_neg code⟩
    | _ => exact ⟨_, rfl⟩

/-- A gone version is told as an expiry. -/
theorem expired_of_gone {t : Trouble} (gone : t.IsGone) : ∃ reason, t.fault = .expired reason := by
  obtain ⟨status, rfl, code⟩ := gone
  exact ⟨_, if_pos code⟩

end Trouble

namespace WatchLine

/-- What a line has to tell about objects of a kind: a trouble, an event or nothing. -/
def telling (decoder : Decoder) : WatchLine → Option (Trouble ⊕ Event)
  | .change action o =>
    match o.snapshot decoder.kind with
    | .ok snapshot => some (.inr ⟨action, snapshot⟩)
    | .error e => some (.inl (.undecodable action (e.message decoder.uidError)))
  | .bookmark _ => none
  | .failure e => some (.inl (.error e))

/-- The resource version that a line supplies. -/
def version? : WatchLine → Option String
  | .change _ o => o.metadata.resourceVersion?
  | .bookmark version => some version
  | .failure _ => none

end WatchLine

/-! ## News -/

/-- What comes behind the last line. -/
def Finale.news : Finale → List WatchLine
  | .resets => [.failure resetError]
  | _ => []

def LineStream.news (l : LineStream) : List WatchLine :=
  l.lines.filterMap WatchLine.read? ++ l.finale.news

def Response.news : Response → List WatchLine
  | .unbuilt e => [.failure (.request e)]
  | .refused e => [.failure e]
  | .stream l => l.news

/-- What is left to be read for a cursor before it asks again. -/
def CursorStage.news : CursorStage → List WatchLine
  | .reading l => l.news
  | .failing e => [.failure e]
  | .finished => []

/-- The first trouble in the news. -/
def trouble? (decoder : Decoder) (news : List WatchLine) : Option Trouble :=
  news.findSome? (fun line => (line.telling decoder).bind Sum.getLeft?)

/-- The events that the news report before the first trouble. -/
def reported (decoder : Decoder) : List WatchLine → List Event
  | [] => []
  | line :: rest =>
    match line.telling decoder with
    | none => reported decoder rest
    | some (.inr e) => e :: reported decoder rest
    | some (.inl _) => []

/-- All that a subscription has to tell of the news. -/
def told (decoder : Decoder) (news : List WatchLine) : List Item :=
  (reported decoder news).map .event ++ (trouble? decoder news).toList.map (fun t => .fault t.fault)

/-- The resource version to go on from after the news: the last one that was supplied. -/
def resumePoint (start : String) (news : List WatchLine) : String :=
  (news.filterMap WatchLine.version?).getLast?.getD start

section Told

variable {decoder : Decoder} {news more : List WatchLine} {line : WatchLine}

@[simp] theorem told_nil : told decoder [] = [] := rfl

theorem trouble?_append :
    trouble? decoder (news ++ more) = (trouble? decoder news).or (trouble? decoder more) := by
  simp [trouble?, List.findSome?_append]

theorem told_cons_of_silent (news : List WatchLine) (silent : line.telling decoder = none) :
    told decoder (line :: news) = told decoder news ∧
    trouble? decoder (line :: news) = trouble? decoder news := by
  simp [told, reported, trouble?, silent]

theorem told_cons_of_event (news : List WatchLine) {e : Event}
    (event : line.telling decoder = some (.inr e)) :
    told decoder (line :: news) = .event e :: told decoder news ∧
      trouble? decoder (line :: news) = trouble? decoder news := by
  simp [told, reported, trouble?, event]

theorem told_cons_of_trouble (news : List WatchLine) {t : Trouble}
    (trouble : line.telling decoder = some (.inl t)) :
    told decoder (line :: news) = [.fault t.fault] ∧ trouble? decoder (line :: news) = some t := by
  simp [told, reported, trouble?, trouble]

/-- As long as there is no trouble, later news are told behind the earlier ones. -/
theorem told_append_of_calm (calm : trouble? decoder news = none) :
    told decoder (news ++ more) = told decoder news ++ told decoder more := by
  induction news with
  | nil => rfl
  | cons line news ih =>
    rcases telling : line.telling decoder with _ | t | e
    · obtain ⟨here, rest⟩ := told_cons_of_silent news telling
      rw [here, List.cons_append, (told_cons_of_silent _ telling).1]
      exact ih (rest ▸ calm)
    · rw [(told_cons_of_trouble _ telling).2] at calm
      cases calm
    · obtain ⟨here, rest⟩ := told_cons_of_event news telling
      rw [here, List.cons_append, (told_cons_of_event _ telling).1, ih (rest ▸ calm),
        List.cons_append]

/-- The only fault that is told is that of the first trouble. -/
theorem fault_mem_told_iff {f : Fault} :
    .fault f ∈ told decoder news ↔ ∃ t, trouble? decoder news = some t ∧ t.fault = f := by
  simp [told]

/-- Once the fault is among the items, all has been told. -/
theorem eq_told_of_fault_mem {items : List Item} {f : Fault} (begins : items <+: told decoder news)
    (mem : .fault f ∈ items) : items = told decoder news := by
  obtain ⟨rest, whole⟩ := begins
  obtain ⟨t, met, -⟩ := fault_mem_told_iff.mp (whole ▸ List.mem_append_left rest mem)
  -- The fault is the last item, so whatever follows it is nothing.
  have split : items ++ rest = (reported decoder news).map .event ++ [.fault t.fault] := by
    rw [whole, told, met]
    rfl
  rcases List.eq_nil_or_concat rest with rfl | ⟨front, last, rfl⟩
  · rw [← whole, List.append_nil]
  · have events : items ++ front = (reported decoder news).map .event := by
      rw [List.concat_eq_append, ← List.append_assoc] at split
      exact (List.append_inj' split rfl).1
    have among := events ▸ List.mem_append_left front mem
    simp at among

theorem resumePoint_append (start : String) (news more : List WatchLine) :
    resumePoint start (news ++ more) = resumePoint (resumePoint start news) more := by
  simp only [resumePoint, List.filterMap_append, List.getLast?_append]
  cases (more.filterMap WatchLine.version?).getLast? <;> rfl

end Told

end WatchDispatch.Cluster
