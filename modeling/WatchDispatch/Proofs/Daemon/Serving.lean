import Mathlib.Data.List.Induction
import WatchDispatch.Daemon
import WatchDispatch.Proofs.Cluster.Accounts

/-!
# Waiting with a started source

While its deliveries take their turns, the daemon looks now and then whether a fatal fault or the
interrupt is there. The first look at which something is there decides how it ends. What is there is
told by the turns that were taken and by the interrupts that came before that look, and if a fault
and an interrupt are there, nothing but the look itself says which of them the daemon takes.
-/

namespace WatchDispatch.Daemon

open Cluster Dispatch Watch

variable {t : Transport ApiState} {source : Source ApiState} {moments earlier later : List Moment}
  {first : Branch} {report : Option FatalFault} {how : Option Interrupt} {cause : Cause}

/-! ## What decides -/

def Moment.turn? : Moment → Option Nat
  | .turn n => some n
  | _ => none

def Moment.interrupt? : Moment → Option Interrupt
  | .interrupt how => some how
  | _ => none

/-- The source after the turns among these moments. -/
def served (t : Transport ApiState) (source : Source ApiState) (moments : List Moment) :
    Source ApiState :=
  source.turns t (moments.filterMap Moment.turn?)

/-- The interrupt that came first among these moments. -/
def heard (moments : List Moment) : Option Interrupt := moments.findSome? Moment.interrupt?

/-- The fatal fault that the supervisor has to take next. -/
def reported (source : Source ApiState) : Option FatalFault := (source.pool.reports.getD []).head?

/-- The daemon takes this of a fault and an interrupt that may be there: what is there alone, or
what the look names. -/
inductive Takes (first : Branch) (report : Option FatalFault) (how : Option Interrupt) :
    Cause → Prop
  | fault {f} : report = some f → first = .fault ∨ how = none → Takes first report how (.fault f)
  | interrupt {i} : how = some i → first = .interrupt ∨ report = none →
      Takes first report how (.interrupt i)

/-- Nothing is there at any look among these moments. -/
def Quiet (t : Transport ApiState) (source : Source ApiState) (moments : List Moment) : Prop :=
  ∀ earlier first later, moments = earlier ++ .look first :: later →
    reported (served t source earlier) = none ∧ heard earlier = none

/-- The cause is taken at the first look at which something is there. -/
def Decides (t : Transport ApiState) (source : Source ApiState) (moments : List Moment)
    (cause : Cause) : Prop :=
  ∃ earlier first later, moments = earlier ++ .look first :: later ∧ Quiet t source earlier ∧
    Takes first (reported (served t source earlier)) (heard earlier) cause

theorem choose_eq_some_iff :
    choose first report how = some cause ↔ Takes first report how cause := by
  constructor
  · intro chosen
    cases first <;> cases report <;> cases how <;> cases chosen <;> constructor <;> simp
  · intro takes
    cases takes with
    | fault told alone => cases first <;> simp_all [choose]
    | interrupt come alone => cases first <;> simp_all [choose]

theorem choose_eq_none_iff : choose first report how = none ↔ report = none ∧ how = none := by
  cases first <;> cases report <;> cases how <;> simp [choose]

/-! ## Waiting -/

theorem takeReport_fst (p : Pool ApiState Stores) : p.takeReport.1 = (p.reports.getD []).head? := by
  unfold Pool.takeReport
  rcases p.reports with _ | _ | ⟨f, rest⟩ <;> rfl

theorem served_concat (t : Transport ApiState) (source : Source ApiState) (moments : List Moment)
    (moment : Moment) : served t source (moments ++ [moment]) =
      (served t source moments).turns t moment.turn?.toList := by
  unfold served
  rw [List.filterMap_append, Source.turns_append]
  cases moment <;> rfl

theorem heard_concat (moments : List Moment) (moment : Moment) :
    heard (moments ++ [moment]) = (heard moments).or moment.interrupt? := by
  unfold heard
  rw [List.findSome?_append]
  cases moment <;> rfl

theorem Wait.run_append (w : Wait) (moments later : List Moment) :
    w.run t (moments ++ later) = (w.run t moments).run t later := List.foldl_append

/-- As long as nothing is there at any look, nothing is taken. -/
theorem Quiet.run (quiet : Quiet t source moments) :
    (Wait.start source).run t moments = ⟨served t source moments, heard moments, none⟩ := by
  -- The moments are taken one by one; each look sees all that came before it.
  induction moments using List.reverseRecOn with
  | nil => rfl
  | append_singleton moments moment ih =>
    have before := ih fun earlier first later split =>
      quiet earlier first (later ++ [moment]) (by rw [split, List.append_assoc]; rfl)
    rw [Wait.run_append, before]
    change Wait.next t _ moment = _
    rw [served_concat, heard_concat]
    cases moment with
    | turn n => simp [Wait.next, Moment.turn?, Moment.interrupt?]
    | interrupt how => rfl
    | look first =>
      obtain ⟨none, silent⟩ := quiet moments first [] rfl
      rw [reported, ← takeReport_fst] at none
      have nothing : choose first _ _ = _ := choose_eq_none_iff.mpr ⟨none, silent⟩
      simp [Wait.next, Wait.look, nothing, Moment.turn?, Moment.interrupt?,
        Source.turns, Pool.turns]

/-- What was taken stays taken. -/
theorem Wait.run_of_taken {w : Wait} {taken : Cause × Nat} (took : w.taken = some taken)
    (moments : List Moment) : (w.run t moments).taken = some taken := by
  induction moments generalizing w with
  | nil => exact took
  | cons moment moments ih =>
    refine ih ?_
    cases moment with
    | turn n => exact took
    | interrupt how => exact took
    | look first => simp [Wait.next, Wait.look, took]

theorem Decides.taken (decides : Decides t source moments cause) :
    ∃ seen, ((Wait.start source).run t moments).taken = some (cause, seen) := by
  obtain ⟨earlier, first, later, rfl, quiet, takes⟩ := decides
  rw [Wait.run_append, quiet.run]
  refine ⟨(served t source earlier).pool.sink.calls.length,
    Wait.run_of_taken (w := Wait.next t _ (.look first)) ?_ later⟩
  rw [reported, ← takeReport_fst, ← choose_eq_some_iff] at takes
  cases cause <;> simp [Wait.next, Wait.look, takes]

theorem Quiet.concat {moment : Moment} (quiet : Quiet t source moments)
    (none : ∀ first, moment = .look first → reported (served t source moments) = none ∧
      heard moments = none) :
    Quiet t source (moments ++ [moment]) := by
  intro earlier first later split
  rcases List.eq_nil_or_concat later with rfl | ⟨later, final, rfl⟩
  · obtain ⟨rfl, same⟩ := List.append_inj' split rfl
    exact none first (List.singleton_inj.mp same)
  · rw [List.concat_eq_append, ← List.cons_append, ← List.append_assoc] at split
    exact quiet earlier first later (List.append_inj' split rfl).1

/-- Either nothing is there at any look, or some look decides. -/
theorem quiet_or_decides (t : Transport ApiState) (source : Source ApiState)
    (moments : List Moment) : Quiet t source moments ∨ ∃ cause, Decides t source moments cause := by
  induction moments using List.reverseRecOn with
  | nil => exact .inl fun earlier first later split => by simp at split
  | append_singleton moments moment ih =>
    rcases ih with quiet | ⟨cause, earlier, first, later, rfl, quiet, takes⟩
    · by_cases found : ∃ first cause, moment = .look first ∧
        Takes first (reported (served t source moments)) (heard moments) cause
      · obtain ⟨first, cause, rfl, takes⟩ := found
        exact .inr ⟨cause, moments, first, [], rfl, quiet, takes⟩
      · have nothing : ∀ first, moment = .look first →
            choose first (reported (served t source moments)) (heard moments) = none := by
          intro first same
          refine Option.eq_none_iff_forall_ne_some.mpr fun cause chosen => ?_
          exact found ⟨first, cause, same, choose_eq_some_iff.mp chosen⟩
        exact .inl (quiet.concat fun first same => choose_eq_none_iff.mp (nothing first same))
    · exact .inr ⟨cause, earlier, first, later ++ [moment],
        by rw [List.append_assoc]; rfl, quiet, takes⟩

/-- What the daemon takes is what decides. -/
theorem taken_iff : (∃ seen, ((Wait.start source).run t moments).taken = some (cause, seen)) ↔
    Decides t source moments cause := by
  refine ⟨fun ⟨seen, took⟩ => ?_, Decides.taken⟩
  rcases quiet_or_decides t source moments with quiet | ⟨cause', decides⟩
  · rw [quiet.run] at took
    cases took
  · obtain ⟨seen', took'⟩ := decides.taken
    rw [took] at took'
    cases took'
    exact decides

theorem Decides.unique {cause' : Cause} (decides : Decides t source moments cause)
    (again : Decides t source moments cause') : cause = cause' := by
  obtain ⟨seen, took⟩ := decides.taken
  obtain ⟨seen', took'⟩ := again.taken
  exact congrArg Prod.fst (Option.some.inj (took.symm.trans took'))

/-- A look leaves all but the faults that wait for the supervisor alone. -/
theorem Wait.look_source (w : Wait) (first : Branch) : ∃ reports, (w.look first).source =
    { w.source with pool := { w.source.pool with reports } } := by
  obtain ⟨reports, taken⟩ := w.source.pool.takeReport_snd
  unfold Wait.look
  cases w.taken with
  | some _ => exact ⟨w.source.pool.reports, rfl⟩
  | none =>
    dsimp only
    cases choose first w.source.pool.takeReport.1 w.interrupt with
    | none => exact ⟨w.source.pool.reports, rfl⟩
    | some cause =>
      cases cause with
      | fault f => exact ⟨reports, congrArg (fun pool => { w.source with pool }) taken⟩
      | interrupt how => exact ⟨w.source.pool.reports, rfl⟩

/-- Waiting opens and closes no session, and leaves the source accountable. -/
theorem Wait.run_accountable {a : Api} {w : Wait} (accountable : Accountable w.source)
    (moments : List Moment) :
    Accountable (w.run a.transport moments).source ∧
      (w.run a.transport moments).source.sessions = w.source.sessions := by
  induction moments generalizing w with
  | nil => exact ⟨accountable, rfl⟩
  | cons moment moments ih =>
    have step : Accountable (w.next a.transport moment).source ∧
        (w.next a.transport moment).source.sessions = w.source.sessions := by
      cases moment with
      | turn n => exact ⟨accountable.turns a [n], rfl⟩
      | interrupt how => exact ⟨accountable, rfl⟩
      | look first =>
        obtain ⟨reports, same⟩ := w.look_source first
        change Accountable (w.look first).source ∧
          (w.look first).source.sessions = w.source.sessions
        rw [same]
        exact ⟨accountable.reports reports, rfl⟩
    obtain ⟨kept, sessions⟩ := ih step.1
    exact ⟨kept, sessions.trans step.2⟩

/-! ## What is logged -/

def Record.Complains (r : Record) : Prop := r.message = "some watches failed to close"

theorem dispatchRecords_silent {record : Record} (mem : record ∈ dispatchRecords source) :
    ¬ record.Complains := by
  obtain ⟨call, -, rfl⟩ := List.mem_map.mp mem
  simp [Record.Complains, dispatchRecord]

theorem Cause.record_silent (cause : Cause) : ¬ cause.record.Complains := by
  cases cause <;> simp [Record.Complains, Cause.record, fatalRecord, shutdownRecord]

/-- What a report says of the watches once the daemon has returned. -/
structure Tidy (report : Report) : Prop where
  left : ∀ left, report.left = some left → AllReturned left
  log : ∀ record ∈ report.log, ¬ record.Complains

/-! ## Serving -/

/-- A daemon that serves a source ends as the moments decide, and leaves the source tidy. -/
theorem serve_ends {a : Api} {running : Record} (accountable : Accountable source)
    (opened : source.sessions ≠ []) (quiet : ¬ running.Complains) (course : Course) :
    let report := serve a.transport course running source
    report.left.isSome = true ∧
    ((∃ cause, Decides a.transport source (course.waiting source) cause ∧
        report.ending = .exit cause.code ∧ Tidy report) ∨
      (∀ cause, ¬ Decides a.transport source (course.waiting source) cause) ∧
        report.ending = .waiting ∧
        report.left = some (served a.transport source (course.waiting source))) := by
  intro report
  obtain ⟨kept, sessions⟩ := Wait.run_accountable (w := Wait.start source) (a := a) accountable
    (course.waiting source)
  cases took : ((Wait.start source).run a.transport (course.waiting source)).taken with
  | none =>
    have none : ∀ cause, ¬ Decides a.transport source (course.waiting source) cause := by
      intro cause decides
      obtain ⟨seen, some⟩ := decides.taken
      rw [took] at some
      cases some
    have quiet := (quiet_or_decides a.transport source (course.waiting source)).resolve_right
      fun ⟨cause, decides⟩ => none cause decides
    simp only [report, serve, quiet.run]
    exact ⟨rfl, .inr ⟨none, trivial, trivial⟩⟩
  | some taken =>
    obtain ⟨cause, seen⟩ := taken
    obtain ⟨count, returned⟩ := kept.closeAmid a (sessions ▸ opened) course.toSchedule
    simp only [report, serve, took, count, closingRecords, if_true, List.append_nil]
    refine ⟨rfl, .inl ⟨cause, taken_iff.mp ⟨seen, took⟩, rfl, fun left same => ?_,
      fun record mem => ?_⟩⟩
    · exact Option.some.inj same ▸ returned
    · simp only [List.mem_append, List.mem_cons] at mem
      rcases mem with called | rfl | called | rfl | called
      · exact dispatchRecords_silent (List.mem_of_mem_take called)
      · exact quiet
      · exact dispatchRecords_silent (List.mem_of_mem_take (List.mem_of_mem_drop called))
      · exact cause.record_silent
      · exact dispatchRecords_silent (List.mem_of_mem_drop called)

end WatchDispatch.Daemon
