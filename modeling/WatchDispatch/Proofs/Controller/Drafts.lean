import Mathlib.Data.List.Induction
import WatchDispatch.Controller.Configuration

/-!
# What settings make of a draft

Settings may come in any order and any number. Of those that decide one part of a draft the last one
counts, so what is built depends on at most three of them, and settings of different parts may
change places. A draft is refused for a missing name, a blank name of the definition or a blank
finalizer, and for nothing else; the finalizer that stands for a missing one is never blank.
-/

namespace WatchDispatch

namespace Setting

inductive Part where
  | finalizer
  | generationAware
  | target

def part : Setting → Part
  | finalizer _ => .finalizer
  | generationAware _ => .generationAware
  | scope _ => .target
  | namespaces _ => .target

def finalizer? : Setting → Option String
  | finalizer name => some name
  | _ => none

def generationAware? : Setting → Option Bool
  | generationAware on => some on
  | _ => none

/-- The target that a setting gives; a list of names stands for one. -/
def target? : Setting → Option TargetScope
  | scope target => some target
  | namespaces names => some (TargetScope.ofNames names)
  | _ => none

/-- What the last of some settings says of a part, if any of them says something. -/
def last? {α : Type} (said? : Setting → Option α) (settings : List Setting) : Option α :=
  (settings.filterMap said?).getLast?

theorem last?_concat {α : Type} (said? : Setting → Option α) (settings : List Setting)
    (s : Setting) : last? said? (settings ++ [s]) = (said? s).or (last? said? settings) := by
  cases said : said? s <;> simp [last?, said]

end Setting

namespace ConfigurationDraft

open Setting

/-! ## Applying settings -/

theorem applyAll_append (d : ConfigurationDraft) (settings later : List Setting) :
    d.applyAll (settings ++ later) = (d.applyAll settings).applyAll later :=
  List.foldl_append

/-- Each part of a draft is what the last setting of it says, and what it was if there is none. -/
theorem applyAll_eq (d : ConfigurationDraft) (settings : List Setting) : d.applyAll settings =
    { d with
      finalizer := (last? finalizer? settings).or d.finalizer
      generationAware := (last? generationAware? settings).getD d.generationAware
      target := (last? target? settings).getD d.target } := by
  induction settings using List.reverseRecOn with
  | nil => rfl
  | append_singleton settings s ih =>
    rw [applyAll_append, ih]
    cases s <;> simp [applyAll, apply, last?_concat, finalizer?, generationAware?, target?]

/-- Settings of different parts may change places. -/
theorem apply_comm (d : ConfigurationDraft) {a b : Setting} (other : a.part ≠ b.part) :
    (d.apply a).apply b = (d.apply b).apply a := by
  cases a <;> cases b <;> simp_all [apply, part]

theorem applyAll_swap (d : ConfigurationDraft) {a b : Setting} (other : a.part ≠ b.part)
    (before after : List Setting) :
    d.applyAll (before ++ a :: b :: after) = d.applyAll (before ++ b :: a :: after) := by
  rw [applyAll_append, applyAll_append]
  exact congrArg (applyAll · after) (apply_comm _ other)

/-! ## Completing a draft -/

/-- What a draft needs to become a configuration. -/
structure Sound (d : ConfigurationDraft) : Prop where
  name : d.identity.controllerName ≠ ""
  crdName : Text.allBlank d.crdName = false
  finalizer : ∀ name, d.finalizer = some name → Text.allBlank name = false

theorem defaultFinalizer_visible (crdName : String) :
    Text.allBlank (defaultFinalizer crdName) = false := by
  have slash : Text.allBlank "/finalizer" = false := by decide
  simp [defaultFinalizer, toString, Text.allBlank_append, slash]

theorem finalizerName_visible_iff {d : ConfigurationDraft} : Text.allBlank d.finalizerName = false ↔
    ∀ name, d.finalizer = some name → Text.allBlank name = false := by
  cases set : d.finalizer with
  | none => simp [finalizerName, set, defaultFinalizer_visible]
  | some name => simp [finalizerName, set]

def completed (d : ConfigurationDraft) : Configuration :=
  ⟨d.identity.controllerName, d.crdName, d.gvkKey, d.finalizerName, d.generationAware,
    d.target, d.identity⟩

theorem Sound.complete_eq {d : ConfigurationDraft} (sound : d.Sound) :
    d.complete = .ok d.completed := by
  simp [complete, sound.name, sound.crdName,
    finalizerName_visible_iff.mpr sound.finalizer, completed]

theorem exists_error_of_not_sound {d : ConfigurationDraft} (unsound : ¬ d.Sound) :
    ∃ e, d.complete = .error e := by
  unfold complete
  dsimp only
  split
  · exact ⟨_, rfl⟩
  next named =>
    split
    · exact ⟨_, rfl⟩
    next defined =>
      split
      · exact ⟨_, rfl⟩
      next finalized =>
        exact absurd ⟨named,
          by simpa using defined, finalizerName_visible_iff.mp (by simpa using finalized)⟩ unsound

theorem exists_error_iff {d : ConfigurationDraft} : (∃ e, d.complete = .error e) ↔ ¬ d.Sound := by
  constructor
  · rintro ⟨e, refused⟩ sound
    rw [sound.complete_eq] at refused
    cases refused
  · exact exists_error_of_not_sound

theorem complete_eq_ok_iff {d : ConfigurationDraft} {c : Configuration} :
    d.complete = .ok c ↔ d.Sound ∧ c = d.completed := by
  constructor
  · intro built
    have sound : d.Sound := by
      by_contra unsound
      obtain ⟨e, refused⟩ := exists_error_of_not_sound unsound
      rw [refused] at built
      cases built
    rw [sound.complete_eq] at built
    exact ⟨sound, (Except.ok.inj built).symm⟩
  · rintro ⟨sound, rfl⟩
    exact sound.complete_eq

/-- Of the settings only the last finalizer can keep a draft from becoming a configuration. -/
theorem sound_applyAll_start_iff {identity : ControllerIdentity} {crdName gvkKey : String}
    {settings : List Setting} : ((start identity crdName gvkKey).applyAll settings).Sound ↔
      identity.controllerName ≠ "" ∧ Text.allBlank crdName = false ∧
        ∀ name, last? finalizer? settings = some name → Text.allBlank name = false := by
  rw [applyAll_eq]
  constructor
  · rintro ⟨named, defined, finalized⟩
    exact ⟨named, defined, by simpa [start] using finalized⟩
  · rintro ⟨named, defined, finalized⟩
    exact ⟨named, defined, by simpa [start] using finalized⟩

theorem finalizerName_applyAll_start (identity : ControllerIdentity) (crdName gvkKey : String)
    (settings : List Setting) : ((start identity crdName gvkKey).applyAll settings).finalizerName =
      (last? finalizer? settings).getD (crdName ++ "/finalizer") := by
  simp [applyAll_eq, finalizerName, start, defaultFinalizer, toString]

/-- What is built depends on the last setting of each part alone, so settings of different parts may
change places. A draft is refused exactly if the controller has no name, the name of its definition
is blank, or finalizers were set and the last one is blank. A configuration that is built has the
name of its controller and a finalizer that is not blank, the last one that was set or else the one
of the definition, and what the draft was started with. -/
theorem last_settings_decide (identity : ControllerIdentity) (crdName gvkKey : String) :
    let build := fun settings => ((start identity crdName gvkKey).applyAll settings).complete
    (∀ settings others : List Setting, last? finalizer? settings = last? finalizer? others →
      last? generationAware? settings = last? generationAware? others →
      last? target? settings = last? target? others → build settings = build others) ∧
    (∀ (before after : List Setting) (a b : Setting), a.part ≠ b.part →
      build (before ++ a :: b :: after) = build (before ++ b :: a :: after)) ∧
    (∀ settings : List Setting, (∃ e, build settings = .error e) ↔
      identity.controllerName = "" ∨ Text.allBlank crdName = true ∨
        ∃ name, last? finalizer? settings = some name ∧ Text.allBlank name = true) ∧
    ∀ (settings : List Setting) (c : Configuration), build settings = .ok c →
      c.name = identity.controllerName ∧ Text.allBlank c.finalizer = false ∧
      c.finalizer = (last? finalizer? settings).getD (crdName ++ "/finalizer") ∧
      c.generationAware = (last? generationAware? settings).getD true ∧
      c.target = (last? target? settings).getD .all ∧
      c.crdName = crdName ∧ c.gvkKey = gvkKey ∧ c.identity = identity := by
  intro build
  refine ⟨?_, ?_, ?_, ?_⟩
  · intro settings others finalizer aware target
    simp only [build, applyAll_eq, finalizer, aware, target]
  · intro before after a b other
    simp only [build, applyAll_swap _ other]
  · intro settings
    rw [exists_error_iff, sound_applyAll_start_iff]
    simp only [not_and_or, not_forall, Bool.not_eq_false, ne_eq, not_not, exists_prop]
  · intro settings c built
    obtain ⟨sound, rfl⟩ := complete_eq_ok_iff.mp built
    have finalizer := finalizerName_visible_iff.mpr sound.finalizer
    have given := finalizerName_applyAll_start identity crdName gvkKey settings
    rw [applyAll_eq] at finalizer given ⊢
    exact ⟨rfl, finalizer, given, rfl, rfl, rfl, rfl, rfl⟩

namespace Sample

def controller : ControllerIdentity := ⟨"a::Gadget<b::T>", none⟩

/-- Two finalizers, of which the first is blank, and two targets. -/
def settings : List Setting :=
  [.finalizer " ", .namespaces ["b", "a"], .generationAware false, .finalizer "f", .scope .all]

def lasts : List Setting := [.scope .all, .finalizer "f", .generationAware false]

end Sample

/-- The blank finalizer and the names that were overridden leave no trace. -/
theorem last_settings_decide_after_overriding :
    let build := fun settings =>
      ((start Sample.controller "gadgets.example.com" "example.com/v1/Gadget").applyAll
        settings).complete
    build Sample.settings = build Sample.lasts ∧ ∃ c, build Sample.settings = .ok c ∧
      c.name = Sample.controller.controllerName ∧ c.finalizer = "f" ∧ c.generationAware = false ∧
      c.target = .all := by
  intro build
  obtain ⟨depends, -, refused, built⟩ :=
    last_settings_decide Sample.controller "gadgets.example.com" "example.com/v1/Gadget"
  refine ⟨depends _ _ rfl rfl rfl, ?_⟩
  cases outcome : build Sample.settings with
  | error e =>
    rcases (refused _).mp ⟨e, outcome⟩ with unnamed | undefined | ⟨name, last, blank⟩
    · exact absurd unnamed (by decide)
    · exact absurd undefined (by decide)
    · obtain rfl : "f" = name := Option.some.inj last
      exact absurd blank (by decide)
  | ok c =>
    obtain ⟨name, -, finalizer, aware, target, -⟩ := built _ c outcome
    exact ⟨c, rfl, name, finalizer, aware, target⟩

end ConfigurationDraft

end WatchDispatch
