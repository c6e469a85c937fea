import WatchDispatch.Daemon
import WatchDispatch.Proofs.Controller.Names
import WatchDispatch.Proofs.Scope.Targets

/-!
# What the daemon prepares

The daemon takes the names of its controller and of the definition from the environment, and others
in their place where a variable is missing or blank. So no text that a variable may have keeps it
from making a configuration: the names are not blank, nothing was registered before, and the
controller that is looked up is the one that was registered.
-/

namespace WatchDispatch

open Cluster Dispatch

theorem Settings.visible?_eq_some_iff {s : Option String} {text : String} :
    Settings.visible? s = some text ↔ s = some text ∧ Text.allBlank text = false := by
  simp [Settings.visible?, Option.filter_eq_some_iff]

theorem Settings.visible?_eq_none_iff {s : Option String} :
    Settings.visible? s = none ↔ ∀ text, s = some text → Text.allBlank text = true := by
  simp [Settings.visible?, Option.filter_eq_none_iff]

/-- A resource's definition has a name if the resource has one. -/
theorem Cluster.ApiResource.crdName_visible {r : ApiResource}
    (visible : Text.allBlank r.plural = false) : Text.allBlank r.crdName = false := by
  unfold ApiResource.crdName
  split
  · exact visible
  · simp [toString, Text.allBlank_append, visible]

namespace Daemon

def completed (s : Settings) (gvkKey : String) (r : ApiResource) : Configuration where
  name := s.controller
  crdName := s.crdName.getD r.crdName
  gvkKey := gvkKey
  finalizer := defaultFinalizer (s.crdName.getD r.crdName)
  generationAware := s.generationAware
  target := s.target
  identity := identity s

/-- Names in these settings are not blank. -/
structure Named (s : Settings) : Prop where
  controller : Text.allBlank s.controller = false
  crdName : ∀ name, s.crdName = some name → Text.allBlank name = false

theorem named_ofEnvironment (env : String → Option String) :
    Named (Settings.ofEnvironment env) where
  controller := by
    unfold Settings.ofEnvironment
    cases set : Settings.visible? (env "WARDEN_CONTROLLER") with
    | none =>
      have standard : Text.allBlank Settings.initial.controller = false := by decide
      exact standard
    | some name => exact (Settings.visible?_eq_some_iff.mp set).2
  crdName := fun name set => (Settings.visible?_eq_some_iff.mp set).2

section Prepare

variable {s : Settings} (named : Named s) (gvkKey : String)

include named

theorem Named.controllerName_eq : (identity s).controllerName = s.controller :=
  ControllerIdentity.controllerName_of_named rfl (Text.ne_empty_of_visible named.controller)

/-- The controller and its definition have names, so the configuration is completed. -/
theorem Named.configuration_eq {r : ApiResource} (visible : Text.allBlank r.plural = false) :
    configuration s gvkKey r = .ok (completed s gvkKey r) := by
  have crdName : Text.allBlank (s.crdName.getD r.crdName) = false := by
    cases set : s.crdName with
    | none => exact r.crdName_visible visible
    | some name => exact named.crdName name set
  have controller : (identity s).controllerName ≠ "" := by
    rw [named.controllerName_eq]
    exact Text.ne_empty_of_visible named.controller
  have sound : ((ConfigurationDraft.start (identity s) (s.crdName.getD r.crdName) gvkKey).applyAll
      [.generationAware s.generationAware, .scope s.target]).Sound :=
    ⟨controller, crdName, fun _ set => nomatch set⟩
  rw [configuration, sound.complete_eq, completed, ← named.controllerName_eq]
  rfl

/-- The registry finds its only configuration for the controller of the settings. -/
theorem Named.getFor?_eq (r : ApiResource) :
    (Registry.empty.replace (completed s gvkKey r)).getFor? (identity s) =
    some (completed s gvkKey r) := by
  rw [Registry.getFor?, named.controllerName_eq, Registry.get?_replace]
  exact if_pos rfl

/-- Nothing was registered before, so registering succeeds, and the source finds its
configuration. -/
theorem Named.prepare_eq {found : Found} (visible : Text.allBlank found.1.plural = false)
    (server : Server) :
    prepare s gvkKey found server = .ok (Registry.empty.replace (completed s gvkKey found.1),
      Source.make (completed s gvkKey found.1) dispatcher (ApiState.start server)) := by
  simp only [prepare, named.configuration_eq gvkKey visible, Registry.register_empty,
    Source.forController, named.getFor?_eq gvkKey found.1]

end Prepare

/-- The text that a variable gives, and another one where it is missing or blank. -/
inductive Chosen (value : Option String) (standard : String) : String → Prop
  | given {text : String} (set : value = some text) (visible : Text.allBlank text = false) :
      Chosen value standard text
  | standard (unset : ∀ text, value = some text → Text.allBlank text = true) :
      Chosen value standard standard

theorem chosen_visible? (value : Option String) (standard : String) :
    Chosen value standard ((Settings.visible? value).getD standard) := by
  cases set : Settings.visible? value with
  | none => exact .standard (Settings.visible?_eq_none_iff.mp set)
  | some text =>
    obtain ⟨given, visible⟩ := Settings.visible?_eq_some_iff.mp set
    exact .given given visible

/-- Whatever the environment, a kind with a plural name gets a configuration; a registry without any
takes it, and a source for the same controller finds it again. It goes by the name of the settings,
its finalizer belongs to its definition, and there is a scope to watch. -/
theorem environment_starts_controller (env : String → Option String) (gvkKey : String)
    (found : Found) (server : Server) (plural : Text.allBlank found.1.plural = false) :
    let s := Settings.ofEnvironment env
    ∃ c r, configuration s gvkKey found.1 = .ok c ∧ Registry.empty.register c = .ok r ∧
      (∀ {τ : Type} (d : Dispatcher) (x : τ), ∃ source : Source τ,
        Source.forController r (identity s) d x = .ok source ∧ source.config = c) ∧
      (∃ source, prepare s gvkKey found server = .ok (r, source) ∧ source.config = c) ∧
      c.name = s.controller ∧ Chosen (env "WARDEN_CONTROLLER") "warden" c.name ∧
      Chosen (env "WARDEN_CRD_NAME") found.1.crdName c.crdName ∧
      c.finalizer = c.crdName ++ "/finalizer" ∧ c.generationAware = s.generationAware ∧
      c.target = s.target ∧ c.gvkKey = gvkKey ∧ c.identity = identity s ∧
      c.target.watchScopes ≠ [] := by
  intro s
  have named : Named s := named_ofEnvironment env
  have kept := named.getFor?_eq gvkKey found.1
  refine ⟨completed s gvkKey found.1, Registry.empty.replace (completed s gvkKey found.1),
    named.configuration_eq gvkKey plural, Registry.register_empty _, ?_,
    ⟨_, named.prepare_eq gvkKey plural server, rfl⟩, rfl, ?_, ?_, ?_, rfl, rfl, rfl, rfl,
    TargetScope.watchScopes_ne_nil _⟩
  · intro τ d x
    exact ⟨Source.make (completed s gvkKey found.1) d x,
      by simp only [Source.forController, kept], rfl⟩
  · exact chosen_visible? _ _
  · exact chosen_visible? _ _
  · simp [completed, defaultFinalizer, toString]

namespace Sample

/-- An environment that gives a name to the controller and none but blanks to its definition. -/
def odd (name : String) : Option String :=
  if name = "WARDEN_CONTROLLER" then some " x\u00a0"
  else if name = "WARDEN_CRD_NAME" then some "\u3000\t"
  else none

def found : Found := (.ofGvk ⟨"example.com", "v1", "Widget"⟩ "widgets", true)

end Sample

/-- The name with blanks at its ends is taken as it is, and the blank one is not. -/
theorem odd_environment_starts_controller : ∃ c r,
    configuration (Settings.ofEnvironment Sample.odd) "example.com/v1/Widget" Sample.found.1 =
    .ok c ∧
      Registry.empty.register c = .ok r ∧ c.name = " x\u00a0" ∧ c.crdName = "widgets.example.com" ∧
      c.finalizer = c.crdName ++ "/finalizer" := by
  obtain ⟨c, r, built, registered, -, -, -, controller, definition, finalizer, -⟩ :=
    environment_starts_controller Sample.odd "example.com/v1/Widget" Sample.found
      default (by decide)
  refine ⟨c, r, built, registered, ?_, ?_, finalizer⟩
  · generalize c.name = name at controller
    cases controller with
    | given set _ => exact (Option.some.inj set).symm
    | standard unset => exact absurd (unset _ rfl) (by decide)
  · generalize c.crdName = name at definition
    cases definition with
    | given set visible =>
      obtain rfl := Option.some.inj set
      exact absurd visible (by decide)
    | standard _ => decide

end Daemon

end WatchDispatch
