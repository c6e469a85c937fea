import WatchDispatch.Controller.Registry
import WatchDispatch.Proofs.Controller.Drafts

/-!
# Histories of a registry

A history lists the installs that a registry was asked for, latest first. What the registry answers
can be read off the history: a controller has the configuration of the latest install that succeeded
under its name. A look-up derives the name from a controller of its own, which may differ from the
one that was installed in everything but the name; so it matters that every configuration goes by
the name of its own controller.
-/

namespace WatchDispatch

theorem ConfigurationDraft.name_of_complete {d : ConfigurationDraft} {c : Configuration}
    (completed : d.complete = .ok c) : c.name = c.identity.controllerName ∧ c.name ≠ "" := by
  obtain ⟨sound, rfl⟩ := complete_eq_ok_iff.mp completed
  exact ⟨rfl, sound.name⟩

/-- Some draft with some settings was completed to this configuration. -/
def Configuration.Drafted (c : Configuration) : Prop :=
  ∃ identity crdName gvkKey settings,
    ((ConfigurationDraft.start identity crdName gvkKey).applyAll settings).complete = .ok c

theorem Configuration.Drafted.name_eq {c : Configuration} (drafted : c.Drafted) :
    c.name = c.identity.controllerName ∧ c.name ≠ "" := by
  obtain ⟨identity, crdName, gvkKey, settings, completed⟩ := drafted
  exact ConfigurationDraft.name_of_complete completed

inductive Install where
  | register (c : Configuration)
  | replace (c : Configuration)

def Install.configuration : Install → Configuration
  | .register c => c
  | .replace c => c

namespace Registry

def install (r : Registry) : Install → Except NameCollision Registry
  | .register c => r.register c
  | .replace c => .ok (r.replace c)

/-- The registry after a history. An install that is refused leaves it as it was. -/
def after : List Install → Registry
  | [] => empty
  | i :: earlier =>
    match (after earlier).install i with
    | .ok next => next
    | .error _ => after earlier

/-- The configuration of the latest install that succeeded and whose own controller goes by this
name. -/
def lastInstalled (name : String) : List Install → Option Configuration
  | [] => none
  | i :: earlier =>
    if i.configuration.identity.controllerName = name ∧ ((after earlier).install i).isOk = true then
      some i.configuration
    else lastInstalled name earlier

/-! ## One install -/

theorem register_of_taken {r : Registry} {c taken : Configuration}
    (there : r.get? c.name = some taken) :
    r.register c = .error ⟨taken.name, taken.identity.typeName, c.identity.typeName⟩ := by
  simp [register, there]

theorem register_of_free {r : Registry} {c : Configuration} (free : r.get? c.name = none) :
    r.register c = .ok (r.replace c) := by
  simp [register, free]

/-- A registry without configurations takes any. -/
theorem register_empty (c : Configuration) : empty.register c = .ok (empty.replace c) :=
  register_of_free rfl

/-- An install that succeeds puts the configuration under its name, whichever install it is. -/
theorem install_cases (r : Registry) (i : Install) :
    r.install i = .ok (r.replace i.configuration) ∨
    ∃ collision, r.install i = .error collision := by
  cases i with
  | replace c => exact .inl rfl
  | register c =>
    cases there : r.get? c.name with
    | none => exact .inl (register_of_free there)
    | some taken => exact .inr ⟨_, register_of_taken there⟩

theorem after_cons (i : Install) (earlier : List Install) :
    after (i :: earlier) =
      if ((after earlier).install i).isOk = true then (after earlier).replace i.configuration
      else after earlier := by
  rcases (after earlier).install_cases i with ok | ⟨collision, error⟩
  · simp [after, ok, Except.isOk, Except.toBool]
  · simp [after, error, Except.isOk, Except.toBool]

theorem after_of_refused {c : Configuration} {history : List Install} {collision : NameCollision}
    (refused : (after history).register c = .error collision) :
    after (.register c :: history) = after history := by
  simp [after, install, refused]

/-! ## Whole histories -/

/-- Every configuration is stored under its own name, which is not empty. -/
def Filed (r : Registry) : Prop := ∀ name c, r.get? name = some c → c.name = name ∧ name ≠ ""

variable {history : List Install}

theorem filed_after (drafted : ∀ i ∈ history, i.configuration.Drafted) : (after history).Filed := by
  induction history with
  | nil =>
    intro name c there
    cases there
  | cons i earlier ih =>
    have before := ih fun other mem => drafted other (List.mem_cons_of_mem _ mem)
    rw [after_cons]
    split
    · intro name c there
      rw [get?_replace] at there
      split at there
      next same =>
        cases there
        subst same
        exact ⟨rfl, (drafted i List.mem_cons_self).name_eq.2⟩
      next => exact before name c there
    · exact before

theorem get?_after (drafted : ∀ i ∈ history, i.configuration.Drafted) (name : String) :
    (after history).get? name = lastInstalled name history := by
  induction history with
  | nil => rfl
  | cons i earlier ih =>
    have before := ih fun other mem => drafted other (List.mem_cons_of_mem _ mem)
    -- The name of the entry was fixed by the draft, the history asks for the name of the
    -- controller.
    have own := (drafted i List.mem_cons_self).name_eq.1
    rw [after_cons, lastInstalled]
    by_cases ok : ((after earlier).install i).isOk = true
    · rw [if_pos ok, get?_replace, before, own]
      by_cases same : name = i.configuration.identity.controllerName
      · rw [if_pos same, if_pos ⟨same.symm, ok⟩]
      · rw [if_neg same, if_neg fun both => same both.1.symm]
    · rw [if_neg ok, if_neg fun both => ok both.2, before]

namespace Filed

variable {r : Registry} (filed : r.Filed)

include filed

theorem names_eq : r.configurations.map Configuration.name = r.names :=
  Table.map_values_eq_keys fun name c there => (filed name c there).1

theorem mem_configurations_iff (c : Configuration) :
    c ∈ r.configurations ↔ r.get? c.name = some c :=
  Table.mem_values_iff (fun name c there => (filed name c there).1) c

theorem increasing : r.configurations.Pairwise (fun a b => a.name < b.name) := by
  have names : (r.configurations.map Configuration.name).Pairwise (· < ·) := by
    rw [filed.names_eq]
    exact r.keys_increasing
  exact List.pairwise_map.mp names

theorem register_isOk_iff (c : Configuration) :
    (r.register c).isOk = true ↔ ∀ taken ∈ r.configurations, taken.name ≠ c.name := by
  cases there : r.get? c.name with
  | none =>
    rw [register_of_free there]
    simp only [Except.isOk, Except.toBool, true_iff]
    intro taken mem same
    rw [filed.mem_configurations_iff, same, there] at mem
    cases mem
  | some taken =>
    rw [register_of_taken there]
    have own := (filed c.name taken there).1
    simp only [Except.isOk, Except.toBool, Bool.false_eq_true, false_iff]
    intro free
    exact free taken ((filed.mem_configurations_iff taken).mpr (own.symm ▸ there)) own

theorem register_error {c : Configuration} {collision : NameCollision}
    (refused : r.register c = .error collision) :
    ∃ taken ∈ r.configurations, taken.name = c.name ∧
      collision = ⟨c.name, taken.identity.typeName, c.identity.typeName⟩ := by
  cases there : r.get? c.name with
  | none =>
    rw [register_of_free there] at refused
    cases refused
  | some taken =>
    rw [register_of_taken there] at refused
    have own := (filed c.name taken there).1
    refine ⟨taken, (filed.mem_configurations_iff taken).mpr (own.symm ▸ there), own, ?_⟩
    rw [← own]
    exact (Except.error.inj refused).symm

end Filed

/-- A registry answers what its history says. A controller has the configuration of the latest
install that succeeded under its name. A name can be registered as long as nobody has it; a
registration that is refused names both controllers and leaves the registry as it was. Each
configuration is stored under its own name, which is not empty, and the configurations are listed by
increasing name, once for each known name. -/
theorem registry_follows_history (history : List Install)
    (drafted : ∀ i ∈ history, i.configuration.Drafted) :
    let r := after history
    (∀ controller : ControllerIdentity,
      r.getFor? controller = lastInstalled controller.controllerName history) ∧
    (∀ c, (r.register c).isOk = true ↔ ∀ taken ∈ r.configurations, taken.name ≠ c.name) ∧
    (∀ c collision, r.register c = .error collision → after (.register c :: history) = r ∧
      ∃ taken ∈ r.configurations, taken.name = c.name ∧
        collision = ⟨c.name, taken.identity.typeName, c.identity.typeName⟩) ∧
    (∀ name c, r.get? name = some c → c.name = name ∧ name ≠ "") ∧
    (∀ c, c ∈ r.configurations ↔ r.get? c.name = some c) ∧
    r.configurations.Pairwise (fun a b => a.name < b.name) ∧
    r.configurations.map Configuration.name = r.names := by
  intro r
  have filed : r.Filed := filed_after drafted
  refine ⟨fun controller => get?_after drafted controller.controllerName,
    filed.register_isOk_iff, ?_, filed,
    filed.mem_configurations_iff, filed.increasing, filed.names_eq⟩
  intro c collision refused
  exact ⟨after_of_refused refused, filed.register_error refused⟩

namespace Sample

/-- A controller for all namespaces, with a name of its own or without one. -/
def configuration (typeName : String) (name : Option String) : Configuration where
  name := (ControllerIdentity.mk typeName name).controllerName
  crdName := "widgets.example.com"
  gvkKey := "example.com/v1/Widget"
  finalizer := defaultFinalizer "widgets.example.com"
  generationAware := true
  target := .all
  identity := ⟨typeName, name⟩

/-- A name is registered, replaced by that of another type, and refused to a third; latest install
first. -/
def installs : List Install :=
  [.register (configuration "b::GADGET" none), .replace (configuration "c::Other" (some "gadget")),
    .register (configuration "a::Gadget<b::T>" none)]

theorem drafted_of_mem {i : Install} (mem : i ∈ installs) : i.configuration.Drafted := by
  simp only [installs, List.mem_cons, List.not_mem_nil, or_false] at mem
  rcases mem with rfl | rfl | rfl
  · exact ⟨⟨"b::GADGET", none⟩, "widgets.example.com", "example.com/v1/Widget", [], rfl⟩
  · exact ⟨⟨"c::Other", some "gadget"⟩, "widgets.example.com", "example.com/v1/Widget", [], rfl⟩
  · exact ⟨⟨"a::Gadget<b::T>", none⟩, "widgets.example.com", "example.com/v1/Widget", [], rfl⟩

end Sample

/-- The refused install left no trace, and a controller that was never installed finds the
replacement. -/
theorem registry_follows_history_after_refusal :
    let r := after Sample.installs
    (∀ i ∈ Sample.installs, i.configuration.Drafted) ∧
      r.getFor? ⟨"d::Gadget", none⟩ = lastInstalled "gadget" Sample.installs ∧
      lastInstalled "gadget" Sample.installs =
      some (Sample.configuration "c::Other" (some "gadget")) ∧
      r.configurations.map Configuration.name = r.names ∧ r.names = ["gadget"] := by
  intro r
  obtain ⟨found, -, -, -, -, -, names⟩ :=
    registry_follows_history Sample.installs fun i mem => Sample.drafted_of_mem mem
  exact ⟨fun i mem => Sample.drafted_of_mem mem, found ⟨"d::Gadget", none⟩, rfl, names, by decide⟩

end Registry

end WatchDispatch
