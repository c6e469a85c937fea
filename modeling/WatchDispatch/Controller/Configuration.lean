import WatchDispatch.Controller.Identity
import WatchDispatch.Scope.Target

/-!
Controller configurations.

A configuration says which resources a controller watches and which of their changes it is to see.
It is made from a draft: defaults, changed by any number of settings of which the last one of a kind
counts, and checked when it is completed.
-/

namespace WatchDispatch

/-- What a controller watches and which changes it sees. -/
structure Configuration where
  name : String
  crdName : String
  /-- The watched kind as `version/Kind` or `group/version/Kind`. -/
  gvkKey : String
  finalizer : String
  /-- Whether changes that leave the generation as it was are passed over. -/
  generationAware : Bool
  target : TargetScope
  identity : ControllerIdentity
deriving Inhabited

inductive ConfigurationError where
  | emptyName (typeName : String)
  | emptyCrdName (controller : String)
  | emptyFinalizer (controller : String)
deriving DecidableEq, Repr, Inhabited

def ConfigurationError.message : ConfigurationError → String
  | emptyName typeName =>
    s!"invalid controller configuration: controller {typeName} has an empty name"
  | emptyCrdName controller =>
    s!"invalid controller configuration: controller '{controller}' has an empty CRD name"
  | emptyFinalizer controller =>
    s!"invalid controller configuration: controller '{controller}' has an empty finalizer name"

def defaultFinalizer (crdName : String) : String := s!"{crdName}/finalizer"

/-- One setting of a draft. -/
inductive Setting where
  | finalizer (name : String)
  | generationAware (on : Bool)
  | scope (target : TargetScope)
  /-- The target that a list of namespace names stands for. -/
  | namespaces (names : List String)

structure ConfigurationDraft where
  identity : ControllerIdentity
  crdName : String
  gvkKey : String
  finalizer : Option String
  generationAware : Bool
  target : TargetScope

namespace ConfigurationDraft

/-- The draft before any setting: aware of generations, for all namespaces. -/
def start (identity : ControllerIdentity) (crdName gvkKey : String) : ConfigurationDraft :=
  ⟨identity, crdName, gvkKey, none, true, .all⟩

def apply (d : ConfigurationDraft) : Setting → ConfigurationDraft
  | .finalizer name => { d with finalizer := some name }
  | .generationAware on => { d with generationAware := on }
  | .scope target => { d with target }
  | .namespaces names => { d with target := TargetScope.ofNames names }

def applyAll (d : ConfigurationDraft) (settings : List Setting) : ConfigurationDraft :=
  settings.foldl apply d

/-- The finalizer that the configuration gets. -/
def finalizerName (d : ConfigurationDraft) : String := d.finalizer.getD (defaultFinalizer d.crdName)

/-- Completes a draft: the name must not be empty, CRD name and finalizer must not be blank, checked
in this order. -/
def complete (d : ConfigurationDraft) : Except ConfigurationError Configuration :=
  let name := d.identity.controllerName
  if name = "" then .error (.emptyName d.identity.typeName)
  else if Text.allBlank d.crdName then .error (.emptyCrdName name)
  else if Text.allBlank d.finalizerName then .error (.emptyFinalizer name)
  else .ok ⟨name, d.crdName, d.gvkKey, d.finalizerName, d.generationAware, d.target, d.identity⟩

end ConfigurationDraft

end WatchDispatch
