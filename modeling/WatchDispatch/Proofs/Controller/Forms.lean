import WatchDispatch.Controller.Form
import WatchDispatch.Proofs.Resource.Forms
import WatchDispatch.Proofs.Scope.Targets
import WatchDispatch.Settings.Form

/-!
# Forms of scopes, settings and controllers

A set of names is written by increasing name and read from a list in any order, with or without
repetitions. Together with the forms of resources and events this gives the round trip for
everything that is written as JSON.
-/

namespace WatchDispatch

open Json

/-! ## Scopes -/

theorem Scope.ofJson?_toJson (scope : Scope) : ofJson? scope.toJson = some scope := by
  cases scope <;> rfl

theorem TargetScope.ofJson?_toJson (target : TargetScope) :
    ofJson? target.toJson = some target := by
  cases target with
  | all => rfl
  | defaultNamespace => rfl
  | names set =>
    simp [ofJson?, toJson, choice?, list?_texts, NameSet.ofList_toList]

/-! ## Settings and controllers -/

theorem Settings.ofJson?_toJson (s : Settings) : ofJson? s.toJson = some s := by
  -- The kernel must not unfold the bound of 32-bit numbers, so every step comes with its proof.
  simp -implicitDefEqProofs [ofJson?, toJson, fields?_ofMembers, required?, absentOr?,
    Assoc.get?_ofList, Assoc.get?, nat32?_integer, optional?_text, TargetScope.ofJson?_toJson]

theorem ControllerIdentity.ofJson?_toJson (c : ControllerIdentity) : ofJson? c.toJson = some c := by
  simp [ofJson?, toJson, fields?_ofMembers, required?, absentOr?, Assoc.get?_ofList, Assoc.get?,
    optional?_text]

theorem Configuration.ofJson?_toJson (c : Configuration) : ofJson? c.toJson = some c := by
  simp [ofJson?, toJson, fields?_ofMembers, required?, Assoc.get?_ofList, Assoc.get?,
    TargetScope.ofJson?_toJson, ControllerIdentity.ofJson?_toJson]

/-- Everything with a form is read as what was written, and every reading settles: the value that
was read is written in one canonical way, which is read as the same value and written as it is. Only
instants are limited, to a range of years that holds more than the years 0 to 9999 and all that can
be read. -/
theorem forms_round_trip :
    RoundTrips ResourceIdentity.toJson ResourceIdentity.ofJson? (fun _ => True) ∧
    RoundTrips Snapshot.toJson Snapshot.ofJson? Snapshot.Dated ∧
    RoundTrips Action.toJson Action.ofJson? (fun _ => True) ∧
    RoundTrips Event.toJson Event.ofJson? (fun e => e.snapshot.Dated) ∧
    RoundTrips Scope.toJson Scope.ofJson? (fun _ => True) ∧
    RoundTrips TargetScope.toJson TargetScope.ofJson? (fun _ => True) ∧
    RoundTrips Settings.toJson Settings.ofJson? (fun _ => True) ∧
    RoundTrips ControllerIdentity.toJson ControllerIdentity.ofJson? (fun _ => True) ∧
    RoundTrips Configuration.toJson Configuration.ofJson? (fun _ => True) := by
  refine ⟨?identity, ?snapshot, ?action, ?event, ?scope, ?target, ?settings, ?controller,
    ?configuration⟩
  case identity => exact .of_restores (fun r _ => r.ofJson?_toJson) (fun _ _ _ => trivial)
  case snapshot =>
    exact .of_restores (fun _ dated => Snapshot.ofJson?_toJson dated)
      (fun _ _ => Snapshot.dated_of_ofJson?)
  case action => exact .of_restores (fun a _ => a.ofJson?_toJson) (fun _ _ _ => trivial)
  case event =>
    exact .of_restores (fun _ dated => Event.ofJson?_toJson dated)
      (fun _ _ => Event.dated_of_ofJson?)
  case scope => exact .of_restores (fun s _ => s.ofJson?_toJson) (fun _ _ _ => trivial)
  case target => exact .of_restores (fun t _ => t.ofJson?_toJson) (fun _ _ _ => trivial)
  case settings => exact .of_restores (fun s _ => s.ofJson?_toJson) (fun _ _ _ => trivial)
  case controller => exact .of_restores (fun c _ => c.ofJson?_toJson) (fun _ _ _ => trivial)
  case configuration => exact .of_restores (fun c _ => c.ofJson?_toJson) (fun _ _ _ => trivial)

/-- Names that repeat and do not increase are written once each and in order. -/
example :
    (TargetScope.ofJson? (.object [("Namespaces", .array [.text "b", .text "a", .text "b"])])).map
    TargetScope.toJson = some (.object [("Namespaces", .array [.text "a", .text "b"])]) := by rfl

end WatchDispatch
