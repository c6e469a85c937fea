import WatchDispatch.Table

/-!
The namespaces that one watch covers, and handles of running watches.
-/

namespace WatchDispatch

/-- Which namespaces one watch covers. -/
inductive Scope where
  | allNamespaces
  /-- The namespace that the client uses when none is named. -/
  | defaultNamespace
  | named (ns : String)
deriving DecidableEq, Repr, Inhabited

namespace Scope

def label : Scope → String
  | allNamespaces => "(all)"
  | defaultNamespace => "(default)"
  | named ns => ns

/-- All namespaces come first, then the default one, then the named ones by name. -/
def before : Scope → Scope → Bool
  | allNamespaces, defaultNamespace => true
  | allNamespaces, named _ => true
  | defaultNamespace, named _ => true
  | named a, named b => decide (a < b)
  | _, _ => false

/-- Scopes in order. -/
def sort (scopes : List Scope) : List Scope := scopes.mergeSort (fun a b => !before b a)

end Scope

structure Handle where
  id : Nat
  scope : Scope
deriving DecidableEq, Repr, Inhabited

def Handle.label (h : Handle) : String := s!"watch#{h.id}[{h.scope.label}]"

end WatchDispatch
