import Mathlib.Data.List.TakeWhile
import WatchDispatch.Proofs.Controller.Installs

/-!
# Names derived from type paths

A type path has segments with two colons between them, and type arguments may stand behind it. Both
are cut off from the ends of a text that need not be a path at all: what is left is the end of the
text behind its last separator, which holds neither a separator nor a bracket. Controllers meet in a
registry exactly if their names are the same.
-/

namespace WatchDispatch.ControllerIdentity

/-- The separator of segments stands nowhere in a text. -/
def Single (cs : List Char) : Prop := ¬ [':', ':'] <:+: cs

theorem single_cons_iff {c : Char} {cs : List Char} :
    Single (c :: cs) ↔ ¬ (c = ':' ∧ cs.head? = some ':') ∧ Single cs := by
  have start : [':'] <+: cs ↔ cs.head? = some ':' := by
    cases cs with
    | nil => simp
    | cons d rest => simp [List.cons_prefix_cons, eq_comm]
  simp only [Single, List.infix_cons_iff, List.cons_prefix_cons, start, not_or, eq_comm]

/-! ## The last segment -/

theorem lastSegment_separator (found cs : List Char) :
    lastSegment found (':' :: ':' :: cs) = lastSegment cs (':' :: cs) := by
  rw [lastSegment]

theorem lastSegment_skip {c : Char} {cs : List Char} (skip : ¬ (c = ':' ∧ cs.head? = some ':'))
    (found : List Char) : lastSegment found (c :: cs) = lastSegment found cs := by
  rw [lastSegment.eq_def]
  split
  · contradiction
  next rest shape =>
    obtain ⟨rfl, rfl⟩ := List.cons.inj shape
    split
    · exact absurd ⟨rfl, rfl⟩ skip
    · rfl
  next shape =>
    obtain ⟨rfl, rfl⟩ := List.cons.inj shape
    rfl

/-- Without a separator in the text, what was found before stays; else the text ends with what is
found now, behind its last separator. -/
theorem lastSegment_cases (found cs : List Char) :
    lastSegment found cs = found ∧ Single cs ∨
      ∃ before, cs = before ++ ':' :: ':' :: lastSegment found cs ∧
      Single (':' :: lastSegment found cs) := by
  induction cs generalizing found with
  | nil => exact .inl ⟨by rw [lastSegment], by simp [Single]⟩
  | cons c cs ih =>
    by_cases separator : c = ':' ∧ cs.head? = some ':'
    · obtain ⟨rfl, colon⟩ := separator
      obtain ⟨rest, rfl⟩ := List.head?_eq_some_iff.mp colon
      -- The second colon is looked at again: of three in a row the last two are the separator.
      rw [lastSegment_separator]
      rcases ih rest with ⟨last, single⟩ | ⟨before, parts, single⟩
      · exact .inr ⟨[], by rw [last, List.nil_append], last.symm ▸ single⟩
      · exact .inr ⟨':' :: before, by rw [List.cons_append, ← parts], single⟩
    · rw [lastSegment_skip separator]
      rcases ih found with ⟨last, single⟩ | ⟨before, parts, single⟩
      · exact .inl ⟨last, single_cons_iff.mpr ⟨separator, single⟩⟩
      · exact .inr ⟨c :: before, by rw [List.cons_append, ← parts], single⟩

theorem lastSegment_of_single {cs : List Char} (single : Single cs) (found : List Char) :
    lastSegment found cs = found := by
  rcases lastSegment_cases found cs with ⟨last, -⟩ | ⟨before, parts, -⟩
  · exact last
  · exact absurd ⟨before, lastSegment found cs, by simpa using parts.symm⟩ single

theorem single_of_not_mem {cs : List Char} (plain : ':' ∉ cs) : Single cs :=
  fun inside => plain (inside.subset (by simp))

/-- A segment behind a separator is the last one, whatever stands before. -/
theorem lastSegment_append {segment : List Char} (plain : ':' ∉ segment)
    (before found : List Char) : lastSegment found (before ++ ':' :: ':' :: segment) = segment := by
  induction before generalizing found with
  | nil =>
    have alone : Single (':' :: segment) :=
      single_cons_iff.mpr ⟨fun colons => plain (List.mem_of_mem_head? colons.2),
        single_of_not_mem plain⟩
    rw [List.nil_append, lastSegment_separator, lastSegment_of_single alone]
  | cons c before ih =>
    by_cases separator : c = ':' ∧ (before ++ ':' :: ':' :: segment).head? = some ':'
    · obtain ⟨rfl, colon⟩ := separator
      obtain ⟨rest, shape⟩ := List.head?_eq_some_iff.mp colon
      rw [List.cons_append, shape, lastSegment_separator, ← shape, ih]
    · rw [List.cons_append, lastSegment_skip separator, ih]

/-! ## Derived names -/

theorem toList_derivedName (typeName : String) :
    (derivedName typeName).toList = (lastSegment (typeName.toList.takeWhile (· ≠ '<'))
      (typeName.toList.takeWhile (· ≠ '<'))).map Char.toLower := by
  simp [derivedName, Text.lowerAscii]

theorem single_lastSegment (cs : List Char) : Single (lastSegment cs cs) := by
  rcases lastSegment_cases cs cs with ⟨last, single⟩ | ⟨-, -, single⟩
  · rwa [last]
  · exact (single_cons_iff.mp single).2

theorem lastSegment_subset (cs : List Char) : lastSegment cs cs ⊆ cs := by
  rcases lastSegment_cases cs cs with ⟨last, -⟩ | ⟨before, parts, -⟩
  · rw [last]
    exact List.Subset.refl cs
  · intro c mem
    rw [parts]
    simp [mem]

theorem single_map_iff {cs : List Char} : Single (cs.map Char.toLower) ↔ Single cs := by
  have colon : ∀ c : Char, c.toLower = ':' ↔ c = ':' := fun c => Text.toLower_eq_iff (by decide)
  induction cs with
  | nil => rfl
  | cons c cs ih => cases cs <;> simp_all [single_cons_iff]

theorem single_derivedName (typeName : String) : Single (derivedName typeName).toList := by
  rw [toList_derivedName, single_map_iff]
  exact single_lastSegment _

/-- Arguments are cut off with their bracket. -/
theorem bracket_not_mem_derivedName (typeName : String) : '<' ∉ (derivedName typeName).toList := by
  rw [toList_derivedName]
  intro mem
  obtain ⟨c, inside, lower⟩ := List.mem_map.mp mem
  obtain rfl := (Text.toLower_eq_iff (by decide)).mp lower
  simpa using List.mem_takeWhile_imp (lastSegment_subset _ inside)

theorem isUpper_of_mem_derivedName {typeName : String} {c : Char}
    (mem : c ∈ (derivedName typeName).toList) : c.isUpper = false := by
  rw [toList_derivedName] at mem
  obtain ⟨d, -, rfl⟩ := List.mem_map.mp mem
  exact Text.isUpper_toLower d

theorem derivedName_derivedName (typeName : String) :
    derivedName (derivedName typeName) = derivedName typeName := by
  have whole : (derivedName typeName).toList.takeWhile (· ≠ '<') =
      (derivedName typeName).toList := by
    rw [List.takeWhile_eq_self_iff]
    intro c mem
    have other : c ≠ '<' := fun same => bracket_not_mem_derivedName typeName (same ▸ mem)
    simpa using other
  apply String.toList_inj.mp
  rw [toList_derivedName (derivedName typeName), whole,
    lastSegment_of_single (single_derivedName typeName), toList_derivedName, List.map_map]
  exact List.map_congr_left fun c _ => Text.toLower_toLower c

/-! ## Paths -/

/-- The path of a type: segments, and possibly type arguments behind them. -/
structure TypePath where
  segments : List String
  /-- What follows the bracket that opens the arguments. -/
  arguments : Option String
  filled : segments ≠ []
  plain : ∀ segment ∈ segments, ':' ∉ segment.toList ∧ '<' ∉ segment.toList

namespace TypePath

def typeName (p : TypePath) : String :=
  Text.join "::" p.segments ++ (p.arguments.map ("<" ++ ·)).getD ""

def last (p : TypePath) : String := p.segments.getLast p.filled

theorem takeWhile_typeName (p : TypePath) :
    p.typeName.toList.takeWhile (· ≠ '<') = (Text.join "::" p.segments).toList := by
  have front : ∀ c ∈ (Text.join "::" p.segments).toList, decide (c ≠ '<') = true := by
    intro c mem
    rcases Text.mem_join mem with between | ⟨segment, among, inside⟩
    · obtain rfl : c = ':' := by simpa using between
      decide
    · have other : c ≠ '<' := fun same => (p.plain segment among).2 (same ▸ inside)
      simpa using other
  have behind : ((p.arguments.map ("<" ++ ·)).getD "").toList.takeWhile (· ≠ '<') = [] := by
    cases p.arguments <;> simp
  rw [typeName, String.toList_append, List.takeWhile_append_of_pos front, behind, List.append_nil]

theorem lastSegment_join (p : TypePath) :
    lastSegment (Text.join "::" p.segments).toList (Text.join "::" p.segments).toList =
    p.last.toList := by
  have plain : ':' ∉ p.last.toList := (p.plain p.last (List.getLast_mem p.filled)).1
  have parts : p.segments = p.segments.dropLast ++ [p.last] :=
    (List.dropLast_concat_getLast p.filled).symm
  by_cases only : p.segments.dropLast = []
  · have joined : Text.join "::" p.segments = p.last := by rw [parts, only]; simp [Text.join]
    rw [joined, lastSegment_of_single (single_of_not_mem plain)]
  · have joined : (Text.join "::" p.segments).toList =
        (Text.join "::" p.segments.dropLast).toList ++ ':' :: ':' :: p.last.toList := by
      rw [parts, Text.join_concat only, ← parts]
      simp
    rw [joined]
    exact lastSegment_append plain _ _

/-- A path gives its last segment in lower case. -/
theorem derivedName_eq (p : TypePath) : derivedName p.typeName = Text.lowerAscii p.last := by
  apply String.toList_inj.mp
  rw [toList_derivedName, takeWhile_typeName, lastSegment_join]
  simp [Text.lowerAscii]

end TypePath

/-! ## Names of controllers -/

def Unnamed (c : ControllerIdentity) : Prop := c.name = none ∨ c.name = some ""

theorem controllerName_of_unnamed {c : ControllerIdentity} (unnamed : c.Unnamed) :
    c.controllerName = derivedName c.typeName := by
  rcases unnamed with none | empty
  · simp [controllerName, none]
  · simp [controllerName, empty]

theorem controllerName_of_named {c : ControllerIdentity} {name : String}
    (named : c.name = some name) (some : name ≠ "") : c.controllerName = name := by
  simp [controllerName, named, some]

end ControllerIdentity

namespace Registry

theorem exists_error_iff {r : Registry} {c : Configuration} :
    (∃ collision, r.register c = .error collision) ↔ (r.get? c.name).isSome = true := by
  cases there : r.get? c.name with
  | none => simp [register_of_free there]
  | some taken => simp [register_of_taken there]

/-- Behind a configuration that it took, a registry refuses those of its name and those it refused
before. -/
theorem exists_error_after_iff {r next : Registry} {c d : Configuration}
    (taken : r.register c = .ok next) :
    (∃ collision, next.register d = .error collision) ↔
      d.name = c.name ∨ ∃ collision, r.register d = .error collision := by
  obtain ⟨-, rfl⟩ := register_eq_ok_iff.mp taken
  rw [exists_error_iff, exists_error_iff, get?_replace]
  split
  next same => simp [same]
  next other => simp [other]

end Registry

namespace ControllerIdentity

/-- A controller without a name of its own is named by its type. A path gives its last segment in
lower case, whatever the arguments. Any type name gives a name without brackets, separators and
capitals, from which the same name is derived again. A name of its own is taken as it is. Two
controllers collide in a registry exactly if their names are the same: behind the first it refuses
the second, and answers for the one with the configuration of the other. -/
theorem controllers_go_by_name :
    (∀ (p : TypePath) (c : ControllerIdentity), c.Unnamed → c.typeName = p.typeName →
      c.controllerName = Text.lowerAscii p.last) ∧
    (∀ c : ControllerIdentity, c.Unnamed →
      '<' ∉ c.controllerName.toList ∧ ¬ [':', ':'] <:+: c.controllerName.toList ∧
      (∀ char ∈ c.controllerName.toList, char.isUpper = false) ∧
      ∀ again : ControllerIdentity, again.Unnamed → again.typeName = c.controllerName →
        again.controllerName = c.controllerName) ∧
    (∀ (c : ControllerIdentity) (name : String), c.name = some name → name ≠ "" →
      c.controllerName = name) ∧
    ∀ c d : Configuration, c.name = c.identity.controllerName → d.name = d.identity.controllerName →
      (∃ first, Registry.empty.register c = .ok first ∧
        ((∃ collision, first.register d = .error collision) ↔
          d.identity.controllerName = c.identity.controllerName)) ∧
      ∀ r next : Registry, r.register c = .ok next →
        ((∃ collision, next.register d = .error collision) ↔
          d.identity.controllerName = c.identity.controllerName ∨
            ∃ collision, r.register d = .error collision) ∧
        ∀ controller : ControllerIdentity, next.getFor? controller =
          if controller.controllerName = c.identity.controllerName then some c
          else r.getFor? controller := by
  refine ⟨?_, ?_, fun c name => controllerName_of_named, ?_⟩
  · intro p c unnamed path
    rw [controllerName_of_unnamed unnamed, path, p.derivedName_eq]
  · intro c unnamed
    rw [controllerName_of_unnamed unnamed]
    refine ⟨bracket_not_mem_derivedName _, single_derivedName _,
      fun _ => isUpper_of_mem_derivedName, ?_⟩
    intro again unnamed same
    rw [controllerName_of_unnamed unnamed, same, derivedName_derivedName]
  · intro c d own own'
    rw [← own, ← own']
    constructor
    · refine ⟨_, Registry.register_empty c, ?_⟩
      rw [Registry.exists_error_after_iff (Registry.register_empty c),
        Registry.exists_error_iff (r := Registry.empty)]
      simp [Registry.empty]
    · intro r next taken
      refine ⟨Registry.exists_error_after_iff taken, ?_⟩
      intro controller
      obtain ⟨-, rfl⟩ := Registry.register_eq_ok_iff.mp taken
      exact Registry.get?_replace r c controller.controllerName

namespace Sample

/-- The path of a type whose arguments have paths and arguments of their own. -/
def path : TypePath where
  segments := ["a", "b", "Gadget"]
  arguments := some "c::T<d::U>>"
  filled := by decide
  plain := by decide

def nested : ControllerIdentity := ⟨"a::b::Gadget<c::T<d::U>>", some ""⟩

end Sample

/-- The separators in the arguments do not count, so the controller meets one of another module. -/
theorem controllers_go_by_name_past_nested_arguments :
    let first := Registry.Sample.configuration "e::GADGET" none
    let second := Registry.Sample.configuration Sample.nested.typeName Sample.nested.name
    Sample.nested.Unnamed ∧ Sample.nested.typeName = Sample.path.typeName ∧
      Sample.nested.controllerName = "gadget" ∧
      ∃ r, Registry.empty.register first = .ok r ∧
      ∃ collision, r.register second = .error collision := by
  intro first second
  obtain ⟨paths, -, -, collisions⟩ := controllers_go_by_name
  have named : Sample.nested.controllerName = "gadget" :=
    (paths Sample.path Sample.nested (.inr rfl) rfl).trans rfl
  obtain ⟨⟨r, taken, refused⟩, -⟩ := collisions first second rfl rfl
  exact ⟨.inr rfl, rfl, named, r, taken, refused.mpr (named.trans (by decide))⟩

end ControllerIdentity

end WatchDispatch
