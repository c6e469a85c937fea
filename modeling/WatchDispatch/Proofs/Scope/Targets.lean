import Mathlib.Data.List.Nodup
import WatchDispatch.Settings

/-!
# Lists of namespaces and the scopes to watch

A target is read from a list of texts, and only the names entered in it count: what stands in a text
of the list between blanks. The scopes that are watched for a target come in strict order, and there
is always at least one; for a list they are the names entered in it, unless no name is, or only the
one that stands for the default namespace.
-/

namespace WatchDispatch

/-! ## Sets of names -/

namespace NameSet

theorem get?_foldl_insert (names : List String) (set : NameSet) (k : String) :
    (names.foldl (fun set name => set.insert name ()) set).get? k
      = if k ∈ names then some () else set.get? k := by
  induction names generalizing set with
  | nil => simp
  | cons name rest ih =>
    rw [List.foldl_cons, ih, Table.get?_insert]
    by_cases later : k ∈ rest <;> by_cases same : k = name <;> simp [later, same]

/-- A set is the set of its names. -/
theorem ofList_toList (set : NameSet) : ofList set.toList = set := by
  refine Table.ext_get? (fun k => ?_)
  rw [ofList, get?_foldl_insert, Table.get?_empty, toList]
  by_cases mem : k ∈ set.keys
  · obtain ⟨found⟩ := Option.isSome_iff_exists.mp ((set.mem_keys_iff k).mp mem)
    simp_all
  · have absent := mt (set.mem_keys_iff k).mpr mem
    simp_all

theorem mem_toList_ofList {names : List String} {name : String} :
    name ∈ (ofList names).toList ↔ name ∈ names := by
  rw [toList, Table.mem_keys_iff, ofList, get?_foldl_insert]
  by_cases mem : name ∈ names <;> simp [mem]

/-- Neither order nor repetition counts. -/
theorem ofList_congr {names others : List String} (same : ∀ name, name ∈ names ↔ name ∈ others) :
    ofList names = ofList others := by
  apply Table.ext_get?
  intro k
  simp only [ofList, get?_foldl_insert, same k]

theorem toList_nodup (set : NameSet) : set.toList.Nodup := by
  apply set.keys_increasing.imp
  rintro a b less rfl
  exact KeyOrder.irrefl a less

theorem toList_eq_nil_iff {set : NameSet} : set.toList = [] ↔ ∀ name, name ∉ set.toList :=
  List.eq_nil_iff_forall_not_mem

theorem toList_eq_singleton_iff {set : NameSet} {name : String} :
    set.toList = [name] ↔ ∀ other, other ∈ set.toList ↔ other = name := by
  constructor
  · intro only other
    simp [only]
  · intro only
    apply List.perm_singleton.mp
    exact (List.perm_ext_iff_of_nodup set.toList_nodup (List.nodup_singleton name)).mpr
      (by simpa using only)

end NameSet

/-! ## The order of scopes -/

namespace Scope

theorem not_before_self (scope : Scope) : scope.before scope = false := by
  cases scope with
  | allNamespaces => rfl
  | defaultNamespace => rfl
  | named ns => simp [before]

end Scope

namespace TargetScope

/-- Every target is watched by at least one subscription. -/
theorem watchScopes_ne_nil (target : TargetScope) : target.watchScopes ≠ [] := by
  cases target with
  | all => simp [watchScopes]
  | defaultNamespace => simp [watchScopes]
  | names set =>
    unfold watchScopes
    dsimp only
    split
    · simp
    next some => simpa using some

/-- The scopes of a target come in strict order. -/
theorem watchScopes_increasing (target : TargetScope) :
    target.watchScopes.Pairwise (fun a b => a.before b = true) := by
  cases target with
  | all => exact List.pairwise_singleton _ _
  | defaultNamespace => exact List.pairwise_singleton _ _
  | names set =>
    unfold watchScopes
    dsimp only
    split
    · exact List.pairwise_singleton _ _
    · exact List.pairwise_map.mpr (set.keys_increasing.imp (by simp [Scope.before]))

/-- No scope is watched twice. -/
theorem watchScopes_nodup (target : TargetScope) : target.watchScopes.Nodup := by
  apply target.watchScopes_increasing.imp
  rintro a b before rfl
  exact absurd before (by simp [Scope.not_before_self])

/-! ## The names entered in a list -/

/-- A name is entered in a list of texts when one of them holds it between blanks. It is not empty
and has no blank at its ends. -/
def Entered (names : List String) (name : String) : Prop :=
  Text.Visible name.toList ∧ ∃ before after : String, Text.allBlank before ∧ Text.allBlank after ∧
    before ++ name ++ after ∈ names

theorem mem_cleanNames {names : List String} {name : String} :
    name ∈ cleanNames names ↔ Entered names name := by
  simp only [cleanNames, List.mem_filter, List.mem_map, decide_eq_true_eq]
  constructor
  · rintro ⟨⟨text, listed, trimmed⟩, some⟩
    have left : name.toList = Text.trimChars text.toList := by simp [← trimmed, Text.trim]
    obtain ⟨before, after, blankBefore, blankAfter, parts⟩ := Text.exists_trimChars text.toList
    constructor
    · rw [left]
      exact Text.visible_trimChars (by simpa [← left] using some)
    · have whole : String.ofList before ++ name ++ String.ofList after = text := by
        apply String.toList_inj.mp
        simpa [left] using parts.symm
      exact ⟨String.ofList before, String.ofList after, by simpa [Text.allBlank] using blankBefore,
        by simpa [Text.allBlank] using blankAfter, whole ▸ listed⟩
  · rintro ⟨visible, before, after, blankBefore, blankAfter, listed⟩
    refine ⟨⟨_, listed, ?_⟩, ?_⟩
    · rw [Text.trim, String.toList_append, String.toList_append,
        Text.trimChars_between blankBefore visible blankAfter, String.ofList_toList]
    · rintro rfl
      obtain ⟨⟨c, starts, -⟩, -⟩ := visible
      simp at starts

/-- The names of the set that a list stands for are those entered in it. -/
theorem mem_toList_iff {names : List String} {name : String} :
    name ∈ (NameSet.ofList (cleanNames names)).toList ↔ Entered names name :=
  NameSet.mem_toList_ofList.trans mem_cleanNames

/-- The names entered in a list are entered as they are in the list of them. -/
theorem entered_cleanNames {names : List String} {name : String} :
    Entered (cleanNames names) name ↔ Entered names name := by
  rw [← mem_cleanNames, ← mem_cleanNames]
  have trimmed : ∀ name ∈ cleanNames names, Text.trim name = name := by
    intro name mem
    obtain ⟨text, -, rfl⟩ := List.mem_map.mp (List.mem_filter.mp mem).1
    exact Text.trim_trim text
  have filled : ∀ name ∈ cleanNames names, name ≠ "" := by
    intro name mem
    simpa using (List.mem_filter.mp mem).2
  have kept : (cleanNames names).map Text.trim = cleanNames names :=
    (List.map_congr_left trimmed).trans (List.map_id' _)
  rw [cleanNames, kept, List.mem_filter]
  constructor
  · exact fun mem => mem.1
  · exact fun mem => ⟨mem, by simpa using filled name mem⟩

/-- A target depends on the names entered in its list and on nothing else. -/
theorem ofNames_congr {names others : List String}
    (same : ∀ name, Entered names name ↔ Entered others name) : ofNames names = ofNames others := by
  have clean : ∀ name, name ∈ cleanNames names ↔ name ∈ cleanNames others := by
    simpa only [mem_cleanNames] using same
  rw [ofNames, ofNames, NameSet.ofList_congr clean]

/-! ## The scopes watched for a list -/

/-- What is watched for a list in which these names are entered. -/
inductive Watches (entered : String → Prop) : List Scope → Prop
  | everything (nothing : ∀ name, ¬ entered name) : Watches entered [.allNamespaces]
  | current (marker : ∀ name, entered name ↔ name = currentMarker) :
      Watches entered [.defaultNamespace]
  | listed {scopes : List Scope} (some : ∃ name, entered name)
      (others : ¬ ∀ name, entered name ↔ name = currentMarker)
      (scopes_eq : ∀ scope, scope ∈ scopes ↔ ∃ name, entered name ∧ scope = .named name) :
      Watches entered scopes

theorem ofNames_watches (names : List String) :
    Watches (Entered names) (ofNames names).watchScopes := by
  unfold ofNames
  dsimp only
  split
  next empty =>
    apply Watches.everything
    intro name entered
    exact NameSet.toList_eq_nil_iff.mp empty name (mem_toList_iff.mpr entered)
  next filled =>
    split
    next single =>
      apply Watches.current
      intro name
      exact mem_toList_iff.symm.trans (NameSet.toList_eq_singleton_iff.mp single name)
    next several =>
      apply Watches.listed
      · obtain ⟨name, mem⟩ := List.exists_mem_of_ne_nil _ filled
        exact ⟨name, mem_toList_iff.mp mem⟩
      · intro marker
        exact several (NameSet.toList_eq_singleton_iff.mpr
          (fun name => mem_toList_iff.trans (marker name)))
      · intro scope
        simp [watchScopes, filled, mem_toList_iff, eq_comm]

namespace Watches

variable {entered : String → Prop} {scopes : List Scope}

theorem eq_all_iff (watches : Watches entered scopes) :
    scopes = [.allNamespaces] ↔ ∀ name, ¬ entered name := by
  cases watches with
  | everything nothing => simpa using nothing
  | current marker => simpa using ⟨currentMarker, (marker _).mpr rfl⟩
  | listed some others scopes_eq =>
    constructor
    · rintro rfl
      obtain ⟨name, -, other⟩ := (scopes_eq .allNamespaces).mp (by simp)
      cases other
    · intro nothing
      obtain ⟨name, mem⟩ := some
      exact absurd mem (nothing name)

theorem eq_default_iff (watches : Watches entered scopes) :
    scopes = [.defaultNamespace] ↔ ∀ name, entered name ↔ name = currentMarker := by
  cases watches with
  | everything nothing =>
    constructor
    · intro same
      simp at same
    · intro marker
      exact absurd ((marker _).mpr rfl) (nothing _)
  | current marker => simpa using marker
  | listed some others scopes_eq =>
    constructor
    · rintro rfl
      obtain ⟨name, -, other⟩ := (scopes_eq .defaultNamespace).mp (by simp)
      cases other
    · intro marker
      exact absurd marker others

theorem mem_iff (watches : Watches entered scopes) (some : ∃ name, entered name)
    (others : ¬ ∀ name, entered name ↔ name = currentMarker) (scope : Scope) :
    scope ∈ scopes ↔ ∃ name, entered name ∧ scope = .named name := by
  cases watches with
  | everything nothing =>
    obtain ⟨name, mem⟩ := some
    exact absurd mem (nothing name)
  | current marker => exact absurd marker others
  | listed _ _ scopes_eq => exact scopes_eq scope

end Watches

/-- The names of an explicit target stand for that target. -/
theorem ofNames_toList {names : List String} {set : NameSet}
    (explicit : ofNames names = .names set) : ofNames set.toList = .names set := by
  obtain rfl : NameSet.ofList (cleanNames names) = set := by
    unfold ofNames at explicit
    dsimp only at explicit
    split at explicit
    · cases explicit
    · split at explicit
      · cases explicit
      · exact TargetScope.names.inj explicit
  rw [← explicit]
  apply ofNames_congr
  intro name
  rw [← @entered_cleanNames names]
  simp [Entered, NameSet.mem_toList_ofList]

/-- The texts between the commas of a list of namespaces. -/
structure Separated (text : String) (parts : List String) : Prop where
  parted : parts ≠ []
  plain : ∀ part ∈ parts, ',' ∉ part.toList
  joined : Text.join "," parts = text

/-- The target of the settings is the one of the texts between the commas. -/
theorem target_ofEnvironment {get : String → Option String} {text : String} {parts : List String}
    (written : get "WARDEN_NAMESPACES" = some text) (separated : Separated text parts) :
    (Settings.ofEnvironment get).target = ofNames parts := by
  have cut : Text.split ',' text = parts :=
    Text.split_eq_iff.mpr ⟨separated.parted, separated.plain, separated.joined⟩
  simp [Settings.ofEnvironment, written, cut]

/-- A target is determined by the names entered in its list. What is watched for it comes in strict
order and is everything if no name is entered, the default namespace if only its marker is, and else
one scope for each name. The names of an explicit target stand for that target. The target of the
settings is the one of the texts between the commas of the variable. Every target, also one without
any name, is watched by at least one scope and by none twice. -/
theorem targets_normalised :
    (∀ names others, (∀ name, Entered names name ↔ Entered others name) →
      ofNames names = ofNames others) ∧
    (∀ names,
      (ofNames names).watchScopes ≠ [] ∧
      (ofNames names).watchScopes.Pairwise (fun a b => a.before b = true) ∧
      ((ofNames names).watchScopes = [.allNamespaces] ↔ ∀ name, ¬ Entered names name) ∧
      ((ofNames names).watchScopes = [.defaultNamespace] ↔
        ∀ name, Entered names name ↔ name = currentMarker) ∧
      ((∃ name, Entered names name) → (¬ ∀ name, Entered names name ↔ name = currentMarker) →
        ∀ scope, scope ∈ (ofNames names).watchScopes ↔
          ∃ name, Entered names name ∧ scope = .named name) ∧
      ∀ set, ofNames names = .names set → ofNames set.toList = .names set) ∧
    (∀ (get : String → Option String),
      (get "WARDEN_NAMESPACES" = none → (Settings.ofEnvironment get).target = .all) ∧
      ∀ text, get "WARDEN_NAMESPACES" = some text →
        (∃ parts, Separated text parts) ∧
        ∀ parts, Separated text parts → (Settings.ofEnvironment get).target = ofNames parts) ∧
    ∀ target : TargetScope, target.watchScopes ≠ [] ∧ target.watchScopes.Nodup := by
  refine ⟨fun names others => ofNames_congr, fun names => ?_, fun get => ⟨?_, ?_⟩, ?_⟩
  · have watches := ofNames_watches names
    exact ⟨watchScopes_ne_nil _, watchScopes_increasing _, watches.eq_all_iff,
      watches.eq_default_iff, watches.mem_iff, fun set => ofNames_toList⟩
  · intro unset
    simp [Settings.ofEnvironment, unset]
  · intro text written
    constructor
    · obtain ⟨parted, plain, joined⟩ := Text.split_eq_iff.mp (Eq.refl (Text.split ',' text))
      exact ⟨_, parted, plain, joined⟩
    · intro parts separated
      exact target_ofEnvironment written separated
  · intro target
    exact ⟨target.watchScopes_ne_nil, target.watchScopes_nodup⟩

end TargetScope

end WatchDispatch
