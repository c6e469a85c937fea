import WatchDispatch.Json.Parser
import WatchDispatch.Proofs.Json.WellFormed

/-!
# Values of texts

Every value that a text is read as is well-formed: of two members with one name the later one is
kept, and the members of an object come by increasing name.
-/

namespace WatchDispatch

theorem Assoc.mem_ofList {α : Type} {entries : List (String × α)} {entry : String × α}
    (mem : entry ∈ ofList entries) : entry ∈ entries := by
  have key : ∀ acc : List (String × α),
      entry ∈ entries.foldl (fun acc e => insert e.1 e.2 acc) acc → entry ∈ acc ∨
      entry ∈ entries := by
    clear mem
    induction entries with
    | nil => exact fun _ mem => .inl mem
    | cons first rest ih =>
      intro acc mem
      rcases ih _ mem with before | later
      · rcases mem_insert before with rfl | earlier
        · exact .inr List.mem_cons_self
        · exact .inl earlier
      · exact .inr (List.mem_cons_of_mem _ later)
  exact (key [] mem).resolve_left nofun

namespace Json

mutual

/-- The words and the numbers in the draft are well-formed values. -/
def Draft.Sound : Draft → Prop
  | .word value => ∀ v, value = .ok v → v.WellFormed
  | .number value _ => ∀ v, value = .ok v → v.WellFormed
  | .array _ items => items.Sound
  | .object _ members => members.Sound
  | .missing _ | .text _ => True

def DraftItems.Sound : DraftItems → Prop
  | .closed | .broken _ => True
  | .item d rest => d.Sound ∧ rest.Sound

def DraftMembers.Sound : DraftMembers → Prop
  | .closed | .broken _ | .keyless _ => True
  | .member _ d rest => d.Sound ∧ rest.Sound

end

/-! ## Values of sound drafts -/

mutual

theorem Draft.wellFormed_of_value :
    ∀ {d : Draft} {v : Json}, d.Sound → d.value = .ok v → v.WellFormed
  | .missing _, _, _, found => by cases found
  | .word _, v, sound, found => sound v found
  | .number _ _, v, sound, found => sound v found
  | .text t, v, _, found => by
    cases text : t.value with
    | error e => simp [Draft.value, text, Except.map] at found
    | ok s =>
      simp only [Draft.value, text, Except.map, Except.ok.injEq] at found
      exact found ▸ .text s
  | .array deep items, v, sound, found => by
    simp only [Draft.value] at found
    split at found
    · cases found
    · cases values : items.values [] with
      | error e => simp [values, Except.map] at found
      | ok done =>
        have each := DraftItems.wellFormed_of_values items [] sound nofun values
        simp only [values, Except.map, Except.ok.injEq] at found
        exact found ▸ .array (fun w mem => each w (List.mem_reverse.mp mem))
  | .object deep members, v, sound, found => by
    simp only [Draft.value] at found
    split at found
    · cases found
    · cases values : members.values [] with
      | error e => simp [values, Except.map] at found
      | ok done =>
        have each := DraftMembers.wellFormed_of_values members [] sound nofun values
        simp only [values, Except.map, Except.ok.injEq] at found
        exact found ▸ .object (Assoc.ordered_ofList _)
          (fun m mem => each m (List.mem_reverse.mp (Assoc.mem_ofList mem)))

theorem DraftItems.wellFormed_of_values :
    ∀ (items : DraftItems) (done : List Json) {out : List Json},
    items.Sound → (∀ v ∈ done, v.WellFormed) → items.values done = .ok out → ∀ v ∈ out, v.WellFormed
  | .closed, done, _, _, before, found => by
    cases found
    exact before
  | .broken _, _, _, _, _, found => by cases found
  | .item d rest, done, out, sound, before, found => by
    simp only [DraftItems.values] at found
    split at found
    · cases found
    · next v value =>
      exact DraftItems.wellFormed_of_values rest (v :: done) sound.2
        (List.forall_mem_cons.mpr ⟨Draft.wellFormed_of_value sound.1 value, before⟩) found

theorem DraftMembers.wellFormed_of_values : ∀ (members : DraftMembers) (done : List (String × Json))
    {out : List (String × Json)}, members.Sound → (∀ m ∈ done, m.2.WellFormed) →
    members.values done = .ok out → ∀ m ∈ out, m.2.WellFormed
  | .closed, done, _, _, before, found => by
    cases found
    exact before
  | .broken _, _, _, _, _, found => by cases found
  | .keyless _, _, _, _, _, found => by cases found
  | .member key d rest, done, out, sound, before, found => by
    simp only [DraftMembers.values] at found
    split at found
    · cases found
    · next name _ =>
      split at found
      · cases found
      · next v value =>
        exact DraftMembers.wellFormed_of_values rest ((name, v) :: done) sound.2
          (List.forall_mem_cons.mpr ⟨Draft.wellFormed_of_value sound.1 value, before⟩) found

end

/-! ## Drafts of texts -/

namespace Parser

theorem sound_word {v : Json} (wellFormed : v.WellFormed) (ws cs : List Char) :
    (word v ws cs).1.Sound := by
  induction ws generalizing cs with
  | nil =>
    intro w same
    cases same
    exact wellFormed
  | cons c ws ih =>
    cases cs with
    | nil => exact nofun
    | cons c' cs =>
      rw [word]
      split
      · exact ih cs
      · exact nofun

theorem wellFormed_of_number? {negative : Bool} {whole fraction : List Nat} {scale : Option Int}
    {v : Json} (found : number? negative whole fraction scale = some v) : v.WellFormed := by
  unfold number? at found
  dsimp only at found
  split at found
  · cases found
    exact .integer _
  · split at found
    · cases found
      exact .integer _
    · obtain ⟨x, -, rfl⟩ := Option.map_eq_some_iff.mp found
      exact .real x

theorem sound_number (negative : Bool) (cs : List Char) : (number negative cs).1.Sound := by
  unfold number
  split
  · exact nofun
  · split
    · next value found =>
      intro v same
      cases same
      exact wellFormed_of_number? found
    · exact nofun

theorem sound_prependItems {done : List Draft} {rest : DraftItems} (each : ∀ d ∈ done, d.Sound)
    (sound : rest.Sound) : (prependItems done rest).Sound := by
  induction done generalizing rest with
  | nil => exact sound
  | cons d done ih =>
    obtain ⟨first, later⟩ := List.forall_mem_cons.mp each
    exact ih later ⟨first, sound⟩

theorem sound_prependMembers {done : List (DraftText × Draft)} {rest : DraftMembers}
    (each : ∀ m ∈ done, m.2.Sound) (sound : rest.Sound) : (prependMembers done rest).Sound := by
  induction done generalizing rest with
  | nil => exact sound
  | cons m done ih =>
    obtain ⟨first, later⟩ := List.forall_mem_cons.mp each
    exact ih later ⟨first, sound⟩

/-- With this fuel the drafts of values, items and members are sound. -/
structure SoundWith (fuel : Nat) : Prop where
  ofValue : ∀ level cs, (value fuel level cs).1.Sound
  ofItems : ∀ level done cs, (∀ d ∈ done, d.Sound) → (items fuel level done cs).1.Sound
  ofMembers : ∀ level done cs, (∀ m ∈ done, m.2.Sound) → (members fuel level done cs).1.Sound

section Steps

variable {fuel : Nat} (sound : SoundWith fuel) (level : Nat)

include sound

theorem SoundWith.value_succ (cs : List Char) : (value (fuel + 1) level cs).1.Sound := by
  cases cs with
  | nil => exact trivial
  | cons c rest =>
    -- One case for each character that a value can start with.
    simp only [value]
    split
    · exact trivial
    split
    · split
      · exact trivial
      · split
        · exact trivial
        · exact sound.ofItems _ _ _ nofun
    split
    · split
      · exact trivial
      · split
        · exact trivial
        · split
          · exact sound.ofMembers _ _ _ nofun
          · exact trivial
    split
    · exact sound_word .null _ _
    split
    · exact sound_word (.bool true) _ _
    split
    · exact sound_word (.bool false) _ _
    split
    · exact sound_number _ _
    split
    · exact sound_number _ _
    · exact trivial

theorem SoundWith.items_succ {done : List Draft} (cs : List Char) (each : ∀ d ∈ done, d.Sound) :
    (items (fuel + 1) level done cs).1.Sound := by
  have first := sound.ofValue level (skip cs)
  simp only [items]
  split
  · next d found =>
    rw [found] at first
    exact sound_prependItems (List.forall_mem_cons.mpr ⟨first, each⟩) trivial
  · next d rest found =>
    rw [found] at first
    have onward := List.forall_mem_cons.mpr ⟨first, each⟩
    split
    · exact sound_prependItems onward trivial
    · exact sound.ofItems _ _ _ onward
    · exact sound_prependItems onward trivial

theorem SoundWith.members_succ {done : List (DraftText × Draft)} (cs : List Char)
    (each : ∀ m ∈ done, m.2.Sound) : (members (fuel + 1) level done cs).1.Sound := by
  -- A key without a value ends the members, and so does a value without a key.
  have gone {before : List (DraftText × Draft)} {key : DraftText} {e : ReadError}
      (each : ∀ m ∈ before, m.2.Sound) : ∀ m ∈ (key, Draft.missing e) :: before, m.2.Sound :=
    List.forall_mem_cons.mpr ⟨trivial, each⟩
  simp only [members]
  split
  · exact sound_prependMembers (gone each) trivial
  · next key rest _ =>
    split
    · exact sound_prependMembers (gone each) trivial
    · next c rest _ =>
      split
      · have first := sound.ofValue level (skip rest)
        split
        · next d found =>
          rw [found] at first
          exact sound_prependMembers (List.forall_mem_cons.mpr ⟨first, each⟩) trivial
        · next d rest found =>
          rw [found] at first
          have onward : ∀ m ∈ (key, d) :: done, m.2.Sound := List.forall_mem_cons.mpr ⟨first, each⟩
          split
          · exact sound_prependMembers onward trivial
          · exact sound_prependMembers onward trivial
          · split
            · exact sound_prependMembers (gone onward) trivial
            · split
              · exact sound.ofMembers _ _ _ onward
              · exact sound_prependMembers (gone onward) trivial
      · exact sound_prependMembers (gone each) trivial

end Steps

/-- Any fuel will do. -/
theorem soundWith (fuel : Nat) : SoundWith fuel := by
  induction fuel with
  | zero =>
    exact ⟨fun _ _ => trivial, fun _ _ _ each => sound_prependItems each trivial,
      fun _ _ _ each => sound_prependMembers each trivial⟩
  | succ fuel ih =>
    exact ⟨ih.value_succ, fun level _ => ih.items_succ level, fun level _ => ih.members_succ level⟩

end Parser

/-- Every value that a text is read as is well-formed. -/
theorem wellFormed_of_parse {s : String} {v : Json} (found : parse s = .ok v) : v.WellFormed := by
  have sound : (draft s).1.Sound := by
    have value := (Parser.soundWith (2 * s.toList.length + 2)).ofValue 0 (Parser.skip s.toList)
    unfold draft
    dsimp only
    split <;> next shape => rw [shape] at value; exact value
  unfold parse read at found
  dsimp only at found
  split at found
  · cases found
  · next w value =>
    split at found
    · cases found
      exact Draft.wellFormed_of_value sound value
    · cases found

end Json

end WatchDispatch
