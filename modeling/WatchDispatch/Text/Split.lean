/-!
Cutting texts at a separator, and lower-casing.

`split` cuts at every occurrence of a character and always yields at least one part; `join` is its
inverse, as long as no part holds the separator. Upper and lower case are those of ASCII: every
other character stays as it is.
-/

namespace WatchDispatch.Text

/-- The parts between the occurrences of `sep`. -/
def splitChars (sep : Char) : List Char → List (List Char)
  | [] => [[]]
  | c :: cs =>
    if c = sep then [] :: splitChars sep cs
    else
      match splitChars sep cs with
      | [] => [[c]]
      | part :: parts => (c :: part) :: parts

/-- The parts of a text between the occurrences of `sep`; the text itself if there is none. -/
def split (sep : Char) (s : String) : List String := (splitChars sep s.toList).map String.ofList

/-- The parts with `sep` between them. -/
def joinChars (sep : Char) : List (List Char) → List Char
  | [] => []
  | [part] => part
  | part :: parts => part ++ sep :: joinChars sep parts

theorem splitChars_ne_nil (sep : Char) (cs : List Char) : splitChars sep cs ≠ [] := by
  cases cs with
  | nil => simp [splitChars]
  | cons c cs =>
    simp only [splitChars]
    split
    · simp
    · split <;> simp

/-- Nothing is lost by cutting: the parts joined again are the text. -/
theorem joinChars_splitChars (sep : Char) (cs : List Char) :
    joinChars sep (splitChars sep cs) = cs := by
  induction cs with
  | nil => rfl
  | cons c cs ih =>
    simp only [splitChars]
    split
    next h =>
      subst h
      cases hp : splitChars c cs with
      | nil => exact absurd hp (splitChars_ne_nil c cs)
      | cons part parts => rw [hp] at ih; simp [joinChars, ih]
    next h =>
      split
      next hp => exact absurd hp (splitChars_ne_nil sep cs)
      next part parts hp =>
        rw [hp] at ih
        cases parts with
        | nil => simpa [joinChars] using ih
        | cons _ _ => simpa [joinChars] using ih

/-- No part holds the separator. -/
theorem not_mem_of_mem_splitChars {sep : Char} {cs part : List Char}
    (h : part ∈ splitChars sep cs) : sep ∉ part := by
  induction cs generalizing part with
  | nil => simp [splitChars] at h; simp [h]
  | cons c cs ih =>
    simp only [splitChars] at h
    split at h
    next => rcases List.mem_cons.mp h with rfl | h
            · simp
            · exact ih h
    next hc =>
      split at h
      next hp => exact absurd hp (splitChars_ne_nil sep cs)
      next first rest hp =>
        rcases List.mem_cons.mp h with rfl | h
        · have : sep ∉ first := ih (by simp [hp])
          simp [this, Ne.symm hc]
        · exact ih (by simp [hp, h])

/-- A text without the separator is one part. -/
theorem splitChars_of_not_mem {sep : Char} {part : List Char} (plain : sep ∉ part) :
    splitChars sep part = [part] := by
  induction part with
  | nil => rfl
  | cons c cs ih =>
    simp only [List.mem_cons, not_or] at plain
    obtain ⟨other, plain⟩ := plain
    simp [splitChars, Ne.symm other, ih plain]

/-- What stands before the first separator is the first part. -/
theorem splitChars_append {sep : Char} {part : List Char} (plain : sep ∉ part)
    (rest : List Char) : splitChars sep (part ++ sep :: rest) = part :: splitChars sep rest := by
  induction part with
  | nil => simp [splitChars]
  | cons c cs ih =>
    simp only [List.mem_cons, not_or] at plain
    obtain ⟨other, plain⟩ := plain
    simp [splitChars, Ne.symm other, ih plain]

/-- Joined and cut again, parts without the separator are what they were. -/
theorem splitChars_joinChars {sep : Char} {parts : List (List Char)} (parted : parts ≠ [])
    (plain : ∀ part ∈ parts, sep ∉ part) : splitChars sep (joinChars sep parts) = parts := by
  induction parts with
  | nil => exact absurd rfl parted
  | cons part parts ih =>
    obtain ⟨first, others⟩ := List.forall_mem_cons.mp plain
    cases parts with
    | nil => exact splitChars_of_not_mem first
    | cons next parts => rw [joinChars, splitChars_append first, ih (by simp) others]; simp

def lowerAscii (s : String) : String := String.ofList (s.toList.map Char.toLower)

theorem toNat_toLower (c : Char) :
    c.toLower.toNat = if 65 ≤ c.toNat ∧ c.toNat ≤ 90 then c.toNat + 32 else c.toNat := by
  have upper : (c.val ≥ 'A'.val ∧ c.val ≤ 'Z'.val) ↔ 65 ≤ c.toNat ∧ c.toNat ≤ 90 := by
    simp [UInt32.le_iff_toNat_le]
  unfold Char.toLower
  split
  case isTrue h =>
    rw [if_pos (upper.mp h)]
    have small : c.val.toNat ≤ 90 := (upper.mp h).2
    change (c.val + ('a'.val - 'A'.val)).toNat = c.val.toNat + 32
    rw [UInt32.toNat_add, show ('a'.val - 'A'.val).toNat = 32 from rfl]
    omega
  case isFalse h => rw [if_neg (fun k => h (upper.mpr k))]

/-- A character that is no letter has no other case. -/
theorem toLower_eq_iff {c d : Char} (sign : d.toNat < 65 ∨ 122 < d.toNat) :
    c.toLower = d ↔ c = d := by
  rw [← Char.toNat_inj, ← Char.toNat_inj, toNat_toLower]
  split <;> omega

theorem isUpper_toLower (c : Char) : c.toLower.isUpper = false := by
  have letter : c.toLower.isUpper = true ↔ 'A'.val ≤ c.toLower.val ∧ c.toLower.val ≤ 'Z'.val :=
    decide_eq_true_iff
  have bounds : 'A'.val ≤ c.toLower.val ∧ c.toLower.val ≤ 'Z'.val ↔
      65 ≤ c.toLower.toNat ∧ c.toLower.toNat ≤ 90 := by
    simp [UInt32.le_iff_toNat_le]
  have code := toNat_toLower c
  rw [← Bool.not_eq_true, letter, bounds]
  split at code <;> omega

theorem toLower_toLower (c : Char) : c.toLower.toLower = c.toLower := by
  rw [← Char.toNat_inj, toNat_toLower c.toLower]
  have code := toNat_toLower c
  split at code <;> split <;> omega

/-- The texts one after the other with `sep` between them. -/
def join (sep : String) (parts : List String) : String := String.intercalate sep parts

theorem join_concat {parts : List String} (some : parts ≠ []) (sep last : String) :
    join sep (parts ++ [last]) = join sep parts ++ sep ++ last := by
  induction parts with
  | nil => exact absurd rfl some
  | cons part parts ih =>
    cases parts with
    | nil => simp [join, String.intercalate_cons_cons]
    | cons next parts =>
      have onward := ih (by simp)
      simp only [join, List.cons_append, String.intercalate_cons_cons] at onward ⊢
      rw [onward]
      simp [String.append_assoc]

/-- What stands in joined texts comes from one of them or from between them. -/
theorem mem_join {c : Char} {sep : String} {parts : List String}
    (mem : c ∈ (join sep parts).toList) : c ∈ sep.toList ∨ ∃ part ∈ parts, c ∈ part.toList := by
  induction parts with
  | nil => simp [join] at mem
  | cons part parts ih =>
    cases parts with
    | nil => exact .inr ⟨part, List.mem_cons_self, by simpa [join] using mem⟩
    | cons next parts =>
      rw [join, String.intercalate_cons_cons, ← join, String.toList_append, String.toList_append,
        List.mem_append, List.mem_append] at mem
      rcases mem with (first | between) | later
      · exact .inr ⟨part, List.mem_cons_self, first⟩
      · exact .inl between
      · rcases ih later with between | ⟨other, among, inside⟩
        · exact .inl between
        · exact .inr ⟨other, List.mem_cons_of_mem _ among, inside⟩

theorem toList_join (sep : Char) (parts : List String) :
    (join (String.singleton sep) parts).toList = joinChars sep (parts.map String.toList) := by
  rw [join, String.toList_intercalate, String.toList_singleton]
  induction parts with
  | nil => rfl
  | cons part parts ih =>
    cases parts with
    | nil => simp [joinChars]
    | cons next parts =>
      simp only [List.map_cons] at ih
      simp [List.intercalate_cons_cons, joinChars, ih]

/-- The parts of a text are the parts without the separator of which it is joined. -/
theorem split_eq_iff {sep : Char} {s : String} {parts : List String} :
    split sep s = parts ↔
      parts ≠ [] ∧ (∀ part ∈ parts, sep ∉ part.toList) ∧ join (String.singleton sep) parts = s := by
  constructor
  · rintro rfl
    refine ⟨by simp [split, splitChars_ne_nil], ?_, ?_⟩
    · intro part among
      rw [split] at among
      obtain ⟨cs, cut, rfl⟩ := List.mem_map.mp among
      simpa using not_mem_of_mem_splitChars cut
    · apply String.toList_inj.mp
      rw [toList_join, split, List.map_map]
      simp [Function.comp_def, joinChars_splitChars]
  · rintro ⟨parted, plain, rfl⟩
    have plain : ∀ part ∈ parts.map String.toList, sep ∉ part := by simpa using plain
    rw [split, toList_join, splitChars_joinChars (by simpa using parted) plain, List.map_map]
    simp [Function.comp_def]

end WatchDispatch.Text
