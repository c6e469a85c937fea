import WatchDispatch.Proofs.Resource.UidTexts
import WatchDispatch.Store.Cache
import WatchDispatch.Store.Gate

/-!
# Texts and the keys they denote

A text of a uid carries 32 hexadecimal digits in one of four forms, and every other text is
rejected. The uid that is read prints these digits in lower case. The form and the case are lost on
the way to a key of the stores, and nothing else: two resources are kept apart exactly if their
texts differ in a digit.
-/

namespace WatchDispatch.Uid

/-! ## Digits in a text -/

def IsDigit (c : Char) : Prop := '0' ≤ c ∧ c ≤ '9' ∨ 'a' ≤ c ∧ c ≤ 'f' ∨ 'A' ≤ c ∧ c ≤ 'F'

/-- Digits, and the text that has them in groups of 8, 4, 4, 4 and 12 with hyphens in between. -/
inductive Grouped : List Char → List Char → Prop
  | intro {a b c d e : List Char} (la : a.length = 8) (lb : b.length = 4) (lc : c.length = 4)
      (ld : d.length = 4) (le : e.length = 12) :
      Grouped (a ++ (b ++ (c ++ (d ++ e))))
        (a ++ '-' :: (b ++ '-' :: (c ++ '-' :: (d ++ '-' :: e))))

/-- The four forms in which a text has digits. -/
inductive LaidOut (ds : List Char) : List Char → Prop
  | digits : LaidOut ds ds
  | hyphenated {cs : List Char} (grouped : Grouped ds cs) : LaidOut ds cs
  | braced {cs : List Char} (grouped : Grouped ds cs) : LaidOut ds ('{' :: (cs ++ ['}']))
  | name {front cs : List Char} (named : front.map Char.toLower = "urn:uuid:".toList)
      (grouped : Grouped ds cs) : LaidOut ds (front ++ cs)

/-- A text carries 32 hexadecimal digits and nothing but what the form asks for. -/
structure Carries (text : String) (ds : List Char) : Prop where
  count : ds.length = 32
  hex : ∀ c ∈ ds, IsDigit c
  form : LaidOut ds text.toList

/-! ## Digits and uids -/

theorem hexValue?_isSome_iff {c : Char} : (hexValue? c).isSome = true ↔ IsDigit c := by
  have digit : IsDigit c ↔ 48 ≤ c.toNat ∧ c.toNat ≤ 57 ∨ 97 ≤ c.toNat ∧ c.toNat ≤ 102 ∨
      65 ≤ c.toNat ∧ c.toNat ≤ 70 := by
    simp [IsDigit, Char.le_def, UInt32.le_iff_toNat_le]
  rw [digit]
  simp only [hexValue?]
  split_ifs with number lower upper
  · exact iff_of_true rfl (.inl number)
  · exact iff_of_true rfl (.inr (.inl lower))
  · exact iff_of_true rfl (.inr (.inr upper))
  · exact iff_of_false (by simp) (by tauto)

/-- Any digits are bytes if there is an even number of them, and nothing else is. -/
theorem bytesOf?_isSome_iff {cs : List Char} :
    (bytesOf? cs).isSome = true ↔ (∀ c ∈ cs, IsDigit c) ∧ cs.length % 2 = 0 := by
  induction cs using bytesOf?.induct with
  | case1 => simp [bytesOf?]
  | case2 => simp [bytesOf?]
  | case3 a b rest ih =>
    have step : (bytesOf? (a :: b :: rest)).isSome = true ↔
        (hexValue? a).isSome = true ∧ (hexValue? b).isSome = true ∧
        (bytesOf? rest).isSome = true := by
      cases ha : hexValue? a <;> cases hb : hexValue? b <;> cases hr : bytesOf? rest <;>
        simp [bytesOf?, ha, hb, hr]
    rw [step, ih, hexValue?_isSome_iff, hexValue?_isSome_iff]
    simp only [List.forall_mem_cons, List.length_cons, Nat.add_assoc, Nat.add_mod_right]
    tauto

theorem map_digits (u : Uid) : u.digits.map Char.toLower = u.digits := by
  have small : ∀ n < 16, (hexDigit n).toLower = hexDigit n := by decide
  have pairs : ∀ bytes : List UInt8, (digitsOf bytes).map Char.toLower = digitsOf bytes := by
    intro bytes
    induction bytes with
    | nil => rfl
    | cons byte tail ih =>
      have bound := byte.toNat_lt
      simp only [digitsOf, List.flatMap_cons, List.map_append, List.map_cons, List.map_nil,
        small (byte.toNat / 16) (by omega), small (byte.toNat % 16) (by omega)] at ih ⊢
      rw [ih]
  exact pairs u.bytes

theorem digits_injective {u v : Uid} (same : u.digits = v.digits) : u = v := by
  have first : ofDigits? u.digits = some u := ofDigits?_eq_some.mpr u.map_digits
  have second : ofDigits? u.digits = some v := ofDigits?_eq_some.mpr (same ▸ v.map_digits)
  exact Option.some.inj (first.symm.trans second)

theorem isDigit_of_map {ds : List Char} {u : Uid} (lower : ds.map Char.toLower = u.digits) :
    ∀ c ∈ ds, IsDigit c := by
  have read : (bytesOf? ds).isSome = true := by
    rw [bytesOf?_eq_some.mpr lower]
    rfl
  exact (bytesOf?_isSome_iff.mp read).1

/-- Any 32 digits are the digits of a uid, in some case. -/
theorem exists_digits_eq {ds : List Char} (count : ds.length = 32) (hex : ∀ c ∈ ds, IsDigit c) :
    ∃ u : Uid, u.digits = ds.map Char.toLower := by
  obtain ⟨bytes, read⟩ :=
    Option.isSome_iff_exists.mp (bytesOf?_isSome_iff.mpr ⟨hex, by simp [count]⟩)
  have lower := bytesOf?_eq_some.mp read
  have size : bytes.length = 16 := by
    have total := congrArg List.length lower
    rw [List.length_map, count, length_digitsOf] at total
    omega
  exact ⟨⟨bytes, size⟩, lower.symm⟩

/-! ## Forms -/

theorem grouped_iff {ds cs : List Char} : Grouped ds cs ↔ ds.length = 32 ∧ cs = hyphenate ds := by
  constructor
  · rintro ⟨la, lb, lc, ld, le⟩
    exact ⟨by simp [la, lb, lc, ld, le], (hyphenate_groups la lb lc ld).symm⟩
  · rintro ⟨count, rfl⟩
    have grouped :=
      Grouped.intro (a := ds.take 8) (b := (ds.drop 8).take 4) (c := (ds.drop 12).take 4)
      (d := (ds.drop 16).take 4) (e := ds.drop 20) (by simp [count]) (by simp [count])
        (by simp [count]) (by simp [count]) (by simp [count])
    rwa [← groups_eq] at grouped

/-- Groups are groups in any case. -/
theorem grouped_map_iff {lower cs : List Char} :
    Grouped lower (cs.map Char.toLower) ↔ ∃ ds, ds.map Char.toLower = lower ∧ Grouped ds cs := by
  constructor
  · intro grouped
    obtain ⟨count, shape⟩ := grouped_iff.mp grouped
    have whole : cs.length = 36 := by
      rw [← List.length_map (f := Char.toLower), shape, length_hyphenate (by omega), count]
    have dropped := dropHyphens?_map cs
    rw [shape, dropHyphens?_hyphenate count, eq_comm, Option.map_eq_some_iff] at dropped
    obtain ⟨ds, dropped, rfl⟩ := dropped
    exact ⟨ds, rfl,
      grouped_iff.mpr ⟨by simpa using count, (hyphenate_of_dropHyphens? whole dropped).symm⟩⟩
  · rintro ⟨ds, rfl, grouped⟩
    obtain ⟨count, rfl⟩ := grouped_iff.mp grouped
    exact grouped_iff.mpr ⟨by simpa using count, map_hyphenate ds⟩

theorem grouped_print (u : Uid) : Grouped u.digits u.print.toList :=
  grouped_iff.mpr ⟨u.length_digits, by simp [print]⟩

/-- A text of a uid has the digits of the uid, in some case. -/
theorem exists_carries {u : Uid} {text : String} (spelled : u.SpelledBy text) :
    ∃ ds, Carries text ds ∧ ds.map Char.toLower = u.digits := by
  obtain ⟨form, written⟩ := spelled
  -- In each form the letters of the text are those of the digits, and what stands around them has
  -- one case.
  have laid : ∃ ds, LaidOut ds text.toList ∧ ds.map Char.toLower = u.digits := by
    have hyphens : ∀ cs : List Char, cs.map Char.toLower = hyphenate u.digits →
        ∃ ds, ds.map Char.toLower = u.digits ∧ Grouped ds cs := fun cs lower =>
      grouped_map_iff.mp (lower ▸ grouped_iff.mpr ⟨u.length_digits, rfl⟩)
    cases form with
    | digits => exact ⟨text.toList, .digits, written⟩
    | hyphenated =>
      obtain ⟨ds, lower, grouped⟩ := hyphens _ written
      exact ⟨ds, .hyphenated grouped, lower⟩
    | braced =>
      obtain ⟨first, rest, shape, opens, behind⟩ := List.map_eq_cons_iff.mp written
      obtain ⟨inner, closing, rfl, middle, closes⟩ := List.map_eq_append_iff.mp behind
      obtain ⟨last, tail, rfl, closes, empty⟩ := List.map_eq_cons_iff.mp closes
      obtain rfl := (Text.toLower_eq_iff (by decide)).mp opens
      obtain rfl := (Text.toLower_eq_iff (by decide)).mp closes
      obtain rfl := List.map_eq_nil_iff.mp empty
      obtain ⟨ds, lower, grouped⟩ := hyphens _ middle
      exact ⟨ds, shape ▸ .braced grouped, lower⟩
    | name =>
      obtain ⟨front, inner, shape, named, behind⟩ := List.map_eq_append_iff.mp written
      obtain ⟨ds, lower, grouped⟩ := hyphens _ behind
      exact ⟨ds, shape ▸ .name named grouped, lower⟩
  obtain ⟨ds, laid, lower⟩ := laid
  have count : ds.length = 32 := by rw [← List.length_map (f := Char.toLower), lower, length_digits]
  exact ⟨ds, ⟨count, isDigit_of_map lower, laid⟩, lower⟩

namespace Carries

variable {text : String} {ds : List Char}

theorem spelledBy {u : Uid} (carries : Carries text ds) (lower : ds.map Char.toLower = u.digits) :
    u.SpelledBy text := by
  have hyphens : ∀ {cs : List Char}, Grouped ds cs → cs.map Char.toLower = hyphenate u.digits := by
    intro cs grouped
    rw [(grouped_iff.mp grouped).2, map_hyphenate, lower]
  obtain ⟨-, -, form⟩ := carries
  generalize shape : text.toList = whole at form
  cases form with
  | digits => exact ⟨.digits, shape ▸ lower⟩
  | hyphenated grouped => exact ⟨.hyphenated, shape ▸ hyphens grouped⟩
  | braced grouped =>
    refine ⟨.braced, ?_⟩
    simp [shape, Spelling.write, hyphens grouped,
      (Text.toLower_eq_iff (c := '{') (d := '{') (by decide)).mpr,
      (Text.toLower_eq_iff (c := '}') (d := '}') (by decide)).mpr]
  | name named grouped =>
    refine ⟨.name, ?_⟩
    rw [shape, List.map_append, named, hyphens grouped]
    rfl

/-- A text is read as the uid with the digits that it carries. -/
theorem parse?_eq_some_iff (carries : Carries text ds) {u : Uid} :
    parse? text = some u ↔ ds.map Char.toLower = u.digits := by
  constructor
  · intro read
    obtain ⟨v, digits⟩ := exists_digits_eq carries.count carries.hex
    have again := parse?_eq_some.mpr (carries.spelledBy digits.symm)
    rw [← digits, Option.some.inj (read.symm.trans again)]
  · intro lower
    exact parse?_eq_some.mpr (carries.spelledBy lower)

end Carries

/-- The texts that are read are those that carry digits. -/
theorem exists_parse?_iff {text : String} :
    (∃ u, parse? text = some u) ↔ ∃ ds, Carries text ds := by
  constructor
  · rintro ⟨u, read⟩
    obtain ⟨ds, carries, -⟩ := exists_carries (parse?_eq_some.mp read)
    exact ⟨ds, carries⟩
  · rintro ⟨ds, carries⟩
    obtain ⟨u, digits⟩ := exists_digits_eq carries.count carries.hex
    exact ⟨u, carries.parse?_eq_some_iff.mpr digits.symm⟩

theorem parse?_print (u : Uid) : parse? u.print = some u := by
  have carries : Carries u.print u.digits :=
    ⟨u.length_digits, isDigit_of_map u.map_digits, .hyphenated u.grouped_print⟩
  exact carries.parse?_eq_some_iff.mpr u.map_digits

/-! ## Keys of the stores -/

/-- What the stores do under the first uid is done under the second. -/
structure OneKey (u v : Uid) : Prop where
  kept : ∀ (c : Cache) (s : Snapshot), s.uid = u → (c.upsert s).get? v = some s
  removed : ∀ c : Cache, (c.erase u).get? v = none
  marked : ∀ (g : Gate) (s : Snapshot) (finalizer : String), s.uid = u →
    s.hasFinalizer finalizer = true →
    (g.mark s true finalizer).get? v = some s.generation
  evicted : ∀ g : Gate, (g.erase u).get? v = none

/-- What the stores do under the first uid changes nothing under the second. -/
structure TwoKeys (u v : Uid) : Prop where
  kept : ∀ (c : Cache) (s : Snapshot), s.uid = u → (c.upsert s).get? v = c.get? v
  removed : ∀ c : Cache, (c.erase u).get? v = c.get? v
  marked : ∀ (g : Gate) (s : Snapshot) (finalizer : String), s.uid = u →
    (g.mark s true finalizer).get? v = g.get? v
  evicted : ∀ g : Gate, (g.erase u).get? v = g.get? v

theorem oneKey_self (u : Uid) : OneKey u u where
  kept := by
    rintro c s rfl
    simp [Cache.get?_upsert]
  removed c := by simp [Table.get?_erase]
  marked := by
    rintro g s finalizer rfl carried
    simp [Gate.get?_mark, carried]
  evicted g := by simp [Table.get?_erase]

theorem twoKeys_of_ne {u v : Uid} (other : u ≠ v) : TwoKeys u v where
  kept := by
    rintro c s rfl
    simp [Cache.get?_upsert, other.symm]
  removed c := by simp [Table.get?_erase, other.symm]
  marked := by
    rintro g s finalizer rfl
    simp [Gate.get?_mark, other.symm]
  evicted g := by simp [Table.get?_erase, other.symm]

theorem OneKey.not_twoKeys {u v : Uid} (one : OneKey u v) : ¬ TwoKeys u v := by
  intro two
  let marks : Gate := Table.insert Gate.empty v 0
  have gone := one.evicted marks
  rw [two.evicted, Table.get?_insert] at gone
  simp at gone

theorem oneKey_iff {u v : Uid} : OneKey u v ↔ u = v := by
  constructor
  · intro one
    by_contra other
    exact one.not_twoKeys (twoKeys_of_ne other)
  · rintro rfl
    exact oneKey_self u

theorem twoKeys_iff {u v : Uid} : TwoKeys u v ↔ u ≠ v := by
  constructor
  · rintro two rfl
    exact (oneKey_self u).not_twoKeys two
  · exact twoKeys_of_ne

/-- A uid survives being written and read again. A text is read exactly if it carries 32 digits in
one of the four forms, and the uid that is read prints these digits in groups and in lower case. Two
texts that are read denote one key of the stores if their digits agree but for the case, and else
two keys apart. -/
theorem texts_denote_keys :
    (∀ u : Uid, parse? u.print = some u) ∧
    (∀ text, (∃ u, parse? text = some u) ↔ ∃ ds, Carries text ds) ∧
    (∀ text ds u, Carries text ds → parse? text = some u →
      Grouped (ds.map Char.toLower) u.print.toList) ∧
    ∀ text text' ds ds' u u', Carries text ds → Carries text' ds' → parse? text = some u →
      parse? text' = some u' →
        (OneKey u u' ↔ ds.map Char.toLower = ds'.map Char.toLower) ∧
        (TwoKeys u u' ↔ ds.map Char.toLower ≠ ds'.map Char.toLower) := by
  refine ⟨parse?_print, fun text => exists_parse?_iff, ?_, ?_⟩
  · intro text ds u carries read
    rw [carries.parse?_eq_some_iff.mp read]
    exact u.grouped_print
  · intro text text' ds ds' u u' carries carries' read read'
    have same : u = u' ↔ ds.map Char.toLower = ds'.map Char.toLower := by
      rw [carries.parse?_eq_some_iff.mp read, carries'.parse?_eq_some_iff.mp read']
      exact ⟨congrArg digits, digits_injective⟩
    exact ⟨oneKey_iff.trans same, twoKeys_iff.trans same.not⟩

namespace Sample

/-- Digits of which only the first and the last group are given. -/
def digits (head tail : String) : List Char :=
  head.toList ++ ("0000".toList ++ ("4000".toList ++ ("8000".toList ++ tail.toList)))

def groups (head tail : String) : List Char :=
  head.toList ++ '-' ::
  ("0000".toList ++ '-' :: ("4000".toList ++ '-' :: ("8000".toList ++ '-' :: tail.toList)))

theorem grouped {head tail : String} (eight : head.toList.length = 8)
    (twelve : tail.toList.length = 12) : Grouped (digits head tail) (groups head tail) :=
  .intro eight (by decide) (by decide) (by decide) twelve

def braced : String := "\x7bABCDEF00-0000-4000-8000-00000000000F\x7d"

def named : String := "Urn:UUID:abcdef00-0000-4000-8000-00000000000f"

def other : String := "abcdef0000004000800000000000000e"

theorem carries_braced : Carries braced (digits "ABCDEF00" "00000000000F") where
  count := by decide
  hex := (bytesOf?_isSome_iff.mp (by decide)).1
  form := by
    have shape : braced.toList = '{' :: (groups "ABCDEF00" "00000000000F" ++ ['}']) := by decide
    exact shape ▸ .braced (grouped (by decide) (by decide))

theorem carries_named : Carries named (digits "abcdef00" "00000000000f") where
  count := by decide
  hex := (bytesOf?_isSome_iff.mp (by decide)).1
  form := by
    have shape : named.toList = "Urn:UUID:".toList ++ groups "abcdef00" "00000000000f" := by decide
    exact shape ▸ .name (by decide) (grouped (by decide) (by decide))

theorem carries_other : Carries other (digits "abcdef00" "00000000000e") where
  count := by decide
  hex := (bytesOf?_isSome_iff.mp (by decide)).1
  form := by
    have shape : other.toList = digits "abcdef00" "00000000000e" := by decide
    exact shape ▸ .digits

end Sample

open Sample in
/-- The form and the case of a text are lost on the way to its key, and a digit is not. -/
theorem texts_denote_keys_across_forms : ∃ u v w : Uid,
    parse? braced = some u ∧ parse? named = some v ∧ parse? other = some w ∧ OneKey u v ∧
    TwoKeys u w ∧
      u.print = "abcdef00-0000-4000-8000-00000000000f" := by
  obtain ⟨-, read, -, keys⟩ := texts_denote_keys
  obtain ⟨u, readBraced⟩ := (read braced).mpr ⟨_, carries_braced⟩
  obtain ⟨v, readNamed⟩ := (read named).mpr ⟨_, carries_named⟩
  obtain ⟨w, readOther⟩ := (read other).mpr ⟨_, carries_other⟩
  have one := (keys _ _ _ _ _ _ carries_braced carries_named readBraced readNamed).1.mpr (by decide)
  have two := (keys _ _ _ _ _ _ carries_braced carries_other readBraced readOther).2.mpr (by decide)
  refine ⟨u, v, w, readBraced, readNamed, readOther, one, two, ?_⟩
  have printed : (parse? braced).map print = some "abcdef00-0000-4000-8000-00000000000f" := by
    decide
  rw [readBraced] at printed
  exact Option.some.inj printed

end WatchDispatch.Uid
