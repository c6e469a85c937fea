import Mathlib.Tactic
import WatchDispatch.Text.Split
import WatchDispatch.Uid

/-!
# The texts of a uid

A uid has four spellings, and the case of a letter says nothing. `Uid.SpelledBy` tells which texts
write a uid without reading them: a text does whose lower-case form is one of the four. Reading a
text (`Uid.parse?`) is decided by it, from one digit to the whole text.
-/

namespace WatchDispatch.Uid

inductive Spelling where
  /-- The 32 digits. -/
  | digits
  /-- The digits in groups of 8, 4, 4, 4 and 12. -/
  | hyphenated
  /-- The hyphenated form in braces. -/
  | braced
  /-- The hyphenated form as a uniform resource name. -/
  | name
deriving DecidableEq, Repr

def Spelling.write (u : Uid) : Spelling → List Char
  | .digits => u.digits
  | .hyphenated => hyphenate u.digits
  | .braced => '{' :: (hyphenate u.digits ++ ['}'])
  | .name => urn ++ hyphenate u.digits

/-- A text writes the uid, in some form and with letters of either case. -/
def SpelledBy (u : Uid) (text : String) : Prop :=
  ∃ form : Spelling, text.toList.map Char.toLower = form.write u

/-! ## Digits -/

theorem toNat_hexDigit {n : Nat} (small : n < 16) :
    (hexDigit n).toNat = if n < 10 then 48 + n else 87 + n := by
  decide +revert

theorem hexValue?_eq_some {c : Char} {n : Nat} :
    hexValue? c = some n ↔ n < 16 ∧ c.toLower = hexDigit n := by
  have same : n < 16 → (c.toLower = hexDigit n ↔ c.toLower.toNat = (hexDigit n).toNat) := fun _ =>
    ⟨congrArg _, fun h => Char.toNat_inj.mp h⟩
  constructor
  · intro h
    have small : n < 16 := by
      simp only [hexValue?] at h
      split_ifs at h <;> simp at h <;> omega
    refine ⟨small, (same small).mpr ?_⟩
    rw [Text.toNat_toLower, toNat_hexDigit small]
    simp only [hexValue?] at h
    split_ifs at h <;> rw [Option.some.injEq] at h <;> split_ifs <;> omega
  · rintro ⟨small, h⟩
    have code := (same small).mp h
    rw [Text.toNat_toLower, toNat_hexDigit small] at code
    simp only [hexValue?]
    split_ifs at code ⊢ <;> first | omega | (rw [Option.some.injEq]; omega)

/-- Digits are read two at a time, high half first. -/
theorem bytesOf?_eq_some {cs : List Char} {bytes : List UInt8} :
    bytesOf? cs = some bytes ↔ cs.map Char.toLower = digitsOf bytes := by
  induction cs using bytesOf?.induct generalizing bytes with
  | case1 => cases bytes <;> simp [bytesOf?, digitsOf]
  | case2 => cases bytes <;> simp [bytesOf?, digitsOf]
  | case3 a b rest ih =>
    constructor
    · intro h
      simp only [bytesOf?, Option.bind_eq_bind, Option.bind_eq_some_iff, Option.some.injEq] at h
      obtain ⟨high, ha, low, hb, tail, read, rfl⟩ := h
      obtain ⟨smallHigh, upper⟩ := hexValue?_eq_some.mp ha
      obtain ⟨smallLow, lower⟩ := hexValue?_eq_some.mp hb
      have value : (UInt8.ofNat (high * 16 + low)).toNat = high * 16 + low := by
        simp; omega
      have quotient : (high * 16 + low) / 16 = high := by omega
      have remainder : (high * 16 + low) % 16 = low := by omega
      simp only [List.map_cons, ih.mp read, digitsOf, List.flatMap_cons, value, quotient,
        remainder, upper, lower, List.cons_append, List.nil_append]
    · intro h
      cases bytes with
      | nil => simp [digitsOf] at h
      | cons byte tail =>
        simp only [List.map_cons, digitsOf, List.flatMap_cons, List.cons_append, List.nil_append,
          List.cons.injEq] at h
        obtain ⟨upper, lower, same⟩ := h
        have small := byte.toNat_lt
        have high := hexValue?_eq_some.mpr ⟨by omega, upper⟩
        have low := hexValue?_eq_some.mpr ⟨by omega, lower⟩
        have whole : byte.toNat / 16 * 16 + byte.toNat % 16 = byte.toNat := by omega
        simp only [bytesOf?, high, low, ih.mpr same, Option.bind_eq_bind, Option.bind_some, whole,
          UInt8.ofNat_toNat]

theorem length_digitsOf (bytes : List UInt8) : (digitsOf bytes).length = 2 * bytes.length := by
  induction bytes with
  | nil => rfl
  | cons byte tail ih =>
    simp only [digitsOf, List.flatMap_cons, List.length_append, List.length_cons, List.length_nil]
      at ih ⊢
    omega

theorem length_digits (u : Uid) : u.digits.length = 32 := by
  rw [digits, length_digitsOf, u.size]

theorem ofDigits?_eq_some {cs : List Char} {u : Uid} :
    ofDigits? cs = some u ↔ cs.map Char.toLower = u.digits := by
  constructor
  · intro h
    obtain ⟨bytes, read, made⟩ := Option.bind_eq_some_iff.mp h
    unfold ofBytes? at made
    split at made <;> simp only [Option.some.injEq, reduceCtorEq] at made
    subst made
    exact bytesOf?_eq_some.mp read
  · intro h
    have made : ofBytes? u.bytes = some u := dif_pos u.size
    rw [ofDigits?, bytesOf?_eq_some.mpr h, Option.bind_some, made]

/-! ## Hyphens -/

theorem length_hyphenate {ds : List Char} (enough : 20 ≤ ds.length) :
    (hyphenate ds).length = ds.length + 4 := by
  simp only [hyphenate, List.length_append, List.length_cons, List.length_take, List.length_drop]
  omega

theorem length_hyphenate_digits (u : Uid) : (hyphenate u.digits).length = 36 := by
  rw [length_hyphenate (by rw [length_digits]; omega), length_digits]

theorem map_hyphenate (ds : List Char) :
    (hyphenate ds).map Char.toLower = hyphenate (ds.map Char.toLower) := by
  simp [hyphenate, List.map_take, List.map_drop]

section Groups

variable {a b c d e : List Char} (la : a.length = 8) (lb : b.length = 4) (lc : c.length = 4)
  (ld : d.length = 4)
include la lb lc ld

theorem hyphenate_groups : hyphenate (a ++ (b ++ (c ++ (d ++ e)))) =
    a ++ '-' :: (b ++ '-' :: (c ++ '-' :: (d ++ '-' :: e))) := by
  simp [hyphenate, List.drop_append, List.drop_eq_nil_of_le, la, lb, lc, ld]

theorem dropHyphens?_groups :
    dropHyphens? (a ++ '-' :: (b ++ '-' :: (c ++ '-' :: (d ++ '-' :: e)))) =
    some (a ++ (b ++ (c ++ (d ++ e)))) := by
  simp [dropHyphens?, List.getElem?_append, List.drop_append, List.drop_eq_nil_of_le,
    la, lb, lc, ld]

end Groups

theorem drop_eq_take_append {α : Type _} (cs : List α) (n k : Nat) :
    cs.drop n = (cs.drop n).take k ++ cs.drop (n + k) := by
  rw [← List.drop_drop, List.take_append_drop]

theorem drop_eq_cons {α : Type _} {cs : List α} {n : Nat} {c : α} (h : cs[n]? = some c) :
    cs.drop n = c :: cs.drop (n + 1) := by
  obtain ⟨inside, rfl⟩ := List.getElem?_eq_some_iff.mp h
  exact List.drop_eq_getElem_cons inside

theorem groups_eq (ds : List Char) :
    ds = ds.take 8 ++ ((ds.drop 8).take 4 ++ ((ds.drop 12).take 4 ++
    ((ds.drop 16).take 4 ++ ds.drop 20))) := by
  rw [← drop_eq_take_append, ← drop_eq_take_append, ← drop_eq_take_append, List.take_append_drop]

theorem dropHyphens?_hyphenate {ds : List Char} (whole : ds.length = 32) :
    dropHyphens? (hyphenate ds) = some ds := by
  rw [hyphenate, dropHyphens?_groups (by simp; omega) (by simp; omega) (by simp; omega)
    (by simp; omega), ← groups_eq]

/-- Hyphens are dropped only where they stand behind the 8th, 12th, 16th and 20th other
character. -/
theorem hyphenate_of_dropHyphens? {cs ds : List Char} (whole : cs.length = 36)
    (h : dropHyphens? cs = some ds) : hyphenate ds = cs := by
  unfold dropHyphens? at h
  split at h
  case isFalse => simp at h
  case isTrue hyphens =>
    obtain ⟨first, second, third, fourth⟩ := hyphens
    obtain rfl := Option.some.inj h
    rw [hyphenate_groups (by simp; omega) (by simp; omega) (by simp; omega) (by simp; omega),
      ← drop_eq_cons fourth, ← drop_eq_take_append, ← drop_eq_cons third, ← drop_eq_take_append,
      ← drop_eq_cons second, ← drop_eq_take_append, ← drop_eq_cons first, List.take_append_drop]

theorem dropHyphens?_map (cs : List Char) :
    dropHyphens? (cs.map Char.toLower) = (dropHyphens? cs).map (List.map Char.toLower) := by
  have hyphen : ∀ n : Nat, (cs.map Char.toLower)[n]? = some '-' ↔ cs[n]? = some '-' := fun n => by
    rw [List.getElem?_map, Option.map_eq_some_iff]
    simp [Text.toLower_eq_iff (d := '-') (by decide)]
  simp only [dropHyphens?, hyphen]
  split <;> simp [List.map_take, List.map_drop]

theorem ofHyphenated?_eq_some {cs : List Char} {u : Uid} :
    ofHyphenated? cs = some u ↔ cs.map Char.toLower = hyphenate u.digits := by
  constructor
  · intro h
    unfold ofHyphenated? at h
    split at h
    case isFalse => simp at h
    case isTrue whole =>
      obtain ⟨ds, dropped, read⟩ := Option.bind_eq_some_iff.mp h
      rw [← hyphenate_of_dropHyphens? whole dropped, map_hyphenate, ofDigits?_eq_some.mp read]
  · intro h
    have whole : cs.length = 36 := by
      rw [← List.length_map (f := Char.toLower), h, length_hyphenate_digits]
    have dropped := dropHyphens?_map cs
    rw [h, dropHyphens?_hyphenate (length_digits u), eq_comm, Option.map_eq_some_iff] at dropped
    obtain ⟨ds, dropped, lower⟩ := dropped
    rw [ofHyphenated?, if_pos whole, dropped, Option.bind_some, ofDigits?_eq_some.mpr lower]

/-! ## Whole texts -/

theorem length_urn : urn.length = 9 := by decide

/-- No two forms have the same length, so the length of a text tells its form. -/
def Spelling.length : Spelling → Nat
  | .digits => 32
  | .hyphenated => 36
  | .braced => 38
  | .name => 45

theorem Spelling.length_write (u : Uid) (form : Spelling) :
    (form.write u).length = form.length := by
  cases form <;> simp [Spelling.write, Spelling.length, length_digits,
    length_hyphenate_digits, length_urn]

theorem map_braced {cs ds : List Char} (whole : cs.length = ds.length + 2) :
    cs.map Char.toLower = '{' :: (ds ++ ['}']) ↔
      (cs.head? = some '{' ∧ cs.getLast? = some '}') ∧
        ((cs.drop 1).take ds.length).map Char.toLower = ds := by
  obtain _ | ⟨first, tail⟩ := cs
  · simp at whole
  obtain rfl | ⟨inner, last, rfl⟩ := List.eq_nil_or_concat' tail
  · simp at whole
  have same : inner.length = ds.length := by simpa using whole
  have brace : first.toLower = '{' ↔ first = '{' := Text.toLower_eq_iff (by decide)
  have close : last.toLower = '}' ↔ last = '}' := Text.toLower_eq_iff (by decide)
  have ends : inner.map Char.toLower ++ [last.toLower] = ds ++ ['}'] ↔
      inner.map Char.toLower = ds ∧ last.toLower = '}' :=
    ⟨fun h => by simpa using List.append_inj' h rfl, fun h => by rw [h.1, h.2]⟩
  have final : (first :: (inner ++ [last])).getLast? = some last :=
    List.getLast?_concat (l := first :: inner)
  simp only [List.map_cons, List.map_append, List.map_nil, List.cons.injEq, ends, brace,
    close, final, List.head?_cons, Option.some.injEq, List.drop_one, List.tail_cons, ← same,
    List.take_left]
  tauto

theorem map_name {cs ds : List Char} :
    cs.map Char.toLower = urn ++ ds ↔
      (cs.take 9).map Char.toLower = urn ∧ (cs.drop 9).map Char.toLower = ds := by
  constructor
  · intro h
    rw [List.map_take, List.map_drop, h]
    exact ⟨List.take_left' length_urn, List.drop_left' length_urn⟩
  · rintro ⟨head, tail⟩
    rw [← head, ← tail, ← List.map_append, List.take_append_drop]

theorem parse?_of_length {text : String} {u : Uid} {form : Spelling}
    (h : text.toList.length = form.length) :
    parse? text = some u ↔ text.toList.map Char.toLower = form.write u := by
  cases form with
  | digits =>
    simp only [Spelling.length] at h
    simp only [parse?, h, ↓reduceIte]
    exact ofDigits?_eq_some
  | hyphenated =>
    simp only [Spelling.length] at h
    simp only [parse?, h, Nat.reduceEqDiff, ↓reduceIte]
    exact ofHyphenated?_eq_some
  | braced =>
    simp only [Spelling.length] at h
    have whole : text.toList.length = (hyphenate u.digits).length + 2 := by
      rw [h, length_hyphenate_digits]
    simp only [parse?, h, Nat.reduceEqDiff, ↓reduceIte, Spelling.write, map_braced whole,
      length_hyphenate_digits]
    rw [← ofHyphenated?_eq_some]
    split
    case isTrue marked => simp only [marked, and_self, true_and]
    case isFalse marked => simp only [marked, false_and, reduceCtorEq]
  | name =>
    simp only [Spelling.length] at h
    simp only [parse?, h, Nat.reduceEqDiff, ↓reduceIte, Spelling.write, map_name]
    rw [← ofHyphenated?_eq_some]
    split
    case isTrue marked => simp only [marked, true_and]
    case isFalse marked => simp only [marked, false_and, reduceCtorEq]

/-- Reading a text gives the uid that the text writes, and only that. -/
theorem parse?_eq_some {text : String} {u : Uid} : parse? text = some u ↔ u.SpelledBy text := by
  constructor
  · intro h
    have form : ∃ form : Spelling, text.toList.length = form.length := by
      simp only [parse?] at h
      split_ifs at h with simple hyphenated braced _ name
      · exact ⟨.digits, simple⟩
      · exact ⟨.hyphenated, hyphenated⟩
      · exact ⟨.braced, braced⟩
      · exact ⟨.name, name⟩
    obtain ⟨form, length⟩ := form
    exact ⟨form, (parse?_of_length length).mp h⟩
  · rintro ⟨form, h⟩
    have length : text.toList.length = form.length := by
      rw [← Spelling.length_write u form, ← h, List.length_map]
    exact (parse?_of_length length).mpr h

end WatchDispatch.Uid
