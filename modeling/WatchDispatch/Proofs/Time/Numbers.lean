import WatchDispatch.Time.Instant
import Mathlib.Data.Nat.Digits.Defs

/-!
# Numbers in the texts of instants

A number is written with leading zeros up to a width, and it is read up to the first character that
is no digit. What was written is read back, whatever follows it, as long as that does not go on with
a digit.
-/

namespace WatchDispatch

namespace Text

/-- The text does not go on with a digit. -/
def StopsDigits (rest : List Char) : Prop := ∀ c ∈ rest.head?, c.isDigit = false

theorem stopsDigits_cons {c : Char} {rest : List Char} (other : c.isDigit = false) :
    StopsDigits (c :: rest) := by
  rintro _ ⟨⟩
  exact other

theorem isBlank_of_isDigit {c : Char} (digit : c.isDigit = true) : isBlank c = false := by
  have bounds : 48 ≤ c.toNat ∧ c.toNat ≤ 57 := by
    simpa [Char.isDigit, UInt32.le_iff_toNat_le] using digit
  simp only [isBlank, Bool.or_eq_false_iff, Bool.and_eq_false_imp, beq_eq_false_iff_ne,
    decide_eq_true_eq, decide_eq_false_iff_not]
  omega

theorem ofDigits_eq (ds : List Char) : ofDigits ds = Nat.ofDigitChars 10 ds 0 := by
  rw [Nat.ofDigitChars_eq_foldl, ofDigits]
  simp only [Nat.mul_comm]

theorem takeWhile_isDigit_append {ds rest : List Char} (digits : ∀ c ∈ ds, c.isDigit = true)
    (stops : StopsDigits rest) : (ds ++ rest).takeWhile Char.isDigit = ds := by
  rw [List.takeWhile_append_of_pos digits]
  cases rest with
  | nil => simp
  | cons c rest => simp [stops c rfl]

theorem dropWhile_isDigit_append {ds rest : List Char} (digits : ∀ c ∈ ds, c.isDigit = true)
    (stops : StopsDigits rest) : (ds ++ rest).dropWhile Char.isDigit = rest := by
  rw [List.dropWhile_append_of_pos digits]
  cases rest with
  | nil => rfl
  | cons c rest => simp [stops c rfl]

theorem trimStart_of_digits {ds rest : List Char} (digits : ∀ c ∈ ds, c.isDigit = true)
    (nonempty : ds ≠ []) : trimStart (ds ++ rest) = ds ++ rest := by
  cases ds with
  | nil => exact absurd rfl nonempty
  | cons c ds => exact trimStart_of_head (isBlank_of_isDigit (digits c List.mem_cons_self))

end Text

namespace Time.Instant

open Text

/-! ## Writing -/

theorem isDigit_of_mem_padded {width n : Nat} {c : Char} (mem : c ∈ padded width n) :
    c.isDigit = true := by
  rcases List.mem_append.mp mem with zero | digit
  · rw [List.eq_of_mem_replicate zero]
    rfl
  · exact Nat.isDigit_of_mem_toDigits (by omega) (by omega) digit

theorem padded_ne_nil (width n : Nat) : padded width n ≠ [] := by
  simp [padded, Nat.toDigits_ne_nil]

theorem padded_eq_cons (width n : Nat) : ∃ c cs, padded width n = c :: cs ∧ c.isDigit = true := by
  cases shape : padded width n with
  | nil => exact absurd shape (padded_ne_nil width n)
  | cons c cs =>
    have mem : c ∈ padded width n := by simp [shape]
    exact ⟨c, cs, rfl, isDigit_of_mem_padded mem⟩

theorem length_padded {width n : Nat} (positive : 0 < width) (fits : n < 10 ^ width) :
    (padded width n).length = width := by
  have short : (Nat.toDigits 10 n).length ≤ width :=
    (Nat.length_toDigits_le_iff (by omega) positive).mpr fits
  simp only [padded, List.length_append, List.length_replicate]
  omega

/-- Leading zeros do not count. -/
theorem ofDigits_padded (width n : Nat) : ofDigits (padded width n) = n := by
  rw [ofDigits_eq, padded, Nat.ofDigitChars_append, Nat.ofDigitChars_replicate_zero, Nat.mul_zero]
  exact Nat.ofDigitChars_ten_toDigits

/-! ## Reading -/

theorem readDigits_append {most : Nat} {ds rest : List Char} (digits : ∀ c ∈ ds, c.isDigit = true)
    (nonempty : ds ≠ []) (fits : ds.length ≤ most) (stops : StopsDigits rest) :
    readDigits most (ds ++ rest) = some (ofDigits ds, rest) := by
  have stopsEarlier : StopsDigits (rest.take (most - ds.length)) := by
    intro c first
    rw [List.head?_take] at first
    split at first
    · cases first
    · exact stops c first
  have found : ((ds ++ rest).take most).takeWhile Char.isDigit = ds := by
    rw [List.take_append, List.take_of_length_le fits]
    exact takeWhile_isDigit_append digits stopsEarlier
  simp [readDigits, found, nonempty]

theorem readDigits_padded {most width n : Nat} {rest : List Char}
    (fits : (padded width n).length ≤ most) (stops : StopsDigits rest) :
    readDigits most (padded width n ++ rest) = some (n, rest) := by
  rw [readDigits_append (fun c => isDigit_of_mem_padded) (padded_ne_nil width n) fits stops,
    ofDigits_padded]

/-- A number of any length. -/
theorem readDigits_length (width n : Nat) {rest : List Char} (stops : StopsDigits rest) :
    readDigits (padded width n ++ rest).length (padded width n ++ rest) = some (n, rest) := by
  refine readDigits_padded ?_ stops
  rw [List.length_append]
  omega

theorem trimStart_padded (width n : Nat) (rest : List Char) :
    trimStart (padded width n ++ rest) = padded width n ++ rest :=
  trimStart_of_digits (fun _ => isDigit_of_mem_padded) (padded_ne_nil width n)

theorem readNumber_padded {width n : Nat} {rest : List Char} (positive : 0 < width)
    (fits : n < 10 ^ width) (stops : StopsDigits rest) :
    readNumber width (padded width n ++ rest) = some (n, rest) := by
  rw [readNumber, trimStart_padded]
  exact readDigits_padded (Nat.le_of_eq (length_padded positive fits)) stops

/-- A mark in front of a number. -/
theorem readMark_padded {mark : Char} (visible : isBlank mark = false) (width n : Nat)
    (rest : List Char) :
    readMark mark (mark :: (padded width n ++ rest)) = some (padded width n ++ rest) := by
  simp [readMark, trimStart_of_head visible, trimStart_padded]

end Time.Instant

end WatchDispatch
