import WatchDispatch.Proofs.Time.Numbers
import WatchDispatch.Text.Numeral

/-!
# Decimal numerals

A numeral is said without the reader: each digit counts according to its place, and a plus sign may
stand in front. The reader takes exactly the numerals whose numbers have 32 bits, and it makes no
difference whether the number is looked at when it is complete or after every digit.
-/

namespace WatchDispatch.Text

/-- The text consists of digits, at least one, and this is the number that they stand for. -/
inductive Decimal : List Char → Nat → Prop
  | last {d : Nat} : d < 10 → Decimal [d.digitChar] d
  | more {d n : Nat} {ds : List Char} : d < 10 → Decimal ds n →
      Decimal (d.digitChar :: ds) (d * 10 ^ ds.length + n)

/-- A text that stands for a number: its digits, with or without one plus sign in front. -/
inductive Numeral (s : String) (n : Nat) : Prop
  | plain : Decimal s.toList n → Numeral s n
  | signed {ds : List Char} : s.toList = '+' :: ds → Decimal ds n → Numeral s n

/-! ## Digits -/

/-- The first digit counts according to its place, the others as they do without it. -/
theorem ofDigits_cons (c : Char) (ds : List Char) :
    ofDigits (c :: ds) = (c.toNat - '0'.toNat) * 10 ^ ds.length + ofDigits ds := by
  rw [ofDigits_eq, ofDigits_eq, Nat.ofDigitChars_cons, Nat.ofDigitChars_eq_ofDigitChars_zero,
    Nat.mul_zero, Nat.zero_add, Nat.mul_comm]

theorem digitChar_of_isDigit {c : Char} (digit : c.isDigit = true) :
    c.toNat - '0'.toNat < 10 ∧ (c.toNat - '0'.toNat).digitChar = c := by
  have bounds : 48 ≤ c.toNat ∧ c.toNat ≤ 57 := by
    simpa [Char.isDigit, UInt32.le_iff_toNat_le] using digit
  have small : c.toNat - '0'.toNat < 10 := by
    change c.toNat - 48 < 10
    omega
  refine ⟨small, Char.toNat_inj.mp ?_⟩
  rw [Nat.toNat_digitChar_of_lt_ten small]
  change 48 + (c.toNat - 48) = c.toNat
  omega

/-- Digits stand for the number that is read off them, and for no other one. -/
theorem decimal_iff {ds : List Char} {n : Nat} :
    Decimal ds n ↔ ds ≠ [] ∧ (∀ c ∈ ds, c.isDigit = true) ∧ ofDigits ds = n := by
  have digit : ∀ {d}, d < 10 → d.digitChar.isDigit = true := fun small => by
    rw [Nat.isDigit_digitChar]
    exact decide_eq_true small
  constructor
  · intro decimal
    induction decimal with
    | @last d small =>
      refine ⟨List.cons_ne_nil _ _, by simpa using digit small, ?_⟩
      rw [ofDigits_cons, List.length_nil, Nat.pow_zero, Nat.mul_one]
      exact Nat.toNat_digitChar_sub_48_of_lt_ten small
    | @more d n ds small rest ih =>
      obtain ⟨-, digits, value⟩ := ih
      refine ⟨List.cons_ne_nil _ _, List.forall_mem_cons.mpr ⟨digit small, digits⟩, ?_⟩
      rw [ofDigits_cons, value]
      exact congrArg (· * 10 ^ ds.length + n) (Nat.toNat_digitChar_sub_48_of_lt_ten small)
  · rintro ⟨some, digits, rfl⟩
    induction ds with
    | nil => exact absurd rfl some
    | cons c ds ih =>
      obtain ⟨first, others⟩ := List.forall_mem_cons.mp digits
      obtain ⟨small, same⟩ := digitChar_of_isDigit first
      rw [ofDigits_cons]
      cases ds with
      | nil =>
        have last := Decimal.last small
        rw [same] at last
        simpa [ofDigits] using last
      | cons next ds =>
        have more := Decimal.more small (ih (List.cons_ne_nil _ _) others)
        rwa [same] at more

/-! ## Reading -/

theorem digits?_eq_some_iff {s : String} {ds : List Char} : digits? s = some ds ↔
    (s.toList = ds ∨ s.toList = '+' :: ds) ∧ ds ≠ [] ∧ ∀ c ∈ ds, c.isDigit = true := by
  have plus : '+'.isDigit = false := rfl
  unfold digits?
  split
  next rest signed =>
    simp only [signed, List.cons.injEq, true_and, Option.ite_none_right_eq_some, Option.some.injEq,
      List.all_eq_true]
    constructor
    · rintro ⟨⟨some, digits⟩, rfl⟩
      exact ⟨.inr rfl, some, digits⟩
    · rintro ⟨rfl | rfl, some, digits⟩
      · exact absurd (digits '+' List.mem_cons_self) (by simp [plus])
      · exact ⟨⟨some, digits⟩, rfl⟩
  next plain =>
    simp only [Option.ite_none_right_eq_some, Option.some.injEq, List.all_eq_true]
    constructor
    · rintro ⟨⟨some, digits⟩, rfl⟩
      exact ⟨.inl rfl, some, digits⟩
    · rintro ⟨same | signed, some, digits⟩
      · exact ⟨⟨same ▸ some, same ▸ digits⟩, same⟩
      · exact absurd signed (plain ds)

/-- A numeral stands for the number of its digits. -/
theorem numeral_iff {s : String} {n : Nat} :
    Numeral s n ↔ ∃ ds, digits? s = some ds ∧ ofDigits ds = n := by
  simp only [digits?_eq_some_iff]
  constructor
  · rintro (decimal | ⟨signed, decimal⟩)
    · obtain ⟨some, digits, value⟩ := decimal_iff.mp decimal
      exact ⟨_, ⟨.inl rfl, some, digits⟩, value⟩
    · obtain ⟨some, digits, value⟩ := decimal_iff.mp decimal
      exact ⟨_, ⟨.inr signed, some, digits⟩, value⟩
  · rintro ⟨ds, ⟨rfl | signed, some, digits⟩, value⟩
    · exact .plain (decimal_iff.mpr ⟨some, digits, value⟩)
    · exact .signed signed (decimal_iff.mpr ⟨some, digits, value⟩)

theorem Numeral.unique {s : String} {n m : Nat} (numeral : Numeral s n) (again : Numeral s m) :
    n = m := by
  obtain ⟨ds, read, rfl⟩ := numeral_iff.mp numeral
  obtain ⟨ds', read', rfl⟩ := numeral_iff.mp again
  rw [Option.some.inj (read.symm.trans read')]

/-- What is read are the numerals of the numbers that have 32 bits. -/
theorem nat32?_eq_some_iff {s : String} {n : Nat} :
    nat32? s = some n ↔ Numeral s n ∧ n < UInt32.size := by
  rw [numeral_iff, nat32?]
  cases digits? s with
  | none => simp
  | some ds =>
    simp only [Option.bind_eq_bind, Option.bind_some, Option.ite_none_right_eq_some,
      Option.some.injEq, exists_eq_left']
    constructor
    · rintro ⟨fits, rfl⟩
      exact ⟨rfl, fits⟩
    · rintro ⟨rfl, fits⟩
      exact ⟨fits, rfl⟩

/-! ## Reading digit by digit -/

/-- A number with one more digit, unless that takes more than 32 bits. -/
def push32? (n : Nat) (c : Char) : Option Nat :=
  let n := n * 10 + (c.toNat - '0'.toNat)
  if n < UInt32.size then some n else none

/-- Digits that follow a number do not make it smaller. -/
theorem le_pushDigits (ds : List Char) (n : Nat) :
    n ≤ ds.foldl (fun n c => n * 10 + (c.toNat - '0'.toNat)) n := by
  induction ds generalizing n with
  | nil => exact Nat.le_refl n
  | cons c ds ih => exact Nat.le_trans (by omega) (ih (n * 10 + (c.toNat - '0'.toNat)))

/-- A loop that gives up at the first number with more than 32 bits gives up exactly if the last one
has more. -/
theorem foldlM_push32? (ds : List Char) {n : Nat} (fits : n < UInt32.size) :
    let whole := ds.foldl (fun n c => n * 10 + (c.toNat - '0'.toNat)) n
    ds.foldlM push32? n = if whole < UInt32.size then some whole else none := by
  induction ds generalizing n with
  | nil => simp [fits]
  | cons c ds ih =>
    intro whole
    rw [List.foldlM_cons, push32?]
    by_cases more : n * 10 + (c.toNat - '0'.toNat) < UInt32.size
    · rw [if_pos more]
      exact ih more
    · -- The number is too large already, and what follows does not make it smaller.
      have large : ¬ whole < UInt32.size := by
        have grows := le_pushDigits ds (n * 10 + (c.toNat - '0'.toNat))
        change ¬ ds.foldl _ (n * 10 + (c.toNat - '0'.toNat)) < _
        omega
      rw [if_neg more, if_neg large]
      rfl

/-- Digits may be read one by one, with a look at the size of the number after each. -/
theorem nat32?_eq_foldlM (s : String) :
    nat32? s = (digits? s).bind (fun ds => ds.foldlM push32? 0) := by
  unfold nat32?
  cases digits? s with
  | none => rfl
  | some ds => exact (foldlM_push32? ds (by decide : 0 < UInt32.size)).symm

end WatchDispatch.Text
