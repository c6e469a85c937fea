/-!
Blank characters and trimmed text.

A character is blank when it has the Unicode property White_Space: twenty-five code points, of which
six are ASCII. Namespace lists, names and finalizers are trimmed and tested for blankness by this
class. The lemmas say that trimming keeps the middle of a text, that a trimmed text starts and ends
with characters that are not blank, and that trimming twice is trimming once.
-/

namespace WatchDispatch.Text

def isBlank (c : Char) : Bool :=
  let n := c.toNat
  (0x09 ≤ n && n ≤ 0x0D) || n == 0x20 || n == 0x85 || n == 0xA0 || n == 0x1680 ||
    (0x2000 ≤ n && n ≤ 0x200A) || n == 0x2028 || n == 0x2029 || n == 0x202F || n == 0x205F ||
    n == 0x3000

def trimStart (cs : List Char) : List Char := cs.dropWhile isBlank

def trimEnd (cs : List Char) : List Char := (cs.reverse.dropWhile isBlank).reverse

def trimChars (cs : List Char) : List Char := trimEnd (trimStart cs)

/-- The text without blank characters at its ends. -/
def trim (s : String) : String := String.ofList (trimChars s.toList)

/-- Whether nothing but blank characters is in the text. -/
def allBlank (s : String) : Bool := s.toList.all isBlank

theorem allBlank_append (first second : String) :
    allBlank (first ++ second) = (allBlank first && allBlank second) := by
  simp [allBlank]

theorem ne_empty_of_visible {text : String} (visible : allBlank text = false) : text ≠ "" := by
  rintro rfl
  cases visible

theorem trimStart_of_head {c : Char} {cs : List Char} (visible : isBlank c = false) :
    trimStart (c :: cs) = c :: cs := by
  simp [trimStart, visible]

theorem visible_of_trimStart {c : Char} {cs rest : List Char} (started : trimStart cs = c :: rest) :
    isBlank c = false := by
  have visible := List.head?_dropWhile_not isBlank cs
  rw [show cs.dropWhile isBlank = c :: rest from started] at visible
  simpa using visible

theorem trimStart_idem (cs : List Char) : trimStart (trimStart cs) = trimStart cs := by
  induction cs with
  | nil => rfl
  | cons c cs ih =>
    by_cases h : isBlank c
    · simpa [trimStart, h] using ih
    · simp [trimStart, h]

theorem trimEnd_idem (cs : List Char) : trimEnd (trimEnd cs) = trimEnd cs := by
  simpa [trimEnd, trimStart] using trimStart_idem cs.reverse

/-- A text whose first character is not blank keeps it when its end is trimmed. -/
theorem trimEnd_cons {c : Char} (cs : List Char) (visible : isBlank c = false) :
    ∃ rest, trimEnd (c :: cs) = c :: rest := by
  have key : ∀ xs : List Char, ∃ ys, (xs ++ [c]).dropWhile isBlank = ys ++ [c] := by
    intro xs
    induction xs with
    | nil => exact ⟨[], by simp [visible]⟩
    | cons x xs ih =>
      by_cases h : isBlank x
      · obtain ⟨ys, hy⟩ := ih
        exact ⟨ys, by simpa [h] using hy⟩
      · exact ⟨x :: xs, by simp [h]⟩
  obtain ⟨ys, hy⟩ := key cs.reverse
  exact ⟨ys.reverse, by simp [trimEnd, hy]⟩

theorem trimChars_idem (cs : List Char) : trimChars (trimChars cs) = trimChars cs := by
  unfold trimChars
  cases hs : trimStart cs with
  | nil => rfl
  | cons c rest =>
    have visible := visible_of_trimStart hs
    obtain ⟨tail, ht⟩ := trimEnd_cons rest visible
    rw [ht, trimStart_of_head visible, ← ht, trimEnd_idem]

theorem trim_trim (s : String) : trim (trim s) = trim s := by
  simp [trim, trimChars_idem]

/-! ## What is left of a trimmed text -/

/-- Characters of which the first and the last are not blank. -/
def Visible (cs : List Char) : Prop :=
  (∃ c, cs.head? = some c ∧ isBlank c = false) ∧ ∃ c, cs.getLast? = some c ∧ isBlank c = false

theorem trimStart_append {before : List Char} (blank : before.all isBlank) (cs : List Char) :
    trimStart (before ++ cs) = trimStart cs :=
  List.dropWhile_append_of_pos (by simpa using blank)

theorem trimEnd_append {after : List Char} (blank : after.all isBlank) (cs : List Char) :
    trimEnd (cs ++ after) = trimEnd cs := by
  have blank : after.reverse.all isBlank := by simpa using blank
  rw [trimEnd, List.reverse_append]
  exact congrArg List.reverse (trimStart_append blank cs.reverse)

theorem exists_trimStart (cs : List Char) :
    ∃ before : List Char, before.all isBlank ∧ cs = before ++ trimStart cs :=
  ⟨cs.takeWhile isBlank, List.all_takeWhile, List.takeWhile_append_dropWhile.symm⟩

theorem exists_trimEnd (cs : List Char) :
    ∃ after : List Char, after.all isBlank ∧ cs = trimEnd cs ++ after := by
  obtain ⟨before, blank, parts⟩ := exists_trimStart cs.reverse
  refine ⟨before.reverse, by simpa using blank, ?_⟩
  simpa [trimEnd, trimStart] using congrArg List.reverse parts

/-- Only blanks go: the trimmed text stands between them. -/
theorem exists_trimChars (cs : List Char) :
    ∃ before after : List Char, before.all isBlank ∧ after.all isBlank ∧
      cs = before ++ trimChars cs ++ after := by
  obtain ⟨before, blankBefore, first⟩ := exists_trimStart cs
  obtain ⟨after, blankAfter, last⟩ := exists_trimEnd (trimStart cs)
  refine ⟨before, after, blankBefore, blankAfter, ?_⟩
  rw [trimChars, List.append_assoc, ← last, ← first]

/-- All blanks at the ends go. -/
theorem visible_trimChars {cs : List Char} (left : trimChars cs ≠ []) :
    Visible (trimChars cs) := by
  constructor
  · cases started : trimStart cs with
    | nil => exact absurd (by rw [trimChars, started]; rfl) left
    | cons c rest =>
      have visible := visible_of_trimStart started
      obtain ⟨tail, ended⟩ := trimEnd_cons rest visible
      exact ⟨c, by rw [trimChars, started, ended]; rfl, visible⟩
  · have reversed : trimChars cs = (trimStart (trimStart cs).reverse).reverse := rfl
    cases ended : trimStart (trimStart cs).reverse with
    | nil => exact absurd (by rw [reversed, ended]; rfl) left
    | cons c rest => exact ⟨c, by simp [reversed, ended], visible_of_trimStart ended⟩

/-- A text whose ends are not blank is what is left of it between blanks. -/
theorem trimChars_between {before cs after : List Char} (blankBefore : before.all isBlank)
    (visible : Visible cs) (blankAfter : after.all isBlank) :
    trimChars (before ++ cs ++ after) = cs := by
  obtain ⟨⟨first, starts, firstVisible⟩, ⟨last, ends, lastVisible⟩⟩ := visible
  have kept : trimStart (cs ++ after) = cs ++ after := by
    cases cs with
    | nil => simp at starts
    | cons c rest => exact trimStart_of_head (by simp_all)
  rw [trimChars, List.append_assoc, trimStart_append blankBefore, kept, trimEnd_append blankAfter]
  obtain ⟨rest, rfl⟩ := List.getLast?_eq_some_iff.mp ends
  simp [trimEnd, lastVisible]

end WatchDispatch.Text
