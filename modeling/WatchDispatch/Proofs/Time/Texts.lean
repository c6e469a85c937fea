import WatchDispatch.Proofs.Time.Numbers

/-!
# Texts of instants

Every instant is read back from the text that is written for it, with whatever number of fraction
digits. Cut to whole seconds it is read back without its fraction. What is read lies in the range of
years, so every instant that was read once can be written and read again.
-/

namespace WatchDispatch.Time

open Text

/-! ## Times of day -/

namespace Clock

theorem shownNano_lt (c : Clock) : c.shownNano < 1000000000 := by
  have := c.nano_lt
  simp only [shownNano]
  split <;> omega

theorem shownSecond_lt (c : Clock) : c.shownSecond < 100 := by
  have := c.second_lt
  simp only [shownSecond]
  split <;> omega

/-- A time of day has the numbers that are written for it. -/
theorem ofNumbers?_shown (c : Clock) :
    ofNumbers? c.hour c.minute c.shownSecond c.shownNano = some c := by
  have hour := c.hour_lt
  have minute := c.minute_lt
  have second := c.second_lt
  have nano := c.nano_lt
  by_cases leap : 1000000000 ≤ c.nano
  · -- The sixtieth second is written, and read as the fifty-ninth with more than a second's
    -- nanoseconds.
    have last := c.leap leap
    have sixty : c.shownSecond = 60 := by simp [shownSecond, leap, last]
    have within : c.shownNano = c.nano - 1000000000 := if_pos leap
    have restored : c.nano - 1000000000 + 1000000000 = c.nano := by omega
    rw [sixty, within, ofNumbers?, dif_neg (by omega), dif_pos ⟨hour, minute, rfl, by omega⟩]
    cases c
    simp_all
  · simp [ofNumbers?, shownSecond, shownNano, leap, hour, minute, second, Nat.lt_of_not_le leap]

@[simp] theorem wholeSecond_hour (c : Clock) : c.wholeSecond.hour = c.hour := by
  unfold wholeSecond
  split <;> rfl

@[simp] theorem wholeSecond_minute (c : Clock) : c.wholeSecond.minute = c.minute := by
  unfold wholeSecond
  split <;> rfl

@[simp] theorem shownSecond_wholeSecond (c : Clock) :
    c.wholeSecond.shownSecond = c.shownSecond := by
  unfold wholeSecond
  split <;> simp [shownSecond, *]

@[simp] theorem shownNano_wholeSecond (c : Clock) : c.wholeSecond.shownNano = 0 := by
  unfold wholeSecond
  split <;> simp [shownNano]

@[simp] theorem wholeSecond_wholeSecond (c : Clock) :
    c.wholeSecond.wholeSecond = c.wholeSecond := by
  by_cases leap : 1000000000 ≤ c.nano <;> simp [wholeSecond, leap]

end Clock

namespace Instant

@[simp] theorem wholeSecond_date (t : Instant) : t.wholeSecond.date = t.date := rfl

@[simp] theorem wholeSecond_wholeSecond (t : Instant) :
    t.wholeSecond.wholeSecond = t.wholeSecond := by
  simp [wholeSecond]

/-- At no offset from UTC the local time is the time itself. -/
theorem ofLocal_zero (t : Instant) : ofLocal t.date t.clock 0 = t := by
  have hour := t.clock.hour_lt
  have minute := t.clock.minute_lt
  have early : ¬ ((t.clock.hour : Int) * 60 + t.clock.minute - 0 < 0) := by omega
  have late : ¬ (1440 ≤ (t.clock.hour : Int) * 60 + t.clock.minute - 0) := by omega
  have minutes : ((t.clock.hour : Int) * 60 + t.clock.minute - 0).toNat
      = t.clock.hour * 60 + t.clock.minute := by omega
  have hours : (t.clock.hour * 60 + t.clock.minute) / 60 % 24 = t.clock.hour := by omega
  have rest : (t.clock.hour * 60 + t.clock.minute) % 60 = t.clock.minute := by omega
  simp only [ofLocal, early, late, if_false, minutes, Clock.withMinutes, hours, rest]

/-! ## Dates -/

theorem readYear_yearText (year : Int) {rest : List Char} (stops : StopsDigits rest) :
    readYear (yearText year ++ rest) = some (year, rest) := by
  unfold yearText
  split
  · next negative =>
    have size : -(year.natAbs : Int) = year := by omega
    rw [List.cons_append, readYear, trimStart_of_head (show isBlank '-' = false from rfl)]
    simp only [readDigits_length 4 year.natAbs stops, Option.map_some, size]
  · split
    · next late =>
      have size : (year.toNat : Int) = year := by omega
      rw [List.cons_append, readYear, trimStart_of_head (show isBlank '+' = false from rfl)]
      simp only [readDigits_length 4 year.toNat stops, Option.map_some, size]
    · next early late =>
      have size : (year.toNat : Int) = year := by omega
      have short : (padded 4 year.toNat).length ≤ 4 :=
        Nat.le_of_eq (length_padded (by omega) (by omega))
      have found : readDigits 4 (padded 4 year.toNat ++ rest) = some (year.toNat, rest) :=
        readDigits_padded short stops
      -- A digit is no sign.
      obtain ⟨c, cs, shape, digit⟩ := padded_eq_cons 4 year.toNat
      rw [readYear, trimStart_padded]
      rw [shape, List.cons_append] at found ⊢
      split
      · cases ‹_ = _›
        exact absurd digit (by decide)
      · cases ‹_ = _›
        exact absurd digit (by decide)
      · simp only [found, Option.map_some, size]

/-- A date is read back, whatever follows its digits. -/
theorem readDate_dateText {d : Date} (range : yearInRange d.year = true) (rest : List Char)
    (stops : StopsDigits rest) :
    readDate (yearText d.year ++ '-' :: (padded 2 d.month ++ '-' :: (padded 2 d.day ++ rest)))
      = some (d, rest) := by
  have month : d.month < 10 ^ 2 := Nat.lt_of_le_of_lt d.month_le (by omega)
  have day : d.day < 10 ^ 2 := by
    have := d.day_le
    unfold daysIn at this
    split at this <;> split at this <;> omega
  have dash : isBlank '-' = false := rfl
  have stop {rest : List Char} : StopsDigits ('-' :: rest) := stopsDigits_cons rfl
  simp [readDate, readYear_yearText d.year stop, readMark_padded dash,
    readNumber_padded (by omega) month stop, readNumber_padded (by omega) day stops, range,
    Date.ofNumbers?_self]

/-! ## Times -/

/-- At most nine digits after the point count in full. -/
theorem readFraction_padded {width n : Nat} (positive : 0 < width) (short : width ≤ 9)
    (fits : n < 10 ^ width) {rest : List Char} (stops : StopsDigits rest) :
    readFraction ('.' :: (padded width n ++ rest)) = some (n * 10 ^ (9 - width), rest) := by
  have size := length_padded positive fits
  have kept : (padded width n).take 9 = padded width n := List.take_of_length_le (by omega)
  simp only [readFraction, takeWhile_isDigit_append (fun _ => isDigit_of_mem_padded) stops,
    dropWhile_isDigit_append (fun _ => isDigit_of_mem_padded) stops, padded_ne_nil, if_false, kept,
    ofDigits_padded, size, Nat.pow_eq]

theorem readFraction_fractionText {nano : Nat} (lt : nano < 1000000000) (rest : List Char) :
    readFraction (fractionText nano ++ 'Z' :: rest) = some (nano, 'Z' :: rest) := by
  have stop : StopsDigits ('Z' :: rest) := stopsDigits_cons rfl
  unfold fractionText
  split
  · next zero =>
    subst zero
    simp [readFraction]
  · split
    · next millis =>
      rw [List.cons_append, readFraction_padded (by omega) (by omega) (by omega) stop]
      have exact : nano / 1000000 * 10 ^ (9 - 3) = nano := by omega
      rw [exact]
    · split
      · next micros =>
        rw [List.cons_append, readFraction_padded (by omega) (by omega) (by omega) stop]
        have exact : nano / 1000 * 10 ^ (9 - 6) = nano := by omega
        rw [exact]
      · rw [List.cons_append, readFraction_padded (by omega) (by omega) (by omega) stop]
        have exact : nano * 10 ^ (9 - 9) = nano := by omega
        rw [exact]

/-- A time of day is read back up to the letter after it. -/
theorem readClock_clockText (c : Clock) (rest : List Char) :
    readClock (padded 2 c.hour ++ ':' :: (padded 2 c.minute ++ ':' ::
        (padded 2 c.shownSecond ++ (fractionText c.shownNano ++ 'Z' :: rest))))
      = some (c, 'Z' :: rest) := by
  have hour : c.hour < 10 ^ 2 := Nat.lt_trans c.hour_lt (by omega)
  have minute : c.minute < 10 ^ 2 := Nat.lt_trans c.minute_lt (by omega)
  have second : c.shownSecond < 10 ^ 2 := c.shownSecond_lt
  have colon : isBlank ':' = false := rfl
  have stop {rest : List Char} : StopsDigits (':' :: rest) := stopsDigits_cons rfl
  have stopFraction : StopsDigits (fractionText c.shownNano ++ 'Z' :: rest) := by
    unfold fractionText
    split
    · exact stopsDigits_cons rfl
    · split
      · exact stopsDigits_cons rfl
      · split <;> exact stopsDigits_cons rfl
  simp [readClock, readMark_padded colon, readNumber_padded (by omega) hour stop,
    readNumber_padded (by omega) minute stop, readNumber_padded (by omega) second stopFraction,
    readFraction_fractionText c.shownNano_lt, Clock.ofNumbers?_shown]

/-! ## Instants -/

/-- Every instant within the range of years is read back from its text. -/
theorem parse?_print {t : Instant} (range : yearInRange t.date.year = true) :
    parse? t.print = some t := by
  have date := readDate_dateText range ('T' :: (padded 2 t.clock.hour ++ ':' ::
    (padded 2 t.clock.minute ++ ':' :: (padded 2 t.clock.shownSecond ++
      (fractionText t.clock.shownNano ++ ['Z']))))) (stopsDigits_cons rfl)
  have clock := readClock_clockText t.clock []
  have between : ∀ cs, readBetween ('T' :: cs) = some cs := fun _ => rfl
  have zone : readOffset (trimStart ['Z']) = some (0, []) := by decide
  have done : (trimStart []).isEmpty = true := rfl
  simp only [parse?, print, secondText, String.toList_ofList, List.append_assoc,
    List.cons_append, date, between, clock, zone, done, Option.bind_eq_bind, Option.bind_some,
    ofLocal_zero, range,
    Bool.and_self, if_true]

theorem print_wholeSecond (t : Instant) : t.wholeSecond.print = t.printSecond := by
  simp [print, printSecond, secondText, wholeSecond, fractionText]

theorem printSecond_wholeSecond (t : Instant) : t.wholeSecond.printSecond = t.printSecond := by
  rw [← print_wholeSecond, wholeSecond_wholeSecond, print_wholeSecond]

/-- The text cut to whole seconds is that of the same instant without its fraction. -/
theorem parse?_printSecond {t : Instant} (range : yearInRange t.date.year = true) :
    parse? t.printSecond = some t.wholeSecond := by
  rw [← print_wholeSecond]
  exact parse?_print range

/-- Only instants within the range of years are read. -/
theorem yearInRange_of_parse? {s : String} {t : Instant} (read : parse? s = some t) :
    yearInRange t.date.year = true := by
  simp only [parse?, Option.bind_eq_bind, Option.bind_eq_some_iff, Option.ite_none_right_eq_some,
    Bool.and_eq_true] at read
  obtain ⟨_, _, _, _, _, _, _, _, ⟨_, range⟩, found⟩ := read
  rw [← Option.some.inj found]
  exact range

end Instant

end WatchDispatch.Time
