import BuilderControl.Instant
import BuilderControl.Proofs.Records

/-!
# Points in time are read as they are written

An instant that was read is a second of a day that the calendar reaches, and is written in full.
Its text is read as the same instant: no part of it is longer than a reader takes, and no part runs
into the next one.

## Key results

- `Instant.valid_read`: what is read is a second of the calendar
- `Instant.read_text`: what is written is read as it was
-/

namespace BuilderControl.Instant

/-! ## The calendar -/

/-- Every month has 28 to 31 days. -/
theorem daysInMonth_bounds (year : Int) (month : Nat) :
    28 ≤ daysInMonth year month ∧ daysInMonth year month ≤ 31 := by
  unfold daysInMonth
  split
  · split <;> omega
  · split <;> omega

/-- A year, a month and a day of it. -/
def IsDate : Int × Nat × Nat → Prop
  | (year, month, day) =>
    (1 ≤ month ∧ month ≤ 12) ∧ 1 ≤ day ∧ day ≤ daysInMonth year month

/-- The day after a date is a date. -/
theorem IsDate.nextDay {date : Int × Nat × Nat} (h : IsDate date) : IsDate (nextDay date) := by
  obtain ⟨year, month, day⟩ := date
  obtain ⟨hmonth, hday⟩ := h
  have hdays := daysInMonth_bounds year (month + 1)
  simp only [Instant.nextDay]
  -- The day is followed by another one of its month, of its year, or of the next year
  split
  · exact ⟨hmonth, by omega⟩
  · split
    · exact ⟨by omega, by omega⟩
    · exact ⟨by omega, by simp [daysInMonth]⟩

/-- The day before a date is a date. -/
theorem IsDate.previousDay {date : Int × Nat × Nat} (h : IsDate date) :
    IsDate (previousDay date) := by
  obtain ⟨year, month, day⟩ := date
  obtain ⟨hmonth, hday⟩ := h
  have hdays := daysInMonth_bounds year (month - 1)
  simp only [Instant.previousDay]
  split
  · exact ⟨hmonth, by omega⟩
  · split
    · exact ⟨by omega, by omega⟩
    · exact ⟨by omega, by simp [daysInMonth]⟩

/-- A second of a day. -/
structure IsSecond (t : Instant) : Prop where
  date : IsDate (t.year, t.month, t.day)
  hour : t.hour ≤ 23
  minute : t.minute ≤ 59
  second : t.second ≤ 60

/-- A second of a day is one in UTC as well, of this day or of one beside it. -/
theorem IsSecond.toUtc {t : Instant} (h : t.IsSecond) (minutes : Int) :
    (t.toUtc minutes).IsSecond := by
  simp only [Instant.toUtc]
  -- The clock is set within one day
  have hclock : 0 ≤ ((t.hour * 60 + t.minute - minutes : Int) % 1440) ∧
      ((t.hour * 60 + t.minute - minutes : Int) % 1440) < 1440 := by omega
  refine ⟨?_, by simp only; omega, by simp only; omega, h.second⟩
  simp only
  split
  · exact h.date.previousDay
  · split
    · exact h.date.nextDay
    · exact h.date

/-- In UTC, an instant is what it is. -/
theorem IsSecond.toUtc_zero {t : Instant} (h : t.IsSecond) : t.toUtc 0 = t := by
  have hhour := h.hour
  have hminute := h.minute
  obtain ⟨year, month, day, hour, minute, second⟩ := t
  simp only at hhour hminute
  have hclock : ((hour : Int) * 60 + minute - 0) = ((hour * 60 + minute : Nat) : Int) := by omega
  simp only [Instant.toUtc, hclock]
  rw [if_neg (by omega), if_neg (by omega)]
  simp only [mk.injEq, true_and, and_true]
  omega

/-- A second of a day that the calendar reaches. -/
structure Valid (t : Instant) : Prop extends IsSecond t where
  reached : reaches t.year = true

/-! ## What is read -/

/-- A number that is read as a part of a time is within its bounds. -/
theorem bounds_of_field {low high n : Nat} {cs rest : List Char}
    (h : field low high cs = .ok (n, rest)) : low ≤ n ∧ n ≤ high := by
  simp only [field, Except.bind_ok_iff] at h
  obtain ⟨⟨n', rest'⟩, -, h⟩ := h
  split at h
  · rename_i hbounds
    cases h
    exact hbounds
  · cases h

/-- What is read is a second of a day that the calendar reaches. -/
theorem valid_read {text : String} {t : Instant} (h : read text = .ok t) : t.Valid := by
  simp only [read, Except.bind_ok_iff] at h
  obtain ⟨⟨year, _⟩, -, _, -, ⟨month, _⟩, hmonth, _, -, ⟨day, _⟩, hday, _, -, ⟨hour, _⟩, hhour, _,
    -, ⟨minute, _⟩, hminute, _, -, ⟨second, _⟩, hsecond, _, -, ⟨minutes, rest⟩, -, h⟩ := h
  split at h
  · cases h
  · split at h
    · cases h
    · rename_i hrange
      simp only [not_or, Int.not_le, Nat.not_lt] at hrange
      -- Each part was read within its bounds, and the day was compared with its month
      have hclock : IsSecond ⟨year, month, day, hour, minute, second⟩ :=
        ⟨⟨bounds_of_field hmonth, (bounds_of_field hday).1, hrange.1⟩, (bounds_of_field hhour).2,
          (bounds_of_field hminute).2, (bounds_of_field hsecond).2⟩
      split at h
      · rename_i hreaches
        cases h
        exact ⟨hclock.toUtc minutes, hreaches⟩
      · cases h

/-! ## Numbers -/

/-- A digit is no blank. -/
theorem isBlank_of_isDigit {c : Char} (h : c.isDigit = true) : isBlank c = false := by
  have hrange : 48 ≤ c.toNat ∧ c.toNat ≤ 57 := by
    simpa [Char.isDigit, UInt32.le_iff_toNat_le] using h
  have hspace : c ≠ ' ' := by
    rintro rfl
    exact absurd hrange.1 (by decide)
  simp only [isBlank, Bool.or_eq_false_iff, Bool.and_eq_false_iff, beq_eq_false_iff_ne,
    decide_eq_false_iff_not]
  and_intros
  · exact hspace
  -- The other blanks lie outside the range of digits
  all_goals omega

/-- The value of digits. -/
def valueOf (digits : List Char) : Nat :=
  digits.foldl (fun n c => n * 10 + (c.toNat - '0'.toNat)) 0

/-- All digits are read if no more are wanted, or no more follow. -/
theorem number_append {width : Nat} {digits rest : List Char}
    (hd : ∀ c ∈ digits, c.isDigit = true) (hne : digits ≠ [])
    (hwidth : digits.length = width ∨
      (digits.length ≤ width ∧ ∀ c ∈ rest.head?, c.isDigit = false))
    (hvalue : valueOf digits < Nat.pow 2 63) :
    number width (digits ++ rest) = .ok (valueOf digits, rest) := by
  have htaken : ((digits ++ rest).take width).takeWhile Char.isDigit = digits := by
    have hall : digits.takeWhile Char.isDigit = digits := by
      simpa using @List.takeWhile_append_of_pos _ Char.isDigit digits [] hd
    rcases hwidth with rfl | ⟨hle, hrest⟩
    · -- The digits fill the width
      rw [List.take_left, hall]
    · -- The first character behind the digits is no digit
      rw [List.take_append, List.take_of_length_le hle, List.takeWhile_append_of_pos hd]
      cases rest with
      | nil => simp
      | cons c rest =>
        have hc : c.isDigit = false := hrest c rfl
        cases width - digits.length <;> simp [hc]
  have hempty : (digits ++ rest).isEmpty = false := by
    cases digits with
    | nil => exact absurd rfl hne
    | cons c digits => rfl
  have hempty' : digits.isEmpty = false := by simpa using hne
  simp only [number, htaken, hempty, hempty', Bool.false_eq_true, if_false, List.drop_left]
  exact if_neg (Nat.not_le.2 hvalue)

/-- A padded number consists of digits. -/
theorem isDigit_of_mem_padded {width n : Nat} {c : Char} (h : c ∈ (padded width n).toList) :
    c.isDigit = true := by
  simp only [padded, String.toList_ofList, List.mem_append, List.mem_replicate] at h
  rcases h with ⟨-, rfl⟩ | h
  · rfl
  · exact Nat.isDigit_of_mem_toDigits (by omega) (by omega) h

/-- Zeros before a number do not count. -/
theorem valueOf_padded (width n : Nat) : valueOf (padded width n).toList = n := by
  have hzeros : ∀ count, (List.replicate count '0').foldl
      (fun n c => n * 10 + (c.toNat - '0'.toNat)) 0 = 0 := by
    intro count
    induction count with
    | zero => rfl
    | succ count ih => exact ih
  have hdigits : valueOf (Nat.toDigits 10 n) = Nat.ofDigitChars 10 (Nat.toDigits 10 n) 0 := by
    simp only [valueOf, Nat.ofDigitChars_eq_foldl, Nat.mul_comm]
  simp only [padded, String.toList_ofList, valueOf, List.foldl_append, hzeros]
  exact hdigits.trans Nat.ofDigitChars_ten_toDigits

/-- A padded number has a digit. -/
theorem padded_ne_nil (width n : Nat) : (padded width n).toList ≠ [] := by
  simp only [padded, String.toList_ofList]
  exact List.append_ne_nil_of_right_ne_nil _ Nat.toDigits_ne_nil

/-- A number that is not too long is padded to the width. -/
theorem length_padded {width n : Nat} (hwidth : 0 < width) (hn : n < Nat.pow 10 width) :
    (padded width n).toList.length = width := by
  have hlen := (Nat.length_toDigits_le_iff (b := 10) (by omega) hwidth).2 hn
  simp only [padded, String.toList_ofList, List.length_append, List.length_replicate]
  omega

/-! ## Parts of a text -/

/-- Blanks that do not come first are not skipped. -/
theorem dropWhile_isBlank {c : Char} (h : isBlank c = false) (cs : List Char) :
    (c :: cs).dropWhile isBlank = c :: cs := by
  rw [List.dropWhile_cons_of_neg (by rw [h]; simp)]

/-- Blanks do not stand before a number that was padded. -/
theorem dropWhile_isBlank_padded (width n : Nat) (rest : List Char) :
    ((padded width n).toList ++ rest).dropWhile isBlank = (padded width n).toList ++ rest := by
  cases hp : (padded width n).toList with
  | nil => exact absurd hp (padded_ne_nil width n)
  | cons c digits =>
    have hc : c ∈ (padded width n).toList := by
      rw [hp]
      exact List.mem_cons_self
    exact dropWhile_isBlank (isBlank_of_isDigit (isDigit_of_mem_padded hc)) _

/-- A part of two digits is read from where it was written. -/
theorem field_padded {low high n : Nat} (h : low ≤ n ∧ n ≤ high) (hhigh : high < 100)
    (rest : List Char) : field low high ((padded 2 n).toList ++ rest) = .ok (n, rest) := by
  have hnumber := @number_append 2 (padded 2 n).toList rest (fun _ => isDigit_of_mem_padded)
    (padded_ne_nil 2 n) (.inl (length_padded (by omega) (by simp only [Nat.pow_eq]; omega)))
    (by rw [valueOf_padded]; exact Nat.lt_of_le_of_lt (m := 99) (by omega) (by decide))
  rw [valueOf_padded] at hnumber
  rw [field, dropWhile_isBlank_padded, hnumber]
  exact if_pos h

/-- A separator is read from where it was written. -/
theorem separator_cons {c : Char} (h : isBlank c = false) (rest : List Char) :
    separator c (c :: rest) = .ok ((), rest) := by
  rw [separator, dropWhile_isBlank h]
  exact if_pos rfl

/-- A year is read from where its digits were written, if they end there. -/
theorem number_padded {width : Nat} {n : Nat} (hn : n < Nat.pow 2 31) {rest : List Char}
    (hwidth : (padded 4 n).toList.length = width ∨
      ((padded 4 n).toList.length ≤ width ∧ ∀ c ∈ rest.head?, c.isDigit = false)) :
    number width ((padded 4 n).toList ++ rest) = .ok (n, rest) := by
  have hnumber := @number_append width (padded 4 n).toList rest (fun _ => isDigit_of_mem_padded)
    (padded_ne_nil 4 n) hwidth
    (by rw [valueOf_padded]; exact Nat.lt_trans hn (by decide))
  rwa [valueOf_padded] at hnumber

/-- A year of no more than 31 bits is in the range of signed numbers of 32. -/
private theorem year_bounds {i : Int} (h : i.natAbs < Nat.pow 2 31) :
    -((Nat.pow 2 31 : Nat) : Int) ≤ i ∧ i < ((Nat.pow 2 31 : Nat) : Int) := by
  omega

section

variable {n : Nat} {cs rest : List Char} (hn : n < Nat.pow 2 31)
include hn

/-- A year is read after a minus sign. -/
theorem yearField_minus (h : number cs.length cs = .ok (n, rest)) :
    yearField ('-' :: cs) = .ok (-(n : Int), rest) := by
  have hbound := year_bounds (i := -(n : Int)) (by omega)
  rw [yearField, dropWhile_isBlank (by decide)]
  split
  · rename_i heq
    cases heq
    exact Except.bind_ok_iff.2 ⟨_, h, Except.bind_ok_iff.2 ⟨_, rfl, if_pos hbound⟩⟩
  · rename_i heq
    exact absurd (List.cons.inj heq).1 (by decide)
  · rename_i hminus _
    exact absurd rfl (hminus cs)

/-- A year is read after a plus sign. -/
theorem yearField_plus (h : number cs.length cs = .ok (n, rest)) :
    yearField ('+' :: cs) = .ok ((n : Int), rest) := by
  have hbound := year_bounds (i := n) (by omega)
  rw [yearField, dropWhile_isBlank (by decide)]
  split
  · rename_i heq
    exact absurd (List.cons.inj heq).1 (by decide)
  · rename_i heq
    cases heq
    exact Except.bind_ok_iff.2 ⟨_, h, Except.bind_ok_iff.2 ⟨_, rfl, if_pos hbound⟩⟩
  · rename_i hplus
    exact absurd rfl (hplus cs)

/-- A year of four digits is read without a sign. -/
theorem yearField_unsigned {c : Char} (hc : c.isDigit = true)
    (h : number 4 (c :: cs) = .ok (n, rest)) : yearField (c :: cs) = .ok ((n : Int), rest) := by
  have hbound := year_bounds (i := n) (by omega)
  rw [yearField, dropWhile_isBlank (isBlank_of_isDigit hc)]
  split
  · rename_i heq
    cases heq
    cases hc
  · rename_i heq
    cases heq
    cases hc
  · exact Except.bind_ok_iff.2 ⟨_, h, Except.bind_ok_iff.2 ⟨_, rfl, if_pos hbound⟩⟩

end

/-- A year is read from where it was written, up to the dash behind it. -/
theorem yearField_yearText {year : Int} (h : reaches year = true) (rest : List Char) :
    yearField ((yearText year).toList ++ '-' :: rest) = .ok (year, '-' :: rest) := by
  have hrange : -262143 ≤ year ∧ year ≤ 262142 := by simpa [reaches] using h
  have hfits : year.natAbs < Nat.pow 2 31 := by
    simp only [Nat.pow_eq]
    omega
  -- A dash ends the digits, however many there are.
  have hdash : ∀ c ∈ ('-' :: rest).head?, c.isDigit = false := by
    intro c hc
    cases hc
    rfl
  rw [yearText]
  split
  · -- Four digits, and no sign
    rename_i hyear
    have hread := @number_padded 4 year.toNat (by omega) ('-' :: rest)
      (.inl (length_padded (by omega) (by simp only [Nat.pow_eq]; omega)))
    cases hp : (padded 4 year.toNat).toList with
    | nil => exact absurd hp (padded_ne_nil 4 year.toNat)
    | cons c digits =>
      have hc : c.isDigit = true := isDigit_of_mem_padded (hp ▸ List.mem_cons_self)
      rw [hp] at hread
      refine (yearField_unsigned (by omega) hc hread).trans ?_
      rw [Int.toNat_of_nonneg hyear.1]
  · -- After a sign, digits are read up to the dash
    rename_i hyear
    have hread := @number_padded ((padded 4 year.natAbs).toList ++ '-' :: rest).length year.natAbs
      (by omega) ('-' :: rest) (.inr ⟨by simp, hdash⟩)
    have hminus : "-".toList = ['-'] := rfl
    have hplus : "+".toList = ['+'] := rfl
    rw [String.toList_append, List.append_assoc]
    split
    · rw [hminus, List.singleton_append, yearField_minus (by omega) hread,
        show -(year.natAbs : Int) = year by omega]
    · rw [hplus, List.singleton_append, yearField_plus (by omega) hread,
        show (year.natAbs : Int) = year by omega]

/-- The parts of what is written, one after the other. -/
private theorem toList_text (t : Instant) :
    t.text.toList = (yearText t.year).toList ++ '-' :: ((padded 2 t.month).toList ++
      '-' :: ((padded 2 t.day).toList ++ 'T' :: ((padded 2 t.hour).toList ++
      ':' :: ((padded 2 t.minute).toList ++ ':' :: ((padded 2 t.second).toList ++ ['Z']))))) := by
  have hdash : "-".toList = ['-'] := rfl
  have hmark : "T".toList = ['T'] := rfl
  have hcolon : ":".toList = [':'] := rfl
  have hzone : "Z".toList = ['Z'] := rfl
  simp only [text, String.toList_append, hdash, hmark, hcolon, hzone, List.append_assoc,
    List.cons_append, List.nil_append]

/-- What is written is read as it was. -/
theorem read_text {t : Instant} (h : t.Valid) : read t.text = .ok t := by
  have hmark : ∀ cs, dateMark ('T' :: cs) = .ok ((), cs) := fun _ => rfl
  have hfraction : fraction ['Z'] = .ok ((), ['Z']) := rfl
  have hzone : zone ['Z'] = .ok (0, []) := rfl
  have hday : t.day ≤ 31 := Nat.le_trans h.date.2.2 (daysInMonth_bounds _ _).2
  have hrange : ¬(daysInMonth t.year t.month < t.day ∨ (0 : Int) ≤ -1440 ∨ (1440 : Int) ≤ 0 ∨
      False) := by
    simpa using h.date.2.2
  simp only [read, Except.bind_ok_iff, toList_text]
  -- One part after the other
  refine ⟨_, yearField_yearText h.reached _, _, separator_cons (by decide) _,
    _, field_padded h.date.1 (by omega) _, _, separator_cons (by decide) _,
    _, field_padded ⟨h.date.2.1, hday⟩ (by omega) _, _, hmark _,
    _, field_padded ⟨Nat.zero_le _, h.hour⟩ (by omega) _, _, separator_cons (by decide) _,
    _, field_padded ⟨Nat.zero_le _, h.minute⟩ (by omega) _, _, separator_cons (by decide) _,
    _, field_padded ⟨Nat.zero_le _, h.second⟩ (by omega) _, _, hfraction, _, hzone, ?_⟩
  simp only [List.all_nil, Bool.not_true, Bool.false_eq_true, if_false, h.toUtc_zero, h.reached,
    if_true]
  exact if_neg hrange

end BuilderControl.Instant
