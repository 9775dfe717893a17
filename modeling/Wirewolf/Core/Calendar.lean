import Mathlib.Order.Lattice

/-!
# The Gregorian calendar

Dates of all years, those before year 1 included (year 0 is a leap year).
`Date.number` counts the days from the first day of year 0: the next day has
the next number (`number_next`), and the numbers are in the order of the dates
(`number_lt_iff`). `Stamp` adds the time of the day.
-/
namespace Wirewolf.Calendar

def IsLeap (y : Int) : Prop := y % 4 = 0 ∧ (y % 100 ≠ 0 ∨ y % 400 = 0)

instance decidableIsLeap : DecidablePred IsLeap := fun _ => inferInstanceAs (Decidable (_ ∧ _))

def yearLength (y : Int) : Nat := if IsLeap y then 366 else 365

def monthLength (y : Int) (m : Nat) : Nat :=
  if m = 2 then if IsLeap y then 29 else 28
  else if m = 4 ∨ m = 6 ∨ m = 9 ∨ m = 11 then 30
  else 31

structure Date where
  year : Int
  month : Nat
  day : Nat
  month_pos : 1 ≤ month
  month_le : month ≤ 12
  day_pos : 1 ≤ day
  day_le : day ≤ monthLength year month

theorem monthLength_le (y : Int) (m : Nat) : 28 ≤ monthLength y m ∧ monthLength y m ≤ 31 := by
  unfold monthLength
  split
  · split <;> omega
  · split <;> omega

theorem Date.day_le_31 (d : Date) : d.day ≤ 31 := d.day_le.trans (monthLength_le d.year d.month).2

/-! ## Counting days -/

/-- The days of the months before the `m`-th, counted from 1. -/
def daysBeforeMonth (y : Int) : Nat → Nat
  | 0 => 0
  | 1 => 0
  | m + 2 => daysBeforeMonth y (m + 1) + monthLength y (m + 1)

/-- From the first day of year 0. -/
def daysBeforeYear (y : Int) : Int := 365 * y + (y + 3) / 4 - (y + 99) / 100 + (y + 399) / 400

theorem daysBeforeYear_succ (y : Int) :
    daysBeforeYear (y + 1) = daysBeforeYear y + yearLength y := by
  unfold daysBeforeYear yearLength
  by_cases h : IsLeap y
  · rw [if_pos h]
    unfold IsLeap at h
    omega
  · rw [if_neg h]
    unfold IsLeap at h
    omega

theorem daysBeforeYear_mono {y y' : Int} (h : y ≤ y') : daysBeforeYear y ≤ daysBeforeYear y' := by
  unfold daysBeforeYear
  omega

theorem daysBeforeMonth_succ (y : Int) {m : Nat} (h : 1 ≤ m) :
    daysBeforeMonth y (m + 1) = daysBeforeMonth y m + monthLength y m := by
  obtain ⟨k, rfl⟩ := Nat.exists_eq_add_of_le' h
  rfl

theorem daysBeforeMonth_mono (y : Int) {m m' : Nat} (hm : 1 ≤ m) (h : m ≤ m') :
    daysBeforeMonth y m ≤ daysBeforeMonth y m' := by
  induction h with
  | refl => exact Nat.le_refl _
  | step hle ih =>
    exact (ih.trans (Nat.le_add_right _ _)).trans_eq (daysBeforeMonth_succ y (hm.trans hle)).symm

/-- The months make up the year. -/
theorem daysBeforeMonth_last (y : Int) : daysBeforeMonth y 13 = yearLength y := by
  simp only [daysBeforeMonth, monthLength, yearLength]
  by_cases h : IsLeap y <;> simp [h]

namespace Date

def number (d : Date) : Int := daysBeforeYear d.year + daysBeforeMonth d.year d.month + d.day - 1

/-! ## The next day -/

/-- The first day of a month. -/
def first (y : Int) (m : Nat) (hpos : 1 ≤ m) (hle : m ≤ 12) : Date where
  year := y
  month := m
  day := 1
  month_pos := hpos
  month_le := hle
  day_pos := Nat.le_refl 1
  day_le := Nat.le_trans (by decide) (monthLength_le y m).1

def next (d : Date) : Date :=
  if h : d.day < monthLength d.year d.month then
    { d with day := d.day + 1, day_pos := Nat.le_add_left 1 _, day_le := h }
  else if h : d.month < 12 then first d.year (d.month + 1) (Nat.le_add_left 1 _) h
  else first (d.year + 1) 1 (Nat.le_refl 1) (by omega)

theorem number_next (d : Date) : d.next.number = d.number + 1 := by
  have hday := d.day_le
  unfold next
  split
  · simp only [number]
    omega
  · next hlast =>
    have hmonth := daysBeforeMonth_succ d.year d.month_pos
    split
    · simp only [number, first]
      omega
    · next hdec =>
      have hyear := daysBeforeYear_succ d.year
      have htwelve : d.month = 12 := Nat.le_antisymm d.month_le (Nat.le_of_not_lt hdec)
      have hmonths : daysBeforeMonth d.year (12 + 1) = yearLength d.year :=
        daysBeforeMonth_last d.year
      have hfirst : daysBeforeMonth (d.year + 1) 1 = 0 := rfl
      rw [htwelve] at hmonth hlast hday
      simp only [number, first, htwelve, hfirst]
      omega

/-! ## The order of the dates -/

/-- By year, then by month, then by day. -/
def Before (d d' : Date) : Prop :=
  d.year < d'.year ∨ (d.year = d'.year ∧
    (d.month < d'.month ∨ (d.month = d'.month ∧ d.day < d'.day)))

theorem number_lt_year (d : Date) :
    daysBeforeYear d.year ≤ d.number ∧ d.number < daysBeforeYear (d.year + 1) := by
  have hday := d.day_le
  have hpos := d.day_pos
  have hmonth := daysBeforeMonth_succ d.year d.month_pos
  have hlast := daysBeforeMonth_mono d.year (Nat.le_add_left 1 d.month)
    (Nat.succ_le_succ d.month_le)
  rw [daysBeforeMonth_last] at hlast
  rw [daysBeforeYear_succ, number]
  omega

theorem number_lt_of_before {d d' : Date} (h : d.Before d') : d.number < d'.number := by
  rcases h with hyear | ⟨hyear, hmonth | ⟨hmonth, hday⟩⟩
  · have hle := daysBeforeYear_mono (Int.add_one_le_of_lt hyear)
    exact Int.lt_of_lt_of_le d.number_lt_year.2 (hle.trans d'.number_lt_year.1)
  · have hday := d.day_le
    have hpos := d'.day_pos
    have hsucc := daysBeforeMonth_succ d.year d.month_pos
    have hle := daysBeforeMonth_mono d.year (Nat.le_add_left 1 d.month) hmonth
    rw [number, number, ← hyear]
    omega
  · rw [number, number, ← hyear, ← hmonth]
    omega

theorem before_trichotomy (d d' : Date) : d.Before d' ∨ d.number = d'.number ∨ d'.Before d := by
  unfold Before number
  rcases Int.lt_trichotomy d.year d'.year with hyear | hyear | hyear
  · exact .inl (.inl hyear)
  · rcases Nat.lt_trichotomy d.month d'.month with hmonth | hmonth | hmonth
    · exact .inl (.inr ⟨hyear, .inl hmonth⟩)
    · rcases Nat.lt_trichotomy d.day d'.day with hday | hday | hday
      · exact .inl (.inr ⟨hyear, .inr ⟨hmonth, hday⟩⟩)
      · exact .inr (.inl (by rw [hyear, hmonth, hday]))
      · exact .inr (.inr (.inr ⟨hyear.symm, .inr ⟨hmonth.symm, hday⟩⟩))
    · exact .inr (.inr (.inr ⟨hyear.symm, .inl hmonth⟩))
  · exact .inr (.inr (.inl hyear))

/-- The numbers are in the order of the dates. -/
theorem number_lt_iff {d d' : Date} : d.number < d'.number ↔ d.Before d' := by
  refine ⟨fun h => ?_, number_lt_of_before⟩
  rcases before_trichotomy d d' with hd | hd | hd
  · exact hd
  · omega
  · exact absurd (number_lt_of_before hd) (by omega)

end Date

/-! ## Times of the day -/

/-- A time in microseconds. -/
structure Stamp where
  date : Date
  hour : Nat
  minute : Nat
  second : Nat
  micro : Nat
  hour_lt : hour < 24
  minute_lt : minute < 60
  second_lt : second < 60
  micro_lt : micro < 1000000

namespace Stamp

def ofDay (s : Stamp) : Nat := ((s.hour * 60 + s.minute) * 60 + s.second) * 1000000 + s.micro

/-- Microseconds since the first day of year 0. -/
def number (s : Stamp) : Int := s.date.number * 86400000000 + s.ofDay

/-- By date, then by the time of the day. -/
def Before (s s' : Stamp) : Prop :=
  s.date.Before s'.date ∨ (s.date.number = s'.date.number ∧ s.ofDay < s'.ofDay)

theorem ofDay_lt (s : Stamp) : s.ofDay < 86400000000 := by
  have hhour := s.hour_lt
  have hminute := s.minute_lt
  have hsecond := s.second_lt
  have hmicro := s.micro_lt
  unfold ofDay
  omega

theorem number_lt_iff {s s' : Stamp} : s.number < s'.number ↔ s.Before s' := by
  have hlt := s.ofDay_lt
  have hlt' := s'.ofDay_lt
  rw [Before, ← Date.number_lt_iff, number, number]
  omega

end Stamp
end Wirewolf.Calendar
