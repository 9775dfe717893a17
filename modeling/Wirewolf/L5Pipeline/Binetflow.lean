import Mathlib.Tactic.IntervalCases
import Wirewolf.Core.Calendar
import Wirewolf.Core.Double
import Wirewolf.L3Table.StateString
import Wirewolf.L5Pipeline.Training

/-!
# Training on flow lists (`read_binetflow`)

The other mode of the trainer takes the flows from the lists themselves and
groups them by their addresses, port and protocol. The start of a flow is a
date and a time, turned into seconds by `days_from_civil`.

* `daysFromCivil_eq`: that is the number of the day in the calendar.
* `parseTime_lt_iff`: from 1834 to 2105 the starts are ordered as their time
  stamps are, and less than half a microsecond off.
* `grouped_training`: neither the order of the rows nor their split into files
  changes what is trained, as long as flows of a connection that start together
  have the same letter.

The sums of `parse_time` are rounded as doubles; the readers of floating-point
numbers are parameters.
-/
namespace Wirewolf.L5.Binetflow

open Wirewolf.Calendar
open Wirewolf.Numeral (value printInt splitSign)
open Wirewolf.L1.Config (stoull)
open Wirewolf.L1.Normalizer (toLower)
open Wirewolf.L3.Behavior (Flow)
open Wirewolf.L3.FlowRecord
open Wirewolf.L3.Markov Wirewolf.L3.TrainLabels
open Wirewolf.L5.Allowlist (scanChar)
open Wirewolf.L5.Training

/-! ## Dates -/

/-- Days since 1970-01-01.
mirrors src/tools/train_behavioral/train.cpp:61-69 -/
def daysFromCivil (y : Int) (m d : UInt32) : Int :=
  let y := if m ≤ 2 then y - 1 else y
  let era := (if 0 ≤ y then y else y - 399).tdiv 400
  let yoe := UInt32.ofInt (y - era * 400)
  let doy := (153 * (m + if 2 < m then -3 else 9) + 2) / 5 + d - 1
  let doe := yoe * 365 + yoe / 4 - yoe / 100 + doy
  era * 146097 + doe.toNat - 719468

/-- The year that begins in March. -/
def marchYear (y : Int) (m : Nat) : Int := if m ≤ 2 then y - 1 else y

/-- The days before the month in that year. -/
def marchDays (m : Nat) : Nat := (153 * (if 2 < m then m - 3 else m + 9) + 2) / 5

/-- February is last in that year, so only the months behind it see whether it
is a long one. -/
theorem daysBeforeMonth_march (y : Int) {m : Nat} (hpos : 1 ≤ m) (hle : m ≤ 12) :
    daysBeforeMonth y m + (if 2 < m then 0 else 306) =
      marchDays m + (if 2 < m then if IsLeap y then 60 else 59 else 0) := by
  by_cases hleap : IsLeap y
  · interval_cases m <;> simp [daysBeforeMonth, monthLength, marchDays, hleap]
  · interval_cases m <;> simp [daysBeforeMonth, monthLength, marchDays, hleap]

theorem number_eq_march (d : Date) :
    d.number = 365 * marchYear d.year d.month + marchYear d.year d.month / 4 -
      marchYear d.year d.month / 100 + marchYear d.year d.month / 400 + marchDays d.month +
        d.day + 59 := by
  have hmonth := daysBeforeMonth_march d.year d.month_pos d.month_le
  rw [Date.number, daysBeforeYear, marchYear]
  by_cases hlate : 2 < d.month
  · rw [if_pos hlate, if_pos hlate] at hmonth
    rw [if_neg (by omega)]
    by_cases hleap : IsLeap d.year
    · rw [if_pos hleap] at hmonth
      unfold IsLeap at hleap
      omega
    · rw [if_neg hleap] at hmonth
      unfold IsLeap at hleap
      omega
  · rw [if_neg hlate, if_neg hlate] at hmonth
    rw [if_pos (by omega)]
    omega

theorem era_eq (y : Int) : (if 0 ≤ y then y else y - 399).tdiv 400 = y / 400 := by
  split
  · next h => exact Int.tdiv_eq_ediv_of_nonneg h
  · next h =>
    rw [Int.tdiv_eq_ediv]
    split
    · next hor =>
      rcases hor with hnonneg | hdvd
      · omega
      · omega
    · next hor =>
      rw [show Int.sign 400 = 1 from rfl]
      omega

/-- The day of the 400 years, from the first of March. -/
theorem doe_eq {m d yoe : Nat} (hpos : 1 ≤ m) (hle : m ≤ 12) (hd : 1 ≤ d) (hd' : d ≤ 31)
    (hyoe : yoe < 400) :
    (UInt32.ofNat yoe * 365 + UInt32.ofNat yoe / 4 - UInt32.ofNat yoe / 100 +
      ((153 * (UInt32.ofNat m + if 2 < UInt32.ofNat m then -3 else 9) + 2) / 5 +
        UInt32.ofNat d - 1)).toNat =
      365 * yoe + yoe / 4 - yoe / 100 + (marchDays m + d - 1) := by
  have hmonth : ((153 * (UInt32.ofNat m + if 2 < UInt32.ofNat m then -3 else 9) + 2) / 5).toNat =
      marchDays m := by
    interval_cases m <;> decide
  have hmarch : marchDays m ≤ 337 := by
    unfold marchDays
    split <;> omega
  generalize (153 * (UInt32.ofNat m + if 2 < UInt32.ofNat m then -3 else 9) + 2) / 5 = x at hmonth
  have hday : (x + UInt32.ofNat d - 1).toNat = marchDays m + d - 1 := by
    rw [UInt32.toNat_sub_of_le, UInt32.toNat_add, hmonth, UInt32.toNat_ofNat']
    · simp
      omega
    · rw [UInt32.le_iff_toNat_le, UInt32.toNat_add, hmonth, UInt32.toNat_ofNat']
      simp
      omega
  generalize x + UInt32.ofNat d - 1 = doy at hday
  have hyear : (UInt32.ofNat yoe).toNat = yoe := by
    rw [UInt32.toNat_ofNat']
    omega
  generalize UInt32.ofNat yoe = n at hyear
  simp only [UInt32.toNat_add, UInt32.toNat_sub, UInt32.toNat_mul, UInt32.toNat_div, hday, hyear,
    UInt32.reduceToNat]
  omega

theorem ofInt_natCast {n : Nat} (h : n < 4294967296) : UInt32.ofInt n = UInt32.ofNat n := by
  rw [UInt32.ofInt, Int.emod_eq_of_lt (by omega) (by omega), Int.toNat_natCast]

/-- The days since the epoch, for every date. -/
theorem daysFromCivil_eq (d : Date) :
    daysFromCivil d.year (.ofNat d.month) (.ofNat d.day) = d.number - 719528 := by
  have hday := d.day_le_31
  have hmonth : (UInt32.ofNat d.month ≤ 2) ↔ d.month ≤ 2 := by
    have hpos := d.month_pos
    have hle := d.month_le
    rw [UInt32.le_iff_toNat_le, UInt32.toNat_ofNat', show (2 : UInt32).toNat = 2 from rfl]
    omega
  have hyear : (if UInt32.ofNat d.month ≤ 2 then d.year - 1 else d.year) =
      marchYear d.year d.month := if_congr hmonth rfl rfl
  rw [number_eq_march, daysFromCivil, hyear, era_eq]
  generalize marchYear d.year d.month = y
  obtain ⟨yoe, hyoe⟩ : ∃ n : Nat, y - y / 400 * 400 = n := ⟨(y - y / 400 * 400).toNat, by omega⟩
  have hof : UInt32.ofInt (y - y / 400 * 400) = UInt32.ofNat yoe := by
    rw [hyoe, ofInt_natCast (by omega)]
  rw [hof, doe_eq d.month_pos d.month_le d.day_pos hday (by omega)]
  have hpos := d.day_pos
  omega

/-! ## Time stamps -/

/-- `%d`: the value that `strtol` finds, in 64 bits, cut to 32. -/
def scanInt (s : Bytes) : Option (Int × Bytes) :=
  let t := splitSign (s.dropWhile isSpace)
  let d := t.2.takeWhile isDigit
  let n : Int := if t.1 then max (-2 ^ 63) (-value d) else min (2 ^ 63 - 1) (value d)
  if d = [] then none else some (n.bmod (2 ^ 32), t.2.dropWhile isDigit)

/-- `sscanf(t, "%d/%d/%d %d:%d:%lf", ..)` with all six assigned; `%d` skips the
blank of the format, `scanDouble` is `%lf`. -/
def scanTime (scanDouble : Bytes → Option Rat) (t : Bytes) :
    Option (Int × Int × Int × Int × Int × Rat) := do
  let (Y, s) ← scanInt (t.takeWhile (· ≠ 0))
  let (Mo, s) ← scanInt (← scanChar 0x2F s)
  let (D, s) ← scanInt (← scanChar 0x2F s)
  let (H, s) ← scanInt s
  let (Mi, s) ← scanInt (← scanChar 0x3A s)
  let S ← scanDouble (← scanChar 0x3A s)
  return (Y, Mo, D, H, Mi, S)

/-- mirrors src/tools/train_behavioral/train.cpp:71-84 -/
def parseTime (scanDouble : Bytes → Option Rat) (t : Bytes) : Rat :=
  match scanTime scanDouble t with
  | none => 0
  | some (Y, Mo, D, H, Mi, S) =>
    let days := Double.nearest (daysFromCivil Y (.ofInt Mo) (.ofInt D))
    Double.add (Double.add (Double.add (Double.mul days 86400) (Double.mul H 3600))
      (Double.mul Mi 60)) S

/-- With at least `n` digits. -/
def padded (n m : Nat) : Bytes := List.replicate (n - (digits m).length) 0x30 ++ digits m

/-- `SS.ffffff` -/
def seconds (s : Stamp) : Bytes := padded 2 s.second ++ 0x2E :: padded 6 s.micro

/-- `YYYY/MM/DD HH:MM:SS.ffffff` -/
def render (s : Stamp) : Bytes :=
  printInt s.date.year ++ 0x2F :: (padded 2 s.date.month ++ 0x2F :: (padded 2 s.date.day ++
    0x20 :: (padded 2 s.hour ++ 0x3A :: (padded 2 s.minute ++ 0x3A :: seconds s))))

theorem padded_isDigit (n m : Nat) : ∀ c ∈ padded n m, isDigit c = true := by
  intro c hc
  rcases List.mem_append.1 hc with hz | hd
  · rw [List.eq_of_mem_replicate hz]
    decide
  · exact Numeral.digits_isDigit c hd

theorem padded_ne_nil (n m : Nat) : padded n m ≠ [] :=
  List.append_ne_nil_of_right_ne_nil _ (Numeral.digits_ne_nil m)

theorem value_padded (n m : Nat) : value (padded n m) = m := by
  rw [padded, Numeral.value_append, Numeral.value_zeros, Numeral.value_digits, Nat.zero_mul,
    Nat.zero_add]

theorem dropWhile_digits {s : Bytes} (hs : ∀ c ∈ s, isDigit c = true) (hne : s ≠ []) (t : Bytes) :
    (s ++ t).dropWhile isSpace = s ++ t := by
  obtain ⟨c, s, rfl⟩ := List.exists_cons_of_ne_nil hne
  have hc := isSpace_of_isDigit (hs c List.mem_cons_self)
  rw [List.cons_append, List.dropWhile_cons_of_neg (by rw [hc]; exact Bool.false_ne_true)]

theorem bmod_of_small {n : Int} (h : -2147483648 ≤ n ∧ n < 2147483648) : n.bmod (2 ^ 32) = n := by
  rw [Int.bmod_def]
  omega

theorem scanInt_digits {s t : Bytes} (hs : ∀ c ∈ s, isDigit c = true) (hne : s ≠ [])
    (ht : ∀ c, t.head? = some c → isDigit c = false) (hsmall : value s < 2147483648) :
    scanInt (s ++ t) = some ((value s : Int), t) := by
  obtain ⟨htake, hdrop⟩ := Text.span_append hs ht
  unfold scanInt
  rw [dropWhile_digits hs hne, Numeral.splitSign_digit hs hne]
  dsimp only
  rw [htake, hdrop, if_neg hne, if_neg Bool.false_ne_true]
  rw [min_eq_right (by omega), bmod_of_small (by omega)]

theorem scanInt_padded {n m : Nat} (hm : m < 2147483648) {t : Bytes}
    (ht : ∀ c, t.head? = some c → isDigit c = false) : scanInt (padded n m ++ t) =
      some ((m : Int), t) := by
  have hvalue := value_padded n m
  rw [scanInt_digits (padded_isDigit n m) (padded_ne_nil n m) ht (by omega), hvalue]

theorem scanInt_blank (s : Bytes) : scanInt (0x20 :: s) = scanInt s := rfl

theorem scanInt_printInt {n : Int} (hn : -2147483648 < n ∧ n < 2147483648) {t : Bytes}
    (ht : ∀ c, t.head? = some c → isDigit c = false) : scanInt (printInt n ++ t) = some (n, t) := by
  have hvalue := Numeral.value_digits n.natAbs
  unfold printInt
  split
  · next hneg =>
    obtain ⟨htake, hdrop⟩ := Text.span_append (Numeral.digits_isDigit (n := n.natAbs)) ht
    have hsign : splitSign (((0x2D :: digits n.natAbs) ++ t).dropWhile isSpace) =
        (true, digits n.natAbs ++ t) := rfl
    unfold scanInt
    rw [hsign]
    dsimp only
    rw [htake, hdrop, if_neg (Numeral.digits_ne_nil _), if_pos rfl, hvalue, max_eq_right (by omega),
      bmod_of_small (by omega)]
    exact congrArg some (Prod.ext (by omega) rfl)
  · next hneg =>
    have hsmall : value (digits n.natAbs) < 2147483648 := by omega
    rw [scanInt_digits Numeral.digits_isDigit (Numeral.digits_ne_nil _) ht hsmall, hvalue]
    exact congrArg some (Prod.ext (by omega) rfl)

theorem render_ne_zero (s : Stamp) : ∀ c ∈ render s, c ≠ 0 := by
  have hdigit : ∀ {n m : Nat} {c : UInt8}, c ∈ padded n m → c ≠ 0 := by
    rintro n m c hc rfl
    exact absurd (padded_isDigit n m 0 hc) (by decide)
  intro c hc
  simp only [render, seconds, List.mem_append, List.mem_cons] at hc
  rcases hc with hc | rfl | hc | rfl | hc | rfl | hc | rfl | hc | rfl | hc | rfl | hc
  · rintro rfl
    exact absurd (Numeral.printInt_glyph _ 0 hc) (by decide)
  all_goals first | exact hdigit hc | decide

/-- A time stamp of a year that the trainer can read. -/
theorem scanTime_render {scanDouble : Bytes → Option Rat} {s : Stamp} {q : Rat}
    (hyear : -2147483648 < s.date.year ∧ s.date.year < 2147483648)
    (hq : scanDouble (seconds s) = some q) :
    scanTime scanDouble (render s) =
      some (s.date.year, (s.date.month : Int), (s.date.day : Int), (s.hour : Int),
        (s.minute : Int), q) := by
  have hmonth := s.date.month_le
  have hday := s.date.day_le_31
  have hhour := s.hour_lt
  have hminute := s.minute_lt
  have hslash : ∀ (t : Bytes) c, (0x2F :: t).head? = some c → isDigit c = false := by
    rintro t c ⟨⟩
    decide
  have hblank : ∀ (t : Bytes) c, (0x20 :: t).head? = some c → isDigit c = false := by
    rintro t c ⟨⟩
    decide
  have hcolon : ∀ (t : Bytes) c, (0x3A :: t).head? = some c → isDigit c = false := by
    rintro t c ⟨⟩
    decide
  have hwhole : (render s).takeWhile (· ≠ 0) = render s :=
    List.takeWhile_eq_self_iff.2 fun c hc => decide_eq_true (render_ne_zero s c hc)
  unfold scanTime
  rw [hwhole, render, scanInt_printInt hyear (hslash _)]
  simp only [Option.bind_eq_bind, Option.bind_some, scanChar, if_true, Option.pure_def]
  rw [scanInt_padded (by omega) (hslash _)]
  simp only [Option.bind_some, if_true]
  rw [scanInt_padded (by omega) (hblank _)]
  simp only [Option.bind_some, scanInt_blank]
  rw [scanInt_padded (by omega) (hcolon _)]
  simp only [Option.bind_some, if_true]
  rw [scanInt_padded (by omega) (hcolon _)]
  simp only [Option.bind_some, if_true, hq]

/-- The double that stands for a time in microseconds: the whole minutes are
exact, the seconds are read and added. -/
def ofMicros (n : Int) : Rat :=
  Double.add ((n / 60000000 * 60 : Int) : Rat) (Double.nearest ((n % 60000000 : Int) / 1000000))

theorem split_minutes (n : Int) : (n : Rat) / 1000000 =
    (n / 60000000 * 60 : Int) + ((n % 60000000 : Int) : Rat) / 1000000 := by
  have hdiv : (n : Rat) = ((n / 60000000 * 60 * 1000000 + n % 60000000 : Int) : Rat) := by
    congr 1
    omega
  rw [hdiv]
  push_cast
  ring

theorem seconds_lt (n : Int) : 0 ≤ ((n % 60000000 : Int) : Rat) / 1000000 ∧
    ((n % 60000000 : Int) : Rat) / 1000000 < 60 := by
  have hnonneg : (0 : Rat) ≤ (n % 60000000 : Int) := by
    exact_mod_cast Int.emod_nonneg n (by decide)
  have hlt : ((n % 60000000 : Int) : Rat) < 60000000 := by
    exact_mod_cast Int.emod_lt_of_pos n (by decide)
  constructor <;> linarith

/-- Within 2^32 seconds of the epoch. -/
theorem ofMicros_near {n : Int} (h : |n| < 4294000000000000) :
    |ofMicros n - n / 1000000| < 1 / 4000000 := by
  obtain ⟨hlo, hhi⟩ := abs_lt.1 h
  have hminutes : |((n / 60000000 * 60 : Int) : Rat)| ≤ 4294000060 := by
    rw [← Int.cast_abs]
    exact_mod_cast abs_le.2 ⟨by omega, by omega⟩
  have hseconds := seconds_lt n
  rw [split_minutes, ofMicros, Double.add]
  generalize ((n / 60000000 * 60 : Int) : Rat) = a at hminutes
  generalize ((n % 60000000 : Int) : Rat) / 1000000 = x at hseconds
  have hread : |Double.nearest x - x| ≤ 2 ^ ((6 : Int) - 54) :=
    Double.abs_nearest_sub_le (by norm_num) (by rw [abs_of_nonneg hseconds.1]; norm_num; linarith)
  norm_num [abs_le] at hread hminutes
  have hsum : |Double.nearest (a + Double.nearest x) - (a + Double.nearest x)| ≤
      2 ^ ((32 : Int) - 54) :=
    Double.abs_nearest_sub_le (by norm_num) (by rw [abs_lt]; norm_num; constructor <;> linarith)
  norm_num [abs_le] at hsum
  rw [abs_lt]
  constructor <;> linarith

theorem ofMicros_lt_iff {n n' : Int} (h : |n| < 4294000000000000) (h' : |n'| < 4294000000000000) :
    ofMicros n < ofMicros n' ↔ n < n' := by
  have hlt : ∀ {m m' : Int}, |m| < 4294000000000000 → |m'| < 4294000000000000 → m < m' →
      ofMicros m < ofMicros m' := by
    intro m m' hm hm' hlt
    have hnear := abs_lt.1 (ofMicros_near hm)
    have hnear' := abs_lt.1 (ofMicros_near hm')
    have hone : (m : Rat) + 1 ≤ m' := by exact_mod_cast hlt
    linarith [hnear.2, hnear'.1]
  rcases Int.lt_trichotomy n n' with hn | rfl | hn
  · exact iff_of_true (hlt h h' hn) hn
  · exact iff_of_false (lt_irrefl _) (Int.lt_irrefl _)
  · exact iff_of_false (hlt h' h hn).asymm (Int.lt_asymm hn)

/-- The number of its microsecond since 1970. -/
def micros (s : Stamp) : Int := s.number - 719528 * 86400000000

/-- The seconds are read as the nearest double, and the year is at most 136
years from the epoch. -/
structure Legible (scanDouble : Bytes → Option Rat) (s : Stamp) : Prop where
  year : 1834 ≤ s.date.year ∧ s.date.year ≤ 2105
  seconds : scanDouble (seconds s) =
    some (Double.nearest ((s.second : Rat) + (s.micro : Rat) / 1000000))

theorem Legible.days {scanDouble : Bytes → Option Rat} {s : Stamp} (h : Legible scanDouble s) :
    |s.date.number - 719528| ≤ 49673 := by
  have hlow := (Date.number_lt_year s.date).1.trans' (daysBeforeYear_mono h.year.1)
  have hhigh := (Date.number_lt_year s.date).2.trans_le
    (daysBeforeYear_mono (Int.add_le_add_right h.year.2 1))
  norm_num [daysBeforeYear] at hlow hhigh
  exact abs_le.2 ⟨by omega, by omega⟩

theorem Legible.near {scanDouble : Bytes → Option Rat} {s : Stamp} (h : Legible scanDouble s) :
    |micros s| < 4294000000000000 := by
  have hdays := abs_le.1 h.days
  have hday := s.ofDay_lt
  rw [abs_lt, micros, Stamp.number]
  omega

/-- Days, hours and minutes are whole seconds, and exact. -/
theorem add_wholeSeconds {days hour minute : Int} (hd : |days| ≤ 49673)
    (hh : 0 ≤ hour ∧ hour < 24) (hm : 0 ≤ minute ∧ minute < 60) :
    Double.add (Double.add (Double.mul days 86400) (Double.mul hour 3600)) (Double.mul minute 60) =
      (days * 86400 + hour * 3600 + minute * 60 : Int) := by
  obtain ⟨hlo, hhi⟩ := abs_le.1 hd
  have hdays : Double.mul days (86400 : Int) = (days * 86400 : Int) :=
    Double.mul_intCast (abs_lt.2 ⟨by omega, by omega⟩)
  have hhours : Double.mul hour (3600 : Int) = (hour * 3600 : Int) :=
    Double.mul_intCast (abs_lt.2 ⟨by omega, by omega⟩)
  have hminutes : Double.mul minute (60 : Int) = (minute * 60 : Int) :=
    Double.mul_intCast (abs_lt.2 ⟨by omega, by omega⟩)
  rw [show (86400 : Rat) = (86400 : Int) from rfl, show (3600 : Rat) = (3600 : Int) from rfl,
    show (60 : Rat) = (60 : Int) from rfl, hdays, hhours, hminutes,
    Double.add_intCast (abs_lt.2 ⟨by omega, by omega⟩),
    Double.add_intCast (abs_lt.2 ⟨by omega, by omega⟩)]

/-- The seconds since 1970. -/
theorem parseTime_render {scanDouble : Bytes → Option Rat} {s : Stamp} (h : Legible scanDouble s) :
    parseTime scanDouble (render s) = ofMicros (micros s) := by
  have hmonth := s.date.month_le
  have hday := s.date.day_le_31
  have hhour := s.hour_lt
  have hminute := s.minute_lt
  have hsecond := s.second_lt
  have hmicro := s.micro_lt
  have hdays := abs_le.1 h.days
  have hyear : -2147483648 < s.date.year ∧ s.date.year < 2147483648 := by have := h.year; omega
  have hwhole : micros s / 60000000 * 60 =
      (s.date.number - 719528) * 86400 + s.hour * 3600 + s.minute * 60 := by
    rw [micros, Stamp.number, Stamp.ofDay]
    omega
  have hrest : micros s % 60000000 = s.second * 1000000 + s.micro := by
    rw [micros, Stamp.number, Stamp.ofDay]
    omega
  have hpart : (((s.second * 1000000 + s.micro : Int) : Rat)) / 1000000 =
      s.second + s.micro / 1000000 := by
    push_cast
    ring
  rw [parseTime, scanTime_render hyear h.seconds]
  dsimp only
  rw [ofInt_natCast (by omega), ofInt_natCast (by omega), daysFromCivil_eq s.date,
    Double.nearest_intCast (abs_lt.2 ⟨by omega, by omega⟩),
    add_wholeSeconds h.days ⟨by omega, by omega⟩ ⟨by omega, by omega⟩, ofMicros, hwhole, hrest,
    hpart]

/-- From 1834 to 2105 two starts are in the order of their time stamps, and as far
apart to within half a microsecond, across the ends of months, leap years and
centuries. -/
theorem parseTime_lt_iff {scanDouble : Bytes → Option Rat} {s s' : Stamp} (h : Legible scanDouble s)
    (h' : Legible scanDouble s') :
    |parseTime scanDouble (render s') - parseTime scanDouble (render s) -
        ((s'.number - s.number : Int) : Rat) / 1000000| < 1 / 2000000 ∧
      (parseTime scanDouble (render s) < parseTime scanDouble (render s') ↔ s.Before s') := by
  rw [parseTime_render h, parseTime_render h']
  constructor
  · have hnear := abs_lt.1 (ofMicros_near h.near)
    have hnear' := abs_lt.1 (ofMicros_near h'.near)
    have hgap : ((s'.number - s.number : Int) : Rat) / 1000000 =
        (micros s' : Rat) / 1000000 - (micros s : Rat) / 1000000 := by
      rw [micros, micros]
      push_cast
      ring
    rw [hgap, abs_lt]
    constructor <;> linarith [hnear.1, hnear.2, hnear'.1, hnear'.2]
  · rw [ofMicros_lt_iff h.near h'.near, ← Stamp.number_lt_iff, micros, micros]
    omega

/-- Half a second before a year ends. -/
def oldYear : Stamp where
  date := ⟨2011, 12, 31, by decide, by decide, by decide, by decide⟩
  hour := 23
  minute := 59
  second := 59
  micro := 500000
  hour_lt := by decide
  minute_lt := by decide
  second_lt := by decide
  micro_lt := by decide

/-- A quarter of a second after it. -/
def newYear : Stamp where
  date := ⟨2012, 1, 1, Nat.one_pos, by decide, Nat.one_pos, by decide⟩
  hour := 0
  minute := 0
  second := 0
  micro := 250000
  hour_lt := by decide
  minute_lt := by decide
  second_lt := by decide
  micro_lt := by decide

/-- The readers of decimal numbers. -/
def scanDecimal (s : Bytes) : Option Rat := (Numeral.readRat s).map Double.nearest

theorem parseTime_lt_iff_newYear :
    |parseTime scanDecimal (lit "2012/01/01 00:00:00.250000") -
        parseTime scanDecimal (lit "2011/12/31 23:59:59.500000") - 3 / 4| < 1 / 2000000 ∧
      parseTime scanDecimal (lit "2011/12/31 23:59:59.500000") <
        parseTime scanDecimal (lit "2012/01/01 00:00:00.250000") := by
  have hold : Legible scanDecimal oldYear := ⟨by decide, by decide +kernel⟩
  have hnew : Legible scanDecimal newYear := ⟨by decide, by decide +kernel⟩
  obtain ⟨hgap, hlt⟩ := parseTime_lt_iff hold hnew
  have hold : render oldYear = lit "2011/12/31 23:59:59.500000" := by decide
  have hnew : render newYear = lit "2012/01/01 00:00:00.250000" := by decide
  have hnumber : newYear.number - oldYear.number = 750000 := by decide
  rw [hold, hnew] at hgap hlt
  rw [hnumber, show ((750000 : Int) : Rat) / 1000000 = 3 / 4 by norm_num] at hgap
  exact ⟨hgap, hlt.2 (Stamp.number_lt_iff.1 (by omega))⟩

/-! ## Flow lists -/

/-- The columns that `read_binetflow` needs. -/
structure FlowColumns where
  start : Nat
  dur : Nat
  proto : Nat
  src : Nat
  dst : Nat
  dport : Nat
  bytes : Nat
  label : Nat

/-- mirrors src/tools/train_behavioral/train.cpp:107-124 -/
def flowColumns (header : Bytes) : Option FlowColumns := do
  let need := columnOf header
  return ⟨← need "StartTime", ← need "Dur", ← need "Proto", ← need "SrcAddr", ← need "DstAddr",
    ← need "Dport", ← need "TotBytes", ← need "Label"⟩

def FlowColumns.last (c : FlowColumns) : Nat :=
  max (max (max c.start c.dur) (max c.proto c.src)) (max (max c.dst c.dport) (max c.bytes c.label))

/-- A flow with its label, and the key of its connection. -/
structure FlowRow where
  key : Bytes
  flow : Flow
  label : Bytes

/-- The readers of floating-point numbers: `%lf` and `std::stod`. -/
structure Doubles where
  scan : Bytes → Option Rat
  stod : Bytes → Option Rat

/-- `none` is a bad row.
mirrors src/tools/train_behavioral/train.cpp:128-138 -/
def flowRow (R : Doubles) (c : FlowColumns) (line : Bytes) : Option FlowRow :=
  let f := Text.segments 0x2C line
  let field := fun i => f.getD i []
  if f.length ≤ c.last then none
  else do
    let duration ← if field c.dur = [] then some 0 else R.stod (field c.dur)
    let totBytes ← if field c.bytes = [] then some 0 else (stoull (field c.bytes)).toOption
    return {
      key := field c.src ++ lit "|" ++ field c.dst ++ lit "|" ++ field c.dport ++ lit "|" ++
        (field c.proto).map toLower
      flow := ⟨parseTime R.scan (field c.start), duration, totBytes⟩
      label := field c.label }

structure Lists where
  conns : UMap Bytes ConnAcc := .empty
  rowsOk : Nat := 0
  rowsBad : Nat := 0

/-- mirrors src/tools/train_behavioral/train.cpp:126-148 -/
def readFlow (R : Doubles) (c : FlowColumns) (s : Lists) (line : Bytes) : Lists :=
  if line = [] then s
  else
    match flowRow R c line with
    | none => { s with rowsBad := s.rowsBad + 1 }
    | some r =>
      { s with
        conns := s.conns.bump (fun a (r : FlowRow) => a.add (r.flow, r.label)) {} r.key r
        rowsOk := s.rowsOk + 1 }

/-- mirrors src/tools/train_behavioral/train.cpp:94-151 -/
def readBinetflow (R : Doubles) (s : Lists) (file : Bytes) : Lists :=
  match Text.segments 0x0A file with
  | [] => s
  | header :: lines =>
    match flowColumns header with
    | none => s
    | some c => lines.foldl (readFlow R c) s

/-! ## The tool -/

/-- Files are given by their contents. -/
structure FlowArgs where
  train : List Bytes
  test : List Bytes
  majority : Bool := false
  includeBg : Bool := false
  minFlows : Nat := 4
  k : Rat := 1 / 2
  threshold : Rat := 0

/-- The state string of a connection and its side, unless it is skipped.
mirrors src/tools/train_behavioral/train.cpp:375-387, 427-438 -/
def sampleOf (A : FlowArgs) (a : ConnAcc) : Option (Bytes × Bool) :=
  if a.flows.length < A.minFlows then none
  else
    let s := encodeConnection a.flows {}
    if s.length < 2 then none
    else (sideOf A.includeBg (connLabel a A.majority)).map (s, ·)

def samplesOf (A : FlowArgs) (conns : UMap Bytes ConnAcc) : List (Bytes × Bool) :=
  conns.entries.filterMap fun x => sampleOf A x.2

/-- The state strings of one side. -/
def sideSamples (bot : Bool) (samples : List (Bytes × Bool)) : List Bytes :=
  samples.filterMap fun s => if s.2 = bot then some s.1 else none

structure FlowOutcome where
  rowsOk : Nat
  rowsBad : Nat
  botnetModel : Bytes
  normalModel : Bytes
  nBot : Nat
  nNorm : Nat
  evaluation : Option Evaluation

/-- mirrors src/tools/train_behavioral/train.cpp:352-500 -/
def runFlowMode (log : Rat → Rat) (R : Doubles) (A : FlowArgs) : FlowOutcome :=
  let cfgFp := L3.MarkovFile.fingerprint {} A.k A.minFlows
  let lists := A.train.foldl (readBinetflow R) {}
  let samples := samplesOf A lists.conns
  let botnet := MarkovModel.train { label := lit "Botnet", k := A.k } (sideSamples true samples)
  let normal := MarkovModel.train { label := lit "Normal", k := A.k } (sideSamples false samples)
  { rowsOk := lists.rowsOk
    rowsBad := lists.rowsBad
    botnetModel := L3.MarkovFile.serialize botnet cfgFp
    normalModel := L3.MarkovFile.serialize normal cfgFp
    nBot := (sideSamples true samples).length
    nNorm := (sideSamples false samples).length
    evaluation :=
      if A.test = [] then none
      else
        let testSamples := samplesOf A (A.test.foldl (readBinetflow R) {}).conns
        some (evaluate (fun s => botnet.score log s - normal.score log s) testSamples A.threshold) }

/-! ## What the order of the rows decides -/

/-- The lines of a list that are read, with its columns. -/
def flowLines (file : Bytes) : List (FlowColumns × Bytes) :=
  match Text.segments 0x0A file with
  | [] => []
  | header :: lines => (flowColumns header).elim [] fun c => (lines.filter (· ≠ [])).map (c, ·)

def goodRows (R : Doubles) (lines : List (FlowColumns × Bytes)) : List FlowRow :=
  lines.filterMap fun x => flowRow R x.1 x.2

/-- What the lists are read as: the rows grouped by their keys, and counted. -/
def read (R : Doubles) (lines : List (FlowColumns × Bytes)) : Lists where
  conns := UMap.bumps FlowRow.key (fun a r => a.add (r.flow, r.label)) {} .empty (goodRows R lines)
  rowsOk := (goodRows R lines).length
  rowsBad := lines.countP fun x => (flowRow R x.1 x.2).isNone

theorem read_snoc (R : Doubles) (lines : List (FlowColumns × Bytes)) (c : FlowColumns)
    {line : Bytes}
    (hne : line ≠ []) : readFlow R c (read R lines) line = read R (lines ++ [(c, line)]) := by
  unfold readFlow read goodRows
  rw [if_neg hne, List.filterMap_append, UMap.bumps_append, List.length_append, List.countP_append]
  cases hrow : flowRow R c line with
  | none => simp [hrow, UMap.bumps]
  | some r => simp [hrow, UMap.bumps]

theorem readBinetflow_read (R : Doubles) (lines : List (FlowColumns × Bytes)) (file : Bytes) :
    readBinetflow R (read R lines) file = read R (lines ++ flowLines file) := by
  unfold readBinetflow flowLines
  cases Text.segments 0x0A file with
  | nil => rw [List.append_nil]
  | cons header l =>
    dsimp only
    cases flowColumns header with
    | none => rw [Option.elim_none, List.append_nil]
    | some c =>
      rw [Option.elim_some]
      dsimp only
      induction l generalizing lines with
      | nil => rw [List.filter_nil, List.map_nil, List.append_nil]; rfl
      | cons line l ih =>
        rw [List.foldl_cons]
        by_cases hne : line = []
        · rw [readFlow, if_pos hne, List.filter_cons_of_neg (by simpa using hne), ih]
        · rw [read_snoc R lines c hne, ih, List.filter_cons_of_pos (by simpa using hne),
            List.map_cons,
            List.append_assoc, List.singleton_append]

theorem foldl_readBinetflow (R : Doubles) (files : List Bytes) :
    files.foldl (readBinetflow R) {} = read R (files.flatMap flowLines) := by
  induction files using List.reverseRecOn with
  | nil => rfl
  | append_singleton files file ih =>
    rw [List.foldl_append, List.foldl_cons, List.foldl_nil, ih, readBinetflow_read,
      List.flatMap_append,
      List.flatMap_singleton]

/-! ### One connection -/

/-- Flows of a connection that start together have the same letter. -/
def Unambiguous (rows : List FlowRow) : Prop :=
  ∀ r ∈ rows, ∀ r' ∈ rows, r.key = r'.key → r.flow.startTime = r'.flow.startTime →
    letter {} r.flow = letter {} r'.flow

theorem accumulate_flows (rows : List (Flow × Bytes)) :
    (accumulate rows).flows = rows.map Prod.fst := by
  have hadd : ∀ (a : ConnAcc) row, (a.add row).flows = a.flows ++ [row.1] := by
    intro a row
    unfold ConnAcc.add
    cases classify row.2 <;> rfl
  induction rows using List.reverseRecOn with
  | nil => rfl
  | append_singleton rows row ih =>
    rw [accumulate, List.foldl_append, List.foldl_cons, List.foldl_nil, hadd, List.map_append, ← ih]
    rfl

theorem encodeConnection_perm {flows flows' : List Flow} (h : flows.Perm flows')
    (hletter : ∀ f ∈ flows, ∀ g ∈ flows, f.startTime = g.startTime → letter {} f = letter {} g) :
    encodeConnection flows {} = encodeConnection flows' {} := by
  have hsorted : ∀ l : List Flow,
      (l.mergeSort fun a b => decide (a.startTime ≤ b.startTime)).Pairwise
        fun a b => a.startTime ≤ b.startTime := by
    intro l
    refine (List.pairwise_mergeSort (fun a b c hab hbc => ?_) (fun a b => ?_) l).imp
      of_decide_eq_true
    · exact decide_eq_true (le_trans (of_decide_eq_true hab) (of_decide_eq_true hbc))
    · simpa using le_total a.startTime b.startTime
  unfold encodeConnection
  rw [h.length_eq]
  split
  · rfl
  · exact L3.StateString.encodeFlows_eq_of_perm (List.mergeSort_perm _ _)
      ((List.mergeSort_perm _ _).trans h.symm) (hsorted _) (hsorted _) hletter

theorem sampleOf_perm (A : FlowArgs) {rows rows' : List (Flow × Bytes)} (h : rows.Perm rows')
    (hletter : ∀ r ∈ rows, ∀ r' ∈ rows, r.1.startTime = r'.1.startTime → letter {} r.1 =
      letter {} r'.1) :
    sampleOf A (accumulate rows) = sampleOf A (accumulate rows') := by
  have hcount : ∀ cls, count cls (rows.map Prod.snd) = count cls (rows'.map Prod.snd) := fun cls =>
    (h.map Prod.snd).countP_eq _
  obtain ⟨hb, hn, hg, ht⟩ := accumulated rows
  obtain ⟨hb', hn', hg', ht'⟩ := accumulated rows'
  have hlabel : connLabel (accumulate rows) A.majority =
      connLabel (accumulate rows') A.majority := by
    simp only [connLabel, hb, hn, hg, ht, hb', hn', hg', ht', hcount, h.length_eq]
  have hstate : encodeConnection (accumulate rows).flows {} =
      encodeConnection (accumulate rows').flows {} := by
    rw [accumulate_flows, accumulate_flows]
    refine encodeConnection_perm (h.map Prod.fst) fun f hf g hg => ?_
    obtain ⟨r, hr, rfl⟩ := List.mem_map.1 hf
    obtain ⟨r', hr', rfl⟩ := List.mem_map.1 hg
    exact hletter r hr r' hr'
  have hlen : (accumulate rows).flows.length = (accumulate rows').flows.length := by
    rw [accumulate_flows, accumulate_flows, List.length_map, List.length_map, h.length_eq]
  unfold sampleOf
  rw [hlen, hstate, hlabel]

/-! ### The whole run -/

/-- The connection of a key. -/
theorem find?_read (R : Doubles) (lines : List (FlowColumns × Bytes)) (key : Bytes) :
    (read R lines).conns.find? key =
      let own := (goodRows R lines).filter fun r => r.key = key
      if own = [] then none else some (accumulate (own.map fun r => (r.flow, r.label))) := by
  rw [read, UMap.find?_bumps]
  simp only [accumulate, List.foldl_map]

theorem samplesOf_perm (A : FlowArgs) (R : Doubles) {lines lines' : List (FlowColumns × Bytes)}
    (h : lines.Perm lines') (hrows : Unambiguous (goodRows R lines)) :
    (samplesOf A (read R lines).conns).Perm (samplesOf A (read R lines').conns) := by
  have hgood : (goodRows R lines).Perm (goodRows R lines') := h.filterMap _
  have hfind : ∀ key, ((read R lines).conns.map (sampleOf A)).find? key =
      ((read R lines').conns.map (sampleOf A)).find? key := by
    intro key
    have hown := hgood.filter fun r => decide (r.key = key)
    rw [UMap.find?_map, UMap.find?_map, find?_read, find?_read]
    dsimp only
    by_cases hnil : (goodRows R lines).filter (fun r => decide (r.key = key)) = []
    · rw [if_pos hnil, if_pos (List.nil_perm.1 (hnil ▸ hown))]
    · have hnil' : (goodRows R lines').filter (fun r => decide (r.key = key)) ≠ [] := fun he =>
        hnil (List.perm_nil.1 (he ▸ hown))
      rw [if_neg hnil, if_neg hnil', Option.map_some, Option.map_some]
      refine congrArg some (sampleOf_perm A (hown.map _) fun x hx y hy => ?_)
      obtain ⟨r, hr, rfl⟩ := List.mem_map.1 hx
      obtain ⟨r', hr', rfl⟩ := List.mem_map.1 hy
      obtain ⟨hr, hkey⟩ := List.mem_filter.1 hr
      obtain ⟨hr', hkey'⟩ := List.mem_filter.1 hr'
      exact hrows r hr r' hr' ((of_decide_eq_true hkey).trans (of_decide_eq_true hkey').symm)
  have hsamples : ∀ lines, samplesOf A (read R lines).conns =
      ((read R lines).conns.map (sampleOf A)).entries.filterMap Prod.snd := by
    intro lines
    rw [samplesOf, UMap.map, List.filterMap_map]
    rfl
  rw [hsamples, hsamples]
  exact (UMap.perm_of_find? hfind).filterMap _

/-- The same rows under the same options, in other orders and in other files. -/
structure Regrouped (A A' : FlowArgs) : Prop where
  train : (A.train.flatMap flowLines).Perm (A'.train.flatMap flowLines)
  test : (A.test.flatMap flowLines).Perm (A'.test.flatMap flowLines)
  tests : A.test = [] ↔ A'.test = []
  majority : A.majority = A'.majority
  includeBg : A.includeBg = A'.includeBg
  minFlows : A.minFlows = A'.minFlows
  k : A.k = A'.k
  threshold : A.threshold = A'.threshold

/-- Neither the order of the rows nor their split into files changes a model
file or a number of the report. -/
theorem grouped_training (log : Rat → Rat) (R : Doubles) {A A' : FlowArgs} (h : Regrouped A A')
    (htrain : Unambiguous (goodRows R (A.train.flatMap flowLines)))
    (htest : Unambiguous (goodRows R (A.test.flatMap flowLines))) :
    runFlowMode log R A = runFlowMode log R A' := by
  have hsample : sampleOf A' = sampleOf A := by
    unfold sampleOf
    rw [h.majority, h.includeBg, h.minFlows]
  have hsamples : samplesOf A' = samplesOf A := by
    unfold samplesOf
    rw [hsample]
  have hperm := samplesOf_perm A R h.train htrain
  have hside : ∀ bot,
      (sideSamples bot (samplesOf A (read R (A.train.flatMap flowLines)).conns)).Perm
        (sideSamples bot (samplesOf A (read R (A'.train.flatMap flowLines)).conns)) := fun bot =>
    hperm.filterMap _
  have hmodel : ∀ (m : MarkovModel) bot,
      m.train (sideSamples bot (samplesOf A (read R (A.train.flatMap flowLines)).conns)) =
        m.train (sideSamples bot (samplesOf A (read R (A'.train.flatMap flowLines)).conns)) :=
          fun m bot =>
    train_perm m (hside bot)
  have hok : (read R (A.train.flatMap flowLines)).rowsOk =
      (read R (A'.train.flatMap flowLines)).rowsOk :=
    (h.train.filterMap _).length_eq
  have hbad : (read R (A.train.flatMap flowLines)).rowsBad =
      (read R (A'.train.flatMap flowLines)).rowsBad :=
    h.train.countP_eq _
  unfold runFlowMode
  simp only [foldl_readBinetflow, hsamples, hmodel, hok, hbad, (hside true).length_eq,
    (hside false).length_eq, evaluate_perm _ (samplesOf_perm A R h.test htest), h.tests, ← h.k,
    ← h.minFlows,
    ← h.threshold]

def decimals : Doubles := ⟨scanDecimal, scanDecimal⟩

/-- Two flows of a connection. -/
def twoFlows (first second : String) : FlowArgs where
  train :=
    [lit "StartTime,Dur,Proto,SrcAddr,DstAddr,Dport,TotBytes,Label\n" ++ lit first ++ lit second]
  test := []
  minFlows := 2

theorem grouped_training_twoFlows :
    runFlowMode id decimals
      (twoFlows "2011/08/10 09:46:59.607825,1.5,tcp,10.0.0.5,10.9.9.9,80,450,Botnet\n"
        "2011/08/10 09:47:59.607825,2.5,tcp,10.0.0.5,10.9.9.9,80,90,Botnet\n") =
      runFlowMode id decimals
        (twoFlows "2011/08/10 09:47:59.607825,2.5,tcp,10.0.0.5,10.9.9.9,80,90,Botnet\n"
          "2011/08/10 09:46:59.607825,1.5,tcp,10.0.0.5,10.9.9.9,80,450,Botnet\n") := by
  refine grouped_training id decimals ⟨?_, .refl _, .rfl, rfl, rfl, rfl, rfl, rfl⟩ ?_ nofun
  · exact .swap _ _ []
  · unfold Unambiguous
    decide +kernel

end Wirewolf.L5.Binetflow
