import Mathlib.Tactic
import Mathlib.Algebra.Order.Interval.Finset.SuccPred

/-!
The proleptic Gregorian calendar: dates, the day after a date, and the number of days
between the 1st of January 1970 and a date, as a sum of lengths of years and months.

* `Date`, `Date.next`, `Date.dayNumber`: dates exist, by construction.
* `Date.dayNumber_next`: the next day is one day later.
* `Date.dayNumber_injective`: a day has one date.
* `yearStart_eq`, `Date.dayNumber_ofMarch`: the sums in closed form, the latter for years
  that begin in March.
* `DateTime.seconds_injective`: an instant has one date and time.
-/

namespace Gregorian

/-! ### Dates -/

/-- Leap years: every fourth year, of the centuries every fourth one. -/
def IsLeap (y : ℤ) : Prop := y % 4 = 0 ∧ (y % 100 ≠ 0 ∨ y % 400 = 0)

instance (y : ℤ) : Decidable (IsLeap y) := inferInstanceAs (Decidable (_ ∧ _))

/-- The days of a month. -/
def monthLength (y : ℤ) (m : ℕ) : ℕ :=
  if m = 2 then if IsLeap y then 29 else 28
  else if m = 4 ∨ m = 6 ∨ m = 9 ∨ m = 11 then 30
  else 31

/-- A date that the calendar has. -/
@[ext] structure Date where
  year : ℤ
  month : ℕ
  day : ℕ
  month_pos : 1 ≤ month
  month_le : month ≤ 12
  day_pos : 1 ≤ day
  day_le : day ≤ monthLength year month

lemma monthLength_pos (y : ℤ) (m : ℕ) : 1 ≤ monthLength y m := by
  rw [monthLength]
  split_ifs <;> decide

/-- The day after a date. -/
def Date.next (d : Date) : Date :=
  if hday : d.day + 1 ≤ monthLength d.year d.month then
    { d with
      day := d.day + 1
      day_pos := Nat.le_add_left 1 d.day
      day_le := hday }
  else if hmonth : d.month + 1 ≤ 12 then
    { year := d.year
      month := d.month + 1
      day := 1
      month_pos := Nat.le_add_left 1 d.month
      month_le := hmonth
      day_pos := le_rfl
      day_le := monthLength_pos _ _ }
  else
    { year := d.year + 1
      month := 1
      day := 1
      month_pos := le_rfl
      month_le := by decide
      day_pos := le_rfl
      day_le := monthLength_pos _ _ }

/-! ### Counting days -/

/-- The days of a year before a month. -/
def daysBefore (y : ℤ) (m : ℕ) : ℕ := ∑ i ∈ Finset.Ico 1 m, monthLength y i

/-- The days of a year. -/
def yearLength (y : ℤ) : ℕ := daysBefore y 13

/-- The days from the 1st of January 1970 to the 1st of January of a year, negative if that
comes first. -/
noncomputable def yearStart (y : ℤ) : ℤ :=
  (∑ i ∈ Finset.Ico 1970 y, yearLength i : ℕ) - (∑ i ∈ Finset.Ico y 1970, yearLength i : ℕ)

/-- The days from the 1st of January 1970 to a date. -/
noncomputable def Date.dayNumber (d : Date) : ℤ :=
  yearStart d.year + daysBefore d.year d.month + d.day - 1

lemma daysBefore_succ (y : ℤ) {m : ℕ} (h : 1 ≤ m) :
    daysBefore y (m + 1) = daysBefore y m + monthLength y m := Finset.sum_Ico_succ_top h _

lemma daysBefore_one (y : ℤ) : daysBefore y 1 = 0 := rfl

/-- The days before a month, by the rule of the months from March on. -/
lemma daysBefore_eq (y : ℤ) {m : ℕ} (h1 : 1 ≤ m) (h13 : m ≤ 13) :
    daysBefore y m = if m ≤ 2 then 31 * (m - 1)
      else (153 * (m - 3) + 2) / 5 + if IsLeap y then 60 else 59 := by
  induction m, h1 using Nat.le_induction with
  | base => rfl
  | succ m h1 ih =>
      rw [daysBefore_succ y h1, ih (by omega), monthLength]
      have hm : m ≤ 12 := by omega
      by_cases hleap : IsLeap y <;> simp only [hleap, if_true, if_false] <;> clear ih h13 <;>
        interval_cases m <;> rfl

lemma yearLength_eq (y : ℤ) : yearLength y = if IsLeap y then 366 else 365 := by
  rw [yearLength, daysBefore_eq y (by decide) (by decide), if_neg (by decide)]
  split_ifs <;> rfl

/-- Leap years, by division. -/
lemma yearLength_cast (y : ℤ) :
    (yearLength y : ℤ) = 365 + (y / 4 - (y - 1) / 4) - (y / 100 - (y - 1) / 100)
      + (y / 400 - (y - 1) / 400) := by
  rw [yearLength_eq]
  by_cases h : IsLeap y
  · rw [if_pos h]
    simp only [IsLeap] at h
    omega
  · rw [if_neg h]
    simp only [IsLeap] at h
    omega

lemma yearStart_succ (y : ℤ) : yearStart (y + 1) = yearStart y + yearLength y := by
  rcases le_or_gt 1970 y with h | h
  · have hempty (z : ℤ) (hz : 1970 ≤ z) : ∑ i ∈ Finset.Ico z 1970, yearLength i = 0 := by
      rw [Finset.Ico_eq_empty_of_le hz, Finset.sum_empty]
    rw [yearStart, yearStart, ← Finset.insert_Ico_right_eq_Ico_add_one h,
      Finset.sum_insert Finset.right_notMem_Ico, hempty y h, hempty (y + 1) (by omega)]
    push_cast
    ring
  · have hempty (z : ℤ) (hz : z ≤ 1970) : ∑ i ∈ Finset.Ico 1970 z, yearLength i = 0 := by
      rw [Finset.Ico_eq_empty_of_le hz, Finset.sum_empty]
    rw [yearStart, yearStart, ← Finset.insert_Ico_add_one_left_eq_Ico h,
      Finset.sum_insert (by simp), hempty y h.le, hempty (y + 1) (by omega)]
    push_cast
    ring

/-- **The years before a year**, with the leap days counted by division. -/
theorem yearStart_eq (y : ℤ) :
    yearStart y = 365 * (y - 1970) + (y - 1) / 4 - (y - 1) / 100 + (y - 1) / 400 - 477 := by
  induction y using Int.inductionOn' (b := 1970) with
  | zero => rfl
  | succ k _ ih =>
      rw [yearStart_succ, ih, yearLength_cast]
      have hk : k + 1 - 1 = k := by omega
      rw [hk]
      omega
  | pred k _ ih =>
      have hstep := yearStart_succ (k - 1)
      rw [sub_add_cancel, ih, yearLength_cast] at hstep
      omega

lemma yearStart_strictMono : StrictMono yearStart := by
  refine strictMono_int_of_lt_succ fun y => ?_
  have hpos : 1 ≤ yearLength y := by
    rw [yearLength_eq]
    split_ifs <;> decide
  rw [yearStart_succ]
  omega

/-! ### The day after -/

/-- **The next day is one day later.** -/
theorem Date.dayNumber_next (d : Date) : d.next.dayNumber = d.dayNumber + 1 := by
  have hday := d.day_le
  rw [Date.next]
  split_ifs with hd hm
  · simp only [Date.dayNumber]
    push_cast
    ring
  · have heq : d.day = monthLength d.year d.month := by omega
    simp only [Date.dayNumber, daysBefore_succ _ d.month_pos, ← heq]
    push_cast
    ring
  · have hmonth : d.month = 12 := Nat.le_antisymm d.month_le (by omega)
    have hlength : yearLength d.year = daysBefore d.year 12 + monthLength d.year 12 :=
      daysBefore_succ _ (by decide)
    have heq : d.day = monthLength d.year 12 := by
      rw [hmonth] at hd hday
      omega
    simp only [Date.dayNumber, daysBefore_one, yearStart_succ, hlength, hmonth, ← heq]
    push_cast
    ring

/-! ### A day has one date -/

lemma daysBefore_mono (y : ℤ) : Monotone (daysBefore y) := fun _ _ h =>
  Finset.sum_le_sum_of_subset (Finset.Ico_subset_Ico le_rfl h)

/-- A date lies in its month. -/
lemma Date.dayNumber_bounds (d : Date) :
    yearStart d.year + daysBefore d.year d.month ≤ d.dayNumber ∧
      d.dayNumber < yearStart d.year + daysBefore d.year (d.month + 1) := by
  have h1 := d.day_pos
  have h2 := d.day_le
  rw [daysBefore_succ _ d.month_pos, Date.dayNumber]
  omega

/-- A date lies in its year. -/
lemma Date.dayNumber_lt_yearStart (d : Date) :
    yearStart d.year ≤ d.dayNumber ∧ d.dayNumber < yearStart (d.year + 1) := by
  obtain ⟨hlo, hhi⟩ := d.dayNumber_bounds
  have hle : daysBefore d.year (d.month + 1) ≤ yearLength d.year :=
    daysBefore_mono d.year (Nat.succ_le_succ d.month_le)
  rw [yearStart_succ]
  omega

/-- **A day has one date.** -/
theorem Date.dayNumber_injective : Function.Injective Date.dayNumber := by
  intro d e h
  obtain ⟨hd, hd'⟩ := d.dayNumber_lt_yearStart
  obtain ⟨he, he'⟩ := e.dayNumber_lt_yearStart
  have hyear : d.year = e.year := by
    have h1 := yearStart_strictMono.lt_iff_lt.mp (hd.trans_lt (h ▸ he'))
    have h2 := yearStart_strictMono.lt_iff_lt.mp (he.trans_lt (h ▸ hd'))
    omega
  obtain ⟨hd, hd'⟩ := d.dayNumber_bounds
  obtain ⟨he, he'⟩ := e.dayNumber_bounds
  rw [hyear, h] at hd hd'
  have hmonth : d.month = e.month := by
    rcases Nat.lt_trichotomy d.month e.month with hlt | heq | hgt
    · have hle : daysBefore e.year (d.month + 1) ≤ daysBefore e.year e.month :=
        daysBefore_mono e.year hlt
      omega
    · exact heq
    · have hle : daysBefore e.year (e.month + 1) ≤ daysBefore e.year d.month :=
        daysBefore_mono e.year hgt
      omega
  have hday : d.day = e.day := by
    rw [Date.dayNumber, Date.dayNumber, hyear, hmonth] at h
    omega
  exact Date.ext hyear hmonth hday

/-! ### Years that begin in March -/

/-- The days from the 1st of January 1970 to the 1st of March of a year. -/
def marchStart (y : ℤ) : ℤ := 365 * y + y / 4 - y / 100 + y / 400 - 719468

lemma daysBefore_three (y : ℤ) : daysBefore y 3 = if IsLeap y then 60 else 59 := by
  rw [daysBefore_eq y (by decide) (by decide), if_neg (by decide : ¬ 3 ≤ 2)]
  exact Nat.zero_add _

/-- From March to December there are always as many days. -/
lemma daysBefore_three_add (y : ℤ) : daysBefore y 3 + 306 = yearLength y := by
  rw [daysBefore_three, yearLength_eq]
  split_ifs <;> rfl

/-- The leap day belongs to the year before. -/
lemma marchStart_eq (y : ℤ) : marchStart y = yearStart y + daysBefore y 3 := by
  have hyear := yearLength_cast y
  have hmarch := daysBefore_three_add y
  rw [marchStart, yearStart_eq]
  omega

lemma marchStart_succ (y : ℤ) : marchStart (y + 1) = marchStart y + yearLength (y + 1) := by
  have hyear := yearLength_cast (y + 1)
  rw [add_sub_cancel_right] at hyear
  rw [marchStart, marchStart]
  omega

/-- **A day of a March year**, by the rule of its months: `mp` is the month from March on. -/
theorem Date.dayNumber_ofMarch (d : Date) {y : ℤ} {mp : ℕ} (hmp : mp ≤ 11)
    (hyear : d.year = if mp < 10 then y else y + 1)
    (hmonth : d.month = if mp < 10 then mp + 3 else mp - 9) :
    d.dayNumber = marchStart y + (153 * mp + 2) / 5 + d.day - 1 := by
  rw [Date.dayNumber, hyear, hmonth]
  by_cases h10 : mp < 10
  · have hdays : daysBefore y (mp + 3) = (153 * mp + 2) / 5 + daysBefore y 3 := by
      rw [daysBefore_eq y (by omega) (by omega), if_neg (by omega), daysBefore_three]
      rfl
    rw [if_pos h10, if_pos h10, marchStart_eq, hdays]
    push_cast
    ring
  · have hdays : daysBefore (y + 1) (mp - 9) + 306 = (153 * mp + 2) / 5 := by
      rw [daysBefore_eq (y + 1) (by omega) (by omega), if_pos (by omega)]
      omega
    have hmarch := daysBefore_three_add (y + 1)
    have hstart := marchStart_eq (y + 1)
    rw [marchStart_succ] at hstart
    rw [if_neg h10, if_neg h10]
    omega

/-! ### Dates and times -/

/-- A date with a time of day. -/
@[ext] structure DateTime where
  date : Date
  hour : ℕ
  minute : ℕ
  second : ℕ
  hour_lt : hour < 24
  minute_lt : minute < 60
  second_lt : second < 60

/-- The seconds from the beginning of 1970. -/
noncomputable def DateTime.seconds (t : DateTime) : ℤ :=
  86400 * t.date.dayNumber + 3600 * t.hour + 60 * t.minute + t.second

/-- **An instant has one date and time.** -/
theorem DateTime.seconds_injective : Function.Injective DateTime.seconds := by
  intro t u h
  have ht₁ := t.hour_lt
  have ht₂ := t.minute_lt
  have ht₃ := t.second_lt
  have hu₁ := u.hour_lt
  have hu₂ := u.minute_lt
  have hu₃ := u.second_lt
  simp only [DateTime.seconds] at h
  have hday : t.date.dayNumber = u.date.dayNumber := by omega
  exact DateTime.ext (Date.dayNumber_injective hday) (by omega) (by omega) (by omega)

end Gregorian
