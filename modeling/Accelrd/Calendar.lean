import Mathlib.Tactic
import Accelrd.Library.Gregorian
import Accelrd.Library.Machine
import Accelrd.Time

/-!
`src/time.rs` against the calendar: a timestamp shows the date and time that its instant has
in the proleptic Gregorian calendar.

* `dateOf`, `dayNumber_dateOf`: what `daysToYmd` returns is a date, the one of the day.
* `daysToYmdChecked_eq`: no intermediate result is out of the range of its type.
* `timestamp_correct`: the timestamp of every instant.
-/

namespace Accelrd.Time

open Decimal Machine Gregorian

/-! ### The date of a day -/

/-- The March year of a day. -/
def marchYear (n : ℤ) : ℤ := (yearOfEra (dayOfEra n) : ℤ) + eraOf n * 400

/-- The day of the March year of a day. -/
def marchDay (n : ℤ) : ℕ := dayOfYear (dayOfEra n)

lemma marchDay_le (n : ℤ) : marchDay n ≤ 365 := dayOfYear_le (dayOfEra_lt n)

/-- **A day lies in its March year**, which has a leap day at its end if the next year is a
leap year. -/
lemma marchDay_lt (n : ℤ) : marchDay n < yearLength (marchYear n + 1) := by
  obtain ⟨h400, hlo, hhi⟩ := dayOfYear_bounds (dayOfEra_lt n)
  have hdoe := dayOfEra_lt n
  have hlength := yearLength_cast (marchYear n + 1)
  rw [marchDay, dayOfYear]
  simp only [marchYear, add_sub_cancel_right] at hlength ⊢
  generalize eraOf n = era at hlength ⊢
  generalize dayOfEra n = doe at *
  generalize yearOfEra doe = yoe at *
  simp only [yearStart] at hlo hhi ⊢
  -- eras have 400 years
  have h₀ : ((yoe : ℤ) + era * 400) / 4 = yoe / 4 + era * 100 := by omega
  have h₁ : ((yoe : ℤ) + era * 400 + 1) / 4 = (yoe + 1 : ℕ) / 4 + era * 100 := by omega
  have h₂ : ((yoe : ℤ) + era * 400) / 100 = yoe / 100 + era * 4 := by omega
  have h₃ : ((yoe : ℤ) + era * 400 + 1) / 100 = (yoe + 1 : ℕ) / 100 + era * 4 := by omega
  have h₄ : ((yoe : ℤ) + era * 400) / 400 = era := by omega
  have h₅ : ((yoe : ℤ) + era * 400 + 1) / 400 = (yoe + 1 : ℕ) / 400 + era := by omega
  rw [h₀, h₁, h₂, h₃, h₄, h₅] at hlength
  clear h₀ h₁ h₂ h₃ h₄ h₅
  by_cases h399 : yoe < 399
  · have := hhi h399
    omega
  · omega

/-- The days are counted from 1970. -/
lemma marchStart_add_marchDay (n : ℤ) : marchStart (marchYear n) + marchDay n = n := by
  obtain ⟨h400, hlo, -⟩ := dayOfYear_bounds (dayOfEra_lt n)
  have hera : n + 719468 = eraOf n * 146097 + dayOfEra n := by
    rw [eraOf, dayOfEra]
    omega
  rw [marchDay, dayOfYear, marchStart, marchYear]
  generalize eraOf n = era at *
  generalize dayOfEra n = doe at *
  generalize yearOfEra doe = yoe at *
  simp only [yearStart] at hlo ⊢
  omega

/-- The month of a day, counted from March. -/
def monthFromMarch (n : ℤ) : ℕ := (5 * marchDay n + 2) / 153

lemma monthFromMarch_le (n : ℤ) : monthFromMarch n ≤ 11 := by
  have h := marchDay_le n
  rw [monthFromMarch]
  omega

/-- The date of a day, as `daysToYmd` returns it. -/
lemma daysToYmd_eq_march (n : ℤ) :
    daysToYmd n =
      (if monthFromMarch n < 10 then marchYear n else marchYear n + 1,
        if monthFromMarch n < 10 then monthFromMarch n + 3 else monthFromMarch n - 9,
        marchDay n - (153 * monthFromMarch n + 2) / 5 + 1) := by
  have hle := monthFromMarch_le n
  rw [daysToYmd_eq]
  show (if (if monthFromMarch n < 10 then monthFromMarch n + 3 else monthFromMarch n - 9) ≤ 2
    then marchYear n + 1 else marchYear n,
    if monthFromMarch n < 10 then monthFromMarch n + 3 else monthFromMarch n - 9, _) = _
  by_cases h : monthFromMarch n < 10
  · simp only [if_pos h]
    rw [if_neg (by omega)]
    rfl
  · simp only [if_neg h]
    rw [if_pos (by omega)]
    rfl

/-- No month is exceeded: for February this is where leap years count. -/
lemma day_le_monthLength (n : ℤ) :
    (daysToYmd n).2.2 ≤ monthLength (daysToYmd n).1 (daysToYmd n).2.1 := by
  have hle := monthFromMarch_le n
  have hlt := marchDay_lt n
  rw [yearLength_eq] at hlt
  rw [daysToYmd_eq_march, monthLength]
  obtain ⟨mp, hmp⟩ : ∃ mp, mp = monthFromMarch n := ⟨_, rfl⟩
  have hday : mp = (5 * marchDay n + 2) / 153 := hmp
  rw [← hmp] at hle ⊢
  generalize marchDay n = doy at *
  generalize marchYear n = y at *
  by_cases hfeb : mp = 11
  · subst hfeb
    simp only [Nat.reduceLT, Nat.reduceSub, if_true, if_false]
    split_ifs at hlt ⊢ <;> omega
  · simp only [apply_ite (· = 2), apply_ite (· = 4)]
    split_ifs <;> omega

/-- What `daysToYmd` returns, as a date of the calendar. -/
def dateOf (n : ℤ) : Date where
  year := (daysToYmd n).1
  month := (daysToYmd n).2.1
  day := (daysToYmd n).2.2
  month_pos := by
    rw [daysToYmd_eq]
    exact (ymdOfMarch_month _ (marchDay_le n)).1
  month_le := by
    rw [daysToYmd_eq]
    exact (ymdOfMarch_month _ (marchDay_le n)).2
  day_pos := by
    rw [daysToYmd_eq]
    exact (ymdOfMarch_day _ _).1
  day_le := day_le_monthLength n

/-- **The date of a day** is that many days from 1970. -/
theorem dayNumber_dateOf (n : ℤ) : (dateOf n).dayNumber = n := by
  have hle := monthFromMarch_le n
  have hdate := daysToYmd_eq_march n
  have hstart := marchStart_add_marchDay n
  have hday : (dateOf n).day = marchDay n - (153 * monthFromMarch n + 2) / 5 + 1 :=
    congrArg (fun p => p.2.2) hdate
  rw [Date.dayNumber_ofMarch (dateOf n) hle (congrArg Prod.fst hdate)
    (congrArg (fun p => p.2.1) hdate), hday]
  have hmonth : monthFromMarch n = (5 * marchDay n + 2) / 153 := rfl
  omega

/-- Days and dates are in correspondence. -/
noncomputable def dateEquiv : ℤ ≃ Date where
  toFun := dateOf
  invFun := Date.dayNumber
  left_inv := dayNumber_dateOf
  right_inv d := Date.dayNumber_injective (dayNumber_dateOf d.dayNumber)

/-- The next day has the next date. -/
lemma dateOf_succ (n : ℤ) : dateOf (n + 1) = (dateOf n).next := by
  refine Date.dayNumber_injective ?_
  rw [dayNumber_dateOf, Date.dayNumber_next, dayNumber_dateOf]

/-! ### Machine arithmetic -/

/-- The dividend of `era`. As below, an operation that leaves the range of its type, and the
cast of a negative number, come to nothing. -/
def checkedDividend (z : ℤ) : Option ℤ := if z ≥ 0 then some z else signed 64 (z - 146096)

/-- `era` and `doe` of `days_to_ymd`. -/
def checkedEra (daysSinceEpoch : ℤ) : Option (ℤ × ℕ) := do
  let z ← signed 64 (daysSinceEpoch + 719468)
  let dividend ← checkedDividend z
  let era ← signed 64 (dividend.tdiv 146097)
  let eraDays ← signed 64 (era * 146097)
  let offset ← signed 64 (z - eraDays)
  let doe ← unsigned 64 offset
  some (era, doe)

/-- `yoe` of `days_to_ymd`. -/
def checkedYearOfEra (doe : ℕ) : Option ℕ := do
  let a ← unsigned 64 (doe - doe / 1460)
  let b ← unsigned 64 (a + doe / 36524)
  let c ← unsigned 64 (b - doe / 146096)
  some (c / 365)

/-- `yoe as i64 + era * 400`. -/
def checkedYear (era : ℤ) (yoe : ℕ) : Option ℤ := do
  let yoe ← signed 64 yoe
  let eraYears ← signed 64 (era * 400)
  signed 64 (yoe + eraYears)

/-- `doy` of `days_to_ymd`. -/
def checkedDayOfYear (doe yoe : ℕ) : Option ℕ := do
  let a ← unsigned 64 (365 * yoe)
  let b ← unsigned 64 (a + yoe / 4)
  let c ← unsigned 64 (b - yoe / 100)
  unsigned 64 (doe - c)

/-- `mp` and `d` of `days_to_ymd`. -/
def checkedMarchMonth (doy : ℕ) : Option (ℕ × ℕ) := do
  let a ← unsigned 64 (5 * doy)
  let b ← unsigned 64 (a + 2)
  let mp := b / 153
  let c ← unsigned 64 (153 * mp)
  let e ← unsigned 64 (c + 2)
  let f ← unsigned 64 (doy - e / 5)
  let d ← unsigned 64 (f + 1)
  some (mp, d)

/-- `m` of `days_to_ymd`. -/
def checkedMonth (mp : ℕ) : Option ℕ :=
  if mp < 10 then unsigned 64 (mp + 3) else unsigned 64 (mp - 9)

/-- The last `y` of `days_to_ymd`. -/
def checkedCivilYear (m : ℕ) (y : ℤ) : Option ℤ := if m ≤ 2 then signed 64 (y + 1) else some y

/-- `days_to_ymd`, operation by operation. -/
def daysToYmdChecked (daysSinceEpoch : ℤ) : Option (ℤ × ℕ × ℕ) := do
  let (era, doe) ← checkedEra daysSinceEpoch
  let yoe ← checkedYearOfEra doe
  let y ← checkedYear era yoe
  let doy ← checkedDayOfYear doe yoe
  let (mp, d) ← checkedMarchMonth doy
  let m ← checkedMonth mp
  let y ← checkedCivilYear m y
  let m ← unsigned 32 m
  let d ← unsigned 32 d
  some (y, m, d)

lemma checkedDividend_eq {z : ℤ} (hlo : -2 ^ 62 ≤ z) :
    checkedDividend z = some (if z ≥ 0 then z else z - 146096) := by
  rw [checkedDividend]
  split_ifs
  · rfl
  · exact signed_of_mem (by omega) (by omega)

lemma checkedEra_eq {n : ℤ} (hlo : -2 ^ 61 ≤ n) (hhi : n < 2 ^ 61) :
    checkedEra n = some (eraOf n, dayOfEra n) := by
  have hera : n + 719468 = eraOf n * 146097 + dayOfEra n := by
    rw [eraOf, dayOfEra]
    omega
  have hdoe := dayOfEra_lt n
  have hdiv := era_eq (n + 719468)
  rw [← apply_ite (Int.tdiv · 146097)] at hdiv
  rw [checkedEra]
  refine bind_of_eq (signed_of_mem (by omega) (by omega)) ?_
  refine bind_of_eq (checkedDividend_eq (by omega)) ?_
  rw [hdiv]
  refine bind_of_eq (signed_of_mem (by omega) (by omega)) ?_
  refine bind_of_eq (signed_of_mem (by omega) (by omega)) ?_
  refine bind_of_eq (signed_of_mem (by omega) (by omega)) ?_
  exact bind_of_eq (unsigned_of_eq (k := dayOfEra n) (by omega) (by omega)) rfl

lemma checkedYearOfEra_eq {doe : ℕ} (h : doe < 146097) :
    checkedYearOfEra doe = some (yearOfEra doe) := by
  refine bind_of_eq (unsigned_of_eq (k := doe - doe / 1460) (by omega) (by omega)) ?_
  refine bind_of_eq (unsigned_of_eq (k := doe - doe / 1460 + doe / 36524) (by omega)
    (by omega)) ?_
  exact bind_of_eq (unsigned_of_eq (k := doe - doe / 1460 + doe / 36524 - doe / 146096)
    (by omega) (by omega)) rfl

lemma checkedYear_eq {era : ℤ} {yoe : ℕ} (hlo : -2 ^ 50 ≤ era) (hhi : era < 2 ^ 50)
    (h : yoe < 400) : checkedYear era yoe = some (yoe + era * 400) := by
  refine bind_of_eq (signed_of_mem (by omega) (by omega)) ?_
  refine bind_of_eq (signed_of_mem (by omega) (by omega)) ?_
  exact signed_of_mem (by omega) (by omega)

lemma checkedDayOfYear_eq {doe : ℕ} (h : doe < 146097) :
    checkedDayOfYear doe (yearOfEra doe) = some (dayOfYear doe) := by
  obtain ⟨h400, hstart, -⟩ := dayOfYear_bounds h
  rw [dayOfYear]
  generalize yearOfEra doe = yoe at *
  rw [yearStart] at hstart ⊢
  refine bind_of_eq (unsigned_of_eq (k := 365 * yoe) (by omega) (by omega)) ?_
  refine bind_of_eq (unsigned_of_eq (k := 365 * yoe + yoe / 4) (by omega) (by omega)) ?_
  refine bind_of_eq (unsigned_of_eq (k := 365 * yoe + yoe / 4 - yoe / 100) (by omega)
    (by omega)) ?_
  exact unsigned_of_eq (by omega) (by omega)

lemma checkedMarchMonth_eq {doy : ℕ} (h : doy ≤ 365) :
    checkedMarchMonth doy
      = some ((5 * doy + 2) / 153, doy - (153 * ((5 * doy + 2) / 153) + 2) / 5 + 1) := by
  obtain ⟨mp, hmp⟩ : ∃ mp, mp = (5 * doy + 2) / 153 := ⟨_, rfl⟩
  rw [checkedMarchMonth, ← hmp]
  refine bind_of_eq (unsigned_of_eq (k := 5 * doy) (by omega) (by omega)) ?_
  refine bind_of_eq (unsigned_of_eq (k := 5 * doy + 2) (by omega) (by omega)) ?_
  rw [← hmp]
  refine bind_of_eq (unsigned_of_eq (k := 153 * mp) (by omega) (by omega)) ?_
  refine bind_of_eq (unsigned_of_eq (k := 153 * mp + 2) (by omega) (by omega)) ?_
  refine bind_of_eq (unsigned_of_eq (k := doy - (153 * mp + 2) / 5) (by omega) (by omega)) ?_
  exact bind_of_eq (unsigned_of_eq (k := doy - (153 * mp + 2) / 5 + 1) (by omega)
    (by omega)) rfl

lemma checkedMonth_eq {mp : ℕ} (h : mp ≤ 11) :
    checkedMonth mp = some (if mp < 10 then mp + 3 else mp - 9) := by
  rw [checkedMonth]
  split_ifs
  · exact unsigned_of_eq (by omega) (by omega)
  · exact unsigned_of_eq (by omega) (by omega)

lemma checkedCivilYear_eq (m : ℕ) {y : ℤ} (hlo : -2 ^ 62 ≤ y) (hhi : y < 2 ^ 62) :
    checkedCivilYear m y = some (if m ≤ 2 then y + 1 else y) := by
  rw [checkedCivilYear]
  split_ifs
  · exact signed_of_mem (by omega) (by omega)
  · rfl

/-- **No intermediate result is out of range**, for the day of every `i64` of seconds. -/
theorem daysToYmdChecked_eq {t : ℤ} (hlo : -2 ^ 63 ≤ t) (hhi : t < 2 ^ 63) :
    daysToYmdChecked (t / 86400) = some (daysToYmd (t / 86400)) := by
  have hdoe := dayOfEra_lt (t / 86400)
  have hyoe := (dayOfYear_bounds hdoe).1
  have hera : eraOf (t / 86400) = (t / 86400 + 719468) / 146097 := rfl
  rw [daysToYmd_eq, daysToYmdChecked]
  refine bind_of_eq (checkedEra_eq (by omega) (by omega)) ?_
  refine bind_of_eq (checkedYearOfEra_eq hdoe) ?_
  refine bind_of_eq (checkedYear_eq (by omega) (by omega) hyoe) ?_
  refine bind_of_eq (checkedDayOfYear_eq hdoe) ?_
  obtain ⟨doy, hdoy⟩ : ∃ doy, doy = dayOfYear (dayOfEra (t / 86400)) := ⟨_, rfl⟩
  have hle : doy ≤ 365 := hdoy ▸ dayOfYear_le hdoe
  rw [← hdoy]
  generalize yearOfEra (dayOfEra (t / 86400)) = yoe at *
  generalize eraOf (t / 86400) = era at *
  have hmonth := ymdOfMarch_month (yoe + era * 400) hle
  have hday := ymdOfMarch_day (yoe + era * 400) doy
  refine bind_of_eq (checkedMarchMonth_eq hle) ?_
  refine bind_of_eq (checkedMonth_eq (by omega)) ?_
  refine bind_of_eq (checkedCivilYear_eq _ (by omega) (by omega)) ?_
  refine bind_of_eq (unsigned_of_eq (k := (ymdOfMarch (yoe + era * 400) doy).2.1) (by omega)
    rfl) ?_
  exact bind_of_eq (unsigned_of_eq (k := (ymdOfMarch (yoe + era * 400) doy).2.2) (by omega)
    rfl) rfl

/-! ### The timestamp -/

/-- The date and time of an instant, as `rfc3339_at` computes it. -/
def dateTimeOf (unixSecs : ℤ) : DateTime where
  date := dateOf (unixSecs / 86400)
  hour := (unixSecs / 3600 % 24).toNat
  minute := (unixSecs / 60 % 60).toNat
  second := (unixSecs % 60).toNat
  hour_lt := by omega
  minute_lt := by omega
  second_lt := by omega

/-- The form of a timestamp: `{y:04}-{mo:02}-{d:02}T{h:02}:{m:02}:{s:02}Z`. -/
def rfc3339 (t : DateTime) : String :=
  String.ofList (fmtPad 4 t.date.year ++ '-' :: (zeroPad 2 t.date.month ++ '-' ::
    (zeroPad 2 t.date.day ++ 'T' :: (zeroPad 2 t.hour ++ ':' :: (zeroPad 2 t.minute ++ ':' ::
      (zeroPad 2 t.second ++ ['Z']))))))

lemma seconds_dateTimeOf (t : ℤ) : (dateTimeOf t).seconds = t := by
  have hday := dayNumber_dateOf (t / 86400)
  rw [DateTime.seconds]
  simp only [dateTimeOf]
  rw [hday]
  omega

lemma rfc3339_dateTimeOf (t : ℤ) : rfc3339 (dateTimeOf t) = rfc3339At t := by
  have hfield : ∀ n : ℤ, 0 ≤ n → zeroPad 2 n.toNat = fmtPad 2 n := by
    intro n hn
    rw [fmtPad_of_nonneg hn]
    congr 1
    omega
  rw [rfc3339, rfc3339At]
  simp only [dateTimeOf]
  rw [hfield _ (by omega), hfield _ (by omega), hfield _ (by omega)]
  rfl

/-- **The calendar**: a timestamp shows the one date and time that is so many seconds from
the beginning of 1970; days and dates correspond, in their order; and no arithmetic fails. -/
theorem timestamp_correct :
    (∀ t : ℤ, -2 ^ 63 ≤ t → t < 2 ^ 63 →
      (∃ dt : DateTime, dt.seconds = t ∧ rfc3339At t = rfc3339 dt ∧
        ∀ dt' : DateTime, dt'.seconds = t → dt' = dt) ∧
      daysToYmdChecked (t / 86400) = some (daysToYmd (t / 86400))) ∧
    ∃ f : ℤ ≃ Date, ∀ n : ℤ,
      daysToYmd n = ((f n).year, (f n).month, (f n).day) ∧ f (n + 1) = (f n).next := by
  refine ⟨?_, dateEquiv, fun n => ⟨rfl, dateOf_succ n⟩⟩
  intro t hlo hhi
  refine ⟨⟨dateTimeOf t, seconds_dateTimeOf t, (rfc3339_dateTimeOf t).symm, ?_⟩,
    daysToYmdChecked_eq hlo hhi⟩
  intro dt' h
  exact DateTime.seconds_injective (h.trans (seconds_dateTimeOf t).symm)

theorem timestamp_correct_2026 :
    ∃ dt : DateTime, dt.seconds = 1778157296 ∧ rfc3339 dt = "2026-05-07T12:34:56Z" := by
  obtain ⟨dt, hseconds, hshow, -⟩ :=
    (timestamp_correct.1 1778157296 (by norm_num) (by norm_num)).1
  exact ⟨dt, hseconds, hshow.symm.trans (by decide)⟩

/-! ### Timestamps outside of the years `0` to `9999` -/

/-- The first instant of the year `-1`. -/
def yearMinusOne : ℤ := -62198755200

lemma fmtPad_of_neg {w : ℕ} {n : ℤ} (h : n < 0) :
    fmtPad w n = '-' :: zeroPad (w - 1) n.natAbs := by
  rw [fmtPad, if_pos h]

/-- The fields of a date have two digits. -/
lemma month_day_lt (n : ℤ) : (daysToYmd n).2.1 < 10 ^ 2 ∧ (daysToYmd n).2.2 < 10 ^ 2 := by
  have hmonth := ymdOfMarch_month ((yearOfEra (dayOfEra n) : ℤ) + eraOf n * 400) (marchDay_le n)
  have hday := ymdOfMarch_day ((yearOfEra (dayOfEra n) : ℤ) + eraOf n * 400) (marchDay n)
  rw [daysToYmd_eq]
  exact ⟨Nat.lt_of_le_of_lt hmonth.2 (by decide), Nat.lt_of_le_of_lt hday.2 (by decide)⟩

/-- In one year later instants have larger strings. -/
lemma rfc3339At_lt_of_year {a b : ℤ} (h : a < b)
    (hyear : (daysToYmd (a / 86400)).1 = (daysToYmd (b / 86400)).1) :
    rfc3339At a < rfc3339At b := by
  obtain ⟨hma, hda⟩ := month_day_lt (a / 86400)
  obtain ⟨hmb, hdb⟩ := month_day_lt (b / 86400)
  rw [String.lt_iff_toList_lt]
  simp only [rfc3339At, String.toList_ofList]
  refine field_lt '-' (by rw [hyear]) (Or.inr ⟨by rw [hyear], numField_lt '-' hma hmb ?_⟩)
  rcases lt_or_eq_of_le (show a / 86400 ≤ b / 86400 by omega) with hlt | heq
  · have hdate := daysToYmd_lt hlt
    simp only [DateLt, hyear, lt_irrefl, false_or, true_and] at hdate
    exact hdate.imp_right fun hday => ⟨hday.1, numField_lt 'T' hda hdb (Or.inl hday.2)⟩
  · rw [heq] at hda ⊢
    exact Or.inr ⟨rfl, numField_lt 'T' hda hda (Or.inr ⟨rfl, timeWord_lt heq h⟩)⟩

lemma year_le_year {a b : ℤ} (h : a ≤ b) : (daysToYmd a).1 ≤ (daysToYmd b).1 := by
  rcases lt_or_eq_of_le h with h | rfl
  · have hdate := daysToYmd_lt h
    simp only [DateLt] at hdate
    omega
  · exact le_rfl

lemma year_eq_neg_one {t : ℤ} (hlo : yearMinusOne ≤ t) (hhi : t < yearZero) :
    (daysToYmd (t / 86400)).1 = -1 := by
  simp only [yearMinusOne, yearZero] at hlo hhi
  have hfirst := year_le_year (show -719893 ≤ t / 86400 by omega)
  have hlast := year_le_year (show t / 86400 ≤ -719529 by omega)
  have hfirst' : (daysToYmd (-719893)).1 = -1 := by decide
  have hlast' : (daysToYmd (-719529)).1 = -1 := by decide
  omega

/-- **The order of timestamps** holds from the year `-1` on. -/
lemma rfc3339At_le_of_yearMinusOne_le {a b : ℤ} (h : a ≤ b) (hlo : yearMinusOne ≤ a)
    (hhi : b < yearTenThousand) : rfc3339At a ≤ rfc3339At b := by
  by_cases hb : yearZero ≤ b
  · exact rfc3339At_le h hb hhi
  · rcases lt_or_eq_of_le h with h | rfl
    · refine (rfc3339At_lt_of_year h ?_).le
      rw [year_eq_neg_one hlo (by omega), year_eq_neg_one (by omega) (by omega)]
    · exact le_rfl

/-- Earlier than that it does not. -/
lemma rfc3339At_yearMinusOne_lt {t : ℤ} (h : t < yearMinusOne) :
    rfc3339At yearMinusOne < rfc3339At t := by
  have hyear : (daysToYmd (t / 86400)).1 ≤ -2 := by
    simp only [yearMinusOne] at h
    have hlast := year_le_year (show t / 86400 ≤ -719894 by omega)
    have hlast' : (daysToYmd (-719894)).1 = -2 := by decide
    omega
  have hfirst : (daysToYmd (yearMinusOne / 86400)).1 = -1 := by decide
  rw [String.lt_iff_toList_lt]
  simp only [rfc3339At, String.toList_ofList, hfirst]
  generalize (daysToYmd (t / 86400)).1 = y at *
  rw [fmtPad_of_neg (n := -1) (by decide), fmtPad_of_neg (n := y) (by omega), List.cons_append,
    List.cons_append, List.cons_lt_cons_iff]
  refine Or.inr ⟨rfl, ?_⟩
  by_cases h3 : y.natAbs < 1000
  · exact numField_lt (w := 2) '-' (by decide) h3 (Or.inl (show 1 < y.natAbs by omega))
  · obtain ⟨d, rest, hd, hlt⟩ :=
      exists_zeroPad_eq_cons (w := 2) (show 10 ^ 2 ≤ y.natAbs by omega)
    show zeroPad (2 + 1) 1 ++ _ < zeroPad (2 + 1) y.natAbs ++ _
    rw [hd]
    exact List.cons_lt_cons_iff.mpr (Or.inl hlt)

/-- No instant from 1970 on has a smaller string than the year `0`, however many digits its
year has. -/
lemma rfc3339At_yearZero_lt {t : ℤ} (h : 0 ≤ t) : rfc3339At yearZero < rfc3339At t := by
  have hyear : 1970 ≤ (daysToYmd (t / 86400)).1 := year_le_year (show 0 ≤ t / 86400 by omega)
  have hfirst : (daysToYmd (yearZero / 86400)).1 = 0 := by decide
  rw [String.lt_iff_toList_lt]
  simp only [rfc3339At, String.toList_ofList, hfirst]
  generalize (daysToYmd (t / 86400)).1 = y at *
  rw [fmtPad_of_nonneg le_rfl, fmtPad_of_nonneg (show 0 ≤ y by omega)]
  obtain ⟨d, rest, hd, hlt⟩ := exists_zeroPad_eq_cons (w := 3) (show 10 ^ 3 ≤ y.natAbs by omega)
  show zeroPad (3 + 1) 0 ++ _ < zeroPad (3 + 1) y.natAbs ++ _
  rw [hd]
  exact List.cons_lt_cons_iff.mpr (Or.inl hlt)

end Accelrd.Time
