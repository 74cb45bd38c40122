import Mathlib.Tactic
import Mathlib.Data.String.Basic
import Accelrd.Library.Decimal

/-!
`src/time.rs`: RFC 3339 timestamps without a calendar library, and why the code
may compare them as strings.

* `daysToYmd`, `rfc3339At`, `nowMinusSecs`: the conversion as the code computes
  it. Clock readings are `u64` seconds, cast to `i64` before formatting.
* `daysToYmd_eq`: the conversion counts years from March, so that the leap day
  comes last; `dayOfYear_bounds` is the one fact about leap years it rests on.
* `daysToYmd_lt`: later days have later dates.
* `rfc3339At_lt`: up to the year 9999 later instants have larger strings, the
  earlier instant being arbitrary (dates before the year 0 begin with a minus
  sign, which is below every digit).
-/

namespace Accelrd.Time

open Decimal

/-! ### The conversion -/

/-- `n as i64`, for a `u64` value. -/
def asI64 (n : ℕ) : ℤ := Int.bmod n (2 ^ 64)

/-- `days_to_ymd`: the civil date of a day number, `1970-01-01` being day `0`. -/
def daysToYmd (daysSinceEpoch : ℤ) : ℤ × ℕ × ℕ :=
  let z := daysSinceEpoch + 719468
  let era := if z ≥ 0 then z.tdiv 146097 else (z - 146096).tdiv 146097
  let doe := (z - era * 146097).toNat
  let yoe := (doe - doe / 1460 + doe / 36524 - doe / 146096) / 365
  let y := (yoe : ℤ) + era * 400
  let doy := doe - (365 * yoe + yoe / 4 - yoe / 100)
  let mp := (5 * doy + 2) / 153
  let d := doy - (153 * mp + 2) / 5 + 1
  let m := if mp < 10 then mp + 3 else mp - 9
  let y := if m ≤ 2 then y + 1 else y
  (y, m, d)

/-- `{n:0w}` for a signed `n`: the sign counts towards the width. -/
def fmtPad (w : ℕ) (n : ℤ) : List Char :=
  if n < 0 then '-' :: zeroPad (w - 1) n.natAbs else zeroPad w n.natAbs

/-- `rfc3339_at`. -/
def rfc3339At (unixSecs : ℤ) : String :=
  let s := unixSecs % 60
  let m := unixSecs / 60 % 60
  let h := unixSecs / 3600 % 24
  let (y, mo, d) := daysToYmd (unixSecs / 86400)
  String.ofList (fmtPad 4 y ++ '-' :: (zeroPad 2 mo ++ '-' :: (zeroPad 2 d ++ 'T' ::
    (fmtPad 2 h ++ ':' :: (fmtPad 2 m ++ ':' :: (fmtPad 2 s ++ ['Z']))))))

/-- `now_rfc3339`, at a clock reading of `now` seconds. -/
def nowRfc3339 (now : ℕ) : String := rfc3339At (asI64 now)

/-- `now_minus_secs`, at a clock reading of `now` seconds; the subtraction wraps
as in a release build. -/
def nowMinusSecs (now secs : ℕ) : String :=
  rfc3339At (Int.bmod (asI64 now - asI64 secs) (2 ^ 64))

lemma nowRfc3339_ne_empty (now : ℕ) : nowRfc3339 now ≠ "" := by
  intro h
  have hlist := congrArg String.toList h
  simp [nowRfc3339, rfc3339At] at hlist

example : rfc3339At 0 = "1970-01-01T00:00:00Z" := by decide

example : rfc3339At 1778157296 = "2026-05-07T12:34:56Z" := by decide

/-! ### Years that begin in March -/

/-- The day on which the March year `y` of an era begins. -/
def yearStart (y : ℕ) : ℕ := 365 * y + y / 4 - y / 100

/-- The March year of a day of an era. -/
def yearOfEra (doe : ℕ) : ℕ := (doe - doe / 1460 + doe / 36524 - doe / 146096) / 365

/-- The day of its March year. -/
def dayOfYear (doe : ℕ) : ℕ := doe - yearStart (yearOfEra doe)

/-- The era of a day number: `146097` days each, counted from the 1st of March of
the year `0`. -/
def eraOf (n : ℤ) : ℤ := (n + 719468) / 146097

/-- The day of its era. -/
def dayOfEra (n : ℤ) : ℕ := ((n + 719468) % 146097).toNat

/-- The civil date of a day of a March year. -/
def ymdOfMarch (y : ℤ) (doy : ℕ) : ℤ × ℕ × ℕ :=
  let mp := (5 * doy + 2) / 153
  let d := doy - (153 * mp + 2) / 5 + 1
  let m := if mp < 10 then mp + 3 else mp - 9
  (if m ≤ 2 then y + 1 else y, m, d)

/-- Truncating division, with the code's correction below zero, is the floor. -/
lemma era_eq (z : ℤ) :
    (if z ≥ 0 then z.tdiv 146097 else (z - 146096).tdiv 146097) = z / 146097 := by
  have hsign : Int.sign 146097 = 1 := rfl
  split
  · rw [Int.tdiv_eq_ediv_of_nonneg (by omega)]
  · rw [Int.tdiv_eq_ediv]
    split_ifs <;> omega

/-- The code's conversion, read through March years. -/
lemma daysToYmd_eq (n : ℤ) :
    daysToYmd n
      = ymdOfMarch ((yearOfEra (dayOfEra n) : ℤ) + eraOf n * 400) (dayOfYear (dayOfEra n)) := by
  have hdoe : (n + 719468 - (n + 719468) / 146097 * 146097).toNat = dayOfEra n := by
    rw [dayOfEra]
    congr 1
    omega
  simp only [daysToYmd, era_eq, hdoe]
  rfl

lemma dayOfEra_lt (n : ℤ) : dayOfEra n < 146097 := by
  rw [dayOfEra]
  omega

/-- **Leap years**: the day lies within the March year the code computes for it. -/
lemma dayOfYear_bounds {doe : ℕ} (h : doe < 146097) :
    yearOfEra doe < 400 ∧ yearStart (yearOfEra doe) ≤ doe ∧
      (yearOfEra doe < 399 → doe < yearStart (yearOfEra doe + 1)) := by
  obtain ⟨y, hy⟩ : ∃ y, y = yearOfEra doe := ⟨_, rfl⟩
  rw [← hy]
  simp only [yearOfEra, yearStart] at hy ⊢
  -- the number of the century, and whether this is the leap day of the era's last year
  obtain ⟨e, he⟩ : ∃ e, e = doe / 36524 := ⟨_, rfl⟩
  obtain ⟨f, hf⟩ : ∃ f, f = doe / 146096 := ⟨_, rfl⟩
  have he4 : e ≤ 4 := by omega
  have hf1 : f ≤ 1 := by omega
  rw [← he, ← hf] at hy
  have h400 : y < 400 := by omega
  have hquad : y / 4 ≤ doe / 1460 := by omega
  have hcent : e ≤ y / 100 + f := by interval_cases e <;> interval_cases f <;> omega
  refine ⟨h400, by omega, fun h399 => ?_⟩
  have hf0 : f = 0 := by
    by_contra hf0
    have : f = 1 := by omega
    omega
  subst hf0
  have hquad' : doe / 1460 ≤ (y + 1) / 4 := by interval_cases e <;> omega
  have hcent' : (y + 1) / 100 ≤ e + 1 := by interval_cases e <;> omega
  interval_cases e <;> omega

lemma yearStart_mono : Monotone yearStart :=
  monotone_nat_of_le_succ fun y => by
    simp only [yearStart]
    omega

lemma dayOfYear_le {doe : ℕ} (h : doe < 146097) : dayOfYear doe ≤ 365 := by
  obtain ⟨h400, hlo, hhi⟩ := dayOfYear_bounds h
  rw [dayOfYear]
  by_cases h399 : yearOfEra doe < 399
  · have := hhi h399
    simp only [yearStart] at this ⊢
    omega
  · have heq : yearOfEra doe = 399 := by omega
    rw [heq]
    simp only [yearStart]
    omega

/-- Within an era, later days are in later years, or later in the same year. -/
lemma yearOfEra_lt {a b : ℕ} (hb : b < 146097) (h : a < b) :
    yearOfEra a < yearOfEra b ∨ (yearOfEra a = yearOfEra b ∧ dayOfYear a < dayOfYear b) := by
  obtain ⟨ha400, halo, hahi⟩ := dayOfYear_bounds (h.trans hb)
  obtain ⟨hb400, hblo, hbhi⟩ := dayOfYear_bounds hb
  rcases lt_trichotomy (yearOfEra a) (yearOfEra b) with hlt | heq | hgt
  · exact Or.inl hlt
  · refine Or.inr ⟨heq, ?_⟩
    rw [heq] at halo
    rw [dayOfYear, dayOfYear, heq]
    omega
  · -- the earlier day cannot be in a later year
    have h1 := hbhi (by omega)
    have h2 : yearStart (yearOfEra b + 1) ≤ yearStart (yearOfEra a) := yearStart_mono hgt
    omega

/-! ### Later days have later dates -/

/-- The order of civil dates: year, month, day. -/
def DateLt (a b : ℤ × ℕ × ℕ) : Prop :=
  a.1 < b.1 ∨ (a.1 = b.1 ∧ (a.2.1 < b.2.1 ∨ (a.2.1 = b.2.1 ∧ a.2.2 < b.2.2)))

lemma ymdOfMarch_month (y : ℤ) {doy : ℕ} (h : doy ≤ 365) :
    1 ≤ (ymdOfMarch y doy).2.1 ∧ (ymdOfMarch y doy).2.1 ≤ 12 := by
  simp only [ymdOfMarch]
  split <;> omega

lemma ymdOfMarch_day (y : ℤ) (doy : ℕ) :
    1 ≤ (ymdOfMarch y doy).2.2 ∧ (ymdOfMarch y doy).2.2 ≤ 31 := by
  simp only [ymdOfMarch]
  omega

/-- Later days of a March year have later dates. -/
lemma ymdOfMarch_lt_of_day (y : ℤ) {a b : ℕ} (hb : b ≤ 365) (h : a < b) :
    DateLt (ymdOfMarch y a) (ymdOfMarch y b) := by
  simp only [DateLt, ymdOfMarch]
  obtain ⟨p, hp⟩ : ∃ p, p = (5 * a + 2) / 153 := ⟨_, rfl⟩
  obtain ⟨q, hq⟩ : ∃ q, q = (5 * b + 2) / 153 := ⟨_, rfl⟩
  rw [← hp, ← hq]
  have hpq : p ≤ q := by omega
  rcases Nat.lt_or_eq_of_le hpq with hlt | rfl
  · split_ifs <;> omega
  · split_ifs <;> omega

/-- Later March years have later dates. -/
lemma ymdOfMarch_lt_of_year {y z : ℤ} {a b : ℕ} (ha : a ≤ 365) (hb : b ≤ 365) (h : y < z) :
    DateLt (ymdOfMarch y a) (ymdOfMarch z b) := by
  have hma := ymdOfMarch_month y ha
  have hmb := ymdOfMarch_month z hb
  simp only [DateLt, ymdOfMarch] at hma hmb ⊢
  split_ifs at hma hmb ⊢ <;> omega

/-- **Later days have later dates.** -/
theorem daysToYmd_lt {a b : ℤ} (h : a < b) : DateLt (daysToYmd a) (daysToYmd b) := by
  rw [daysToYmd_eq, daysToYmd_eq]
  have ha := dayOfEra_lt a
  have hb := dayOfEra_lt b
  have hera : eraOf a < eraOf b ∨ (eraOf a = eraOf b ∧ dayOfEra a < dayOfEra b) := by
    simp only [eraOf, dayOfEra]
    omega
  rcases hera with hera | ⟨hera, hday⟩
  · refine ymdOfMarch_lt_of_year (dayOfYear_le ha) (dayOfYear_le hb) ?_
    have := (dayOfYear_bounds ha).1
    omega
  · rw [hera]
    rcases yearOfEra_lt hb hday with hyear | ⟨hyear, hdoy⟩
    · exact ymdOfMarch_lt_of_year (dayOfYear_le ha) (dayOfYear_le hb) (by omega)
    · rw [hyear]
      exact ymdOfMarch_lt_of_day _ (dayOfYear_le hb) hdoy

/-! ### The order of timestamps -/

/-- The first instant of the year `0`. -/
def yearZero : ℤ := -62167219200

/-- The first instant of the year `10000`. -/
def yearTenThousand : ℤ := 253402300800

/-- A field of a timestamp decides, or the rest does. -/
lemma field_lt {l₁ l₂ r₁ r₂ : List Char} (c : Char) (hlen : l₁.length = l₂.length)
    (h : l₁ < l₂ ∨ (l₁ = l₂ ∧ r₁ < r₂)) : l₁ ++ c :: r₁ < l₂ ++ c :: r₂ := by
  rw [append_lt_append_iff hlen, List.cons_lt_cons_iff]
  exact h.imp_right fun ⟨h₁, h₂⟩ => ⟨h₁, Or.inr ⟨rfl, h₂⟩⟩

/-- A numeric field of two or four digits decides, or the rest does. -/
lemma numField_lt {w a b : ℕ} {r₁ r₂ : List Char} (c : Char) (ha : a < 10 ^ (w + 1))
    (hb : b < 10 ^ (w + 1)) (h : a < b ∨ (a = b ∧ r₁ < r₂)) :
    zeroPad (w + 1) a ++ c :: r₁ < zeroPad (w + 1) b ++ c :: r₂ :=
  field_lt c ((length_zeroPad ha).trans (length_zeroPad hb).symm)
    (h.imp (zeroPad_lt_zeroPad hb) fun ⟨h₁, h₂⟩ => ⟨by rw [h₁], h₂⟩)

lemma fmtPad_of_nonneg {w : ℕ} {n : ℤ} (h : 0 ≤ n) : fmtPad w n = zeroPad w n.natAbs := by
  rw [fmtPad, if_neg (by omega)]

/-- Later dates have larger words, up to the year `9999`; the words before the
year `0` begin with a minus sign. -/
lemma dateWord_lt {y z : ℤ} {m d m' d' : ℕ} {r r' : List Char} (hz : 0 ≤ z) (hz' : z ≤ 9999)
    (hm : m ≤ 12) (hm' : m' ≤ 12) (hd : d ≤ 31) (hd' : d' ≤ 31)
    (h : DateLt (y, m, d) (z, m', d') ∨ ((y, m, d) = (z, m', d') ∧ r < r')) :
    fmtPad 4 y ++ '-' :: (zeroPad 2 m ++ '-' :: (zeroPad 2 d ++ 'T' :: r))
      < fmtPad 4 z ++ '-' :: (zeroPad 2 m' ++ '-' :: (zeroPad 2 d' ++ 'T' :: r')) := by
  rw [fmtPad_of_nonneg hz]
  by_cases hy : y < 0
  · rw [fmtPad, if_pos hy]
    exact cons_lt_zeroPad_append (by decide) _ _ _ _
  · rw [fmtPad_of_nonneg (by omega)]
    simp only [DateLt, Prod.mk.injEq] at h
    have hyz : y ≤ z := by omega
    refine numField_lt '-' (by omega) (by omega) ?_
    rcases h with (h | ⟨rfl, h | ⟨rfl, h⟩⟩) | ⟨⟨rfl, rfl, rfl⟩, h⟩
    · exact Or.inl (by omega)
    · exact Or.inr ⟨rfl, numField_lt '-' (by omega) (by omega) (Or.inl h)⟩
    · exact Or.inr ⟨rfl, numField_lt '-' (by omega) (by omega)
        (Or.inr ⟨rfl, numField_lt 'T' (by omega) (by omega) (Or.inl h)⟩)⟩
    · exact Or.inr ⟨rfl, numField_lt '-' (by omega) (by omega)
        (Or.inr ⟨rfl, numField_lt 'T' (by omega) (by omega) (Or.inr ⟨rfl, h⟩)⟩)⟩

/-- The time of day decides between instants of one day. -/
lemma timeWord_lt {a b : ℤ} (hday : a / 86400 = b / 86400) (h : a < b) :
    fmtPad 2 (a / 3600 % 24) ++ ':' ::
          (fmtPad 2 (a / 60 % 60) ++ ':' :: (fmtPad 2 (a % 60) ++ ['Z']))
      < fmtPad 2 (b / 3600 % 24) ++ ':' ::
          (fmtPad 2 (b / 60 % 60) ++ ':' :: (fmtPad 2 (b % 60) ++ ['Z'])) := by
  rw [fmtPad_of_nonneg (n := a / 3600 % 24) (by omega),
    fmtPad_of_nonneg (n := a / 60 % 60) (by omega), fmtPad_of_nonneg (n := a % 60) (by omega),
    fmtPad_of_nonneg (n := b / 3600 % 24) (by omega),
    fmtPad_of_nonneg (n := b / 60 % 60) (by omega), fmtPad_of_nonneg (n := b % 60) (by omega)]
  refine numField_lt ':' (by omega) (by omega) ?_
  rcases lt_trichotomy (a / 3600) (b / 3600) with hh | hh | hh
  · exact Or.inl (by omega)
  · refine Or.inr ⟨by rw [hh], numField_lt ':' (by omega) (by omega) ?_⟩
    rcases lt_trichotomy (a / 60) (b / 60) with hm | hm | hm
    · exact Or.inl (by omega)
    · exact Or.inr ⟨by rw [hm], numField_lt 'Z' (by omega) (by omega) (Or.inl (by omega))⟩
    · omega
  · omega

/-- The dates of the years `0` to `9999`. -/
lemma year_bounds {b : ℤ} (hlo : yearZero ≤ b) (hhi : b < yearTenThousand) :
    0 ≤ (daysToYmd (b / 86400)).1 ∧ (daysToYmd (b / 86400)).1 ≤ 9999 := by
  simp only [yearZero, yearTenThousand] at hlo hhi
  have h0 : (daysToYmd (-719528)).1 = 0 := by decide
  have h9 : (daysToYmd 2932896).1 = 9999 := by decide
  constructor
  · rcases (show -719528 < b / 86400 ∨ -719528 = b / 86400 by omega) with h | h
    · have := daysToYmd_lt h
      simp only [DateLt] at this
      omega
    · rw [← h, h0]
  · rcases (show b / 86400 < 2932896 ∨ b / 86400 = 2932896 by omega) with h | h
    · have := daysToYmd_lt h
      simp only [DateLt] at this
      omega
    · rw [h, h9]

/-- **Timestamps order like time**: up to the year `9999` a later instant has a
larger string, whatever the earlier instant is. -/
theorem rfc3339At_lt {a b : ℤ} (h : a < b) (hlo : yearZero ≤ b) (hhi : b < yearTenThousand) :
    rfc3339At a < rfc3339At b := by
  rw [String.lt_iff_toList_lt]
  simp only [rfc3339At, String.toList_ofList]
  obtain ⟨hy0, hy9⟩ := year_bounds hlo hhi
  have hmonth : ∀ n, (daysToYmd n).2.1 ≤ 12 := fun n => by
    rw [daysToYmd_eq]
    exact (ymdOfMarch_month _ (dayOfYear_le (dayOfEra_lt n))).2
  have hday : ∀ n, (daysToYmd n).2.2 ≤ 31 := fun n => by
    rw [daysToYmd_eq]
    exact (ymdOfMarch_day _ _).2
  refine dateWord_lt hy0 hy9 (hmonth _) (hmonth _) (hday _) (hday _) ?_
  rcases lt_or_eq_of_le (show a / 86400 ≤ b / 86400 by omega) with hlt | heq
  · exact Or.inl (daysToYmd_lt hlt)
  · exact Or.inr ⟨by rw [heq], timeWord_lt heq h⟩

lemma rfc3339At_le {a b : ℤ} (h : a ≤ b) (hlo : yearZero ≤ b) (hhi : b < yearTenThousand) :
    rfc3339At a ≤ rfc3339At b := by
  rcases lt_or_eq_of_le h with h | rfl
  · exact (rfc3339At_lt h hlo hhi).le
  · exact le_rfl

/-- A string comparison that comes out "less" says that time has passed. -/
lemma lt_of_rfc3339At_lt {a b : ℤ} (hlo : yearZero ≤ a) (hhi : a < yearTenThousand)
    (h : rfc3339At a < rfc3339At b) : a < b := by
  by_contra hab
  exact absurd h (not_lt.mpr (rfc3339At_le (not_lt.mp hab) hlo hhi))

/-! ### Clock readings -/

lemma asI64_of_lt {n : ℕ} (h : n < 2 ^ 63) : asI64 n = n := by
  refine Int.bmod_eq_of_le ?_ ?_ <;> omega

/-- `now_minus_secs` subtracts, for a clock before the year `10000` and fewer than
`2^63` seconds. -/
lemma nowMinusSecs_eq {now secs : ℕ} (hnow : (now : ℤ) < yearTenThousand) (hsecs : secs < 2 ^ 63) :
    nowMinusSecs now secs = rfc3339At (now - secs) := by
  simp only [yearTenThousand] at hnow
  rw [nowMinusSecs, asI64_of_lt (by omega), asI64_of_lt hsecs]
  congr 1
  refine Int.bmod_eq_of_le ?_ ?_ <;> omega

lemma nowRfc3339_eq {now : ℕ} (hnow : (now : ℤ) < yearTenThousand) :
    nowRfc3339 now = rfc3339At now := by
  simp only [yearTenThousand] at hnow
  rw [nowRfc3339, asI64_of_lt (by omega)]

end Accelrd.Time
