import HplcWorkbench.MinuteLines
import Mathlib.Data.Int.ConditionallyCompleteOrder
import Mathlib.Data.Prod.Lex
import Mathlib.Order.Cover
import Mathlib.Tactic.IntervalCases
import Mathlib.Tactic.Linarith

/-!
# Dates and their day numbers

Years are counted from March, so that the day of a leap year is the last one of its year. The day
number of a date is then the beginning of that year and the day in it, and both can be read back from
the number.
-/

namespace HplcWorkbench.MinuteStats

/-! ## Dates of the Gregorian calendar -/

def Leap (year : ℤ) : Prop := year % 4 = 0 ∧ (year % 100 ≠ 0 ∨ year % 400 = 0)

instance (year : ℤ) : Decidable (Leap year) := inferInstanceAs (Decidable (_ ∧ _))

def daysInMonth (year month : ℤ) : ℤ :=
  if month = 2 then (if Leap year then 29 else 28)
  else if month = 4 ∨ month = 6 ∨ month = 9 ∨ month = 11 then 30
  else 31

structure CivilDate where
  year : ℤ
  month : ℤ
  day : ℤ
  one_le_year : 1 ≤ year
  one_le_month : 1 ≤ month
  month_le : month ≤ 12
  one_le_day : 1 ≤ day
  day_le : day ≤ daysInMonth year month

theorem one_le_daysInMonth (year month : ℤ) : 1 ≤ daysInMonth year month := by
  unfold daysInMonth
  split_ifs <;> decide

namespace CivilDate
variable (c : CivilDate)

def days : ℤ := daysFromCivil c.year c.month c.day

/-- The day after a date. -/
def next : CivilDate :=
  if hday : c.day < daysInMonth c.year c.month then
    ⟨c.year, c.month, c.day + 1, c.one_le_year, c.one_le_month, c.month_le,
      by linarith [c.one_le_day], hday⟩
  else if hmonth : c.month < 12 then
    ⟨c.year, c.month + 1, 1, c.one_le_year, by linarith [c.one_le_month], hmonth, le_rfl,
      one_le_daysInMonth _ _⟩
  else
    ⟨c.year + 1, 1, 1, by linarith [c.one_le_year], le_rfl, by decide, le_rfl, one_le_daysInMonth _ _⟩

def key : ℤ ×ₗ ℤ ×ₗ ℤ := toLex (c.year, toLex (c.month, c.day))

theorem key_injective : Function.Injective key := by
  rintro ⟨y, m, d⟩ ⟨y', m', d'⟩ h
  simp only [key, EmbeddingLike.apply_eq_iff_eq, Prod.mk.injEq] at h
  obtain ⟨rfl, rfl, rfl⟩ := h
  rfl

instance : LinearOrder CivilDate := LinearOrder.lift' key key_injective

end CivilDate

/-! ## Years from March -/

/-- The days in front of a year. -/
def marchStart (year : ℤ) : ℤ := 365 * year + year / 4 - year / 100 + year / 400

/-- The days in front of a day, in a year from March. -/
def marchDay (month day : ℤ) : ℤ := (153 * month + 2) / 5 + day - 1

theorem marchStart_add_one (year : ℤ) :
    marchStart (year + 1) = marchStart year + 365 + if Leap (year + 1) then 1 else 0 := by
  unfold marchStart
  split <;> rename_i hleap <;> unfold Leap at hleap <;> omega

theorem monotone_marchStart : Monotone marchStart := by
  apply monotone_int_of_le_succ
  intro year
  rw [marchStart_add_one]
  split <;> linarith

/-- The year in its four hundred years, from the day in these. -/
theorem yearOfEra {yoe doy doe : ℤ} (h0 : 0 ≤ yoe) (h400 : yoe < 400) (hdoy : 0 ≤ doy)
    (hlast : doy < 365 + if Leap (yoe + 1) then 1 else 0)
    (hsum : doe = yoe * 365 + yoe / 4 - yoe / 100 + doy) :
    (doe - doe / 1460 + doe / 36524 - doe / 146096) / 365 = yoe := by
  obtain ⟨c, hc⟩ : ∃ c, c = yoe / 100 := ⟨_, rfl⟩
  obtain ⟨g, hg⟩ : ∃ g, g = yoe % 100 / 4 := ⟨_, rfl⟩
  obtain ⟨a, ha⟩ : ∃ a, a = yoe % 4 := ⟨_, rfl⟩
  have hyear : yoe = 100 * c + 4 * g + a := by omega
  have hbounds : 0 ≤ c ∧ c ≤ 3 ∧ 0 ≤ g ∧ g ≤ 24 ∧ 0 ≤ a ∧ a ≤ 3 := by omega
  have hdoe : doe = 36524 * c + 1461 * g + 365 * a + doy := by omega
  -- the day of a leap year is behind the last of four years, and of four hundred
  have hday : doy ≤ 364 ∨ doy = 365 ∧ a = 3 ∧ (c = 3 ∨ g < 24) := by
    split at hlast
    · rename_i hleap
      unfold Leap at hleap
      omega
    · omega
  obtain ⟨surplus, hsurplus⟩ : ∃ surplus, surplus = (24 * c + g + 365 * a + doy) / 1460 := ⟨_, rfl⟩
  have h1460 : doe / 1460 = 25 * c + g + surplus := by omega
  have h36524 : doe / 36524 - doe / 146096 = c := by
    have hrest : 1461 * g + 365 * a + doy < 36524 ∨ c = 3 ∧ 1461 * g + 365 * a + doy = 36524 := by
      omega
    rcases hrest with hrest | ⟨hc, hrest⟩
    · have hcentury : doe / 36524 = c := by omega
      have hera : doe / 146096 = 0 := by omega
      omega
    · omega
  have hrest : 0 ≤ doy - surplus ∧ doy - surplus < 365 := by omega
  have hyears : doe - doe / 1460 + doe / 36524 - doe / 146096 = doy - surplus + yoe * 365 := by linarith
  rw [hyears, Int.add_mul_ediv_right _ _ (by decide), Int.ediv_eq_zero_of_lt hrest.1 hrest.2, zero_add]

/-- A date in a year from March. -/
structure MarchDate (year month day : ℤ) : Prop where
  year_nonneg : 0 ≤ year
  month_nonneg : 0 ≤ month
  month_le : month ≤ 11
  one_le_day : 1 ≤ day
  /-- The day is in front of the next month. -/
  inMonth : marchDay month day < marchDay (month + 1) 1
  inYear : marchDay month day < 365 + if Leap (year + 1) then 1 else 0

theorem civilFromDays_march {year month day : ℤ} (h : MarchDate year month day) :
    civilFromDays (marchStart year + marchDay month day - 719468) =
      (year + if 10 ≤ month then 1 else 0, month + if month < 10 then 3 else -9, day) := by
  obtain ⟨hyear, hmonth, hmonth', hday, hinMonth, hinYear⟩ := h
  obtain ⟨yoe, hyoe⟩ : ∃ yoe, yoe = year % 400 := ⟨_, rfl⟩
  obtain ⟨doy, hdoy⟩ : ∃ doy, doy = marchDay month day := ⟨_, rfl⟩
  rw [← hdoy] at hinMonth hinYear ⊢
  obtain ⟨doe, hdoe⟩ : ∃ doe, doe = yoe * 365 + yoe / 4 - yoe / 100 + doy := ⟨_, rfl⟩
  have hleap : Leap (yoe + 1) ↔ Leap (year + 1) := by
    unfold Leap
    omega
  have hfirst : 0 ≤ doy := by
    rw [hdoy, marchDay]
    omega
  have hlast : doy < 365 + if Leap (yoe + 1) then 1 else 0 := by rwa [if_congr hleap rfl rfl]
  have hdays : marchStart year + doy - 719468 + 719468 = doe + year / 400 * 146097 := by
    rw [marchStart]
    omega
  have hdoe' : 0 ≤ doe ∧ doe < 146097 := by
    split at hlast <;> omega
  have hera : (doe + year / 400 * 146097) / 146097 = year / 400 := by
    rw [Int.add_mul_ediv_right _ _ (by decide), Int.ediv_eq_zero_of_lt hdoe'.1 hdoe'.2, zero_add]
  have hyear' := yearOfEra (by omega) (by omega) hfirst hlast hdoe
  have hdoy' : doe - (365 * yoe + yoe / 4 - yoe / 100) = doy := by linarith
  have hmp : (5 * doy + 2) / 153 = month := by
    rw [hdoy] at hinMonth ⊢
    unfold marchDay at hinMonth ⊢
    interval_cases month <;> omega
  have hday' : doy - (153 * month + 2) / 5 + 1 = day := by
    rw [hdoy, marchDay]
    ring
  have hpositive : 0 ≤ doe + year / 400 * 146097 :=
    add_nonneg hdoe'.1 (mul_nonneg (Int.ediv_nonneg hyear (by decide)) (by decide))
  rw [civilFromDays, hdays, if_pos hpositive, hera, add_sub_cancel_right, hyear', hdoy', hmp, hday']
  split_ifs <;> simp only [Prod.mk.injEq, and_true] <;> omega

section Dates
variable (c : CivilDate)

/-- The year from March of a date. -/
def CivilDate.marchYear : ℤ := c.year - if c.month ≤ 2 then 1 else 0

def CivilDate.marchMonth : ℤ := c.month + if 2 < c.month then -3 else 9

theorem CivilDate.march : MarchDate c.marchYear c.marchMonth c.day := by
  obtain ⟨year, month, day, hyear, hmonth, hmonth', hday, hday'⟩ := c
  unfold CivilDate.marchYear CivilDate.marchMonth
  constructor <;> dsimp only
  · split <;> omega
  · split <;> omega
  · split <;> omega
  · exact hday
  · unfold daysInMonth at hday'
    unfold marchDay
    interval_cases month <;> simp at hday' ⊢ <;> omega
  · unfold daysInMonth at hday'
    unfold marchDay
    by_cases hleap : Leap year
    · interval_cases month <;> simp [hleap] at hday' ⊢ <;> omega
    · interval_cases month <;> simp [hleap] at hday' ⊢ <;> omega

theorem CivilDate.days_eq :
    c.days = marchStart c.marchYear + marchDay c.marchMonth c.day - 719468 := by
  have hyear := c.march.year_nonneg
  rw [days, daysFromCivil]
  unfold marchStart marchDay CivilDate.marchMonth
  rw [← CivilDate.marchYear, if_pos hyear]
  omega

theorem civilFromDays_days : civilFromDays c.days = (c.year, c.month, c.day) := by
  rw [c.days_eq, civilFromDays_march c.march]
  unfold CivilDate.marchYear CivilDate.marchMonth
  have h1 := c.one_le_month
  have h12 := c.month_le
  split_ifs <;> simp only [Prod.mk.injEq, and_true] <;> omega

theorem lt_marchDay {month day month' day' : ℤ} (hmonth : month < month')
    (hin : marchDay month day < marchDay (month + 1) 1) (hday : 1 ≤ day') :
    marchDay month day < marchDay month' day' := by
  unfold marchDay at hin ⊢
  omega

theorem CivilDate.lt_iff {c c' : CivilDate} :
    c < c' ↔ c.year < c'.year ∨ c.year = c'.year ∧
      (c.month < c'.month ∨ c.month = c'.month ∧ c.day < c'.day) := by
  change c.key < c'.key ↔ _
  rw [key, key, Prod.Lex.toLex_lt_toLex, Prod.Lex.toLex_lt_toLex]

/-- The order of dates is that of their years from March. -/
theorem CivilDate.march_lt {c c' : CivilDate} (h : c < c') :
    c.marchYear < c'.marchYear ∨ c.marchYear = c'.marchYear ∧
      (c.marchMonth < c'.marchMonth ∨ c.marchMonth = c'.marchMonth ∧ c.day < c'.day) := by
  rw [lt_iff] at h
  have hc := And.intro c.one_le_month c.month_le
  have hc' := And.intro c'.one_le_month c'.month_le
  unfold marchYear marchMonth
  split_ifs <;> omega

theorem CivilDate.strictMono_days : StrictMono CivilDate.days := by
  intro c c' h
  have hmarch := c.march
  have hmarch' := c'.march
  rw [c.days_eq, c'.days_eq]
  rcases march_lt h with hyear | ⟨hyear, hmonth | ⟨hmonth, hday⟩⟩
  · have hnext : marchStart c.marchYear + marchDay c.marchMonth c.day <
        marchStart (c.marchYear + 1) := by
      rw [marchStart_add_one]
      linarith [hmarch.inYear]
    have hlater := monotone_marchStart (Int.add_one_le_of_lt hyear)
    have hfirst : 0 ≤ marchDay c'.marchMonth c'.day := by
      have hmonth := hmarch'.month_nonneg
      have hday := hmarch'.one_le_day
      unfold marchDay
      omega
    linarith
  · rw [hyear]
    linarith [lt_marchDay hmonth hmarch.inMonth hmarch'.one_le_day]
  · rw [hyear, hmonth]
    unfold marchDay
    linarith

theorem CivilDate.next_days : c.next.days = c.days + 1 := by
  unfold next
  split
  · rw [days_eq, days_eq]
    unfold marchYear marchMonth marchDay
    dsimp only
    ring
  · rename_i hday
    have hlast := le_antisymm c.day_le (not_lt.mp hday)
    have hleap := marchStart_add_one (c.year - 1)
    rw [sub_add_cancel] at hleap
    obtain ⟨year, month, day, hyear, hmonth, hmonth', hday', hday''⟩ := c
    dsimp only at hlast hleap ⊢
    rw [days_eq, days_eq]
    unfold marchYear marchMonth marchDay
    unfold daysInMonth at hlast
    split
    · dsimp only
      by_cases hshort : Leap year
      · interval_cases month <;> simp [hshort] at hlast hleap ⊢ <;> omega
      · interval_cases month <;> simp [hshort] at hlast hleap ⊢ <;> omega
    · rename_i hdecember
      obtain rfl : month = 12 := le_antisymm hmonth' (not_lt.mp hdecember)
      simp at hlast ⊢
      omega

/-- The day after a date is the next date. -/
theorem CivilDate.covBy_next : c ⋖ c.next := by
  constructor
  · rw [← strictMono_days.lt_iff_lt, next_days]
    exact lt_add_one c.days
  · intro c' h h'
    rw [← strictMono_days.lt_iff_lt] at h h'
    rw [next_days] at h'
    omega

/-- The first of January of the year 1. -/
def CivilDate.first : CivilDate := ⟨1, 1, 1, le_rfl, le_rfl, by decide, le_rfl, by decide⟩

theorem CivilDate.first_le : first ≤ c := by
  apply not_lt.mp
  rw [lt_iff]
  have hyear := c.one_le_year
  have hmonth := c.one_le_month
  have hday := c.one_le_day
  simp only [first]
  omega

/-- The day numbers of dates are those from the first day on. -/
theorem CivilDate.range_days : Set.range CivilDate.days = Set.Ici first.days := by
  ext n
  constructor
  · rintro ⟨c, rfl⟩
    exact strictMono_days.monotone c.first_le
  · intro hn
    induction n, hn using Int.leInduction with
    | base => exact ⟨first, rfl⟩
    | succ n _ ih =>
      obtain ⟨c, rfl⟩ := ih
      exact ⟨c.next, c.next_days⟩

end Dates

/-- Dates and their day numbers can be read from each other, in order and without gaps. -/
theorem civil_days :
    (∀ c : CivilDate, civilFromDays c.days = (c.year, c.month, c.day)) ∧
    (∀ n ∈ Set.range CivilDate.days,
      daysFromCivil (civilFromDays n).1 (civilFromDays n).2.1 (civilFromDays n).2.2 = n) ∧
    StrictMono CivilDate.days ∧ ∀ c : CivilDate, c ⋖ c.next ∧ c.next.days = c.days + 1 := by
  refine ⟨civilFromDays_days, ?_, CivilDate.strictMono_days, ?_⟩
  · rintro n ⟨c, rfl⟩
    rw [civilFromDays_days]
    rfl
  · intro c
    exact ⟨c.covBy_next, c.next_days⟩

end HplcWorkbench.MinuteStats
