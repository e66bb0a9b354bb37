import Mathlib.Order.Monotone.Basic
import Mathlib.Order.SuccPred.LinearLocallyFinite
import Outreach.Time.Calendar

/-!
# Every day has its date

The date of a day exists, and the day of this date is the day again (`Date.toDays_ofDays`,
`Date.exists?_ofDays`). Everything turns on the year within an era of 400 years that a day falls
into (`Date.yearOfEra`): it grows with the day, and it is known at the first and the last day of
every year.
-/

namespace Outreach.Date

/-- The year of an era that a day of the era falls into. -/
def yearOfEra (day : Int) : Int :=
  (day - day / 1460 + day / 36524 - day / 146096) / 365

/-- The first day of a year of an era. -/
def yearStart (year : Int) : Int :=
  365 * year + year / 4 - year / 100

theorem yearOfEra_succ (day : Int) : yearOfEra day ≤ yearOfEra (day + 1) := by
  have hfour : (day + 1) / 1460 ≤ day / 1460 + 1 := by omega
  have hcentury : day / 36524 ≤ (day + 1) / 36524 := by omega
  have hera : (day + 1) / 146096 = day / 146096 ∨
      ((day + 1) / 146096 = day / 146096 + 1 ∧ (day + 1) / 36524 = day / 36524 + 1) := by omega
  exact Int.ediv_le_ediv (by decide) (by omega)

theorem yearOfEra_mono {day later : Int} (h : day ≤ later) : yearOfEra day ≤ yearOfEra later :=
  monotone_int_of_le_succ yearOfEra_succ h

/-- The year at the first day of a year and the day before it. -/
theorem yearOfEra_yearStart : ∀ year < 400, yearOfEra (yearStart (year : Nat)) = year ∧
    (0 < year → yearOfEra (yearStart year - 1) < year) := by
  decide +kernel

/-- A day of an era lies in its year. -/
theorem yearOfEra_spec {day : Int} (hday : 0 ≤ day) (hera : day < 146097) :
    0 ≤ yearOfEra day ∧ yearOfEra day < 400 ∧ yearStart (yearOfEra day) ≤ day ∧
      (yearOfEra day < 399 → day < yearStart (yearOfEra day + 1)) := by
  have hlow : yearOfEra 0 ≤ yearOfEra day := yearOfEra_mono hday
  have hhigh : yearOfEra day ≤ yearOfEra 146096 := yearOfEra_mono (by omega)
  have hfirst : yearOfEra 0 = 0 := by decide
  have hlast : yearOfEra 146096 = 399 := by decide
  obtain ⟨year, hyear⟩ := Int.eq_ofNat_of_zero_le (show 0 ≤ yearOfEra day by omega)
  have hbound : year < 400 := by omega
  rw [hyear]
  refine ⟨by omega, by omega, ?_, fun hnext => ?_⟩
  · rcases Nat.eq_zero_or_pos year with rfl | hpos
    · exact hday
    · by_contra hbefore
      have hle : yearOfEra day ≤ yearOfEra (yearStart year - 1) := yearOfEra_mono (by omega)
      have hlt := (yearOfEra_yearStart year hbound).2 hpos
      omega
  · by_contra hafter
    have hle : yearOfEra (yearStart (year + 1 : Nat)) ≤ yearOfEra day :=
      yearOfEra_mono (Int.not_lt.mp hafter)
    have heq := (yearOfEra_yearStart (year + 1) (by omega)).1
    omega

/-! ## Days and dates -/

/-- The parts that the date of a day is made of: the era, the year of the era, the day of the year
and the month, with March as the first month. -/
structure Parts where
  era : Int
  year : Int
  day : Int
  month : Int

/-- The parts of a day. -/
def parts (days : Int) : Parts :=
  let shifted := days + epochShift
  let dayOfEra := shifted % 146097
  let dayOfYear := dayOfEra - yearStart (yearOfEra dayOfEra)
  ⟨shifted / 146097, yearOfEra dayOfEra, dayOfYear, (5 * dayOfYear + 2) / 153⟩

theorem ofDays_eq (days : Int) :
    ofDays days =
      { year := (if (parts days).month < 10 then (parts days).year + 400 * (parts days).era
          else (parts days).year + 400 * (parts days).era + 1),
        month := (if (parts days).month < 10 then (parts days).month + 3
          else (parts days).month - 9).toNat,
        day := ((parts days).day - (153 * (parts days).month + 2) / 5 + 1).toNat } := rfl

theorem isLeap_iff (year : Int) :
    isLeap year = true ↔ year % 4 = 0 ∧ (year % 100 ≠ 0 ∨ year % 400 = 0) := by
  simp [isLeap]

/-- What is known of the parts of a day. -/
theorem parts_spec (days : Int) :
    0 ≤ (parts days).year ∧ (parts days).year < 400 ∧ 0 ≤ (parts days).day ∧
      (parts days).day ≤ 365 ∧
      ((parts days).day = 365 → isLeap ((parts days).year + 400 * (parts days).era + 1) = true) ∧
      days + epochShift = 146097 * (parts days).era +
        (yearStart (parts days).year + (parts days).day) := by
  have hday : 0 ≤ (days + epochShift) % 146097 := Int.emod_nonneg _ (by decide)
  have hera : (days + epochShift) % 146097 < 146097 := Int.emod_lt_of_pos _ (by decide)
  have hsplit := Int.mul_ediv_add_emod (days + epochShift) 146097
  obtain ⟨hyear, hlast, hstart, hnext⟩ := yearOfEra_spec hday hera
  rw [isLeap_iff]
  unfold parts
  dsimp only
  generalize yearOfEra ((days + epochShift) % 146097) = year at *
  generalize (days + epochShift) % 146097 = day at *
  generalize (days + epochShift) / 146097 = era at *
  unfold yearStart at *
  have hfour : (year + 400 * era + 1) % 4 = (year + 1) % 4 := by omega
  have hcentury : (year + 400 * era + 1) % 100 = (year + 1) % 100 := by omega
  have hcycle : (year + 400 * era + 1) % 400 = (year + 1) % 400 := by omega
  refine ⟨hyear, hlast, by omega, by omega, fun hlong => ?_, by omega⟩
  rw [hfour, hcentury, hcycle]
  -- The last year of an era is a leap year by the third rule, every other one by the first two.
  by_cases hend : year < 399
  · have hbefore := hnext hend
    have hcenturies : (year + 1) / 100 = year / 100 ∨ (year + 1) / 100 = year / 100 + 1 := by omega
    have hquads : (year + 1) / 4 = year / 4 ∨ (year + 1) / 4 = year / 4 + 1 := by omega
    have hsplit : (year + 1) / 4 = year / 4 + 1 ∧ (year + 1) / 100 = year / 100 := by
      clear hfour hcentury hcycle
      omega
    clear hnext hbefore hstart
    exact ⟨by omega, .inl (by omega)⟩
  · exact ⟨by omega, .inr (by omega)⟩

/-- **The day of the date of a day is the day.** -/
theorem toDays_ofDays (days : Int) : (ofDays days).toDays = days := by
  obtain ⟨hyear, hlast, hday, hlong, -, hdays⟩ := parts_spec days
  have hmonth : (parts days).month = (5 * (parts days).day + 2) / 153 := rfl
  rw [ofDays_eq]
  unfold yearStart at hdays
  generalize parts days = p at *
  obtain ⟨era, year, day, month⟩ := p
  dsimp only at *
  have hmonths : 0 ≤ month ∧ month < 12 := by omega
  have hstart : 0 ≤ day - (153 * month + 2) / 5 := by omega
  unfold toDays
  dsimp only
  by_cases hspring : month < 10
  · rw [if_pos hspring, if_pos hspring, if_neg (by omega), if_neg (by omega)]
    omega
  · rw [if_neg hspring, if_neg hspring, if_pos (by omega), if_pos (by omega)]
    omega

/-- **The date of a day exists.** -/
theorem exists?_ofDays (days : Int) : (ofDays days).exists? = true := by
  obtain ⟨-, -, hday, hlong, hleap, -⟩ := parts_spec days
  have hmonth : (parts days).month = (5 * (parts days).day + 2) / 153 := rfl
  rw [ofDays_eq]
  generalize parts days = p at *
  obtain ⟨era, year, day, month⟩ := p
  dsimp only at *
  have hmonths : 0 ≤ month ∧ month < 12 := by omega
  unfold exists? daysInMonth
  simp only [Bool.and_eq_true, decide_eq_true_eq]
  by_cases hspring : month < 10
  · simp only [if_pos hspring]
    refine ⟨⟨⟨by omega, by omega⟩, by omega⟩, ?_⟩
    rw [if_neg (by omega)]
    split <;> omega
  · simp only [if_neg hspring]
    refine ⟨⟨⟨by omega, by omega⟩, by omega⟩, ?_⟩
    -- February: its last day is a leap day, if it has one.
    by_cases hfebruary : month = 11
    · subst hfebruary
      rw [if_pos (by omega)]
      cases hyear : isLeap (year + 400 * era + 1) with
      | true => rw [if_pos rfl]; omega
      | false =>
        have hshort : day ≠ 365 := fun h => Bool.noConfusion (hyear.symm.trans (hleap h))
        rw [if_neg (by decide)]
        omega
    · rw [if_neg (by omega), if_neg (by omega)]
      omega

end Outreach.Date
