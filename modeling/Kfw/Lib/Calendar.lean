import Mathlib

namespace calendar

/-- The leap rule of the Gregorian calendar. -/
def IsLeap (year : Nat) : Prop := 4 ∣ year ∧ (¬ 100 ∣ year ∨ 400 ∣ year)

instance (year : Nat) : Decidable (IsLeap year) := inferInstanceAs (Decidable (_ ∧ _))

def year_length (year : Nat) : Nat := if IsLeap year then 366 else 365

/-- The days of a month; there are none in a month that is not one of the twelve. -/
def month_length (year : Nat) : Nat → Nat
  | 1 | 3 | 5 | 7 | 8 | 10 | 12 => 31
  | 4 | 6 | 9 | 11 => 30
  | 2 => if IsLeap year then 29 else 28
  | _ => 0

/-- The days of the years from 0 up to a year, the year not included. -/
def days_before_year (year : Nat) : Nat := ∑ y ∈ Finset.range year, year_length y

def days_before_month (year month : Nat) : Nat := ∑ m ∈ Finset.Ico 1 month, month_length year m

/-- The days from the first of January of year 0 to a date. -/
def day_number (year month day : Nat) : Nat :=
  days_before_year year + days_before_month year month + (day - 1)

/-- The months are numbered from 1 to 12 and the days from 1 to the length of the month. -/
def IsDate (year month day : Nat) : Prop :=
  1 ≤ month ∧ month ≤ 12 ∧ 1 ≤ day ∧ day ≤ month_length year month

/-- The days from the first of March of year 0 to that of another year. -/
def march_days (year : Nat) : Nat := 365 * year + year / 4 - year / 100 + year / 400

/-- A year that starts in March has the leap day of the next one. -/
theorem march_days_succ (year : Nat) : march_days (year + 1) = march_days year + year_length (year + 1) := by
  have hcentury : 100 ∣ year + 1 → 4 ∣ year + 1 := (by decide : 4 ∣ 100).trans
  have hera : 400 ∣ year + 1 → 100 ∣ year + 1 := (by decide : 100 ∣ 400).trans
  have hle : year / 100 ≤ year / 4 := Nat.div_le_div_left (by decide) (by decide)
  unfold march_days year_length IsLeap
  rw [Nat.succ_div, Nat.succ_div, Nat.succ_div]
  by_cases h4 : 4 ∣ year + 1
  · by_cases h100 : 100 ∣ year + 1
    · by_cases h400 : 400 ∣ year + 1
      · simp only [h4, h100, h400, if_true, not_true, or_true, and_self]
        omega
      · simp only [h4, h100, h400, if_true, if_false, not_true, or_self, and_false]
        omega
    · simp only [h4, h100, mt hera h100, if_true, if_false, not_false_eq_true, true_or, and_self]
      omega
  · simp only [h4, mt hcentury h4, mt (hcentury ∘ hera) h4, if_false, false_and]
    omega

theorem days_before_year_succ (year : Nat) : days_before_year (year + 1) = march_days year + 366 := by
  induction year with
  | zero => decide
  | succ year ih =>
    rw [days_before_year, Finset.sum_range_succ, ← days_before_year, ih, march_days_succ]
    omega

/-- The years of an era by centuries, by four years and by single years. -/
theorem march_days_split {c q w : Nat} (hc : c < 4) (hq : q < 25) (hw : w < 4) :
    march_days (100 * c + 4 * q + w) = 36524 * c + 1461 * q + 365 * w := by
  unfold march_days
  omega

/-- The year of the day `d` of an era of 400 years. -/
def era_year (d : Nat) : Nat := (d - d / 1460 + d / 36524 - d / 146096) / 365

/-- The days of an era by centuries, by four years and by what is left of those; only
the last four years of the last century have their leap day. -/
theorem era_day_split {d : Nat} (hd : d < 146097) :
    ∃ c q s, d = 36524 * c + 1461 * q + s ∧ c < 4 ∧ q < 25 ∧ s < 1461 ∧ (q = 24 → c < 3 → s < 1460) ∧
      d / 36524 = c + d / 146096 := by
  by_cases hlast : d = 146096
  · subst hlast
    exact ⟨3, 24, 1460, by decide⟩
  · have hera : d / 146096 = 0 := Nat.div_eq_of_lt (by omega)
    have hc : d / 36524 < 4 := by omega
    have hr := Nat.mod_lt d (by decide : 0 < 36524)
    have hd := Nat.div_add_mod d 36524
    generalize d / 36524 = c at *
    generalize d % 36524 = r at *
    exact ⟨c, r / 1461, r % 1461, by omega, hc, by omega, by omega, by omega, by rw [hera, Nat.add_zero]⟩

/-- The year has one day in 1460 left out, and of the last part only if it is complete. -/
theorem era_year_eq {d c q s : Nat} (hd : d = 36524 * c + 1461 * q + s) (hc : c < 4) (hq : q < 25) (hs : s < 1461)
    (hcentury : d / 36524 = c + d / 146096) :
    ∃ w < 4, era_year d = 100 * c + 4 * q + w ∧ 365 * w ≤ s ∧ (w < 3 → s < 365 * (w + 1)) := by
  obtain ⟨t, ht⟩ : ∃ t, t = (24 * c + q + s) / 1460 := ⟨_, rfl⟩
  obtain ⟨w, hw⟩ : ∃ w, w = (s - t) / 365 := ⟨_, rfl⟩
  rw [era_year, hcentury]
  generalize d / 146096 = x at *
  clear hcentury
  have hfour : d / 1460 = 25 * c + q + t := by omega
  rw [hfour]
  exact ⟨w, by omega, by omega, by omega, by omega⟩

/-- The year after the one of `march_days_split`. -/
theorem lt_march_days_split_succ {c q w s : Nat} (hc : c < 4) (hq : q < 25) (hw : w < 4) (hs : s < 1461)
    (hless : w < 3 → s < 365 * (w + 1)) (hlast : q = 24 → c < 3 → s < 1460) :
    36524 * c + 1461 * q + s < march_days (100 * c + 4 * q + w + 1) := by
  by_cases hw3 : w < 3
  · rw [Nat.add_assoc _ w 1, march_days_split hc hq (by omega)]
    have := hless hw3
    omega
  · obtain rfl : w = 3 := by omega
    by_cases hq24 : q < 24
    · rw [show 100 * c + 4 * q + 3 + 1 = 100 * c + 4 * (q + 1) + 0 by omega,
        march_days_split hc (by omega : q + 1 < 25) (by decide)]
      omega
    · obtain rfl : q = 24 := by omega
      by_cases hc3 : c < 3
      · rw [show 100 * c + 4 * 24 + 3 + 1 = 100 * (c + 1) + 4 * 0 + 0 by omega,
          march_days_split (by omega : c + 1 < 4) (by decide) (by decide)]
        have := hlast rfl hc3
        omega
      · obtain rfl : c = 3 := by omega
        exact Nat.lt_of_lt_of_le (by omega : _ < 146097) (by decide)

theorem era_year_spec {d : Nat} (hd : d < 146097) :
    era_year d < 400 ∧ march_days (era_year d) ≤ d ∧ d < march_days (era_year d + 1) := by
  obtain ⟨c, q, s, hsplit, hc, hq, hs, hlast, hcentury⟩ := era_day_split hd
  obtain ⟨w, hw, hyear, hle, hless⟩ := era_year_eq hsplit hc hq hs hcentury
  clear hcentury
  rw [hyear, march_days_split hc hq hw, hsplit]
  exact ⟨by omega, by omega, lt_march_days_split_succ hc hq hw hs hless hlast⟩

theorem month_length_march (year : Nat) {mp : Nat} (hmp : mp ≤ 9) :
    (153 * mp + 2) / 5 + month_length year (mp + 3) = (153 * (mp + 1) + 2) / 5 := by
  interval_cases mp <;> rfl

/-- The days of the months from March on. -/
theorem days_before_month_march (year : Nat) {mp : Nat} (hmp : mp ≤ 9) :
    days_before_month year (mp + 3) = 59 + (if IsLeap year then 1 else 0) + (153 * mp + 2) / 5 := by
  have hfeb : days_before_month year 3 = 59 + if IsLeap year then 1 else 0 := by
    simp only [days_before_month, Finset.sum_Ico_succ_top (by decide : 1 ≤ 2), Nat.Ico_succ_singleton,
      Finset.sum_singleton, month_length]
    split <;> rfl
  induction mp with
  | zero => exact hfeb
  | succ mp ih =>
    rw [days_before_month, Finset.sum_Ico_succ_top (by omega), ← days_before_month, ih (by omega)]
    have hmonth := month_length_march year (by omega : mp ≤ 9)
    omega

/-- The date of a day of the year that starts in March of `year`. -/
def march_date (year day : Nat) : Nat × Nat × Nat :=
  let mp := (5 * day + 2) / 153
  (if mp < 10 then year else year + 1, if mp < 10 then mp + 3 else mp - 9, day - (153 * mp + 2) / 5 + 1)

theorem march_date_spec_of_lt {year day mp : Nat} (hmp : (5 * day + 2) / 153 = mp) (hlt : mp < 10) :
    IsDate year (mp + 3) (day - (153 * mp + 2) / 5 + 1) ∧
      day_number year (mp + 3) (day - (153 * mp + 2) / 5 + 1) = march_days year + day + 60 := by
  have hmonth := month_length_march year (by omega : mp ≤ 9)
  have hstart : (153 * mp + 2) / 5 ≤ day := by omega
  have hend : day < (153 * (mp + 1) + 2) / 5 := by omega
  have hyear : days_before_year year + year_length year = march_days year + 366 := by
    rw [← days_before_year_succ, days_before_year, days_before_year, Finset.sum_range_succ]
  refine ⟨⟨by omega, by omega, by omega, by omega⟩, ?_⟩
  rw [day_number, days_before_month_march year (by omega), Nat.add_sub_cancel]
  by_cases hleap : IsLeap year
  · rw [year_length, if_pos hleap] at hyear
    rw [if_pos hleap]
    omega
  · rw [year_length, if_neg hleap] at hyear
    rw [if_neg hleap]
    omega

theorem march_date_spec {year day : Nat} (hday : day < year_length (year + 1)) :
    IsDate (march_date year day).1 (march_date year day).2.1 (march_date year day).2.2 ∧
      day_number (march_date year day).1 (march_date year day).2.1 (march_date year day).2.2 =
        march_days year + day + 60 := by
  obtain ⟨mp, hmp⟩ : ∃ mp, (5 * day + 2) / 153 = mp := ⟨_, rfl⟩
  have hyear := days_before_year_succ year
  simp only [march_date, hmp]
  by_cases hlt : mp < 10
  · simp only [if_pos hlt]
    exact march_date_spec_of_lt hmp hlt
  · simp only [if_neg hlt]
    have hlength : year_length (year + 1) = 337 + month_length (year + 1) 2 := by
      rw [year_length, month_length]
      split <;> rfl
    have hle : mp = 10 ∨ mp = 11 := by
      rw [year_length] at hday
      split at hday <;> omega
    rcases hle with rfl | rfl
    · refine ⟨⟨by decide, by decide, by omega, ?_⟩, ?_⟩
      · change day - 306 + 1 ≤ 31
        omega
      · change days_before_year (year + 1) + 0 + (day - 306 + 1 - 1) = _
        omega
    · refine ⟨⟨by decide, by decide, by omega, ?_⟩, ?_⟩
      · change day - 337 + 1 ≤ month_length (year + 1) 2
        omega
      · change days_before_year (year + 1) + 31 + (day - 337 + 1 - 1) = _
        omega

/-- The date of a day, counted from the first of March of year 0. -/
def civil (days : Nat) : Nat × Nat × Nat :=
  let era_day := days % 146097
  march_date (400 * (days / 146097) + era_year era_day) (era_day - march_days (era_year era_day))

theorem march_days_era (era : Nat) {year : Nat} (hyear : year ≤ 400) :
    march_days (400 * era + year) = 146097 * era + march_days year := by
  unfold march_days
  omega

theorem civil_spec (days : Nat) :
    IsDate (civil days).1 (civil days).2.1 (civil days).2.2 ∧
      day_number (civil days).1 (civil days).2.1 (civil days).2.2 = days + 60 := by
  obtain ⟨hyear, hstart, hend⟩ := era_year_spec (Nat.mod_lt days (by decide : 0 < 146097))
  have hera := Nat.div_add_mod days 146097
  have hday : days % 146097 - march_days (era_year (days % 146097)) <
      year_length (400 * (days / 146097) + era_year (days % 146097) + 1) := by
    have hlength := march_days_succ (400 * (days / 146097) + era_year (days % 146097))
    rw [Nat.add_assoc, march_days_era _ (by omega), march_days_era _ (by omega)] at hlength
    rw [Nat.add_assoc]
    omega
  obtain ⟨hdate, hnumber⟩ := march_date_spec hday
  rw [march_days_era _ (by omega)] at hnumber
  exact ⟨hdate, hnumber.trans (by omega)⟩

theorem day_number_january (year : Nat) : day_number year 1 1 = days_before_year year := by
  rw [day_number, days_before_month, Finset.Ico_self, Finset.sum_empty, Nat.sub_self, Nat.add_zero,
    Nat.add_zero]

/-- A day before the first of January of a year is one of an earlier year. -/
theorem civil_year_lt {days last : Nat} (h : days + 60 < days_before_year last) : (civil days).1 < last := by
  by_contra hnot
  have hmono : days_before_year last ≤ days_before_year (civil days).1 :=
    Finset.sum_le_sum_of_subset (Finset.range_mono (Nat.le_of_not_lt hnot))
  have hnumber := (civil_spec days).2
  rw [day_number] at hnumber
  omega

end calendar
