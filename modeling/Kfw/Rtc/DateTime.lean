import Kfw.Lib.Calendar
import Kfw.Lib.MachineInt
import Kfw.Rtc

open calendar machine machine.IntType

namespace kfw

section Constants

variable {t : IntType}

def EPOCH_ADJUSTMENT_DAYS : Num t := 719468
def ADJUSTED_EPOCH_YEAR : Num t := 0
def DAYS_PER_ERA : Num t := 146097
def DAYS_PER_CENTURY : Num t := 36524
def DAYS_PER_4_YEARS : Num t := 3 * 365 + 366
def DAYS_PER_YEAR : Num t := 365
def YEARS_PER_ERA : Num t := 400

end Constants

inductive DateTimeKind where
  | kUtc
  | kLocal
  deriving DecidableEq

structure DateTime where
  m_year : Num uint16 := 1970
  m_month : Num uint8 := 0
  m_day : Num uint8 := 0
  m_hour : Num uint8 := 0
  m_min : Num uint8 := 0
  m_sec : Num uint8 := 0
  m_msec : Num uint16 := 0
  m_kind : DateTimeKind := .kUtc
  deriving DecidableEq

namespace DateTime

/-- The part of `set_ticks` that computes the date from the days since the first of
March of year 0. -/
def civil_from_days (days : Num int32) : Num uint16 × Num uint8 × Num uint8 :=
  let era := (if days ≥ 0 then days else days - (DAYS_PER_ERA - 1)) / DAYS_PER_ERA
  let eraday := days - era * DAYS_PER_ERA
  let erayear := (eraday - eraday / (DAYS_PER_4_YEARS - 1) + eraday / DAYS_PER_CENTURY -
    eraday / (DAYS_PER_ERA - 1)) / 365
  let yearday := eraday - (DAYS_PER_YEAR * erayear + erayear / 4 - erayear / 100)
  let month := (5 * yearday + 2) / 153
  let day := yearday - (153 * month + 2) / 5 + 1
  let month := month + if month < 10 then 2 else -10
  let year := ADJUSTED_EPOCH_YEAR + erayear + era * YEARS_PER_ERA + if month ≤ 1 then 1 else 0
  let month := month + 1
  (year.cast uint16, month.cast uint8, day.cast uint8)

/-- The seconds are unsigned, and so `rem` is never negative. -/
def set_ticks (ticks : Num int64) : DateTime :=
  let total_sec := (ticks / 1000).cast uint64
  let days := (total_sec / (24 * 3600) + EPOCH_ADJUSTMENT_DAYS).cast int32
  let rem := (total_sec % (24 * 3600)).cast int32
  let (rem, days) := if rem < 0 then (rem + 24 * 3600, days - 1) else (rem, days)
  let m_hour := (rem / 3600).cast uint8
  let rem := rem % 3600
  let m_min := (rem / 60).cast uint8
  let m_sec := (rem % 60).cast uint8
  let m_msec := (ticks % 1000).cast uint16
  let (m_year, m_month, m_day) := civil_from_days days
  { m_year, m_month, m_day, m_hour, m_min, m_sec, m_msec, m_kind := .kUtc }

def get_utc_now (rtc : Rtc) : DateTime := set_ticks (Num.of int64 rtc.get_time)

/-- The local time is not computed yet. -/
def get_now (rtc : Rtc) : DateTime := set_ticks (Num.of int64 rtc.get_time)

/-- The getters convert a field to `int32_t`. -/
def get_year (dt : DateTime) : Int32 := Int32.ofInt dt.m_year.val
def get_month (dt : DateTime) : Int32 := Int32.ofInt dt.m_month.val
def get_day (dt : DateTime) : Int32 := Int32.ofInt dt.m_day.val
def get_hour (dt : DateTime) : Int32 := Int32.ofInt dt.m_hour.val
def get_min (dt : DateTime) : Int32 := Int32.ofInt dt.m_min.val
def get_sec (dt : DateTime) : Int32 := Int32.ofInt dt.m_sec.val

/-- The milliseconds from 1970 to the first of January of a year. -/
def year_ticks (year : Nat) : Int := ((day_number year 1 1 : Int) - day_number 1970 1 1) * 86400000

/-- The fields are the date and the time of day of the instant `ticks`. -/
structure Denotes (dt : DateTime) (ticks : Int) : Prop where
  date : IsDate dt.m_year.val.toNat dt.m_month.val.toNat dt.m_day.val.toNat
  hour_lt : dt.m_hour.val < 24
  min_lt : dt.m_min.val < 60
  sec_lt : dt.m_sec.val < 60
  msec_lt : dt.m_msec.val < 1000
  ticks_eq : ((day_number dt.m_year.val.toNat dt.m_month.val.toNat dt.m_day.val.toNat : Int) -
      day_number 1970 1 1) * 86400000 + dt.m_hour.val * 3600000 + dt.m_min.val * 60000 + dt.m_sec.val * 1000 +
      dt.m_msec.val = ticks

/-- Every value that the fields were computed from was one of its type. -/
def Fits (dt : DateTime) : Prop :=
  dt.m_year.fits ∧ dt.m_month.fits ∧ dt.m_day.fits ∧ dt.m_hour.fits ∧ dt.m_min.fits ∧ dt.m_sec.fits ∧
    dt.m_msec.fits

section Date

theorem const_is (k : Nat) (hk : k < 2147483648) : (OfNat.ofNat k : Num int32).Is k true :=
  Num.is_ofNat k (int32_fits hk)

theorem four_years_is : (DAYS_PER_4_YEARS - 1 : Num int32).Is 1460 true := by
  constructor <;> decide

theorem era_is : (DAYS_PER_ERA - 1 : Num int32).Is 146096 true := by
  constructor <;> decide

theorem erayear_is {eraday : Num int32} {d : Nat} (heraday : eraday.Is d true) (hd : d < 146097) :
    ((eraday - eraday / (DAYS_PER_4_YEARS - 1) + eraday / DAYS_PER_CENTURY - eraday / (DAYS_PER_ERA - 1)) /
      365).Is (era_year d) true := by
  have hfour := heraday.div four_years_is (int32_fits (by omega))
  have hcentury := heraday.div (const_is 36524 (by decide)) (int32_fits (by omega))
  have hlast := heraday.div era_is (int32_fits (by omega))
  have hsum := (heraday.sub hfour (by omega) (int32_fits (by omega))).add hcentury (int32_fits (by omega))
  exact (hsum.sub hlast (by omega) (int32_fits (by omega))).div (const_is 365 (by decide)) (int32_fits (by omega))

theorem yearday_is {eraday erayear : Num int32} {d y : Nat} (heraday : eraday.Is d true)
    (herayear : erayear.Is y true) (hd : d < 146097) (hy : y < 400) (hstart : march_days y ≤ d) :
    (eraday - (DAYS_PER_YEAR * erayear + erayear / 4 - erayear / 100)).Is (d - march_days y) true := by
  have hyears := (const_is 365 (by decide)).mul herayear (int32_fits (by omega))
  have hfour := herayear.div (const_is 4 (by decide)) (int32_fits (by omega))
  have hcentury := herayear.div (const_is 100 (by decide)) (int32_fits (by omega))
  have hbefore := (hyears.add hfour (int32_fits (by omega))).sub hcentury (by omega) (int32_fits (by omega))
  rw [show 365 * y + y / 4 - y / 100 = march_days y by unfold march_days; omega] at hbefore
  exact heraday.sub hbefore hstart (int32_fits (by omega))

theorem month_is {yearday : Num int32} {doy : Nat} (hyearday : yearday.Is doy true) (hdoy : doy < 366) :
    ((5 * yearday + 2) / 153).Is ((5 * doy + 2) / 153) true := by
  have hmul := (const_is 5 (by decide)).mul hyearday (int32_fits (by omega))
  have hadd := hmul.add (const_is 2 (by decide)) (int32_fits (by omega))
  exact hadd.div (const_is 153 (by decide)) (int32_fits (by omega))

theorem day_is {yearday month : Num int32} {doy mp : Nat} (hyearday : yearday.Is doy true) (hmonth : month.Is mp true)
    (hdoy : doy < 366) (hmp : (5 * doy + 2) / 153 = mp) :
    (yearday - (153 * month + 2) / 5 + 1).Is (doy - (153 * mp + 2) / 5 + 1) true := by
  have hmul := (const_is 153 (by decide)).mul hmonth (int32_fits (by omega))
  have hadd := hmul.add (const_is 2 (by decide)) (int32_fits (by omega))
  have hbefore := hadd.div (const_is 5 (by decide)) (int32_fits (by omega))
  exact (hyearday.sub hbefore (by omega) (int32_fits (by omega))).add (const_is 1 (by decide))
    (int32_fits (by omega))

/-- The months are counted from January on. -/
theorem january_month_is {month : Num int32} {mp : Nat} (hmonth : month.Is mp true) (hmp : mp < 12) :
    (month + if month < 10 then 2 else -10).Is (if mp < 10 then mp + 2 else mp - 10) true := by
  have hlt : month < 10 ↔ mp < 10 := hmonth.lt_iff (const_is 10 (by decide))
  by_cases hmarch : mp < 10
  · rw [if_pos hmarch, if_pos (hlt.mpr hmarch)]
    exact hmonth.add (const_is 2 (by decide)) (int32_fits (by omega))
  · rw [if_neg hmarch, if_neg (mt hlt.mp hmarch)]
    exact hmonth.add_neg (const_is 10 (by decide)) (by omega) (by decide) (int32_fits (by omega))

theorem year_is {era erayear month : Num int32} {c y m : Nat} (hera : era.Is c true) (herayear : erayear.Is y true)
    (hmonth : month.Is m true) (hc : c < 2 ^ 20) (hy : y < 400) :
    (ADJUSTED_EPOCH_YEAR + erayear + era * YEARS_PER_ERA + if month ≤ 1 then 1 else 0).Is
      (400 * c + y + if m ≤ 1 then 1 else 0) true := by
  have hle : month ≤ 1 ↔ m ≤ 1 := hmonth.le_iff (const_is 1 (by decide))
  have heras := hera.mul (const_is 400 (by decide)) (int32_fits (by omega))
  have hyears := ((const_is 0 (by decide)).add herayear (int32_fits (by omega))).add heras (int32_fits (by omega))
  rw [show 0 + y + c * 400 = 400 * c + y by omega] at hyears
  by_cases hjanuary : m ≤ 1
  · rw [if_pos hjanuary, if_pos (hle.mpr hjanuary)]
    exact hyears.add (const_is 1 (by decide)) (int32_fits (by omega))
  · rw [if_neg hjanuary, if_neg (mt hle.mp hjanuary)]
    exact hyears.add (const_is 0 (by decide)) (int32_fits (by omega))

/-- The date is the one of the calendar. -/
theorem civil_from_days_is {days : Num int32} {n : Nat} (hdays : days.Is n true) (hn : n < 2 ^ 30)
    (hyear : (civil n).1 < 65536) :
    (civil_from_days days).1.Is (civil n).1 true ∧ (civil_from_days days).2.1.Is (civil n).2.1 true ∧
      (civil_from_days days).2.2.Is (civil n).2.2 true := by
  generalize hresult : civil_from_days days = result
  unfold civil_from_days at hresult
  extract_lets era eraday erayear yearday mp day month year month' at hresult
  have hera : era.Is (n / 146097) true := by
    have hnonneg : days ≥ 0 := ((const_is 0 (by decide)).le_iff hdays).mpr (Nat.zero_le n)
    simp only [era, if_pos hnonneg]
    exact hdays.div (const_is 146097 (by decide)) (int32_fits (by omega))
  have heraday : eraday.Is (n % 146097) true := by
    have hsub := hdays.sub (hera.mul (const_is 146097 (by decide)) (int32_fits (by omega))) (by omega)
      (int32_fits (by omega))
    rwa [show n - n / 146097 * 146097 = n % 146097 by omega] at hsub
  obtain ⟨d, hd⟩ : ∃ d, n % 146097 = d := ⟨_, rfl⟩
  have hd_lt : d < 146097 := hd ▸ Nat.mod_lt n (by decide)
  rw [hd] at heraday
  obtain ⟨hy_lt, hstart, hend⟩ := era_year_spec hd_lt
  have herayear : erayear.Is (era_year d) true := erayear_is heraday hd_lt
  have hyearday : yearday.Is (d - march_days (era_year d)) true := yearday_is heraday herayear hd_lt hy_lt hstart
  obtain ⟨doy, hdoy⟩ : ∃ doy, d - march_days (era_year d) = doy := ⟨_, rfl⟩
  have hdoy_lt : doy < 366 := by
    have hlength := march_days_succ (era_year d)
    rw [year_length] at hlength
    split at hlength <;> omega
  rw [hdoy] at hyearday
  obtain ⟨m, hm⟩ : ∃ m, (5 * doy + 2) / 153 = m := ⟨_, rfl⟩
  have hmp : mp.Is m true := hm ▸ month_is hyearday hdoy_lt
  have hday : day.Is (doy - (153 * m + 2) / 5 + 1) true := day_is hyearday hmp hdoy_lt hm
  have hmonth : month.Is (if m < 10 then m + 2 else m - 10) true := january_month_is hmp (by omega)
  have hyear' : year.Is _ true := year_is hera herayear hmonth (by omega) hy_lt
  have hcivil : civil n = march_date (400 * (n / 146097) + era_year d) doy := by
    simp only [civil, hd, hdoy]
  rw [hcivil] at hyear ⊢
  simp only [march_date, hm] at hyear ⊢
  rw [← hresult]
  by_cases hmarch : m < 10
  · simp only [if_pos hmarch, if_neg (by omega : ¬ m + 2 ≤ 1), Nat.add_zero] at hyear hyear' hmonth ⊢
    have hmonth' := hmonth.add (const_is 1 (by decide)) (int32_fits (by omega))
    exact ⟨hyear'.cast (uint16_fits hyear), hmonth'.cast (uint8_fits (by omega)), hday.cast (uint8_fits (by omega))⟩
  · simp only [if_neg hmarch, if_pos (by omega : m - 10 ≤ 1)] at hyear hyear' hmonth ⊢
    have hmonth' := hmonth.add (const_is 1 (by decide)) (int32_fits (by omega))
    rw [show m - 10 + 1 = m - 9 by omega] at hmonth'
    exact ⟨hyear'.cast (uint16_fits hyear), hmonth'.cast (uint8_fits (by omega)), hday.cast (uint8_fits (by omega))⟩

end Date

theorem day_seconds_is : (24 * 3600 : Num uint64).Is 86400 true := by
  constructor <;> decide

section Fields

variable {ticks : Num int64} {total_sec : Num uint64} {s : Nat} {e : Bool}

theorem rem_is (hs : total_sec.Is s e) : ((total_sec % (24 * 3600)).cast int32).Is (s % 86400) e := by
  rw [← Bool.and_true e]
  exact (hs.mod day_seconds_is (uint64_fits (by omega))).cast (int32_fits (by omega))

/-- The remainder of an unsigned number is not negative. -/
theorem rem_not_neg (hs : total_sec.Is s e) : ¬ (total_sec % (24 * 3600)).cast int32 < 0 := by
  rw [(rem_is hs).lt_iff (const_is 0 (by decide))]
  exact Nat.not_lt_zero _

theorem set_ticks_date (htotal : (ticks / 1000).cast uint64 = total_sec) (hs : total_sec.Is s e) {days : Num int32}
    (hdays : (total_sec / (24 * 3600) + EPOCH_ADJUSTMENT_DAYS).cast int32 = days) :
    (set_ticks ticks).m_year = (civil_from_days days).1 ∧ (set_ticks ticks).m_month = (civil_from_days days).2.1 ∧
      (set_ticks ticks).m_day = (civil_from_days days).2.2 := by
  simp only [set_ticks, htotal, if_neg (rem_not_neg hs), hdays, and_self]

theorem set_ticks_time (htotal : (ticks / 1000).cast uint64 = total_sec) (hs : total_sec.Is s e) :
    (set_ticks ticks).m_hour.Is (s % 86400 / 3600) e ∧ (set_ticks ticks).m_min.Is (s % 86400 % 3600 / 60) e ∧
      (set_ticks ticks).m_sec.Is (s % 86400 % 3600 % 60) e := by
  have hrem := rem_is hs
  have hhours := hrem.div (const_is 3600 (by decide)) (int32_fits (by omega))
  have hrest := hrem.mod (const_is 3600 (by decide)) (int32_fits (by omega))
  have hminutes := hrest.div (const_is 60 (by decide)) (int32_fits (by omega))
  have hseconds := hrest.mod (const_is 60 (by decide)) (int32_fits (by omega))
  simp only [Bool.and_true] at hhours hminutes hseconds
  simp only [set_ticks, htotal, if_neg (rem_not_neg hs)]
  exact ⟨hhours.cast (uint8_fits (by omega)), hminutes.cast (uint8_fits (by omega)),
    hseconds.cast (uint8_fits (by omega))⟩

theorem set_ticks_msec {n : Nat} (hticks : ticks.Is n e) : (set_ticks ticks).m_msec.Is (n % 1000) e := by
  have hmod := hticks.mod (Num.is_ofNat 1000 (int64_fits (by decide))) (int64_fits (by omega))
  rw [Bool.and_true] at hmod
  rw [set_ticks]
  exact hmod.cast (uint16_fits (by omega))

end Fields

theorem day_number_epoch : day_number 1970 1 1 = 719528 := by
  rw [day_number_january, days_before_year_succ 1969]
  rfl

theorem days_before_limit : days_before_year 65536 = 23936532 := by
  rw [days_before_year_succ 65535]
  rfl

theorem year_ticks_limit : year_ticks 65536 = 2005949145600000 := by
  rw [year_ticks, day_number_january, days_before_limit, day_number_epoch]
  rfl

/-- The instant from the numbers that the fields have. -/
theorem denotes_of_is {dt : DateTime} {year month day hour min sec msec : Nat} (hyear : dt.m_year.Is year true)
    (hmonth : dt.m_month.Is month true) (hday : dt.m_day.Is day true) (hhour : dt.m_hour.Is hour true)
    (hmin : dt.m_min.Is min true) (hsec : dt.m_sec.Is sec true) (hmsec : dt.m_msec.Is msec true)
    (hdate : IsDate year month day) (htime : hour < 24 ∧ min < 60 ∧ sec < 60 ∧ msec < 1000) {ticks : Int}
    (hticks : ((day_number year month day : Int) - 719528) * 86400000 + hour * 3600000 + min * 60000 + sec * 1000 +
      msec = ticks) :
    dt.Denotes ticks ∧ dt.Fits := by
  constructor
  · refine ⟨?_, ?_, ?_, ?_, ?_, ?_⟩
    all_goals simp only [hyear.val_eq, hmonth.val_eq, hday.val_eq, hhour.val_eq, hmin.val_eq, hsec.val_eq,
      hmsec.val_eq, Int.toNat_natCast, day_number_epoch]
    · exact hdate
    · omega
    · omega
    · omega
    · omega
    · exact hticks
  · exact ⟨hyear.fits_eq, hmonth.fits_eq, hday.fits_eq, hhour.fits_eq, hmin.fits_eq, hsec.fits_eq, hmsec.fits_eq⟩

/-- The conversion from the year 1970 on. -/
theorem set_ticks_denotes {ticks : Nat} (hend : (ticks : Int) < year_ticks 65536) :
    (set_ticks (Num.of int64 ticks)).Denotes ticks ∧ (set_ticks (Num.of int64 ticks)).Fits := by
  rw [year_ticks_limit] at hend
  have hticks : (Num.of int64 ticks).Is ticks true := Num.is_of_fits rfl (int64_fits (by omega))
  have hthousand : (1000 : Num int64).Is 1000 true := Num.is_ofNat 1000 (int64_fits (by decide))
  have htotal := (hticks.div hthousand (int64_fits (by omega))).cast (u := uint64) (uint64_fits (by omega))
  have hmsec := set_ticks_msec hticks
  obtain ⟨hhour, hmin, hsec⟩ := set_ticks_time rfl htotal
  have hepoch : (EPOCH_ADJUSTMENT_DAYS : Num uint64).Is 719468 true := Num.is_ofNat 719468 (uint64_fits (by decide))
  have hdays := ((htotal.div day_seconds_is (uint64_fits (by omega))).add hepoch (uint64_fits (by omega))).cast
    (u := int32) (int32_fits (by omega))
  obtain ⟨hdate, hnumber⟩ := civil_spec (ticks / 1000 / 86400 + 719468)
  have hyear : (civil (ticks / 1000 / 86400 + 719468)).1 < 65536 :=
    civil_year_lt (by rw [days_before_limit]; omega)
  obtain ⟨hyearIs, hmonthIs, hdayIs⟩ := civil_from_days_is hdays (by omega) hyear
  obtain ⟨hyearEq, hmonthEq, hdayEq⟩ := set_ticks_date rfl htotal rfl
  rw [← hyearEq] at hyearIs
  rw [← hmonthEq] at hmonthIs
  rw [← hdayEq] at hdayIs
  exact denotes_of_is hyearIs hmonthIs hdayIs hhour hmin hsec hmsec hdate (by omega) (by rw [hnumber]; omega)

/-- What the clock was set to, and what it has counted since, is read as a date. -/
theorem get_now_denotes {rtc : Rtc} (hstart : 0 ≤ rtc.get_time) (hend : rtc.get_time < year_ticks 65536) :
    (get_now rtc).Denotes rtc.get_time ∧ get_utc_now rtc = get_now rtc := by
  obtain ⟨ticks, hticks⟩ := Int.eq_ofNat_of_zero_le hstart
  rw [get_now, hticks]
  rw [hticks] at hend
  exact ⟨(set_ticks_denotes hend).1, by rw [get_utc_now, hticks]⟩

/-- From the year 1970 to the end of the year 65535 the fields are the date and the time
of day, and every value on the way is one of its type. -/
theorem calendar_conversion {ticks : Int} (hstart : 0 ≤ ticks) (hend : ticks < year_ticks 65536) :
    (set_ticks (Num.of int64 ticks)).Denotes ticks ∧ (set_ticks (Num.of int64 ticks)).Fits := by
  obtain ⟨ticks, rfl⟩ := Int.eq_ofNat_of_zero_le hstart
  exact set_ticks_denotes hend

/-- The 29th of February 2000, at noon. -/
theorem calendar_conversion_leap_day :
    (set_ticks (Num.of int64 951825600000)).Denotes 951825600000 ∧ (set_ticks (Num.of int64 951825600000)).Fits :=
  calendar_conversion (by decide) (by rw [year_ticks_limit]; decide)

theorem year_ticks_first : year_ticks 1 = -62135596800000 := by
  rw [year_ticks, day_number_january, days_before_year_succ 0, day_number_epoch]
  rfl

section Negative

variable {ticks : Nat}

theorem negative_wrap (hlt : ticks < 2 ^ 63) : int64.wrap (-ticks) = -ticks := by
  refine wrap_of_fits ⟨?_, ?_⟩
  · rw [show int64.low = -9223372036854775808 by decide]
    omega
  · rw [show int64.low + 2 ^ int64.bits = 9223372036854775808 by decide]
    omega

/-- The seconds before 1970 become a number close to the greatest of `uint64_t`. -/
theorem negative_total_sec (hpos : 1000 ≤ ticks) (hlt : ticks < 2 ^ 63) :
    ((Num.of int64 (-ticks) / 1000).cast uint64).Is (2 ^ 64 - ticks / 1000) false := by
  have hdiv : (Num.of int64 (-ticks) / 1000).val = -(ticks / 1000 : Nat) := by
    change int64.wrap ((int64.wrap (-ticks)).tdiv 1000) = _
    rw [negative_wrap hlt, Int.neg_tdiv, show (ticks : Int).tdiv 1000 = (ticks / 1000 : Nat) from
      Int.ofNat_tdiv ticks 1000, negative_wrap (by omega)]
  exact Num.is_of_neg rfl hdiv (by omega) (by change _ ≤ 2 ^ 64; omega)

/-- The milliseconds before 1970 become a number close to the greatest of `uint16_t`. -/
theorem negative_msec (hlt : ticks < 2 ^ 63) (hpart : ticks % 1000 ≠ 0) :
    ((set_ticks (Num.of int64 (-ticks))).m_msec).Is (65536 - ticks % 1000) false := by
  have hmod : (Num.of int64 (-ticks) % 1000).val = -(ticks % 1000 : Nat) := by
    change int64.wrap ((int64.wrap (-ticks)).tmod 1000) = _
    rw [negative_wrap hlt, Int.neg_tmod, show (ticks : Int).tmod 1000 = (ticks % 1000 : Nat) from
      Int.ofNat_tmod ticks 1000, negative_wrap (by omega)]
  rw [set_ticks]
  exact Num.is_of_neg rfl hmod (by omega) (by change _ ≤ 2 ^ 16; omega)

end Negative

/-- Before 1970 no instant is converted rightly. -/
theorem set_ticks_denotes_iff {ticks : Int} (hstart : year_ticks 1 ≤ ticks) (hend : ticks < year_ticks 65536) :
    (set_ticks (Num.of int64 ticks)).Denotes ticks ↔ 0 ≤ ticks := by
  rw [year_ticks_first] at hstart
  by_cases hpos : 0 ≤ ticks
  · obtain ⟨ticks, rfl⟩ := Int.eq_ofNat_of_zero_le hpos
    exact iff_of_true (set_ticks_denotes hend).1 hpos
  · refine iff_of_false (fun hdenotes => ?_) hpos
    obtain ⟨ticks, rfl⟩ : ∃ before : Nat, ticks = -before := ⟨(-ticks).toNat, by omega⟩
    have hlt : ticks < 2 ^ 63 := by omega
    by_cases hpart : ticks % 1000 = 0
    · obtain ⟨hhour, hmin, hsec⟩ := set_ticks_time rfl (negative_total_sec (by omega) hlt)
      have hticks := hdenotes.ticks_eq
      have hmsec := hdenotes.msec_lt
      have hnonneg := Num.nonneg rfl (set_ticks (Num.of int64 (-ticks))).m_msec
      rw [hhour.val_eq, hmin.val_eq, hsec.val_eq] at hticks
      -- 2 ^ 64 is not a multiple of the seconds of a day
      omega
    · have hmsec := hdenotes.msec_lt
      rw [(negative_msec hlt hpart).val_eq] at hmsec
      omega

/-- The first instant of 1970, and the second before it. -/
theorem set_ticks_denotes_epoch :
    (set_ticks (Num.of int64 0)).Denotes 0 ∧ ¬ (set_ticks (Num.of int64 (-1000))).Denotes (-1000) := by
  constructor
  · exact (set_ticks_denotes_iff (by rw [year_ticks_first]; decide) (by rw [year_ticks_limit]; decide)).mpr (by decide)
  · intro hdenotes
    have hpos := (set_ticks_denotes_iff (by rw [year_ticks_first]; decide) (by rw [year_ticks_limit]; decide)).mp
      hdenotes
    exact absurd hpos (by decide)

/-- One millisecond before 1970 is taken for the first one of 1970 with 65535 of them. -/
theorem set_ticks_minus_one : set_ticks (Num.of int64 (-1)) =
    { m_year := 1970, m_month := 1, m_day := 1, m_msec := { Num.of uint16 65535 with fits := false } } := by
  decide +kernel

end DateTime

end kfw
