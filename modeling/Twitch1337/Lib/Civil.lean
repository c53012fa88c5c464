import Mathlib.Order.Basic
import Mathlib.Tactic.ByContra

/-!
# Civil dates

The proleptic Gregorian calendar over days counted from 1970-01-01, and the ISO 8601 text of a date.
-/

namespace Civil

/-- The year, month and day of a day counted from 1970-01-01. The year is counted from March, so that the leap day is its
last day; eras of 400 years hold 146097 days. -/
def ymd (days : Int) : Int × Nat × Nat :=
  let z := days + 719468
  let era := z / 146097
  let doe := (z % 146097).toNat
  let yoe := (doe - doe / 1460 + doe / 36524 - doe / 146096) / 365
  let doy := doe - (365 * yoe + yoe / 4 - yoe / 100)
  let mp := (5 * doy + 2) / 153
  let d := doy - (153 * mp + 2) / 5 + 1
  let m := if mp < 10 then mp + 3 else mp - 9
  let y := (yoe : Int) + era * 400
  (if m ≤ 2 then y + 1 else y, m, d)

/-- A number in decimal, with zeros before it up to a width. -/
def pad (width n : Nat) : String :=
  let s := toString n
  String.ofList (List.replicate (width - s.length) '0') ++ s

/-- A number is written in digits. -/
theorem isDigit_of_mem_pad {width n : Nat} {c : Char} (h : c ∈ (pad width n).toList) : c.isDigit = true := by
  rw [pad, String.toList_append, String.toList_ofList, List.mem_append] at h
  rcases h with h | h
  · rw [List.eq_of_mem_replicate h]
    rfl
  · rw [Nat.toString_eq_ofList_toDigits, String.toList_ofList] at h
    exact Nat.isDigit_of_mem_toDigits (by decide) (by decide) h

/-- The text `YYYY-MM-DD` of a day, as a calendar prints the years from 0 to 9999. -/
def isoDate (days : Int) : String :=
  let (y, m, d) := ymd days
  pad 4 y.toNat ++ "-" ++ pad 2 m ++ "-" ++ pad 2 d

/-- A year as a calendar prints it: with four digits, and with a sign where four are not enough. -/
def yearText (y : Int) : String :=
  if 0 ≤ y ∧ y ≤ 9999 then pad 4 y.toNat
  else if y < 0 then "-" ++ pad 4 y.natAbs
  else "+" ++ pad 4 y.natAbs

/-- The text of year, month and day of any day. -/
def dateText (days : Int) : String :=
  let (y, m, d) := ymd days
  yearText y ++ "-" ++ pad 2 m ++ "-" ++ pad 2 d

/-- The day with a year, a month and a day of the month. -/
def dayOf (y : Int) (m d : Nat) : Int :=
  let y := if m ≤ 2 then y - 1 else y
  let yoe := (y % 400).toNat
  let mp := if m ≤ 2 then m + 9 else m - 3
  let doy := (153 * mp + 2) / 5 + d - 1
  let doe := 365 * yoe + yoe / 4 - yoe / 100 + doy
  (y / 400) * 146097 + doe - 719468

/-- The year within an era of a day within it, both counted from 0. -/
def yearOfEra (doe : Nat) : Nat := (doe - doe / 1460 + doe / 36524 - doe / 146096) / 365

/-- The days of an era before a year of it. -/
def yearStart (yoe : Nat) : Nat := 365 * yoe + yoe / 4 - yoe / 100

theorem yearOfEra_mono {a b : Nat} (h : a ≤ b) : yearOfEra a ≤ yearOfEra b := by
  have hdays : a - a / 1460 ≤ b - b / 1460 := by omega
  have hcenturies : a / 36524 - a / 36524 / 4 ≤ b / 36524 - b / 36524 / 4 := by
    have hle : a / 36524 ≤ b / 36524 := Nat.div_le_div_right h
    omega
  rw [Nat.div_div_eq_div_mul, Nat.div_div_eq_div_mul] at hcenturies
  exact Nat.div_le_div_right (by omega)

theorem yearOfEra_yearStart : ∀ yoe < 400, yearOfEra (yearStart yoe) = yoe ∧ (0 < yoe → yearOfEra (yearStart yoe - 1) < yoe) := by
  decide +kernel

/-- A day of an era lies in its year. -/
theorem yearOfEra_spec {doe : Nat} (h : doe < 146097) :
    yearOfEra doe < 400 ∧ yearStart (yearOfEra doe) ≤ doe ∧ doe - yearStart (yearOfEra doe) ≤ 365 := by
  have hlast : yearOfEra doe ≤ yearOfEra 146096 := yearOfEra_mono (by omega)
  have hend : yearOfEra 146096 = 399 := by decide
  have hlt : yearOfEra doe < 400 := by omega
  refine ⟨hlt, ?_, ?_⟩
  · by_contra hbefore
    have hpos : 0 < yearOfEra doe := by
      rcases Nat.eq_zero_or_pos (yearOfEra doe) with hzero | hpos
      · rw [hzero] at hbefore
        exact absurd (Nat.zero_le doe) hbefore
      · exact hpos
    have hle : yearOfEra doe ≤ yearOfEra (yearStart (yearOfEra doe) - 1) := yearOfEra_mono (by omega)
    exact absurd ((yearOfEra_yearStart _ hlt).2 hpos) (by omega)
  · by_contra hafter
    have hstart : yearStart (yearOfEra doe + 1) ≤ yearStart (yearOfEra doe) + 366 := by
      unfold yearStart
      omega
    by_cases hlastYear : yearOfEra doe = 399
    · rw [hlastYear, yearStart] at hafter
      omega
    · have hle : yearOfEra (yearStart (yearOfEra doe + 1)) ≤ yearOfEra doe := yearOfEra_mono (by omega)
      rw [(yearOfEra_yearStart _ (by omega)).1] at hle
      omega

theorem month_spec {doy : Nat} (h : doy ≤ 365) : (5 * doy + 2) / 153 < 12 ∧ (153 * ((5 * doy + 2) / 153) + 2) / 5 ≤ doy := by
  omega

theorem ymd_eq {days : Int} {doe : Nat} (hdoe : ((days + 719468) % 146097).toNat = doe) :
    ymd days =
      let mp := (5 * (doe - yearStart (yearOfEra doe)) + 2) / 153
      let m := if mp < 10 then mp + 3 else mp - 9
      let y := (yearOfEra doe : Int) + (days + 719468) / 146097 * 400
      (if m ≤ 2 then y + 1 else y, m, doe - yearStart (yearOfEra doe) - (153 * mp + 2) / 5 + 1) := by
  rw [← hdoe]
  rfl

/-- The day that is so many years, months and days after the first of March at the start of an era. -/
theorem dayOf_march {yoe mp d : Nat} (hyoe : yoe < 400) (hmp : mp < 12) (era : Int) :
    dayOf (if (if mp < 10 then mp + 3 else mp - 9) ≤ 2 then (yoe : Int) + era * 400 + 1 else (yoe : Int) + era * 400)
      (if mp < 10 then mp + 3 else mp - 9) d =
    era * 146097 + (yearStart yoe + ((153 * mp + 2) / 5 + d - 1) : Nat) - 719468 := by
  unfold dayOf yearStart
  by_cases hmarch : mp < 10
  · simp only [if_pos hmarch, if_neg (show ¬ mp + 3 ≤ 2 by omega), Nat.add_sub_cancel]
    have hera : ((yoe : Int) + era * 400) / 400 = era := by omega
    have hyear : (((yoe : Int) + era * 400) % 400).toNat = yoe := by omega
    rw [hera, hyear]
  · simp only [if_neg hmarch, if_pos (show mp - 9 ≤ 2 by omega), Int.add_sub_cancel]
    have hera : ((yoe : Int) + era * 400) / 400 = era := by omega
    have hyear : (((yoe : Int) + era * 400) % 400).toNat = yoe := by omega
    have hmonth : mp - 9 + 9 = mp := by omega
    rw [hera, hyear, hmonth]

/-- A day is the one with its year, month and day. -/
theorem dayOf_ymd (days : Int) : dayOf (ymd days).1 (ymd days).2.1 (ymd days).2.2 = days := by
  obtain ⟨doe, hdoe⟩ : ∃ doe, ((days + 719468) % 146097).toNat = doe := ⟨_, rfl⟩
  have hbound : doe < 146097 := by omega
  obtain ⟨hyoe, hstart, hdoy⟩ := yearOfEra_spec hbound
  obtain ⟨hmp, hday⟩ := month_spec hdoy
  rw [ymd_eq hdoe]
  dsimp only
  refine (dayOf_march hyoe hmp ((days + 719468) / 146097)).trans ?_
  omega

example : isoDate 0 = "1970-01-01" := by decide

example : isoDate 19782 = "2024-02-29" := by decide

example : dateText (-719529) = "-0001-12-31" := by decide

end Civil
