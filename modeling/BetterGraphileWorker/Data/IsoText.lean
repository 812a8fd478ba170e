-- SUMMARY: Timestamps as ISO 8601 texts with microseconds: what `to_char` writes, and that it is read back as the same time.
import Mathlib.Data.Nat.Notation
import BetterGraphileWorker.Database.AddJobs

/-!
# Timestamps as texts

A time is a number of microseconds since 1970-01-01T00:00:00Z. `toChar` writes it as the
cursors of `queryRecentJobs` do, and `readIso` reads such a text. The two are inverse on
the years 1 to 9999; before them `to_char` drops the era, after them the year grows.
-/

namespace BetterGraphileWorker

/-! ## Dates -/

/-- The day number of a date. -/
def civilDays (year month day : ℤ) : ℤ :=
  let yearFromMarch := if month ≤ 2 then year - 1 else year
  let monthFromMarch := if month ≤ 2 then month + 9 else month - 3
  let yearOfEra := yearFromMarch % 400
  yearFromMarch / 400 * 146097 + (365 * yearOfEra + yearOfEra / 4 - yearOfEra / 100) +
    ((153 * monthFromMarch + 2) / 5 + day - 1) - 719468

/-- Each day of an era is in one of its centuries, their leap cycles, and their years. -/
private theorem exists_centuries {day : ℤ} (h : 0 ≤ day) (hlt : day < 146097) :
    ∃ c q y d : ℤ, day = 36524 * c + 1461 * q + 365 * y + d ∧ (0 ≤ c ∧ c ≤ 3) ∧
      (0 ≤ q ∧ q ≤ 24) ∧ (0 ≤ y ∧ y ≤ 3) ∧ (0 ≤ d ∧ d ≤ 365) ∧
      (d = 365 → y = 3 ∧ (q = 24 → c = 3)) := by
  let c := if day = 146096 then 3 else day / 36524
  let r := day - 36524 * c
  have hc : (0 ≤ c ∧ c ≤ 3) ∧ 0 ≤ r ∧ r ≤ 36524 ∧ (r = 36524 → c = 3) := by
    simp only [c, r]
    split <;> omega
  let q := r / 1461
  let s := r % 1461
  let y := if s = 1460 then 3 else s / 365
  have hy : (0 ≤ y ∧ y ≤ 3) ∧ 0 ≤ s - 365 * y ∧ s - 365 * y ≤ 365 ∧
      (s - 365 * y = 365 → y = 3) := by
    simp only [y]
    split <;> omega
  refine ⟨c, q, y, s - 365 * y, ?_, hc.1, ?_, hy.1, ⟨hy.2.1, hy.2.2.1⟩, ?_⟩ <;> omega

/-- The quotient with which `civilDate` finds the year of a day of an era. -/
private theorem yearOfEra_eq {c q y d : ℤ} (hc : 0 ≤ c ∧ c ≤ 3) (hq : 0 ≤ q ∧ q ≤ 24)
    (hy : 0 ≤ y ∧ y ≤ 3) (hd : 0 ≤ d ∧ d ≤ 365) (hleap : d = 365 → y = 3 ∧ (q = 24 → c = 3))
    {day : ℤ} (hday : day = 36524 * c + 1461 * q + 365 * y + d) :
    (day - day / 1460 + day / 36524 - day / 146096) / 365 = 100 * c + 4 * q + y := by
  have hcentury : day / 36524 = c + day / 146096 := by
    by_cases hlast : d = 365 ∧ q = 24
    · obtain ⟨rfl, rfl⟩ := hlast
      obtain ⟨rfl, h⟩ := hleap rfl
      obtain rfl := h rfl
      rw [hday]
      rfl
    · have hlow : 36524 * c ≤ day := by omega
      have hhigh : day < 36524 * c + 36524 := by omega
      have hzero : day / 146096 = 0 := by omega
      omega
  have hcycle : day / 1460 = 25 * c + q + (24 * c + q + 365 * y + d) / 1460 := by omega
  rw [hcentury, hcycle]
  omega

/-- What `civilDate` computes of a day of an era. -/
private theorem exists_yearOfEra {day : ℤ} (h : 0 ≤ day) (hlt : day < 146097) :
    ∃ year d : ℤ, (day - day / 1460 + day / 36524 - day / 146096) / 365 = year ∧
      (0 ≤ year ∧ year < 400) ∧ (0 ≤ d ∧ d ≤ 365) ∧
      day = 365 * year + year / 4 - year / 100 + d := by
  obtain ⟨c, q, y, d, hday, hc, hq, hy, hd, hleap⟩ := exists_centuries h hlt
  refine ⟨100 * c + 4 * q + y, d, yearOfEra_eq hc hq hy hd hleap hday, by omega, hd, ?_⟩
  have hfourth : (100 * c + 4 * q + y) / 4 = 25 * c + q := by omega
  have hcentury : (100 * c + 4 * q + y) / 100 = c := by omega
  rw [hfourth, hcentury, hday]
  omega

theorem civilDate_bounds (days : ℤ) : (1 ≤ (civilDate days).2.1 ∧ (civilDate days).2.1 ≤ 12) ∧
    1 ≤ (civilDate days).2.2 ∧ (civilDate days).2.2 ≤ 31 := by
  obtain ⟨year, d, hyear, hyear', hd, hday⟩ := exists_yearOfEra
    (Int.emod_nonneg (days + 719468) (by decide)) (Int.emod_lt_of_pos (days + 719468) (by decide))
  simp only [civilDate, hyear]
  rw [show (days + 719468) % 146097 - (365 * year + year / 4 - year / 100) = d by omega]
  refine ⟨?_, by omega⟩
  split <;> omega

/-- The day number of a day's date is the day. -/
theorem civilDays_civilDate (days : ℤ) :
    civilDays (civilDate days).1 (civilDate days).2.1 (civilDate days).2.2 = days := by
  obtain ⟨year, d, hyear, hyear', hd, hday⟩ := exists_yearOfEra
    (Int.emod_nonneg (days + 719468) (by decide)) (Int.emod_lt_of_pos (days + 719468) (by decide))
  simp only [civilDate, civilDays, hyear]
  rw [show (days + 719468) % 146097 - (365 * year + year / 4 - year / 100) = d by omega]
  generalize hera : (days + 719468) / 146097 = era
  have hmonth : 0 ≤ (5 * d + 2) / 153 ∧ (5 * d + 2) / 153 ≤ 11 := by omega
  have hyears : (year + era * 400) / 400 = era ∧ (year + era * 400) % 400 = year := by omega
  by_cases hmarch : (5 * d + 2) / 153 < 10
  · rw [if_pos hmarch, if_neg (by omega), if_neg (by omega), if_neg (by omega), Int.add_zero,
      hyears.1, hyears.2, Int.add_sub_cancel]
    omega
  · rw [if_neg hmarch, if_pos (by omega), if_pos (by omega), if_pos (by omega), Int.add_sub_cancel,
      hyears.1, hyears.2, Int.sub_add_cancel]
    omega

/-! ## Texts -/

/-- `to_char(t AT TIME ZONE 'UTC', 'YYYY-MM-DD"T"HH24:MI:SS.US"Z"')`. -/
def toChar (micros : ℤ) : String :=
  let (year, month, day) := civilDate (micros / 86400000000)
  let rest := micros % 86400000000
  -- `YYYY` counts the years before 1 AD from 1 BC backwards and does not name the era.
  padded 4 (if 0 < year then year else 1 - year) ++ "-" ++ padded 2 month ++ "-" ++ padded 2 day ++
    "T" ++ padded 2 (rest / 3600000000) ++ ":" ++ padded 2 (rest / 60000000 % 60) ++ ":" ++
    padded 2 (rest / 1000000 % 60) ++ "." ++ padded 6 (rest % 1000000) ++ "Z"

/-- A number of `width` digits that `stop` ends. -/
def readField (width : ℕ) (stop : Char) (cs : List Char) : Option (ℕ × List Char) :=
  match cs.drop width with
  | c :: rest =>
    if (cs.take width).all Char.isDigit && c == stop then
      some (Nat.ofDigitChars 10 (cs.take width) 0, rest)
    else none
  | [] => none

/-- The time that a text names in that format, if it is one of the years 1 to 9999. -/
def readIso (text : String) : Option ℤ := do
  let (year, cs) ← readField 4 '-' text.toList
  let (month, cs) ← readField 2 '-' cs
  let (day, cs) ← readField 2 'T' cs
  let (hour, cs) ← readField 2 ':' cs
  let (minute, cs) ← readField 2 ':' cs
  let (second, cs) ← readField 2 '.' cs
  let (micros, cs) ← readField 6 'Z' cs
  let days := civilDays year month day
  if cs = [] ∧ 1 ≤ year ∧ civilDate days = (↑year, ↑month, ↑day) ∧ hour < 24 ∧ minute < 60 ∧
      second < 60 then
    some (86400000000 * days + 3600000000 * hour + 60000000 * minute + 1000000 * second + micros)
  else none

private theorem toList_padded {width : ℕ} {n : ℤ} : (padded width n).toList =
    List.replicate (width - (Nat.toDigits 10 n.natAbs).length) '0' ++ Nat.toDigits 10 n.natAbs := by
  simp only [padded, Nat.toString_eq_ofList_toDigits, String.toList_append, String.toList_ofList,
    String.length_ofList]

/-- A padded number is read back. -/
theorem readField_padded {width : ℕ} {n : ℤ} {stop : Char} {cs : List Char} (h : 0 ≤ n)
    (hlt : n < 10 ^ width) (hpos : 0 < width) :
    readField width stop ((padded width n).toList ++ stop :: cs) = some (n.toNat, cs) := by
  have hnat : n.natAbs = n.toNat := by omega
  have hle : (Nat.toDigits 10 n.natAbs).length ≤ width := by
    rw [Nat.length_toDigits_le_iff (by decide) hpos]
    rw [← Int.natAbs_of_nonneg h] at hlt
    exact_mod_cast hlt
  have hlength : (padded width n).toList.length = width := by
    rw [toList_padded, List.length_append, List.length_replicate]
    omega
  have hdigits : (padded width n).toList.all Char.isDigit = true := by
    rw [toList_padded, List.all_append, List.all_replicate, Bool.and_eq_true]
    refine ⟨by split <;> rfl, List.all_eq_true.mpr fun c hc => ?_⟩
    exact Nat.isDigit_of_mem_toDigits (by decide) (by decide) hc
  have hvalue : Nat.ofDigitChars 10 (padded width n).toList 0 = n.toNat := by
    rw [toList_padded, Nat.ofDigitChars_append, Nat.ofDigitChars_replicate_zero, Nat.mul_zero,
      Nat.ofDigitChars_ten_toDigits, hnat]
  generalize (padded width n).toList = number at hlength hdigits hvalue
  rw [readField, List.drop_left' hlength, List.take_left' hlength]
  simp only [hdigits, hvalue, Bool.true_and, beq_self_eq_true, if_true]

/-- The years that a cursor can name. -/
def InYears (micros : ℤ) : Prop :=
  1 ≤ (civilDate (micros / 86400000000)).1 ∧ (civilDate (micros / 86400000000)).1 ≤ 9999

instance (micros : ℤ) : Decidable (InYears micros) := inferInstanceAs (Decidable (_ ∧ _))

/-- Their times are in the range of a `Date`. -/
theorem InYears.natAbs_le {micros : ℤ} (h : InYears micros) :
    (micros / 1000).natAbs ≤ 8640000000000000 := by
  obtain ⟨hmonth, hday⟩ := civilDate_bounds (micros / 86400000000)
  have hdays := civilDays_civilDate (micros / 86400000000)
  unfold InYears at h
  unfold civilDays at hdays
  simp only at hdays
  split at hdays <;> omega

/-- A text that names a time of these years is read as that time. -/
theorem readIso_toChar {micros : ℤ} (h : InYears micros) : readIso (toChar micros) = some micros := by
  obtain ⟨hmonth, hday⟩ := civilDate_bounds (micros / 86400000000)
  have hdays := civilDays_civilDate (micros / 86400000000)
  unfold InYears at h
  unfold toChar
  generalize hdate : civilDate (micros / 86400000000) = date at h hmonth hday hdays
  obtain ⟨year, month, day⟩ := date
  simp only at h hmonth hday hdays ⊢
  rw [if_pos (by omega)]
  simp only [readIso, String.toList_append, String.reduceToList, List.append_assoc, List.cons_append,
    List.nil_append]
  have hrest : 0 ≤ micros % 86400000000 ∧ micros % 86400000000 < 86400000000 := by omega
  generalize hpart : micros % 86400000000 = rest at hrest ⊢
  simp (disch := omega) only [readField_padded, Option.bind_eq_bind, Option.bind_some,
    Int.toNat_of_nonneg, hdays, hdate]
  rw [if_pos ⟨trivial, by omega, trivial, by omega, by omega, by omega⟩]
  congr 1
  omega

example : InYears 951827696123456 ∧ toChar 951827696123456 = "2000-02-29T12:34:56.123456Z" := by decide

end BetterGraphileWorker
