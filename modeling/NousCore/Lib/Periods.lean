import Mathlib
import NousCore.Lib.Calendar

/-!
# Months, weeks, and other periods

* `GaloisConnection start index` : the period `i` begins at `start i`, and the instant `t` is in the period `index t`;
  `index_eq_iff` says that the periods follow on each other;
* `firstOfMonth`, `monthIndex` : the first day of a month, and the month of a day, counted from January of year 0;
* `gc_months`, `gc_weeks` : the months and the weeks from Monday on are periods.
-/

namespace NousCore

/-! ## Periods -/

section Periods

variable {start index : Int → Int} {t i : Int}

section

variable (h : GaloisConnection start index)

include h

theorem lt_start_iff : t < start i ↔ index t < i := by
  rw [← not_le, ← not_le]
  exact not_congr (h i t)

theorem index_eq_iff : index t = i ↔ start i ≤ t ∧ t < start (i + 1) := by
  rw [h i t, lt_start_iff h]
  omega

theorem start_index_le : start (index t) ≤ t := ((index_eq_iff h).mp rfl).1

theorem lt_start_index : t < start (index t + 1) := ((index_eq_iff h).mp rfl).2

theorem start_le_start_index (hend : start i ≤ t) : start i ≤ start (index t) :=
  h.monotone_l ((h i t).mp hend)

end

end Periods

/-! ## Years -/

theorem exists_era_parts (doe : Nat) (h : doe < 146097) : ∃ c b a r : Nat, c < 4 ∧ b < 25 ∧ a < 4 ∧ r < 366 ∧
    (r = 365 → a = 3 ∧ (b = 24 → c = 3)) ∧ doe = 36524 * c + 1461 * b + 365 * a + r := by
  obtain ⟨c, d, hc, hd, h1⟩ : ∃ c d : Nat, c < 4 ∧ (d < 36524 ∨ c = 3 ∧ d = 36524) ∧ doe = 36524 * c + d := by
    by_cases hlast : doe = 146096
    · exact ⟨3, 36524, by omega, by omega, by omega⟩
    · exact ⟨doe / 36524, doe % 36524, by omega, by omega, by omega⟩
  obtain ⟨a, r, ha, hr, h2⟩ : ∃ a r : Nat, a < 4 ∧ (r < 365 ∨ a = 3 ∧ r = 365) ∧ d % 1461 = 365 * a + r := by
    by_cases hlast : d % 1461 = 1460
    · exact ⟨3, 365, by omega, by omega, by omega⟩
    · exact ⟨d % 1461 / 365, d % 1461 % 365, by omega, by omega, by omega⟩
  exact ⟨c, d / 1461, a, r, by omega, by omega, by omega, by omega, by omega, by omega⟩

variable {c b a r : Nat}

theorem yearOfEra_eq {doe : Nat} (hc : c < 4) (hb : b < 25) (ha : a < 4) (hr : r < 366)
    (hlast : r = 365 → a = 3 ∧ (b = 24 → c = 3)) (hdoe : doe = 36524 * c + 1461 * b + 365 * a + r) :
    (doe - doe / 1460 + doe / 36524 - doe / 146096) / 365 = 100 * c + 4 * b + a := by
  obtain ⟨e, he, he'⟩ : ∃ e, doe / 1460 = 25 * c + b + e ∧ (e = 0 ∧ 24 * c + b + 365 * a + r < 1460 ∨
      e = 1 ∧ 1460 ≤ 24 * c + b + 365 * a + r) := by
    refine ⟨(24 * c + b + 365 * a + r) / 1460, by omega, by omega⟩
  by_cases hend : doe = 146096
  · subst hend
    omega
  · have h1 : doe / 36524 = c := by omega
    have h2 : doe / 146096 = 0 := by omega
    rw [he, h1, h2]
    omega

theorem leapDays_eq {era : Int} (hc : c < 4) (hb : b < 25) (ha : a < 4) :
    (era * 400 + ↑(100 * c + 4 * b + a)) / 4 - (era * 400 + ↑(100 * c + 4 * b + a)) / 100 +
      (era * 400 + ↑(100 * c + 4 * b + a)) / 400 = era * 97 + 24 * c + b := by
  have h4 : (era * 400 + ↑(100 * c + 4 * b + a)) / 4 = era * 100 + 25 * c + b := by omega
  have h100 : (era * 400 + ↑(100 * c + 4 * b + a)) / 100 = era * 4 + c := by omega
  have h400 : (era * 400 + ↑(100 * c + 4 * b + a)) / 400 = era := by omega
  rw [h4, h100, h400]
  omega

theorem leapDays_succ (y : Int) : (y + 1) / 4 - (y + 1) / 100 + (y + 1) / 400 ≥ y / 4 - y / 100 + y / 400 := by
  omega

theorem leapDays_succ_of_leap {era : Int} (hc : c < 4) (hb : b < 25) (h : b = 24 → c = 3) :
    (era * 400 + ↑(100 * c + 4 * b + 3) + 1) / 4 - (era * 400 + ↑(100 * c + 4 * b + 3) + 1) / 100 +
      (era * 400 + ↑(100 * c + 4 * b + 3) + 1) / 400 = era * 97 + 24 * c + b + 1 := by
  have h4 : (era * 400 + ↑(100 * c + 4 * b + 3) + 1) / 4 = era * 100 + 25 * c + b + 1 := by omega
  by_cases hlast : b = 24
  · have hc3 := h hlast
    subst hc3 hlast
    omega
  · have h100 : (era * 400 + ↑(100 * c + 4 * b + 3) + 1) / 100 = era * 4 + c := by omega
    have h400 : (era * 400 + ↑(100 * c + 4 * b + 3) + 1) / 400 = era := by omega
    rw [h4, h100, h400]
    omega

/-! ## Months -/

/-- The first day of the month that is `i` months after January of year 0. -/
def firstOfMonth (i : Int) : Int :=
  let y := (i - 2) / 12
  let m := (i - 2) % 12
  365 * y + y / 4 - y / 100 + y / 400 + (153 * m + 2) / 5 - 719468

theorem firstOfMonth_eq {i y m : Int} (hm : 0 ≤ m) (hm' : m < 12) (h : i = 12 * y + m + 2) :
    firstOfMonth i = 365 * y + y / 4 - y / 100 + y / 400 + (153 * m + 2) / 5 - 719468 := by
  have hy : (i - 2) / 12 = y := by omega
  have hmonth : (i - 2) % 12 = m := by omega
  unfold firstOfMonth
  rw [hy, hmonth]

theorem firstOfMonth_lt (i : Int) : firstOfMonth i < firstOfMonth (i + 1) := by
  obtain ⟨y, m, hm, hm', hi⟩ : ∃ y m : Int, 0 ≤ m ∧ m < 12 ∧ i = 12 * y + m + 2 :=
    ⟨(i - 2) / 12, (i - 2) % 12, by omega, by omega, by omega⟩
  rw [firstOfMonth_eq hm hm' hi]
  by_cases h : m = 11
  · rw [firstOfMonth_eq (i := i + 1) (y := y + 1) (m := 0) (by omega) (by omega) (by omega)]
    omega
  · rw [firstOfMonth_eq (i := i + 1) (y := y) (m := m + 1) (by omega) (by omega) (by omega)]
    omega

def monthIndex (days : Int) : Int := 12 * (civilOfDays days).year + ((civilOfDays days).month - 1 : Int)

def marchYear (era : Int) (c b a : Nat) : Int := era * 400 + ↑(100 * c + 4 * b + a)

theorem civilOfDays_eq {days era : Int} {m : Nat} (hc : c < 4) (hb : b < 25) (ha : a < 4) (hr : r < 366)
    (hlast : r = 365 → a = 3 ∧ (b = 24 → c = 3)) (hera : (days + 719468) / 146097 = era)
    (hdoe : ((days + 719468) % 146097).toNat = 36524 * c + 1461 * b + 365 * a + r) (hm : (5 * r + 2) / 153 = m) :
    civilOfDays days = ⟨marchYear era c b a + if (if m < 10 then m + 3 else m - 9) ≤ 2 then 1 else 0,
      if m < 10 then m + 3 else m - 9, r - (153 * m + 2) / 5 + 1⟩ := by
  have hyear := yearOfEra_eq hc hb ha hr hlast hdoe
  have hday : ((days + 719468) % 146097).toNat - (365 * (100 * c + 4 * b + a) + (100 * c + 4 * b + a) / 4 -
      (100 * c + 4 * b + a) / 100) = r := by
    have h4 : (100 * c + 4 * b + a) / 4 = 25 * c + b := by omega
    have h100 : (100 * c + 4 * b + a) / 100 = c := by omega
    rw [hdoe, h4, h100]
    omega
  unfold civilOfDays marchYear
  simp only [hyear, hday, hm, hera]

theorem monthIndex_eq {days y : Int} {m d : Nat} (h : civilOfDays days =
      ⟨y + if (if m < 10 then m + 3 else m - 9) ≤ 2 then 1 else 0, if m < 10 then m + 3 else m - 9, d⟩) (hm : m < 12) :
    monthIndex days = 12 * y + m + 2 := by
  unfold monthIndex
  rw [h]
  dsimp only
  split_ifs <;> omega

/-- **The date of a day** is that day of its month, and before the next month. -/
theorem civilOfDays_spec (days : Int) :
    firstOfMonth (monthIndex days) + (civilOfDays days).day - 1 = days ∧ days < firstOfMonth (monthIndex days + 1) := by
  obtain ⟨c, b, a, r, hc, hb, ha, hr, hlast, hdoe⟩ := exists_era_parts ((days + 719468) % 146097).toNat (by omega)
  obtain ⟨era, hera⟩ : ∃ era : Int, (days + 719468) / 146097 = era := ⟨_, rfl⟩
  obtain ⟨m, hm⟩ : ∃ m, (5 * r + 2) / 153 = m := ⟨_, rfl⟩
  have hm12 : m < 12 := by omega
  have hdate := civilOfDays_eq hc hb ha hr hlast hera hdoe hm
  have hindex := monthIndex_eq hdate hm12
  have hdays : days = era * 146097 + 36524 * c + 1461 * b + 365 * a + r - 719468 := by omega
  have hleap : marchYear era c b a / 4 - marchYear era c b a / 100 + marchYear era c b a / 400 =
      era * 97 + 24 * c + b := leapDays_eq hc hb ha
  have hyear : 365 * marchYear era c b a = era * 146000 + 36500 * c + 1460 * b + 365 * a := by
    unfold marchYear
    push_cast
    ring
  have hfirst := firstOfMonth_eq (i := monthIndex days) (by omega) (by omega) hindex
  constructor
  · rw [hfirst, hdate]
    dsimp only
    generalize marchYear era c b a / 4 = y4 at *
    generalize marchYear era c b a / 100 = y100 at *
    generalize marchYear era c b a / 400 = y400 at *
    clear hdoe hera hindex hfirst hdate
    omega
  · by_cases h : m = 11
    · have hnext := firstOfMonth_eq (i := monthIndex days + 1) (y := marchYear era c b a + 1) (m := 0) (by omega)
        (by omega) (by omega)
      rw [hnext]
      by_cases hend : r = 365
      · obtain ⟨rfl, hc3⟩ := hlast hend
        have hsucc : (marchYear era c b 3 + 1) / 4 - (marchYear era c b 3 + 1) / 100 +
            (marchYear era c b 3 + 1) / 400 = era * 97 + 24 * c + b + 1 := leapDays_succ_of_leap hc hb hc3
        generalize (marchYear era c b 3 + 1) / 4 = y4 at *
        generalize (marchYear era c b 3 + 1) / 100 = y100 at *
        generalize (marchYear era c b 3 + 1) / 400 = y400 at *
        clear hdoe hera hindex hfirst hdate hnext hleap
        omega
      · have hsucc := leapDays_succ (marchYear era c b a)
        generalize (marchYear era c b a + 1) / 4 = z4 at *
        generalize (marchYear era c b a + 1) / 100 = z100 at *
        generalize (marchYear era c b a + 1) / 400 = z400 at *
        generalize marchYear era c b a / 4 = y4 at *
        generalize marchYear era c b a / 100 = y100 at *
        generalize marchYear era c b a / 400 = y400 at *
        clear hdoe hera hindex hfirst hdate hnext
        omega
    · have hnext := firstOfMonth_eq (i := monthIndex days + 1) (y := marchYear era c b a) (m := m + 1) (by omega)
        (by omega) (by omega)
      rw [hnext]
      generalize marchYear era c b a / 4 = y4 at *
      generalize marchYear era c b a / 100 = y100 at *
      generalize marchYear era c b a / 400 = y400 at *
      clear hdoe hera hindex hfirst hdate hnext
      omega

theorem firstOfMonth_strictMono : StrictMono firstOfMonth := strictMono_int_of_lt_succ firstOfMonth_lt

theorem gc_firstOfMonth : GaloisConnection firstOfMonth monthIndex := by
  intro i days
  obtain ⟨hday, hnext⟩ := civilOfDays_spec days
  have hpos : 0 < (civilOfDays days).day := Nat.succ_pos _
  constructor
  · intro h
    by_contra hlt
    have hmono := firstOfMonth_strictMono.monotone (show monthIndex days + 1 ≤ i by omega)
    omega
  · intro h
    have hmono := firstOfMonth_strictMono.monotone h
    omega

/-! ## Instants -/

/-- `Date.UTC`: the instant at which a day begins; months are counted from 0, days from 1, and may exceed the year and
the month. -/
def dateUTC (year month day : Int) : Int := (firstOfMonth (12 * year + month) + day - 1) * msPerDay

theorem mul_msPerDay_le {d t : Int} : d * msPerDay ≤ t ↔ d ≤ t / msPerDay := by
  unfold msPerDay
  omega

theorem gc_months : GaloisConnection (fun i => firstOfMonth i * msPerDay) (fun t => monthIndex (t / msPerDay)) :=
  fun _ _ => mul_msPerDay_le.trans (gc_firstOfMonth _ _)

/-- The first day of a week, the week 0 being that of 1970-01-01; weeks begin on Monday. -/
def firstOfWeek (i : Int) : Int := 7 * i - 3

def weekIndex (days : Int) : Int := (days + 3) / 7

theorem gc_weeks : GaloisConnection (fun i => firstOfWeek i * msPerDay) (fun t => weekIndex (t / msPerDay)) := by
  intro i t
  refine mul_msPerDay_le.trans ?_
  show 7 * i - 3 ≤ t / msPerDay ↔ i ≤ (t / msPerDay + 3) / 7
  omega

example : dateUTC 2024 2 1 = 1709251200000 := by decide +kernel

end NousCore
