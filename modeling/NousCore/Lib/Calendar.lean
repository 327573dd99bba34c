import Mathlib.Tactic.Common
import Mathlib.Data.Int.Basic

/-!
# Dates in UTC

* `utcMinutes`, …, `utcDay` : the fields of an instant;
* `toISOString` : the text of an instant.
-/

namespace NousCore

/-- A timestamp: its text, and the milliseconds since the epoch that `Date.parse` makes of it. -/
structure IsoTime where
  text : String
  instant : Int
  deriving DecidableEq

/-- The number of milliseconds in a minute, an hour and a day. -/
def msPerMinute : Int := 60000

def msPerHour : Int := 3600000

def msPerDay : Int := 86400000

structure CivilDate where
  year : Int
  month : Nat
  day : Nat

/-- The date of the day that is `days` days after 1970-01-01. The years are counted from March, in eras of 400 years of
146097 days. -/
def civilOfDays (days : Int) : CivilDate :=
  let z := days + 719468
  let era := z / 146097
  let dayOfEra := (z % 146097).toNat
  let yearOfEra := (dayOfEra - dayOfEra / 1460 + dayOfEra / 36524 - dayOfEra / 146096) / 365
  let dayOfYear := dayOfEra - (365 * yearOfEra + yearOfEra / 4 - yearOfEra / 100)
  let monthFromMarch := (5 * dayOfYear + 2) / 153
  let month := if monthFromMarch < 10 then monthFromMarch + 3 else monthFromMarch - 9
  { year := era * 400 + yearOfEra + if month ≤ 2 then 1 else 0
    month := month
    day := dayOfYear - (153 * monthFromMarch + 2) / 5 + 1 }

/-! ## The fields of an instant -/

section

variable (instant : Int)

def utcMilliseconds : Nat := (instant % 1000).toNat

def utcSeconds : Nat := (instant / 1000 % 60).toNat

def utcMinutes : Nat := (instant / msPerMinute % 60).toNat

def utcHours : Nat := (instant / msPerHour % 24).toNat

def utcDate : Nat := (civilOfDays (instant / msPerDay)).day

/-- The month, January being 1. -/
def utcMonth : Nat := (civilOfDays (instant / msPerDay)).month

/-- The day of the week, Sunday being 0; 1970-01-01 was a Thursday. -/
def utcDay : Nat := ((instant / msPerDay + 4) % 7).toNat

end

/-! ## The text of an instant -/

/-- The decimal digits of `n`, at least `width` of them. -/
def padded (width n : Nat) : String :=
  let digits := toString n
  String.ofList (List.replicate (width - digits.length) '0') ++ digits

/-- Years that do not have four digits are written with a sign and six digits. -/
def yearText (year : Int) : String :=
  if 0 ≤ year ∧ year ≤ 9999 then padded 4 year.toNat
  else if year < 0 then "-" ++ padded 6 year.natAbs
  else "+" ++ padded 6 year.toNat

def toISOString (instant : Int) : IsoTime where
  text :=
    let date := civilOfDays (instant / msPerDay)
    yearText date.year ++ "-" ++ padded 2 date.month ++ "-" ++ padded 2 date.day ++ "T" ++
      padded 2 (utcHours instant) ++ ":" ++ padded 2 (utcMinutes instant) ++ ":" ++ padded 2 (utcSeconds instant) ++
      "." ++ padded 3 (utcMilliseconds instant) ++ "Z"
  instant := instant

@[simp] theorem instant_toISOString (instant : Int) : (toISOString instant).instant = instant := rfl

example : (toISOString 1709164800000).text = "2024-02-29T00:00:00.000Z" := by decide +kernel

/-! ## Dates that can be invalid -/

/-- The instant farthest from the epoch that a date can hold. -/
def maxTime : Int := 8640000000000000

/-- The instant of a valid date. -/
structure TimeValue where
  ms : Int
  inRange : -maxTime ≤ ms ∧ ms ≤ maxTime

/-- A date; `none` is an invalid one. -/
abbrev JsDate := Option TimeValue

def timeClip (ms : Int) : JsDate := if h : -maxTime ≤ ms ∧ ms ≤ maxTime then some ⟨ms, h⟩ else none

def makeInstant (day hours minutes seconds milliseconds : Int) : Int :=
  day * msPerDay + hours * msPerHour + minutes * msPerMinute + seconds * 1000 + milliseconds

namespace TimeValue

def setUTCSeconds (t : TimeValue) (seconds milliseconds : Int) : JsDate :=
  timeClip (makeInstant (t.ms / msPerDay) (utcHours t.ms) (utcMinutes t.ms) seconds milliseconds)

def setUTCMinutes (t : TimeValue) (minutes : Int) : JsDate :=
  timeClip (makeInstant (t.ms / msPerDay) (utcHours t.ms) minutes (utcSeconds t.ms) (utcMilliseconds t.ms))

/-- The minute since the epoch in which the instant lies. -/
def minute (t : TimeValue) : Int := t.ms / msPerMinute

def IsWholeMinute (t : TimeValue) : Prop := msPerMinute ∣ t.ms

end TimeValue

theorem timeClip_eq_some_iff {ms : Int} {t : TimeValue} : timeClip ms = some t ↔ t.ms = ms := by
  unfold timeClip
  constructor
  · intro h
    split_ifs at h
    cases h
    rfl
  · rintro rfl
    exact dif_pos t.inRange

theorem timeClip_ms (t : TimeValue) : timeClip t.ms = some t := timeClip_eq_some_iff.mpr rfl

theorem TimeValue.setUTCSeconds_zero (t : TimeValue) :
    t.setUTCSeconds 0 0 = timeClip (t.minute * msPerMinute) := by
  unfold setUTCSeconds makeInstant minute utcHours utcMinutes msPerDay msPerHour msPerMinute
  congr 1
  omega

theorem TimeValue.setUTCMinutes_succ (t : TimeValue) :
    t.setUTCMinutes (utcMinutes t.ms + 1) = timeClip (t.ms + msPerMinute) := by
  unfold setUTCMinutes makeInstant utcHours utcMinutes utcSeconds utcMilliseconds msPerDay msPerHour msPerMinute
  congr 1
  omega

end NousCore
