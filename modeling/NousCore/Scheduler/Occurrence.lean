import NousCore.Lib.Runs
import NousCore.Scheduler.Cron

/-!
# The next occurrence of a cron expression

* `parseCronExpression` : the five matchers of an expression;
* `CronExpression.accepts` : the test of a date;
* `computeNextCronOccurrence` : the search, minute by minute.
-/

namespace NousCore.Scheduler

open Memory (isJsSpace)

/-! ## Expressions -/

structure CronExpression where
  minute : CronMatcher
  hour : CronMatcher
  dayOfMonth : CronMatcher
  month : CronMatcher
  dayOfWeek : CronMatcher

/-- `text.split(/\s+/)`, of a text without blanks around it. -/
def splitBlanks (text : List Char) : List (List Char) :=
  match (text.splitOnP isJsSpace).filter (· ≠ []) with
  | [] => [[]]
  | parts => parts

def parseCronExpression (expression : String) : Except CronError CronExpression :=
  match splitBlanks (trim expression.toList) with
  | [minute, hour, dayOfMonth, month, dayOfWeek] => do
    let minute ← parseField .minute minute
    let hour ← parseField .hour hour
    let dayOfMonth ← parseField .dayOfMonth dayOfMonth
    let month ← parseField .month month
    let dayOfWeek ← parseField .dayOfWeek dayOfWeek
    return { minute, hour, dayOfMonth, month, dayOfWeek }
  | _ => .error (.expression expression)

/-- A field of a date: `NaN` if the date is invalid. -/
def fieldOf (get : ℤ → Nat) (date : JsDate) : DateField := date.map fun t => (get t.ms : ℤ)

def CronExpression.accepts (cron : CronExpression) (date : JsDate) : Bool :=
  cron.minute (fieldOf utcMinutes date) &&
  cron.hour (fieldOf utcHours date) &&
  cron.dayOfMonth (fieldOf utcDate date) &&
  cron.month (fieldOf utcMonth date) &&
  cron.dayOfWeek (fieldOf utcDay date)

/-! ## The search -/

def addMinute (candidate : JsDate) : JsDate := candidate.bind fun t => t.setUTCMinutes (utcMinutes t.ms + 1)

/-- The loop, with the number of turns that are left. -/
def nextFrom (cron : CronExpression) (expression : String) : Nat → JsDate → Except String IsoTime
  | 0, _ => .error ("Unable to compute next cron occurrence: " ++ expression)
  | turns + 1, candidate =>
    if cron.accepts candidate then
      match candidate with
      | some t => .ok (toISOString t.ms)
      -- `toISOString` of an invalid date throws
      | none => .error "Invalid time value"
    else nextFrom cron expression turns (addMinute candidate)

section

-- `Date.parse`; `none` is `NaN`
variable (dateParse : String → JsDate)

def parseTimestamp (timestamp : String) : Except String TimeValue :=
  match dateParse timestamp with
  | some parsed => .ok parsed
  | none => .error ("Invalid timestamp: " ++ timestamp)

def computeNextCronOccurrence (expression fromIso : String) : Except String IsoTime := do
  let cron ← (parseCronExpression expression).mapError CronError.message
  let start ← parseTimestamp dateParse fromIso
  nextFrom cron expression (366 * 24 * 60) (addMinute (start.setUTCSeconds 0 0))

end

/-! ## The first minute -/

section Search

variable {cron : CronExpression} {expression : String}

theorem addMinute_timeClip {ms : ℤ} (h : -maxTime ≤ ms) : addMinute (timeClip ms) = timeClip (ms + msPerMinute) := by
  by_cases hrange : ms ≤ maxTime
  · obtain ⟨t, rfl⟩ : ∃ t : TimeValue, t.ms = ms := ⟨⟨ms, h, hrange⟩, rfl⟩
    rw [timeClip_ms]
    exact t.setUTCMinutes_succ
  · have hnone : timeClip ms = none := dif_neg fun hboth => hrange hboth.2
    have hnone' : timeClip (ms + msPerMinute) = none := dif_neg fun hboth => by
      have hms : ms + 60000 ≤ maxTime := hboth.2
      omega
    rw [hnone, hnone']
    rfl

/-- **What the search finds**: the first of the minutes, if it is a valid date. -/
theorem nextFrom_eq_ok_iff {turns : Nat} {ms : ℤ} {found : IsoTime} (h : -maxTime ≤ ms) :
    nextFrom cron expression turns (timeClip ms) = .ok found ↔
      ∃ i < turns, ∃ t : TimeValue, t.ms = ms + i * msPerMinute ∧ found = toISOString t.ms ∧
        cron.accepts (some t) = true ∧
        ∀ j < i, ∀ earlier : TimeValue, earlier.ms = ms + j * msPerMinute → cron.accepts (some earlier) = false := by
  induction turns generalizing ms with
  | zero => exact ⟨nofun, fun ⟨i, hi, _⟩ => absurd hi (Nat.not_lt_zero i)⟩
  | succ turns ih =>
    have hms : 0 < msPerMinute := by decide
    unfold nextFrom
    by_cases haccepts : cron.accepts (timeClip ms) = true
    · rw [if_pos haccepts]
      cases hclip : timeClip ms with
      | some t =>
        rw [hclip] at haccepts
        have ht := timeClip_eq_some_iff.mp hclip
        constructor
        · intro hfound
          exact ⟨0, Nat.succ_pos _, t, by omega, (Except.ok.inj hfound).symm, haccepts,
            fun j hj => absurd hj (Nat.not_lt_zero j)⟩
        · rintro ⟨i, -, t', ht', rfl, -, hfirst⟩
          -- the minute itself is accepted, so no later one is the first
          rcases Nat.eq_zero_or_pos i with rfl | hi
          · rw [ht', Nat.cast_zero, zero_mul, add_zero, ← ht]
          · exact absurd haccepts (Bool.eq_false_iff.mp (hfirst 0 hi t (by omega)))
      | none =>
        refine ⟨nofun, ?_⟩
        rintro ⟨i, -, t, ht, -⟩
        have hnonneg : 0 ≤ (i : ℤ) * msPerMinute := Int.mul_nonneg (Int.natCast_nonneg i) (le_of_lt hms)
        have hrange : -maxTime ≤ ms ∧ ms ≤ maxTime := ⟨h, by have := t.inRange.2; omega⟩
        rw [timeClip, dif_pos hrange] at hclip
        cases hclip
    · rw [if_neg haccepts, addMinute_timeClip h, ih (by omega)]
      have hself : ∀ t : TimeValue, t.ms = ms → cron.accepts (some t) = false := by
        rintro t rfl
        rw [← timeClip_ms]
        exact Bool.eq_false_iff.mpr haccepts
      have hshift : ∀ i : Nat, ms + ((i + 1 : Nat) : ℤ) * msPerMinute = ms + msPerMinute + i * msPerMinute := by
        intro i
        rw [Nat.cast_add, Nat.cast_one]
        ring
      constructor
      · rintro ⟨i, hi, t, ht, hfound, hacc, hfirst⟩
        refine ⟨i + 1, Nat.succ_lt_succ hi, t, by rw [hshift, ht], hfound, hacc, fun j hj earlier hearlier => ?_⟩
        cases j with
        | zero => exact hself earlier (by rw [hearlier, Nat.cast_zero, zero_mul, add_zero])
        | succ j => exact hfirst j (Nat.lt_of_succ_lt_succ hj) earlier (by rw [hearlier, hshift])
      · rintro ⟨i, hi, t, ht, hfound, hacc, hfirst⟩
        cases i with
        | zero =>
          rw [hself t (by rw [ht, Nat.cast_zero, zero_mul, add_zero])] at hacc
          cases hacc
        | succ i =>
          exact ⟨i, Nat.lt_of_succ_lt_succ hi, t, by rw [ht, hshift], hfound, hacc, fun j hj earlier hearlier =>
            hfirst (j + 1) (Nat.succ_lt_succ hj) earlier (by rw [hearlier, hshift])⟩

/-- **The first match.** An occurrence is a whole minute after that of the start which the five matchers accept, and no
minute between is accepted; there is none exactly when no minute within 366 days is accepted. -/
theorem computeNextCronOccurrence_first {dateParse : String → JsDate} {fromIso : String} {start : TimeValue}
    (hcron : parseCronExpression expression = .ok cron) (hstart : dateParse fromIso = some start) :
    (∀ found, computeNextCronOccurrence dateParse expression fromIso = .ok found →
      ∃ t : TimeValue, found = toISOString t.ms ∧ t.IsWholeMinute ∧ start.minute < t.minute ∧
        cron.accepts (some t) = true ∧
        ∀ earlier : TimeValue, earlier.IsWholeMinute → start.ms < earlier.ms → earlier.ms < t.ms →
          cron.accepts (some earlier) = false) ∧
    ((∃ e, computeNextCronOccurrence dateParse expression fromIso = .error e) ↔
      ∀ t : TimeValue, t.IsWholeMinute → start.ms < t.ms → t.ms ≤ start.ms + 366 * msPerDay →
        cron.accepts (some t) = false) := by
  obtain ⟨first, hfirst⟩ : ∃ first : ℤ, first = (start.ms / 60000 + 1) * 60000 := ⟨_, rfl⟩
  have hrange : -8640000000000000 ≤ start.ms ∧ start.ms ≤ 8640000000000000 := start.inRange
  have hcandidate : addMinute (start.setUTCSeconds 0 0) = timeClip first := by
    have hlow : -maxTime ≤ start.minute * msPerMinute := by
      show (-8640000000000000 : ℤ) ≤ start.ms / 60000 * 60000
      omega
    rw [start.setUTCSeconds_zero, addMinute_timeClip hlow, hfirst]
    congr 1
    show start.ms / 60000 * 60000 + 60000 = (start.ms / 60000 + 1) * 60000
    omega
  have hcompute : computeNextCronOccurrence dateParse expression fromIso =
      nextFrom cron expression (366 * 24 * 60) (timeClip first) := by
    rw [computeNextCronOccurrence, hcron, parseTimestamp, hstart, ← hcandidate]
    rfl
  -- the minutes of the search are the whole minutes after the start
  have hwhole : ∀ t : TimeValue, t.IsWholeMinute ∧ start.ms < t.ms ↔ ∃ i : Nat, t.ms = first + i * 60000 := by
    intro t
    constructor
    · rintro ⟨⟨k, hk⟩, hlt⟩
      have hk' : t.ms = 60000 * k := hk
      exact ⟨(k - (start.ms / 60000 + 1)).toNat, by omega⟩
    · rintro ⟨i, hi⟩
      exact ⟨⟨start.ms / 60000 + 1 + i, show t.ms = 60000 * _ by omega⟩, by omega⟩
  have hspec : ∀ found, nextFrom cron expression (366 * 24 * 60) (timeClip first) = .ok found ↔
      ∃ i : Nat, i < 366 * 24 * 60 ∧ ∃ t : TimeValue, t.ms = first + i * 60000 ∧ found = toISOString t.ms ∧
        cron.accepts (some t) = true ∧
        ∀ j < i, ∀ earlier : TimeValue, earlier.ms = first + j * 60000 → cron.accepts (some earlier) = false :=
    fun found => nextFrom_eq_ok_iff (show (-8640000000000000 : ℤ) ≤ first by omega)
  rw [hcompute]
  constructor
  · intro found hfound
    obtain ⟨i, hi, t, ht, rfl, hacc, hleast⟩ := (hspec found).mp hfound
    obtain ⟨hminute, hafter⟩ := (hwhole t).mpr ⟨i, ht⟩
    refine ⟨t, rfl, hminute, ?_, hacc, fun earlier hearlier hlt hlt' => ?_⟩
    · show start.ms / 60000 < t.ms / 60000
      omega
    · obtain ⟨j, hj⟩ := (hwhole earlier).mp ⟨hearlier, hlt⟩
      exact hleast j (by omega) earlier hj
  · constructor
    · rintro ⟨e, he⟩ t hminute hafter hwithin
      have hwithin' : t.ms ≤ start.ms + 366 * 86400000 := hwithin
      refine Bool.eq_false_iff.mpr fun hacc => ?_
      obtain ⟨i, ht⟩ := (hwhole t).mp ⟨hminute, hafter⟩
      -- some minute is accepted, so there is a first one
      have hex : ∃ i : Nat, ∃ t : TimeValue, t.ms = first + i * 60000 ∧ cron.accepts (some t) = true := ⟨i, t, ht, hacc⟩
      classical
      obtain ⟨t', ht', hacc'⟩ := Nat.find_spec hex
      have hle : Nat.find hex ≤ i := Nat.find_min' hex ⟨t, ht, hacc⟩
      have hok := (hspec _).mpr ⟨Nat.find hex, by omega, t', ht', rfl, hacc', fun j hj earlier hearlier =>
        Bool.eq_false_iff.mpr fun hearly => Nat.find_min hex hj ⟨earlier, hearlier, hearly⟩⟩
      rw [he] at hok
      cases hok
    · intro hnone
      cases hresult : nextFrom cron expression (366 * 24 * 60) (timeClip first) with
      | error e => exact ⟨e, rfl⟩
      | ok found =>
        obtain ⟨i, hi, t, ht, -, hacc, -⟩ := (hspec found).mp hresult
        obtain ⟨hminute, hafter⟩ := (hwhole t).mpr ⟨i, ht⟩
        rw [hnone t hminute hafter (show t.ms ≤ start.ms + 366 * 86400000 by omega)] at hacc
        cases hacc

def epoch : TimeValue := ⟨0, by decide⟩

theorem quarter_hour_first :
    ∃ t : TimeValue, computeNextCronOccurrence (fun _ => some epoch) "*/15 * * * *" "1970-01-01T00:00:00.000Z" =
        .ok (toISOString t.ms) ∧ t.IsWholeMinute ∧ epoch.minute < t.minute := by
  have hparsed : (parseCronExpression "*/15 * * * *").toOption.isSome = true := by decide +kernel
  obtain ⟨cron, hcron⟩ := Option.isSome_iff_exists.mp hparsed
  have hfound : computeNextCronOccurrence (fun _ => some epoch) "*/15 * * * *" "1970-01-01T00:00:00.000Z" =
      .ok (toISOString 900000) := eq_ok_of_toOption (by decide +kernel)
  obtain ⟨t, ht, hwhole, hafter, -⟩ := (computeNextCronOccurrence_first (eq_ok_of_toOption hcron) rfl).1 _ hfound
  exact ⟨t, ht ▸ hfound, hwhole, hafter⟩

end Search

end NousCore.Scheduler
