import NousCore.Lib.Charge
import NousCore.Lib.Serial
import NousCore.PublicMcp.Types
import Mathlib.Algebra.Group.Pi.Basic
import Mathlib.Algebra.Order.Group.Nat
import Mathlib.Algebra.Order.Pi

/-!
# What quotas and rate limits let through

* `QuotaUnits` : a number for each of the three dimensions of a quota;
* `meterSystem` : any number of consumptions in progress;
* `quotaGauge`, `rateGauge` : the counters of the two stores, charged before they are checked.
-/

namespace NousCore.PublicMcp

open Async Charge NousCore.System

/-! ## Units -/

inductive Dimension where
  | reads
  | writes
  | bytes
  deriving DecidableEq

def dimensions : List Dimension := [.reads, .writes, .bytes]

theorem mem_dimensions (d : Dimension) : d ∈ dimensions := by cases d <;> decide

abbrev QuotaUnits := Dimension → Nat

instance (u v : QuotaUnits) : Decidable (u ≤ v) :=
  decidable_of_iff (∀ d ∈ dimensions, u d ≤ v d) ⟨fun h d => h d (mem_dimensions d), fun h d _ => h d⟩

def quotaUnits (reads writes bytes : Nat) : QuotaUnits
  | .reads => reads
  | .writes => writes
  | .bytes => bytes

theorem quotaUnits_le {r w b r' w' b' : Nat} :
    quotaUnits r w b ≤ quotaUnits r' w' b' ↔ r ≤ r' ∧ w ≤ w' ∧ b ≤ b' :=
  ⟨fun h => ⟨h .reads, h .writes, h .bytes⟩, fun h d => by cases d; exacts [h.1, h.2.1, h.2.2]⟩

theorem quotaUnits_add {r w b r' w' b' : Nat} :
    quotaUnits r w b + quotaUnits r' w' b' = quotaUnits (r + r') (w + w') (b + b') := by
  funext d
  cases d <;> rfl

def QuotaLimitSnapshot.units (limits : QuotaLimitSnapshot) : QuotaUnits :=
  quotaUnits limits.maxReadUnits limits.maxWriteUnits limits.maxBytesReserved

def PublicMcpQuotaUsageRecord.units (record : PublicMcpQuotaUsageRecord) : QuotaUnits :=
  quotaUnits record.readUnitsUsed record.writeUnitsUsed record.bytesReserved

def ConsumeQuotaInput.units (input : ConsumeQuotaInput) : QuotaUnits :=
  quotaUnits (input.readUnitsDelta.getD 0) (input.writeUnitsDelta.getD 0) (input.bytesReservedDelta.getD 0)

/-! ## Meters -/

/-- A window of the quota of a namespace and a token, as the schemas accept it. -/
structure QuotaMeter where
  «namespace» : String
  tokenFingerprint : String
  windowStartedAt : IsoTime
  windowEndsAt : IsoTime
  limitSnapshot : QuotaLimitSnapshot
  fingerprint_hex : isSha256Hex tokenFingerprint = true
  limits_pos : 0 < limitSnapshot.maxReadUnits ∧ 0 < limitSnapshot.maxWriteUnits ∧ 0 < limitSnapshot.maxBytesReserved

structure QuotaMeter.Measures (m : QuotaMeter) (input : ConsumeQuotaInput) : Prop where
  «namespace» : input.namespace = m.namespace
  tokenFingerprint : input.tokenFingerprint = m.tokenFingerprint
  windowStartedAt : input.windowStartedAt = m.windowStartedAt
  windowEndsAt : input.windowEndsAt = m.windowEndsAt
  limitSnapshot : input.limitSnapshot = m.limitSnapshot

/-- A window of the rate limits of a namespace and a token, one limit for each tool. -/
structure RateMeter where
  «namespace» : String
  tokenFingerprint : String
  windowStartedAt : IsoTime
  windowSeconds : Nat
  maxRequests : Nat
  fingerprint_hex : isSha256Hex tokenFingerprint = true
  window_pos : 0 < windowSeconds

structure RateMeter.Measures (m : RateMeter) (input : ConsumeRateLimitInput) : Prop where
  «namespace» : input.namespace = m.namespace
  tokenFingerprint : input.tokenFingerprint = m.tokenFingerprint
  windowStartedAt : input.windowStartedAt = m.windowStartedAt
  windowSeconds : input.windowSeconds = m.windowSeconds
  maxRequests : input.maxRequests = m.maxRequests
  toolName : input.toolName.startsWith "ortho.memory.v1." = true

def QuotaMeter.usedOf (m : QuotaMeter) (existing : Option PublicMcpQuotaUsageRecord) : QuotaUnits :=
  (existing.filter fun record =>
    record.windowStartedAt = m.windowStartedAt ∧ record.windowEndsAt = m.windowEndsAt).elim 0 (·.units)

def QuotaMeter.used (m : QuotaMeter) (s : MeterState) : QuotaUnits :=
  m.usedOf (s.quotas.find? (QuotaUsageStore.buildId m.namespace m.tokenFingerprint))

def RateMeter.usedOf (m : RateMeter) (existing : Option PublicMcpRateLimitBucketRecord) : Nat :=
  (existing.filter fun record => record.windowStartedAt = m.windowStartedAt).elim 0 (·.requestCount)

def RateMeter.used (m : RateMeter) (toolName : String) (s : MeterState) : Nat :=
  m.usedOf (s.buckets.find? (RateLimitBucketStore.buildId m.namespace m.tokenFingerprint toolName))

/-! ## Consumptions in progress -/

inductive MeterTask where
  | quota (input : ConsumeQuotaInput)
  | rate (input : ConsumeRateLimitInput)
  deriving DecidableEq

inductive MeterResult where
  | quota (result : QuotaConsumptionResult)
  | rate (result : RateLimitConsumptionResult)

def MeterResult.allowed : MeterResult → Bool
  | .quota result => result.allowed
  | .rate result => result.allowed

def consume : MeterTask → MeterCall MeterResult
  | .quota input => do
    let result ← QuotaUsageStore.consume input
    return .quota result
  | .rate input => do
    let result ← RateLimitBucketStore.consume input
    return .rate result

theorem consume_quota (input : ConsumeQuotaInput) : consume (.quota input) =
    .call (.getQuota (QuotaUsageStore.buildId input.namespace input.tokenFingerprint)) fun existing =>
      unwrap (chargeQuota input existing) >>= fun result =>
        .call (.putQuota result.record) fun _ => .pure (.quota result) := by
  unfold consume QuotaUsageStore.consume
  simp only [perform_bind, call_bind, bind_assoc']
  rfl

theorem consume_rate (input : ConsumeRateLimitInput) : consume (.rate input) =
    .call (.getBucket (RateLimitBucketStore.buildId input.namespace input.tokenFingerprint input.toolName))
      fun existing => unwrap (chargeBucket input existing) >>= fun result =>
        .call (.putBucket result.record) fun _ => .pure (.rate result) := by
  unfold consume RateLimitBucketStore.consume
  simp only [perform_bind, call_bind, bind_assoc']
  rfl

def meterSystem : System MeterTask MeterOp.Answer Unit MeterState String MeterResult where
  body := consume
  answers := meterAnswers
  spawned := fun _ => []
  exclusive := fun _ => false

abbrev MeterConfig := Config MeterTask MeterOp.Answer MeterState String MeterResult

/-- A consumption and its outcome. -/
abbrev MeterEvent := MeterTask × Except String MeterResult

def MeterEvent.allowed (e : MeterEvent) : Bool := e.2.toOption.any (·.allowed)

def Metered (q : QuotaMeter) (r : RateMeter) : MeterTask → Prop
  | .quota input => q.Measures input
  | .rate input => r.Measures input

def quotaGauge (q : QuotaMeter) : Gauge MeterState MeterEvent QuotaUnits where
  used := q.used
  limit := q.limitSnapshot.units
  charge e := match e.1 with
    | .quota input => some input.units
    | .rate _ => none
  granted := MeterEvent.allowed

def rateGauge (r : RateMeter) (toolName : String) : Gauge MeterState MeterEvent Nat where
  used := r.used toolName
  limit := r.maxRequests
  charge e := match e.1 with
    | .rate input => if input.toolName = toolName then some 1 else none
    | .quota _ => none
  granted := MeterEvent.allowed

/-! ## One consumption -/

section Consume

variable {q : QuotaMeter} {r : RateMeter} {s t : MeterState}

theorem elim_units (current : Option PublicMcpQuotaUsageRecord) : current.elim (0 : QuotaUnits) (·.units) =
    quotaUnits ((current.map (·.readUnitsUsed)).getD 0) ((current.map (·.writeUnitsUsed)).getD 0)
      ((current.map (·.bytesReserved)).getD 0) := by
  cases current with
  | none => funext d; cases d <;> rfl
  | some record => rfl

theorem chargeQuota_spec {input : ConsumeQuotaInput} (h : q.Measures input)
    (existing : Option PublicMcpQuotaUsageRecord) :
    ∃ result, chargeQuota input existing = .ok result ∧
      (result.allowed = true ↔ q.usedOf existing + input.units ≤ q.limitSnapshot.units) ∧
      quotaKey result.record = QuotaUsageStore.buildId q.namespace q.tokenFingerprint ∧
      q.usedOf (some result.record) = q.usedOf existing + input.units := by
  obtain ⟨space, token, start, end_, reads, writes, bytes, limits⟩ := input
  obtain ⟨rfl, rfl, rfl, rfl, rfl⟩ := h
  generalize hy : chargeQuota _ existing = y
  unfold chargeQuota parseQuotaUsageRecord at hy
  dsimp only at hy
  rw [if_pos ⟨q.fingerprint_hex, q.limits_pos⟩] at hy
  subst hy
  refine ⟨_, rfl, ?_, rfl, ?_⟩
  · rw [decide_eq_true_eq]
    unfold QuotaMeter.usedOf ConsumeQuotaInput.units QuotaLimitSnapshot.units
    rw [elim_units, quotaUnits_add, quotaUnits_le]
    exact and_left_comm
  · unfold QuotaMeter.usedOf ConsumeQuotaInput.units
    rw [elim_units, elim_units, quotaUnits_add, Option.filter_some, if_pos (by simp)]
    rfl

theorem chargeBucket_spec {input : ConsumeRateLimitInput} (h : r.Measures input)
    (existing : Option PublicMcpRateLimitBucketRecord) :
    ∃ result, chargeBucket input existing = .ok result ∧
      (result.allowed = true ↔ r.usedOf existing + 1 ≤ r.maxRequests) ∧
      bucketKey result.record = RateLimitBucketStore.buildId r.namespace r.tokenFingerprint input.toolName ∧
      r.usedOf (some result.record) = r.usedOf existing + 1 := by
  obtain ⟨space, token, tool, start, seconds, max⟩ := input
  obtain ⟨rfl, rfl, rfl, rfl, rfl, htool⟩ := h
  have hused : ∀ current : Option PublicMcpRateLimitBucketRecord,
      (current.map (·.requestCount)).getD 0 = current.elim 0 (·.requestCount) := fun current => by
    cases current <;> rfl
  generalize hy : chargeBucket _ existing = y
  unfold chargeBucket parseRateLimitBucketRecord at hy
  dsimp only at hy
  rw [if_pos ⟨r.fingerprint_hex, htool, r.window_pos⟩] at hy
  subst hy
  refine ⟨_, rfl, ?_, rfl, ?_⟩
  · rw [decide_eq_true_eq, hused]
    rfl
  · unfold RateMeter.usedOf
    rw [Option.filter_some, if_pos (by simp), Option.elim_some, hused]

variable {y : Except String MeterResult}

theorem inTurn_quota {input : ConsumeQuotaInput} (h : q.Measures input)
    (hturn : meterSystem.InTurn s (.quota input, y) t) :
    ∃ result, y = .ok (.quota result) ∧
      (result.allowed = true ↔ q.used s + input.units ≤ q.limitSnapshot.units) ∧
      q.used t = q.used s + input.units ∧ t.buckets = s.buckets := by
  obtain ⟨l, hends⟩ := hturn
  refine Meets.of_alone (P := fun _ y t => ∃ result, y = .ok (.quota result) ∧
      (result.allowed = true ↔ q.used s + input.units ≤ q.limitSnapshot.units) ∧
      q.used t = q.used s + input.units ∧ t.buckets = s.buckets) ?_ hends
  show (consume (.quota input)).Meets meterAnswers .alone _ _ _
  rw [consume_quota]
  refine meets_alone_call fun x existing s' hanswers => ?_
  cases hanswers
  rw [h.namespace, h.tokenFingerprint]
  obtain ⟨result, hresult, hallowed, hkey, hused⟩ := chargeQuota_spec h
    (s.quotas.find? (QuotaUsageStore.buildId q.namespace q.tokenFingerprint))
  rw [hresult]
  refine meets_alone_call fun x _ s' hanswers => ?_
  cases hanswers
  refine ⟨result, rfl, hallowed, ?_, rfl⟩
  show q.usedOf ((s.quotas.put result.record).find? _) = _
  rw [← hkey, Collection.find?_put_self, hused]
  rfl

theorem inTurn_rate {input : ConsumeRateLimitInput} (h : r.Measures input)
    (hturn : meterSystem.InTurn s (.rate input, y) t) :
    ∃ result, y = .ok (.rate result) ∧ (result.allowed = true ↔ r.used input.toolName s + 1 ≤ r.maxRequests) ∧
      (∀ toolName, r.used toolName t =
        if toolName = input.toolName then r.used toolName s + 1 else r.used toolName s) ∧ t.quotas = s.quotas := by
  obtain ⟨l, hends⟩ := hturn
  refine Meets.of_alone (P := fun _ y t => ∃ result, y = .ok (.rate result) ∧
      (result.allowed = true ↔ r.used input.toolName s + 1 ≤ r.maxRequests) ∧
      (∀ toolName, r.used toolName t =
        if toolName = input.toolName then r.used toolName s + 1 else r.used toolName s) ∧
      t.quotas = s.quotas) ?_ hends
  show (consume (.rate input)).Meets meterAnswers .alone _ _ _
  rw [consume_rate]
  refine meets_alone_call fun x existing s' hanswers => ?_
  cases hanswers
  rw [h.namespace, h.tokenFingerprint]
  obtain ⟨result, hresult, hallowed, hkey, hused⟩ := chargeBucket_spec h
    (s.buckets.find? (RateLimitBucketStore.buildId r.namespace r.tokenFingerprint input.toolName))
  rw [hresult]
  refine meets_alone_call fun x _ s' hanswers => ?_
  cases hanswers
  refine ⟨result, rfl, hallowed, fun toolName => ?_, rfl⟩
  show r.usedOf ((s.buckets.put result.record).find? _) = _
  rw [Collection.find?_put, hkey]
  by_cases htool : toolName = input.toolName
  · rw [if_pos (by rw [htool]), if_pos htool, hused, htool]
    rfl
  · have hne : RateLimitBucketStore.buildId r.namespace r.tokenFingerprint toolName ≠
        RateLimitBucketStore.buildId r.namespace r.tokenFingerprint input.toolName := by
      intro heq
      exact htool (String.append_right_inj _ |>.mp heq)
    rw [if_neg hne, if_neg htool]
    rfl

end Consume

/-! ## The counters are gauges -/

/-- The consumptions of the two meters, one after the other. -/
def MeteredTurn (q : QuotaMeter) (r : RateMeter) : MeterState → MeterEvent → MeterState → Prop := fun s e t =>
  meterSystem.InTurn s e t ∧ Metered q r e.1

theorem quotaGauge_counts (q : QuotaMeter) (r : RateMeter) : (quotaGauge q).Counts (MeteredTurn q r) where
  same := by
    rintro s ⟨task, y⟩ t ⟨hturn, hmetered⟩ hcharge
    cases task with
    | quota input => cases hcharge
    | rate input =>
      obtain ⟨-, -, -, -, hquotas⟩ := inTurn_rate hmetered hturn
      show q.used t = q.used s
      unfold QuotaMeter.used
      rw [hquotas]
  charged := by
    rintro s ⟨task, y⟩ t d ⟨hturn, hmetered⟩ hcharge
    cases task with
    | quota input =>
      obtain ⟨result, rfl, hallowed, hused, -⟩ := inTurn_quota hmetered hturn
      cases hcharge
      exact ⟨hused, hallowed⟩
    | rate input => cases hcharge

theorem rateGauge_counts (q : QuotaMeter) (r : RateMeter) (toolName : String) :
    (rateGauge r toolName).Counts (MeteredTurn q r) where
  same := by
    rintro s ⟨task, y⟩ t ⟨hturn, hmetered⟩ hcharge
    cases task with
    | quota input =>
      obtain ⟨-, -, -, -, hbuckets⟩ := inTurn_quota hmetered hturn
      show r.used toolName t = r.used toolName s
      unfold RateMeter.used
      rw [hbuckets]
    | rate input =>
      obtain ⟨-, -, -, hused, -⟩ := inTurn_rate hmetered hturn
      have hne : input.toolName ≠ toolName := by
        intro heq
        rw [show (rateGauge r toolName).charge (.rate input, y) = _ from if_pos heq] at hcharge
        cases hcharge
      exact (hused toolName).trans (if_neg fun heq => hne heq.symm)
  charged := by
    rintro s ⟨task, y⟩ t d ⟨hturn, hmetered⟩ hcharge
    cases task with
    | quota input => cases hcharge
    | rate input =>
      obtain ⟨result, rfl, hallowed, hused, -⟩ := inTurn_rate hmetered hturn
      change (if input.toolName = toolName then some 1 else none) = some d at hcharge
      split_ifs at hcharge with htool
      cases hcharge
      subst htool
      exact ⟨(hused _).trans (if_pos rfl), hallowed⟩

/-! ## What is let through -/

/-- What is let through stays within the limits. -/
def WithinLimits (q : QuotaMeter) (r : RateMeter) (es : List MeterEvent) : Prop :=
  ((quotaGauge q).grants es).sum ≤ q.limitSnapshot.units ∧ ∀ toolName, ((rateGauge r toolName).grants es).sum ≤ r.maxRequests

def LetsThroughWhatFits (q : QuotaMeter) (r : RateMeter) (es : List MeterEvent) : Prop :=
  (quotaGauge q).GrantsWhatFits es ∧ ∀ toolName, (rateGauge r toolName).GrantsWhatFits es

/-- Nothing has been used in the windows. -/
def Unused (q : QuotaMeter) (r : RateMeter) (s : MeterState) : Prop := q.used s = 0 ∧ ∀ toolName, r.used toolName s = 0

def readsCounter : MeterOp → Prop
  | .getQuota _ | .getBucket _ => True
  | .putQuota _ | .putBucket _ => False

theorem commits_unwrap {α : Type} {x : Except String α} {o : α → MeterOp} {a : α → MeterResult} :
    Commits (unwrap x >>= fun r => (.call (o r) fun _ => .pure (a r) : MeterCall MeterResult)) := by
  cases x with
  | error e => exact .inl (by simp [unwrap, outcome])
  | ok r => exact .inr ⟨_, _, rfl, fun _ => by simp [outcome]⟩

theorem transaction_consume (t : MeterTask) : Transaction readsCounter (consume t) := by
  cases t with
  | quota input => exact ⟨_, _, consume_quota input, trivial, fun _ => commits_unwrap⟩
  | rate input => exact ⟨_, _, consume_rate input, trivial, fun _ => commits_unwrap⟩

theorem meteredTurns_of_run {q : QuotaMeter} {r : RateMeter} {s : MeterState} {ls : List (Label MeterTask Unit)}
    {c : MeterConfig}
    (hrun : Run (Guarded meterSystem.Step fun c l => meterSystem.Fresh c l ∧ Opens (Metered q r) l) (start s) ls c) :
    Run (MeteredTurn q r) s (outcomes c) c.state := by
  have hfresh : Run (Guarded meterSystem.Step meterSystem.Fresh) (start s) ls c :=
    hrun.mono fun _ _ _ h => ⟨h.1, h.2.1⟩
  have hopens : Run (Guarded meterSystem.Step fun _ l => Opens (Metered q r) l) (start s) ls c :=
    hrun.mono fun _ _ _ h => ⟨h.1, h.2.2⟩
  have hserial := serial_of_fresh transaction_consume (by
    rintro (id | record | id | record) hread x s y s' hanswers
    · exact (Prod.mk.inj (Option.some.inj hanswers)).2.symm
    · exact hread.elim
    · exact (Prod.mk.inj (Option.some.inj hanswers)).2.symm
    · exact hread.elim) hfresh
  exact hserial.guarded (admits_of_mem_outcomes (fun _ => rfl) hopens)

theorem withinLimits_of_turns {q : QuotaMeter} {r : RateMeter} {s t : MeterState} {es : List MeterEvent}
    (h : Run (MeteredTurn q r) s es t) : WithinLimits q r es :=
  ⟨(quotaGauge_counts q r).sum_grants_le h, fun toolName => (rateGauge_counts q r toolName).sum_grants_le h⟩

/-- One after the other, what fits is let through, exactly when nothing fits after a quota has been refused. -/
theorem letsThrough_iff {q : QuotaMeter} {r : RateMeter} {s t : MeterState} {es : List MeterEvent}
    (hunused : Unused q r s) (h : Run (MeteredTurn q r) s es t) :
    LetsThroughWhatFits q r es ↔ KeepsOut q.limitSnapshot.units ((quotaGauge q).charges es) := by
  have hquota := (quotaGauge_counts q r).grantsWhatFits_iff hunused.1 h
  refine ⟨fun hlets => hquota.mp hlets.1, fun hkeeps => ⟨hquota.mpr hkeeps, fun toolName => ?_⟩⟩
  refine ((rateGauge_counts q r toolName).grantsWhatFits_iff (hunused.2 toolName) h).mpr (keepsOut_of_forall_eq (d := 1) ?_)
  intro d hd
  obtain ⟨⟨task, y⟩, -, he⟩ := List.mem_filterMap.mp hd
  cases task with
  | quota input => cases he
  | rate input =>
    change (if input.toolName = toolName then some 1 else none) = some d at he
    split_ifs at he
    exact (Option.some.inj he).symm

/-- **Quotas and rate limits.** In every interleaving in which no counter is written between the read and the write of
a consumption, the consumptions let through are within the limits. One after the other they are always within the
limits; and in a window of which nothing has been used, whatever fits is let through, exactly when nothing fits after a
consumption that did not. -/
theorem withinLimits_of_run (q : QuotaMeter) (r : RateMeter) (s : MeterState) :
    (∀ (ls : List (Label MeterTask Unit)) (c : MeterConfig),
      Run (Guarded meterSystem.Step fun c l => meterSystem.Fresh c l ∧ Opens (Metered q r) l) (start s) ls c →
        WithinLimits q r (outcomes c)) ∧
    ∀ (es : List MeterEvent) (t : MeterState), Run meterSystem.InTurn s es t → (∀ e ∈ es, Metered q r e.1) →
      WithinLimits q r es ∧ (Unused q r s →
        (LetsThroughWhatFits q r es ↔ KeepsOut q.limitSnapshot.units ((quotaGauge q).charges es))) := by
  refine ⟨fun ls c hrun => withinLimits_of_turns (meteredTurns_of_run hrun), fun es t hrun hmetered => ?_⟩
  have hturns : Run (MeteredTurn q r) s es t := hrun.guarded hmetered
  exact ⟨withinLimits_of_turns hturns, fun hunused => letsThrough_iff hunused hturns⟩

/-! ## Two writes with one unit left -/

instance (o : MeterOp) : DecidableEq o.Answer :=
  match o with
  | .getQuota _ => inferInstanceAs (DecidableEq (Option PublicMcpQuotaUsageRecord))
  | .getBucket _ => inferInstanceAs (DecidableEq (Option PublicMcpRateLimitBucketRecord))
  | .putQuota _ | .putBucket _ => inferInstanceAs (DecidableEq Unit)

instance (c : MeterConfig) (l : Label MeterTask Unit) :
    Decidable (meterSystem.Fresh c l) :=
  match l with
  | .begin _ => instDecidableTrue
  | .turn i _ => decidable_of_iff (∀ th ∈ c.threads[i]?, ∀ e ∈ th.log,
      (meterAnswers e.1 () c.state).map Prod.fst = some e.2)
      ⟨fun h th hth e he => ⟨(), h th hth e he⟩, fun h th hth e he => (h th hth e he).elim fun _ hx => hx⟩

def fingerprintOne : String := "2222222222222222222222222222222222222222222222222222222222222222"

/-- One write of a hundred bytes in an hour. -/
def quotaOne : QuotaMeter where
  «namespace» := "app:1111111111111111111111111111111111111111111111111111111111111111"
  tokenFingerprint := fingerprintOne
  windowStartedAt := toISOString 1773446400000
  windowEndsAt := toISOString 1773450000000
  limitSnapshot := ⟨10, 2, 100⟩
  fingerprint_hex := by decide +kernel
  limits_pos := by decide

def rateOne : RateMeter where
  «namespace» := quotaOne.namespace
  tokenFingerprint := fingerprintOne
  windowStartedAt := toISOString 1773446400000
  windowSeconds := 60
  maxRequests := 30
  fingerprint_hex := by decide +kernel
  window_pos := by decide

def putOf (bytes : Nat) : ConsumeQuotaInput where
  «namespace» := quotaOne.namespace
  tokenFingerprint := quotaOne.tokenFingerprint
  windowStartedAt := quotaOne.windowStartedAt
  windowEndsAt := quotaOne.windowEndsAt
  readUnitsDelta := none
  writeUnitsDelta := some 1
  bytesReservedDelta := some bytes
  limitSnapshot := quotaOne.limitSnapshot

instance : DecidablePred (Metered quotaOne rateOne) := fun t => match t with
  | .quota input => decidable_of_iff (input.namespace = quotaOne.namespace ∧
      input.tokenFingerprint = quotaOne.tokenFingerprint ∧ input.windowStartedAt = quotaOne.windowStartedAt ∧
      input.windowEndsAt = quotaOne.windowEndsAt ∧ input.limitSnapshot = quotaOne.limitSnapshot)
      ⟨fun h => ⟨h.1, h.2.1, h.2.2.1, h.2.2.2.1, h.2.2.2.2⟩, fun h => ⟨h.1, h.2, h.3, h.4, h.5⟩⟩
  | .rate input => decidable_of_iff (input.namespace = rateOne.namespace ∧
      input.tokenFingerprint = rateOne.tokenFingerprint ∧ input.windowStartedAt = rateOne.windowStartedAt ∧
      input.windowSeconds = rateOne.windowSeconds ∧ input.maxRequests = rateOne.maxRequests ∧
      input.toolName.startsWith "ortho.memory.v1." = true)
      ⟨fun h => ⟨h.1, h.2.1, h.2.2.1, h.2.2.2.1, h.2.2.2.2.1, h.2.2.2.2.2⟩, fun h => ⟨h.1, h.2, h.3, h.4, h.5, h.6⟩⟩

theorem unused_empty : Unused quotaOne rateOne .empty := ⟨rfl, fun _ => rfl⟩

/-- Two writes one after the other. -/
def writesInTurn (first second : Nat) : List (Label MeterTask Unit) :=
  [.begin (.quota (putOf first)), .turn 0 (), .turn 0 (), .begin (.quota (putOf second)), .turn 1 (), .turn 1 ()]

theorem exists_writesInTurn (first second : Nat) (P : MeterConfig → Bool)
    (h : ((writesInTurn first second).foldlM (meterSystem.checkedStep fun c l => meterSystem.Fresh c l ∧
      Opens (Metered quotaOne rateOne) l) (start MeterState.empty)).any P = true) :
    ∃ c, Run (Guarded meterSystem.Step fun c l => meterSystem.Fresh c l ∧ Opens (Metered quotaOne rateOne) l)
      (start MeterState.empty) (writesInTurn first second) c ∧ P c = true :=
  meterSystem.exists_run_of_checkedStep _ _ _ P h

theorem smallWrites_withinLimits :
    ∃ c : MeterConfig, WithinLimits quotaOne rateOne (outcomes c) ∧ ((quotaGauge quotaOne).grants (outcomes c)).length = 2 ∧
      (LetsThroughWhatFits quotaOne rateOne (outcomes c) ↔
        KeepsOut quotaOne.limitSnapshot.units ((quotaGauge quotaOne).charges (outcomes c))) := by
  obtain ⟨c, hrun, hlength⟩ := exists_writesInTurn 40 60
    (fun c => ((quotaGauge quotaOne).grants (outcomes c)).length = 2) (by decide +kernel)
  have hturns := meteredTurns_of_run hrun
  have hmetered : ∀ e ∈ outcomes c, Metered quotaOne rateOne e.1 :=
    admits_of_mem_outcomes (fun _ => rfl) (hrun.mono fun _ _ _ h => ⟨h.1, h.2.2⟩)
  obtain ⟨hinterleaved, hserial⟩ := withinLimits_of_run quotaOne rateOne .empty
  have hexact := hserial (outcomes c) c.state (hturns.mono fun _ _ _ h => h.1) hmetered
  exact ⟨c, hinterleaved _ c hrun, of_decide_eq_true hlength, hexact.2 unused_empty⟩

/-- Two writes that overlap are both let through; and after a write that is too large, one that fits is refused. -/
theorem writes_not_exact :
    (∃ (ls : List (Label MeterTask Unit)) (c : MeterConfig), Run (Guarded meterSystem.Step fun _ l => Opens (Metered quotaOne rateOne) l) (start .empty) ls c ∧
      ¬WithinLimits quotaOne rateOne (outcomes c)) ∧
    ∃ es t, Run meterSystem.InTurn .empty es t ∧ (∀ e ∈ es, Metered quotaOne rateOne e.1) ∧
      ¬LetsThroughWhatFits quotaOne rateOne es := by
  constructor
  · obtain ⟨c, hrun, hsum⟩ := meterSystem.exists_run_of_checkedStep
      (fun _ l => Opens (Metered quotaOne rateOne) l)
      [.begin (.quota (putOf 60)), .begin (.quota (putOf 60)), .turn 0 (), .turn 1 (), .turn 0 (), .turn 1 ()] .empty
      (fun c => ((quotaGauge quotaOne).grants (outcomes c)).sum .bytes = 120) (by decide +kernel)
    refine ⟨_, c, hrun, fun hwithin => ?_⟩
    have hbytes := hwithin.1 .bytes
    rw [of_decide_eq_true hsum] at hbytes
    exact absurd hbytes (by decide)
  · obtain ⟨c, hrun, hrefused⟩ := exists_writesInTurn 200 60
      (fun c => (outcomes c).map (·.1) = [.quota (putOf 200), .quota (putOf 60)]) (by decide +kernel)
    have hturns := meteredTurns_of_run hrun
    refine ⟨outcomes c, c.state, hturns.mono fun _ _ _ h => h.1,
      admits_of_mem_outcomes (fun _ => rfl) (hrun.mono fun _ _ _ h => ⟨h.1, h.2.2⟩), fun hlets => ?_⟩
    have hkeeps := (letsThrough_iff unused_empty hturns).mp hlets
    have hcharges : (quotaGauge quotaOne).charges (outcomes c) = [(putOf 200).units, (putOf 60).units] := by
      have htasks : (outcomes c).map (·.1) = _ := of_decide_eq_true hrefused
      have hcomp : (quotaGauge quotaOne).charges (outcomes c) = ((outcomes c).map (·.1)).filterMap fun t =>
          (quotaGauge quotaOne).charge (t, .error "") := by
        rw [List.filterMap_map]
        rfl
      rw [hcomp, htasks]
      rfl
    refine hkeeps [] (putOf 200).units [] (putOf 60).units [] (by rw [hcharges]; rfl) (by decide) (by decide) ?_
    decide

end NousCore.PublicMcp
