import Mathlib.Algebra.Field.Rat
import Mathlib.Data.Rat.Floor
import NousCore.Lib.Periods
import NousCore.Lib.Runs
import NousCore.Lib.Totals

/-!
# Costs, budgets, and the cost governance service

Amounts are rational numbers. The ids of events, the texts of alerts and the published snapshots are left out.

* `resolveCorrelationRoot` : the run at the top of an event's chain of parents;
* `handleInferenceEvent` : an event is recorded, its project's period is checked, and its costs are added up;
* `evaluateBudget` : the alerts and the pause that a project's costs call for;
* `setBudgetPolicy`, `removeBudgetPolicy` : the policies;
* `getCostTimeSeries` : the costs of a period in buckets;
* `act` : what happens to the service, the clock never going back.
-/

namespace NousCore.Cost

structure PricingTier where
  inputCostPerMillionTokens : ℚ
  outputCostPerMillionTokens : ℚ

/-- The tiers by `providerId:modelId`. -/
abbrev PricingTable := Record String PricingTier

structure InferenceCallCompletePayload where
  projectId : Option String
  providerId : String
  modelId : String
  agentClass : Option String
  inputTokens : Option ℚ
  outputTokens : Option ℚ
  traceId : String
  correlationRunId : Option String
  correlationParentId : Option String

structure CostEvent where
  timestamp : Int
  projectId : String
  providerId : String
  modelId : String
  agentClass : String
  correlationRunId : String
  correlationParentId : Option String
  inputTokens : ℚ
  outputTokens : ℚ
  inputCostUsd : ℚ
  outputCostUsd : ℚ
  totalCostUsd : ℚ
  pricingMiss : Bool

inductive PeriodType where
  | monthly | weekly
  deriving DecidableEq

structure BudgetPolicy where
  enabled : Bool
  period : PeriodType
  softThresholdPercent : ℚ
  hardCeilingUsd : ℚ
  deriving DecidableEq

structure AggregationEntry where
  totalCostUsd : ℚ
  inputCostUsd : ℚ
  outputCostUsd : ℚ
  eventCount : Nat

structure ProjectCostState where
  periodStart : Int
  /-- The start of the next period. -/
  periodEnd : Int
  periodType : PeriodType
  totalSpend : ℚ
  byProviderModel : Record String AggregationEntry
  byAgentClass : Record String AggregationEntry
  byCorrelationRoot : Record String AggregationEntry
  softAlertFiredThisPeriod : Bool
  hardCeilingFiredThisPeriod : Bool
  correlationRootCache : Record String String
  currentHardCeilingUsd : Option ℚ

inductive AlertCategory where
  | budgetExceeded | budgetWarning

structure BudgetAlert where
  category : AlertCategory
  projectId : String
  utilizationPercent : ℚ
  currentSpendUsd : ℚ
  budgetCeilingUsd : ℚ

structure PauseCall where
  projectId : String
  spendAtTrigger : ℚ
  ceilingUsd : ℚ
  time : Int

structure CostState where
  costEvents : List CostEvent
  projectStates : Record String ProjectCostState
  budgetPolicies : Record String BudgetPolicy
  configured : Record String BudgetPolicy
  /-- The clock, as it was last read. -/
  now : Int
  alerts : List BudgetAlert
  pauses : List PauseCall

def CostState.start : CostState := ⟨[], .empty, .empty, .empty, 0, [], []⟩

/-- What happens to the service. An event is stamped, its project is looked up and its period is checked, each at a
reading of the clock. -/
inductive CostCall where
  | inference (payload : InferenceCallCompletePayload) (stamped created checked : Int)
  | setBudgetPolicy (projectId : String) (policy : BudgetPolicy) (now : Int)
  | removeBudgetPolicy (projectId : String)
  | configure (projectId : String) (policy : Option BudgetPolicy)
  | advance (now : Int)

/-! ## Periods -/

/-- Date arithmetic is in UTC; weeks begin on Monday. -/
def computePeriodBounds (now : Int) : PeriodType → Int × Int
  | .monthly =>
    let year := (civilOfDays (now / msPerDay)).year
    let month : Int := utcMonth now - 1
    (dateUTC year month 1, dateUTC year (month + 1) 1)
  | .weekly =>
    let dayOfWeek : Int := utcDay now
    let diffToMonday := if dayOfWeek = 0 then -6 else 1 - dayOfWeek
    let start := dateUTC (civilOfDays (now / msPerDay)).year (utcMonth now - 1) (utcDate now + diffToMonday)
    (start, start + 7 * 24 * 60 * 60 * 1000)

def periodStart : PeriodType → Int → Int
  | .monthly => fun i => firstOfMonth i * msPerDay
  | .weekly => fun i => firstOfWeek i * msPerDay

def periodIndex : PeriodType → Int → Int
  | .monthly => fun t => monthIndex (t / msPerDay)
  | .weekly => fun t => weekIndex (t / msPerDay)

theorem gc_periods : ∀ type : PeriodType, GaloisConnection (periodStart type) (periodIndex type)
  | .monthly => gc_months
  | .weekly => gc_weeks

/-- **The bounds of a period** are its start and that of the next one. -/
theorem computePeriodBounds_eq (now : Int) (type : PeriodType) : computePeriodBounds now type =
    (periodStart type (periodIndex type now), periodStart type (periodIndex type now + 1)) := by
  cases type with
  | monthly =>
    have hindex : 12 * (civilOfDays (now / msPerDay)).year + ((utcMonth now : Int) - 1) =
        monthIndex (now / msPerDay) := rfl
    unfold computePeriodBounds
    dsimp only
    unfold dateUTC
    rw [show 12 * (civilOfDays (now / msPerDay)).year + ((utcMonth now : Int) - 1 + 1) =
      monthIndex (now / msPerDay) + 1 by omega, hindex]
    simp only [periodStart, periodIndex, Int.add_sub_cancel]
  | weekly =>
    have hday := (civilOfDays_spec (now / msPerDay)).1
    have hindex : 12 * (civilOfDays (now / msPerDay)).year + ((utcMonth now : Int) - 1) =
        monthIndex (now / msPerDay) := rfl
    have hstart : dateUTC (civilOfDays (now / msPerDay)).year (utcMonth now - 1)
        (utcDate now + if (utcDay now : Int) = 0 then -6 else 1 - (utcDay now : Int)) =
          firstOfWeek (weekIndex (now / msPerDay)) * msPerDay := by
      have hmonday : (if (utcDay now : Int) = 0 then -6 else 1 - (utcDay now : Int)) =
          firstOfWeek (weekIndex (now / msPerDay)) - now / msPerDay := by
        unfold utcDay firstOfWeek weekIndex
        split_ifs <;> omega
      unfold dateUTC
      rw [hindex, hmonday]
      unfold utcDate
      congr 1
      omega
    unfold computePeriodBounds
    dsimp only
    rw [hstart]
    simp only [periodStart, periodIndex, Prod.mk.injEq, true_and]
    unfold firstOfWeek msPerDay
    omega


/-! ## Pricing -/

def tierKey (providerId modelId : String) : String := providerId ++ ":" ++ modelId

def lookupPricingTier (table : PricingTable) (providerId modelId : String) : Option PricingTier :=
  table.get? (tierKey providerId modelId)

def computeCost (inputTokens outputTokens : ℚ) (tier : PricingTier) : ℚ × ℚ :=
  (inputTokens / 1000000 * tier.inputCostPerMillionTokens, outputTokens / 1000000 * tier.outputCostPerMillionTokens)

/-- A tier that is not listed costs nothing. -/
def costEvent (table : PricingTable) (payload : InferenceCallCompletePayload) (timestamp : Int) : CostEvent :=
  let inputTokens := payload.inputTokens.getD 0
  let outputTokens := payload.outputTokens.getD 0
  let tier := lookupPricingTier table payload.providerId payload.modelId
  let cost := (tier.map (computeCost inputTokens outputTokens)).getD (0, 0)
  { timestamp := timestamp
    projectId := payload.projectId.getD "_system"
    providerId := payload.providerId
    modelId := payload.modelId
    agentClass := payload.agentClass.getD "Unknown"
    correlationRunId := payload.correlationRunId.getD payload.traceId
    correlationParentId := payload.correlationParentId
    inputTokens := inputTokens
    outputTokens := outputTokens
    inputCostUsd := cost.1
    outputCostUsd := cost.2
    totalCostUsd := cost.1 + cost.2
    pricingMiss := tier.isNone }

/-! ## Correlation roots -/

def truthy (text : Option String) : Option String := text.filter (· ≠ "")

def cacheRoot (cache : Record String String) (visited : List String) (root : String) : Record String String :=
  visited.foldl (fun cache id => cache.set id root) cache

theorem unvisited_lt {allEvents : List CostEvent} {visited : List String} {current : String} {parent : CostEvent}
    (hvisited : current ∉ visited) (h : allEvents.find? (fun e => e.correlationRunId = current) = some parent) :
    (allEvents.filter fun e => e.correlationRunId ∉ visited ++ [current]).length <
      (allEvents.filter fun e => e.correlationRunId ∉ visited).length := by
  have hmem := List.mem_of_find?_eq_some h
  have hcurrent : parent.correlationRunId = current := by
    simpa using List.find?_some h
  have hsub : (allEvents.filter fun e => e.correlationRunId ∉ visited ++ [current]) =
      (allEvents.filter fun e => e.correlationRunId ∉ visited).filter fun e => e.correlationRunId ≠ current := by
    rw [List.filter_filter]
    refine List.filter_congr fun e _ => ?_
    simp [and_comm]
  rw [hsub]
  refine List.length_filter_lt_length_iff_exists.mpr ⟨parent, List.mem_filter.mpr ⟨hmem, ?_⟩, ?_⟩
  · simpa [hcurrent] using hvisited
  · simp [hcurrent]

/-- Up the chain of the parents, to a run whose root is known, that has no parent, or that was met before. -/
def climb (correlationRunId : String) (cache : Record String String) (allEvents : List CostEvent) (current : String)
    (visited : List String) : String × Record String String :=
  if _hvisited : current ∈ visited then (correlationRunId, cache.set correlationRunId correlationRunId)
  else
    match truthy (cache.get? current) with
    | some cachedRoot => (cachedRoot, cacheRoot cache (visited ++ [current]) cachedRoot)
    | none =>
      match _h : allEvents.find? (fun e => e.correlationRunId = current) with
      | none => (current, cacheRoot cache (visited ++ [current]) current)
      | some parentEvent =>
        match truthy parentEvent.correlationParentId with
        | none => (current, cacheRoot cache (visited ++ [current]) current)
        | some next => climb correlationRunId cache allEvents next (visited ++ [current])
termination_by (allEvents.filter fun e => e.correlationRunId ∉ visited).length
decreasing_by exact unvisited_lt _hvisited _h

def resolveCorrelationRoot (correlationRunId : String) (correlationParentId : Option String)
    (cache : Record String String) (allEvents : List CostEvent) : String × Record String String :=
  match truthy (cache.get? correlationRunId) with
  | some cached => (cached, cache)
  | none =>
    match truthy correlationParentId with
    | none => (correlationRunId, cache.set correlationRunId correlationRunId)
    | some parent => climb correlationRunId cache allEvents parent [correlationRunId]

/-! ## Project states -/

def AggregationEntry.begin (event : CostEvent) : AggregationEntry :=
  ⟨event.totalCostUsd, event.inputCostUsd, event.outputCostUsd, 1⟩

def AggregationEntry.add (event : CostEvent) (entry : AggregationEntry) : AggregationEntry where
  totalCostUsd := entry.totalCostUsd + event.totalCostUsd
  inputCostUsd := entry.inputCostUsd + event.inputCostUsd
  outputCostUsd := entry.outputCostUsd + event.outputCostUsd
  eventCount := entry.eventCount + 1

def addToAggregation (map : Record String AggregationEntry) (key : String) (event : CostEvent) :
    Record String AggregationEntry :=
  Record.addTo (.begin event) (.add event) map key

def createEmptyProjectState (periodType : PeriodType) (now : Int) : ProjectCostState where
  periodStart := (computePeriodBounds now periodType).1
  periodEnd := (computePeriodBounds now periodType).2
  periodType := periodType
  totalSpend := 0
  byProviderModel := .empty
  byAgentClass := .empty
  byCorrelationRoot := .empty
  softAlertFiredThisPeriod := false
  hardCeilingFiredThisPeriod := false
  correlationRootCache := .empty
  currentHardCeilingUsd := none

def resetProjectState (state : ProjectCostState) (now : Int) : ProjectCostState :=
  { state with
    periodStart := (computePeriodBounds now state.periodType).1
    periodEnd := (computePeriodBounds now state.periodType).2
    totalSpend := 0
    byProviderModel := .empty
    byAgentClass := .empty
    byCorrelationRoot := .empty
    softAlertFiredThisPeriod := false
    hardCeilingFiredThisPeriod := false
    correlationRootCache := .empty }

/-- The end of a period is the start of the next one. -/
def checkPeriodBoundary (state : ProjectCostState) (now : Int) : ProjectCostState :=
  if now ≥ state.periodEnd then resetProjectState state now else state

def accumulate (state : ProjectCostState) (event : CostEvent) (costEvents : List CostEvent) : ProjectCostState :=
  let root := resolveCorrelationRoot event.correlationRunId event.correlationParentId state.correlationRootCache
    costEvents
  { state with
    totalSpend := state.totalSpend + event.totalCostUsd
    byProviderModel := addToAggregation state.byProviderModel (tierKey event.providerId event.modelId) event
    byAgentClass := addToAggregation state.byAgentClass event.agentClass event
    byCorrelationRoot := addToAggregation state.byCorrelationRoot root.1 event
    correlationRootCache := root.2 }

namespace CostState

/-- The policy that was set, or else that of the configuration. -/
def effectivePolicy (s : CostState) (projectId : String) : Option BudgetPolicy :=
  (s.budgetPolicies.get? projectId).or (s.configured.get? projectId)

def createProjectState (s : CostState) (projectId : String) (now : Int) : ProjectCostState :=
  let policy := s.effectivePolicy projectId
  { createEmptyProjectState ((policy.map (·.period)).getD .monthly) now with
    currentHardCeilingUsd := policy.map (·.hardCeilingUsd) }

def getOrCreateProjectState (s : CostState) (projectId : String) (now : Int) : ProjectCostState :=
  (s.projectStates.get? projectId).getD (s.createProjectState projectId now)

/-! ## Budgets -/

/-- The hard ceiling: an alert and a pause, once. -/
def enforceCeiling (s : CostState) (projectId : String) (state : ProjectCostState) (policy : BudgetPolicy) (now : Int) :
    CostState × ProjectCostState :=
  if state.totalSpend ≥ policy.hardCeilingUsd ∧ state.hardCeilingFiredThisPeriod = false then
    ({ s with
      alerts := s.alerts ++ [⟨.budgetExceeded, projectId, state.totalSpend / policy.hardCeilingUsd * 100,
        state.totalSpend, policy.hardCeilingUsd⟩]
      pauses := s.pauses ++ [⟨projectId, state.totalSpend, policy.hardCeilingUsd, now⟩] },
      { state with hardCeilingFiredThisPeriod := true })
  else (s, state)

/-- The soft threshold: an alert, once. -/
def warnOfThreshold (s : CostState) (projectId : String) (state : ProjectCostState) (policy : BudgetPolicy) :
    CostState × ProjectCostState :=
  if state.totalSpend / policy.hardCeilingUsd * 100 ≥ policy.softThresholdPercent ∧
      state.softAlertFiredThisPeriod = false then
    ({ s with
      alerts := s.alerts ++ [⟨.budgetWarning, projectId, state.totalSpend / policy.hardCeilingUsd * 100,
        state.totalSpend, policy.hardCeilingUsd⟩] },
      { state with softAlertFiredThisPeriod := true })
  else (s, state)

def evaluateBudget (s : CostState) (projectId : String) (state : ProjectCostState) (now : Int) :
    CostState × ProjectCostState :=
  match s.effectivePolicy projectId with
  | none => (s, state)
  | some policy =>
    if policy.enabled = false ∨ policy.hardCeilingUsd ≤ 0 then (s, state)
    else
      let (s, state) := s.enforceCeiling projectId state policy now
      s.warnOfThreshold projectId state policy

/-! ## Events -/

def countEvent (s : CostState) (event : CostEvent) (created checked : Int) : ProjectCostState :=
  accumulate (checkPeriodBoundary (s.getOrCreateProjectState event.projectId created) checked) event
    (s.costEvents ++ [event])

def handleInferenceEvent (s : CostState) (table : PricingTable) (payload : InferenceCallCompletePayload)
    (stamped created checked : Int) : CostState :=
  let event := costEvent table payload stamped
  let state := s.countEvent event created checked
  let s := { s with costEvents := s.costEvents ++ [event], now := checked }
  let (s, state) := s.evaluateBudget event.projectId state checked
  { s with projectStates := s.projectStates.set event.projectId state }

/-! ## Policies -/

/-- The ceiling that a new policy's is compared with. -/
def previousCeiling (s : CostState) (projectId : String) (state : ProjectCostState) : Option ℚ :=
  ((s.budgetPolicies.get? projectId).map (·.hardCeilingUsd)).or state.currentHardCeilingUsd

/-- A new policy takes the pause back, if the ceiling differs from the one it is compared with. -/
def resets (s : CostState) (projectId : String) (state : ProjectCostState) (policy : BudgetPolicy) : Bool :=
  (s.previousCeiling projectId state).any (· ≠ policy.hardCeilingUsd)

def applyPolicy (s : CostState) (projectId : String) (state : ProjectCostState) (policy : BudgetPolicy) (now : Int) :
    ProjectCostState :=
  let bounds := if state.periodType ≠ policy.period then computePeriodBounds now policy.period
    else (state.periodStart, state.periodEnd)
  { state with
    periodType := policy.period
    periodStart := bounds.1
    periodEnd := bounds.2
    hardCeilingFiredThisPeriod := state.hardCeilingFiredThisPeriod && !s.resets projectId state policy
    currentHardCeilingUsd := some policy.hardCeilingUsd }

def setBudgetPolicy (s : CostState) (projectId : String) (policy : BudgetPolicy) (now : Int) : CostState :=
  { s with
    budgetPolicies := s.budgetPolicies.set projectId policy
    projectStates := s.projectStates.modify projectId fun state => s.applyPolicy projectId state policy now
    now := now }

def removeBudgetPolicy (s : CostState) (projectId : String) : CostState :=
  { s with budgetPolicies := s.budgetPolicies.erase projectId }

def configure (s : CostState) (projectId : String) : Option BudgetPolicy → CostState
  | some policy => { s with configured := s.configured.set projectId policy }
  | none => { s with configured := s.configured.erase projectId }

/-! ## Queries -/

def periodEvents (s : CostState) (projectId : String) (state : ProjectCostState) : List CostEvent :=
  s.costEvents.filter fun e =>
    e.projectId = projectId ∧ e.timestamp ≥ state.periodStart ∧ e.timestamp < state.periodEnd

structure CostTimeSeriesBucket where
  bucketStart : ℚ
  totalCostUsd : ℚ
  eventCount : Nat

def bucketStartMs (periodStart : Int) (bucketMs : ℚ) (event : CostEvent) : ℚ :=
  periodStart + ⌊((event.timestamp : ℚ) - periodStart) / bucketMs⌋ * bucketMs

def bucketsOf (periodStart : Int) (bucketMs : ℚ) (events : List CostEvent) : Record ℚ (ℚ × Nat) :=
  events.foldl (fun buckets event => Record.addTo (event.totalCostUsd, 1)
    (fun bucket => (bucket.1 + event.totalCostUsd, bucket.2 + 1)) buckets (bucketStartMs periodStart bucketMs event)) .empty

def getCostTimeSeries (s : CostState) (projectId : String) (bucketMinutes : ℚ) : List CostTimeSeriesBucket :=
  match s.projectStates.get? projectId with
  | none => []
  | some state =>
    ((bucketsOf state.periodStart (bucketMinutes * 60 * 1000) (s.periodEvents projectId state)).entries.mergeSort
      fun a b => a.1 ≤ b.1).map fun bucket => ⟨bucket.1, bucket.2.1, bucket.2.2⟩

/-! ## What happens -/

def act (table : PricingTable) (s : CostState) : CostCall → Except String CostState
  | .inference payload stamped created checked =>
    if s.now ≤ stamped ∧ stamped ≤ created ∧ created ≤ checked then
      .ok (s.handleInferenceEvent table payload stamped created checked)
    else .error "clock"
  | .setBudgetPolicy projectId policy now =>
    if s.now ≤ now then .ok (s.setBudgetPolicy projectId policy now) else .error "clock"
  | .removeBudgetPolicy projectId => .ok (s.removeBudgetPolicy projectId)
  | .configure projectId policy => .ok (s.configure projectId policy)
  | .advance now => if s.now ≤ now then .ok { s with now := now } else .error "clock"

end CostState

end NousCore.Cost
