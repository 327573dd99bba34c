import Mathlib.Algebra.Order.Ring.Rat
import Mathlib.Tactic.Linarith
import NousCore.Cost.Service

/-!
# The totals of a project agree

* `KeepsPeriod` : no period ends while an event is handled, and a policy that changes the type of the period moves no
  recorded event into the period or out of it;
* `Placed`, `Kept` : what every step keeps, and `kept_of_act`.
-/

namespace NousCore.Cost

namespace CostState

variable {s s' : CostState} {table : PricingTable} {projectId : String} {state : ProjectCostState} {now : Int}

def costOf (events : List CostEvent) : ℚ := (events.map (·.totalCostUsd)).sum

def inPeriod (state : ProjectCostState) (event : CostEvent) : Bool :=
  event.timestamp ≥ state.periodStart ∧ event.timestamp < state.periodEnd

def ofProject (projectId : String) (events : List CostEvent) : List CostEvent :=
  events.filter fun e => e.projectId = projectId

theorem periodEvents_eq (s : CostState) (projectId : String) (state : ProjectCostState) :
    s.periodEvents projectId state = (ofProject projectId s.costEvents).filter (inPeriod state) := by
  unfold periodEvents ofProject inPeriod
  rw [List.filter_filter]
  refine List.filter_congr fun e _ => ?_
  simp only [ge_iff_le, Bool.decide_and, Bool.and_comm]

/-! ## Time series -/

theorem total_bucketsOf (periodStart : Int) (bucketMs : ℚ) (events : List CostEvent) :
    (bucketsOf periodStart bucketMs events).total (·.1) = costOf events := by
  exact (Record.total_foldl_addTo (fun _ => rfl) (fun _ _ => rfl) events .empty).trans (zero_add _)

theorem sum_getCostTimeSeries (hstate : s.projectStates.get? projectId = some state) (bucketMinutes : ℚ) :
    ((s.getCostTimeSeries projectId bucketMinutes).map (·.totalCostUsd)).sum = costOf (s.periodEvents projectId state) := by
  rw [← total_bucketsOf state.periodStart (bucketMinutes * 60 * 1000)]
  unfold getCostTimeSeries
  rw [hstate]
  simp only [List.map_map]
  unfold Record.total Record.values
  rw [List.map_map]
  exact ((List.mergeSort_perm _ _).map _).sum_eq

/-! ## What is kept -/

/-- The period of a project is one of the calendar, and has begun. -/
structure Dated (now : Int) (state : ProjectCostState) : Prop where
  period : ∃ i, state.periodStart = periodStart state.periodType i ∧ state.periodEnd = periodStart state.periodType (i + 1)
  begun : state.periodStart ≤ now

/-- The running totals of a project are those of its events in its period; none of them is later than the period. -/
structure Placed (events : List CostEvent) (now : Int) (state : ProjectCostState) : Prop where
  dated : Dated now state
  before : ∀ e ∈ events, e.timestamp < state.periodEnd
  byProviderModel : state.byProviderModel.total (·.totalCostUsd) = state.totalSpend
  byAgentClass : state.byAgentClass.total (·.totalCostUsd) = state.totalSpend
  byCorrelationRoot : state.byCorrelationRoot.total (·.totalCostUsd) = state.totalSpend
  spent : costOf (events.filter (inPeriod state)) = state.totalSpend

structure Kept (s : CostState) : Prop where
  recorded : ∀ e ∈ s.costEvents, e.timestamp ≤ s.now ∧ (s.projectStates.get? e.projectId).isSome
  placed : ∀ projectId state, s.projectStates.get? projectId = some state →
    Placed (ofProject projectId s.costEvents) s.now state

variable {events : List CostEvent} {event : CostEvent} {t : Int}

theorem period_computePeriodBounds (now : Int) (type : PeriodType) :
    ∃ i, (computePeriodBounds now type).1 = periodStart type i ∧ (computePeriodBounds now type).2 = periodStart type (i + 1) := by
  refine ⟨periodIndex type now, ?_⟩
  rw [computePeriodBounds_eq]
  exact ⟨rfl, rfl⟩

theorem computePeriodBounds_le (now : Int) (type : PeriodType) :
    (computePeriodBounds now type).1 ≤ now ∧ now < (computePeriodBounds now type).2 := by
  rw [computePeriodBounds_eq]
  exact ⟨start_index_le (gc_periods type), lt_start_index (gc_periods type)⟩

theorem costOf_filter_eq_zero (h : ∀ e ∈ events, e.timestamp < state.periodStart) :
    costOf (events.filter (inPeriod state)) = 0 := by
  have hnil : events.filter (inPeriod state) = [] := by
    refine List.filter_eq_nil_iff.mpr fun e he hin => ?_
    have hstart := h e he
    simp only [inPeriod, decide_eq_true_eq] at hin
    omega
  rw [hnil]
  rfl

theorem Dated.later (h : Dated now state) (hlater : now ≤ t) : Dated t state := ⟨h.period, h.begun.trans hlater⟩

theorem Placed.later (h : Placed events now state) (hlater : now ≤ t) : Placed events t state :=
  { h with dated := h.dated.later hlater }

theorem dated_createProjectState (s : CostState) (projectId : String) (now : Int) :
    Dated now (s.createProjectState projectId now) :=
  ⟨period_computePeriodBounds now _, (computePeriodBounds_le now _).1⟩

theorem placed_createProjectState (s : CostState) (projectId : String) (now : Int) :
    Placed [] now (s.createProjectState projectId now) where
  dated := dated_createProjectState s projectId now
  before := fun _ he => absurd he List.not_mem_nil
  byProviderModel := rfl
  byAgentClass := rfl
  byCorrelationRoot := rfl
  spent := rfl

def Holds (state : ProjectCostState) (t : Int) : Prop :=
  ∀ u, periodIndex state.periodType u = periodIndex state.periodType t → state.periodStart ≤ u ∧ u < state.periodEnd

theorem holds_of_bounds {i : Int} (hstart : state.periodStart = periodStart state.periodType i)
    (hend : state.periodEnd = periodStart state.periodType (i + 1)) (h : state.periodStart ≤ t ∧ t < state.periodEnd) :
    Holds state t := by
  intro u hu
  rw [hstart, hend] at h ⊢
  refine (index_eq_iff (gc_periods state.periodType)).mp ?_
  rw [hu]
  exact (index_eq_iff (gc_periods state.periodType)).mpr h

theorem Dated.checkPeriodBoundary (h : Dated now state) (hlater : now ≤ t) :
    Dated t (checkPeriodBoundary state t) ∧ Holds (Cost.checkPeriodBoundary state t) t := by
  obtain ⟨i, hstart, hend⟩ := h.period
  unfold Cost.checkPeriodBoundary
  split_ifs with hcross
  · obtain ⟨j, hj, hj'⟩ := period_computePeriodBounds t state.periodType
    have hnow := computePeriodBounds_le t state.periodType
    exact ⟨⟨⟨j, hj, hj'⟩, hnow.1⟩, holds_of_bounds hj hj' hnow⟩
  · exact ⟨h.later hlater, holds_of_bounds hstart hend ⟨h.begun.trans hlater, not_le.mp hcross⟩⟩

theorem Dated.end_le_reset (h : Dated now state) (hcross : state.periodEnd ≤ t) :
    state.periodEnd ≤ (resetProjectState state t).periodStart := by
  obtain ⟨i, -, hend⟩ := h.period
  show state.periodEnd ≤ (computePeriodBounds t state.periodType).1
  rw [computePeriodBounds_eq, hend]
  exact start_le_start_index (gc_periods _) (hend ▸ hcross)

theorem Placed.checkPeriodBoundary (h : Placed events now state) (hlater : now ≤ t) :
    Placed events t (checkPeriodBoundary state t) := by
  have hdated := (h.dated.checkPeriodBoundary hlater).1
  unfold Cost.checkPeriodBoundary at hdated ⊢
  split_ifs at hdated ⊢ with hcross
  · have hafter := h.dated.end_le_reset hcross
    have hbefore : ∀ e ∈ events, e.timestamp < (resetProjectState state t).periodStart := fun e he =>
      lt_of_lt_of_le (h.before e he) hafter
    refine ⟨hdated, fun e he => ?_, rfl, rfl, rfl, costOf_filter_eq_zero hbefore⟩
    have hnow := computePeriodBounds_le t state.periodType
    exact (hbefore e he).trans (lt_of_le_of_lt hnow.1 hnow.2)
  · exact h.later hlater

theorem total_addToAggregation (map : Record String AggregationEntry) (key : String) (event : CostEvent) :
    (addToAggregation map key event).total (·.totalCostUsd) = map.total (·.totalCostUsd) + event.totalCostUsd :=
  Record.total_addTo rfl (fun _ => rfl) map key

theorem Placed.accumulate (h : Placed events now state) (hin : state.periodStart ≤ event.timestamp)
    (hin' : event.timestamp < state.periodEnd) (costEvents : List CostEvent) :
    Placed (events ++ [event]) now (accumulate state event costEvents) where
  dated := ⟨h.dated.period, h.dated.begun⟩
  before := by
    intro e he
    rcases List.mem_append.mp he with he | he
    · exact h.before e he
    · rw [List.mem_singleton.mp he]
      exact hin'
  byProviderModel := by
    show (addToAggregation _ _ _).total _ = state.totalSpend + event.totalCostUsd
    rw [total_addToAggregation, h.byProviderModel]
  byAgentClass := by
    show (addToAggregation _ _ _).total _ = state.totalSpend + event.totalCostUsd
    rw [total_addToAggregation, h.byAgentClass]
  byCorrelationRoot := by
    show (addToAggregation _ _ _).total _ = state.totalSpend + event.totalCostUsd
    rw [total_addToAggregation, h.byCorrelationRoot]
  spent := by
    have hevent : inPeriod state event = true := decide_eq_true ⟨hin, hin'⟩
    show costOf ((events ++ [event]).filter (inPeriod state)) = state.totalSpend + event.totalCostUsd
    rw [List.filter_append, List.filter_singleton, hevent]
    unfold costOf
    rw [List.map_append, List.sum_append]
    have hspent := h.spent
    unfold costOf at hspent
    rw [hspent]
    simp

theorem warnOfThreshold_spec (s : CostState) (projectId : String) (state : ProjectCostState) (policy : BudgetPolicy) :
    ∃ alerts soft, s.warnOfThreshold projectId state policy =
      ({ s with alerts := alerts }, { state with softAlertFiredThisPeriod := soft }) := by
  unfold warnOfThreshold
  split_ifs
  · exact ⟨_, _, rfl⟩
  · exact ⟨s.alerts, state.softAlertFiredThisPeriod, rfl⟩

def Ceiling (s : CostState) (projectId : String) (ceiling : ℚ) : Prop :=
  ∃ policy, s.effectivePolicy projectId = some policy ∧ policy.enabled = true ∧ policy.hardCeilingUsd = ceiling ∧ 0 < ceiling

/-- **The budget** raises alerts, and a pause if a ceiling that is in force is reached and none has been raised. -/
theorem evaluateBudget_spec (s : CostState) (projectId : String) (state : ProjectCostState) (now : Int) :
    ∃ alerts pauses soft hard, s.evaluateBudget projectId state now = ({ s with alerts := alerts, pauses := pauses },
        { state with softAlertFiredThisPeriod := soft, hardCeilingFiredThisPeriod := hard }) ∧
      ((pauses = s.pauses ∧ hard = state.hardCeilingFiredThisPeriod ∧
          ∀ ceiling, s.Ceiling projectId ceiling → ceiling ≤ state.totalSpend → hard = true) ∨
        ∃ ceiling, s.Ceiling projectId ceiling ∧ state.hardCeilingFiredThisPeriod = false ∧ hard = true ∧
          pauses = s.pauses ++ [⟨projectId, state.totalSpend, ceiling, now⟩]) := by
  unfold evaluateBudget
  cases hpolicy : s.effectivePolicy projectId with
  | none =>
    refine ⟨s.alerts, s.pauses, state.softAlertFiredThisPeriod, _, rfl, .inl ⟨rfl, rfl, ?_⟩⟩
    rintro ceiling ⟨policy, hsome, -⟩
    exact absurd (hpolicy.symm.trans hsome) (by simp)
  | some policy =>
    dsimp only
    split_ifs with hoff
    · refine ⟨s.alerts, s.pauses, state.softAlertFiredThisPeriod, _, rfl, .inl ⟨rfl, rfl, ?_⟩⟩
      rintro ceiling ⟨policy', hsome, henabled, rfl, hpos⟩
      cases hpolicy.symm.trans hsome
      rcases hoff with hoff | hoff
      · exact absurd (henabled.symm.trans hoff) (by simp)
      · exact absurd hoff (not_le.mpr hpos)
    · obtain ⟨henabled, hpos⟩ := not_or.mp hoff
      have hceiling : s.Ceiling projectId policy.hardCeilingUsd :=
        ⟨policy, hpolicy, by simpa using henabled, rfl, not_le.mp hpos⟩
      unfold enforceCeiling
      split_ifs with hreached
      · obtain ⟨alerts, soft, hwarn⟩ := warnOfThreshold_spec _ projectId _ policy
        exact ⟨alerts, _, soft, true, hwarn, .inr ⟨policy.hardCeilingUsd, hceiling, hreached.2, rfl, rfl⟩⟩
      · obtain ⟨alerts, soft, hwarn⟩ := warnOfThreshold_spec s projectId state policy
        refine ⟨alerts, s.pauses, soft, _, hwarn, .inl ⟨rfl, rfl, ?_⟩⟩
        rintro ceiling ⟨policy', hsome, -, rfl, -⟩ hle
        cases hpolicy.symm.trans hsome
        by_contra hfired
        exact hreached ⟨hle, by simpa using hfired⟩

theorem Placed.flags (h : Placed events now state) (soft hard : Bool) :
    Placed events now { state with softAlertFiredThisPeriod := soft, hardCeilingFiredThisPeriod := hard } :=
  ⟨⟨h.dated.period, h.dated.begun⟩, h.before, h.byProviderModel, h.byAgentClass, h.byCorrelationRoot, h.spent⟩

/-! ## Steps -/

theorem bounds_applyPolicy (s : CostState) (projectId : String) (state : ProjectCostState) (policy : BudgetPolicy)
    (now : Int) :
    (state.periodType = policy.period ∧ (s.applyPolicy projectId state policy now).periodStart = state.periodStart ∧
        (s.applyPolicy projectId state policy now).periodEnd = state.periodEnd) ∨
      (state.periodType ≠ policy.period ∧
        (s.applyPolicy projectId state policy now).periodStart = (computePeriodBounds now policy.period).1 ∧
        (s.applyPolicy projectId state policy now).periodEnd = (computePeriodBounds now policy.period).2) := by
  unfold applyPolicy
  by_cases htype : state.periodType = policy.period
  · rw [if_neg (not_not.mpr htype)]
    exact .inl ⟨htype, rfl, rfl⟩
  · rw [if_pos htype]
    exact .inr ⟨htype, rfl, rfl⟩

theorem Dated.applyPolicy (h : Dated now state) (s : CostState) (projectId : String) (policy : BudgetPolicy)
    (hlater : now ≤ t) : Dated t (s.applyPolicy projectId state policy t) := by
  have htype : (s.applyPolicy projectId state policy t).periodType = policy.period := rfl
  rcases bounds_applyPolicy s projectId state policy t with ⟨hsame, hstart, hend⟩ | ⟨-, hstart, hend⟩
  · refine ⟨?_, by rw [hstart]; exact h.begun.trans hlater⟩
    rw [hstart, hend, htype, ← hsame]
    exact h.period
  · refine ⟨?_, by rw [hstart]; exact (computePeriodBounds_le t policy.period).1⟩
    rw [hstart, hend, htype]
    exact period_computePeriodBounds t policy.period

/-- What is before the end of a period, and not later than now, is before the end of the period of a new type. -/
theorem lt_applyPolicy_end {u : Int} {policy : BudgetPolicy} (h : u < state.periodEnd) (hnow : u ≤ now) :
    u < (s.applyPolicy projectId state policy now).periodEnd := by
  rcases bounds_applyPolicy s projectId state policy now with ⟨-, -, hend⟩ | ⟨-, -, hend⟩
  · rwa [hend]
  · rw [hend]
    exact lt_of_le_of_lt hnow (computePeriodBounds_le now policy.period).2

/-- The period does not end while the event is handled. -/
def StampedInPeriod (s : CostState) (projectId : String) (stamped created checked : Int) : Prop :=
  let type := (s.getOrCreateProjectState projectId created).periodType
  periodIndex type stamped = periodIndex type checked

/-- No recorded event comes into the period, or leaves it, with its new type. -/
def MovesNoEvent (s : CostState) (projectId : String) (policy : BudgetPolicy) (now : Int) : Prop :=
  ∀ state ∈ s.projectStates.get? projectId, ∀ e ∈ ofProject projectId s.costEvents,
    inPeriod (s.applyPolicy projectId state policy now) e = inPeriod state e

def KeepsPeriod (s : CostState) : CostCall → Prop
  | .inference payload stamped created checked =>
    s.StampedInPeriod (payload.projectId.getD "_system") stamped created checked
  | .setBudgetPolicy projectId policy now => s.MovesNoEvent projectId policy now
  | .removeBudgetPolicy _ | .configure _ _ | .advance _ => True

theorem placed_getOrCreate (hkept : Kept s) (hnow : s.now ≤ now) (projectId : String) :
    Placed (ofProject projectId s.costEvents) now (s.getOrCreateProjectState projectId now) := by
  unfold getOrCreateProjectState
  cases hstate : s.projectStates.get? projectId with
  | some state => exact (hkept.placed projectId state hstate).later hnow
  | none =>
    have hnil : ofProject projectId s.costEvents = [] := by
      refine List.filter_eq_nil_iff.mpr fun e he hproject => ?_
      have hsome := (hkept.recorded e he).2
      rw [of_decide_eq_true hproject, hstate] at hsome
      exact absurd hsome (by simp)
    rw [hnil]
    exact placed_createProjectState s projectId now

theorem periodType_checkPeriodBoundary (state : ProjectCostState) (t : Int) :
    (Cost.checkPeriodBoundary state t).periodType = state.periodType := by
  unfold Cost.checkPeriodBoundary
  split_ifs <;> rfl

/-- **An event** is recorded, its costs are added to its project's, and the budget is evaluated. -/
theorem handleInferenceEvent_spec (s : CostState) (table : PricingTable) (payload : InferenceCallCompletePayload)
    (stamped created checked : Int) {event : CostEvent} (hevent : costEvent table payload stamped = event)
    {counted : ProjectCostState} (hcounted : s.countEvent event created checked = counted) :
    ∃ alerts pauses soft hard, s.handleInferenceEvent table payload stamped created checked =
      { s with
        costEvents := s.costEvents ++ [event]
        now := checked
        alerts := alerts
        pauses := pauses
        projectStates := s.projectStates.set event.projectId
          { counted with softAlertFiredThisPeriod := soft, hardCeilingFiredThisPeriod := hard } } ∧
      ((pauses = s.pauses ∧ hard = counted.hardCeilingFiredThisPeriod ∧
          ∀ ceiling, s.Ceiling event.projectId ceiling → ceiling ≤ counted.totalSpend → hard = true) ∨
        ∃ ceiling, s.Ceiling event.projectId ceiling ∧ counted.hardCeilingFiredThisPeriod = false ∧ hard = true ∧
          pauses = s.pauses ++ [⟨event.projectId, counted.totalSpend, ceiling, checked⟩]) := by
  obtain ⟨alerts, pauses, soft, hard, hbudget, hpaused⟩ := evaluateBudget_spec
    { s with costEvents := s.costEvents ++ [event], now := checked } event.projectId counted checked
  refine ⟨alerts, pauses, soft, hard, ?_, hpaused⟩
  subst hcounted hevent
  exact congrArg (fun r : CostState × ProjectCostState =>
    { r.1 with projectStates := r.1.projectStates.set (costEvent table payload stamped).projectId r.2 }) hbudget

theorem kept_handleInferenceEvent {payload : InferenceCallCompletePayload} {stamped created checked : Int}
    (hkept : Kept s) (hstamped : s.now ≤ stamped) (hcreated : stamped ≤ created) (hchecked : created ≤ checked)
    (hperiod : s.StampedInPeriod (payload.projectId.getD "_system") stamped created checked) :
    Kept (s.handleInferenceEvent table payload stamped created checked) := by
  obtain ⟨event, hevent⟩ : ∃ event, costEvent table payload stamped = event := ⟨_, rfl⟩
  have htime : event.timestamp = stamped := by rw [← hevent]; rfl
  have hproject : payload.projectId.getD "_system" = event.projectId := by rw [← hevent]; rfl
  have hstate := placed_getOrCreate hkept (hstamped.trans hcreated) event.projectId
  have hplaced := hstate.checkPeriodBoundary hchecked
  have hin := (hstate.dated.checkPeriodBoundary hchecked).2 stamped (by
    rw [periodType_checkPeriodBoundary, ← hproject]
    exact hperiod)
  rw [← htime] at hin
  have hadded := hplaced.accumulate hin.1 hin.2 (s.costEvents ++ [event])
  obtain ⟨alerts, pauses, soft, hard, hresult, -⟩ := handleInferenceEvent_spec s table payload stamped created checked
    hevent rfl
  rw [hresult]
  constructor
  · intro e he
    show e.timestamp ≤ checked ∧ ((s.projectStates.set event.projectId _).get? e.projectId).isSome
    rw [Record.get?_set]
    rcases List.mem_append.mp he with he | he
    · obtain ⟨hle, hsome⟩ := hkept.recorded e he
      refine ⟨by omega, ?_⟩
      split_ifs
      · rfl
      · exact hsome
    · rw [List.mem_singleton.mp he, if_pos rfl]
      exact ⟨by omega, rfl⟩
  · intro projectId state hstate
    rw [Record.get?_set] at hstate
    show Placed (ofProject projectId (s.costEvents ++ [event])) checked state
    unfold ofProject at hadded ⊢
    rw [List.filter_append, List.filter_singleton]
    split_ifs at hstate with hself
    · cases hstate
      rw [hself, decide_eq_true rfl]
      exact hadded.flags soft hard
    · rw [decide_eq_false (Ne.symm hself), cond_false, List.append_nil]
      exact (hkept.placed projectId state hstate).later (by omega)

theorem kept_setBudgetPolicy {policy : BudgetPolicy} (hkept : Kept s) (hnow : s.now ≤ now)
    (hmoves : s.MovesNoEvent projectId policy now) : Kept (s.setBudgetPolicy projectId policy now) := by
  constructor
  · intro e he
    obtain ⟨hle, hsome⟩ := hkept.recorded e he
    refine ⟨hle.trans hnow, ?_⟩
    show ((s.projectStates.modify projectId _).get? e.projectId).isSome
    rw [Record.get?_modify]
    split_ifs
    · rw [Option.isSome_map]
      exact hsome
    · exact hsome
  · intro project state hstate
    change (s.projectStates.modify projectId _).get? project = some state at hstate
    rw [Record.get?_modify] at hstate
    split_ifs at hstate with hself
    · subst hself
      obtain ⟨old, hold, rfl⟩ := Option.map_eq_some_iff.mp hstate
      have hplaced := hkept.placed project old hold
      have hspent : costOf ((ofProject project s.costEvents).filter (inPeriod (s.applyPolicy project old policy now))) =
          old.totalSpend := by
        rw [← hplaced.spent]
        exact congrArg costOf (List.filter_congr fun e he => hmoves old hold e he)
      have hdated := hplaced.dated.applyPolicy s project policy hnow
      refine ⟨hdated, fun e he => ?_, hplaced.byProviderModel, hplaced.byAgentClass, hplaced.byCorrelationRoot, hspent⟩
      have hold := hplaced.before e he
      have hle := (hkept.recorded e (List.mem_filter.mp he).1).1
      exact lt_applyPolicy_end hold (hle.trans hnow)
    · exact (hkept.placed project state hstate).later hnow

theorem kept_of_act (hkept : Kept s) {call : CostCall} (hguard : s.KeepsPeriod call)
    (h : s.act table call = .ok s') : Kept s' := by
  cases call with
  | inference payload stamped created checked =>
    unfold act at h
    dsimp only at h
    split_ifs at h with hclock
    rw [← Except.ok.inj h]
    exact kept_handleInferenceEvent hkept hclock.1 hclock.2.1 hclock.2.2 hguard
  | setBudgetPolicy projectId policy now =>
    unfold act at h
    dsimp only at h
    split_ifs at h with hclock
    rw [← Except.ok.inj h]
    exact kept_setBudgetPolicy hkept hclock hguard
  | removeBudgetPolicy projectId =>
    rw [← Except.ok.inj h]
    exact ⟨hkept.recorded, hkept.placed⟩
  | configure projectId policy =>
    rw [← Except.ok.inj h]
    cases policy <;> exact ⟨hkept.recorded, hkept.placed⟩
  | advance now =>
    unfold act at h
    dsimp only at h
    split_ifs at h with hclock
    rw [← Except.ok.inj h]
    exact ⟨fun e he => ⟨(hkept.recorded e he).1.trans hclock, (hkept.recorded e he).2⟩,
      fun projectId state hstate => (hkept.placed projectId state hstate).later hclock⟩

theorem kept_start : Kept .start :=
  ⟨fun _ he => absurd he List.not_mem_nil, fun _ _ hstate => absurd hstate (by simp [start])⟩

theorem kept_of_run {calls : List CostCall} (h : Run (Guarded (Succeeds (act table)) KeepsPeriod) .start calls s) : Kept s :=
  h.invariant (fun _ _ _ hkept hstep => kept_of_act hkept hstep.2 hstep.1) kept_start

/-! ## The totals -/

/-- The costs of a project, however they are added up. -/
structure Agrees (s : CostState) (projectId : String) (state : ProjectCostState) : Prop where
  byProviderModel : state.totalSpend = state.byProviderModel.total (·.totalCostUsd)
  byAgentClass : state.totalSpend = state.byAgentClass.total (·.totalCostUsd)
  byCorrelationRoot : state.totalSpend = state.byCorrelationRoot.total (·.totalCostUsd)
  events : state.totalSpend = costOf (s.periodEvents projectId state)
  timeSeries : ∀ bucketMinutes : ℚ, 0 < bucketMinutes →
    state.totalSpend = ((s.getCostTimeSeries projectId bucketMinutes).map (·.totalCostUsd)).sum

theorem Kept.agrees (hkept : Kept s) (hstate : s.projectStates.get? projectId = some state) : s.Agrees projectId state := by
  have hplaced := hkept.placed projectId state hstate
  have hspent : state.totalSpend = costOf (s.periodEvents projectId state) := by
    rw [periodEvents_eq, hplaced.spent]
  exact ⟨hplaced.byProviderModel.symm, hplaced.byAgentClass.symm, hplaced.byCorrelationRoot.symm, hspent,
    fun _ _ => hspent.trans (sum_getCostTimeSeries hstate _).symm⟩

/-- **Totals.** In a run in which no period ends while an event is handled, and no change of the period's type moves a
recorded event, the totals of every project agree. -/
theorem costs_agree {calls : List CostCall} (h : Run (Guarded (Succeeds (act table)) KeepsPeriod) .start calls s)
    (projectId : String) (state : ProjectCostState) (hstate : s.projectStates.get? projectId = some state) :
    s.Agrees projectId state :=
  (kept_of_run h).agrees hstate

/-! ## Runs on fixed inputs -/

instance {stamped created checked : Int} : Decidable (s.StampedInPeriod projectId stamped created checked) :=
  inferInstanceAs (Decidable (_ = _))

instance {policy : BudgetPolicy} : Decidable (s.MovesNoEvent projectId policy now) :=
  inferInstanceAs (Decidable (∀ state ∈ s.projectStates.get? projectId, ∀ e ∈ ofProject projectId s.costEvents,
    inPeriod (s.applyPolicy projectId state policy now) e = inPeriod state e))

instance : ∀ call, Decidable (s.KeepsPeriod call)
  | .inference payload stamped created checked =>
    inferInstanceAs (Decidable (s.StampedInPeriod (payload.projectId.getD "_system") stamped created checked))
  | .setBudgetPolicy projectId policy now => inferInstanceAs (Decidable (s.MovesNoEvent projectId policy now))
  | .removeBudgetPolicy _ => .isTrue trivial
  | .configure _ _ => .isTrue trivial
  | .advance _ => .isTrue trivial

def gpt4o : PricingTable := .ofEntries [("openai:gpt-4o", ⟨5 / 2, 10⟩)]

/-- A call with so many millions of input tokens. -/
def gptCall (projectId : String) (millions : ℚ) : InferenceCallCompletePayload where
  projectId := some projectId
  providerId := "openai"
  modelId := "gpt-4o"
  agentClass := some "Worker"
  inputTokens := some (millions * 1000000)
  outputTokens := none
  traceId := "trace-1"
  correlationRunId := none
  correlationParentId := none

def monthlyCeiling (hardCeilingUsd : ℚ) : BudgetPolicy := ⟨true, .monthly, 80, hardCeilingUsd⟩

/-- The instant `2026-04-15T00:00:00.000Z`. -/
def midApril : Int := 1776211200000

def monthlyCalls : List CostCall :=
  [.inference (gptCall "project-1" 1) midApril midApril midApril,
    .setBudgetPolicy "project-1" (monthlyCeiling 10) (midApril + 5),
    .inference (gptCall "project-1" 1) (midApril + 10) (midApril + 10) (midApril + 11)]

theorem costs_agree_of_monthly : ∃ s state, Run (Guarded (Succeeds (act gpt4o)) KeepsPeriod) .start monthlyCalls s ∧
    s.projectStates.get? "project-1" = some state ∧ state.totalSpend = 5 ∧ s.Agrees "project-1" state := by
  obtain ⟨s, hfold, hspent⟩ := exists_foldlM_of_check (guardStep (act gpt4o) KeepsPeriod) monthlyCalls .start
    (fun s => (s.projectStates.get? "project-1").any (·.totalSpend = 5)) (by decide +kernel)
  obtain ⟨state, hstate, hfive⟩ := (Option.any_eq_true _ _).mp hspent
  have hrun := run_of_guardStep hfold
  exact ⟨s, state, hrun, hstate, of_decide_eq_true hfive, costs_agree hrun "project-1" state hstate⟩

/-- The week of `midApril` begins after the first event of the month. -/
def weeklyCalls : List CostCall :=
  [.inference (gptCall "project-1" 1) (midApril - 7 * msPerDay) (midApril - 7 * msPerDay) (midApril - 7 * msPerDay),
    .setBudgetPolicy "project-1" ⟨true, .weekly, 80, 10⟩ midApril,
    .inference (gptCall "project-1" 1) midApril midApril midApril]

theorem costs_of_month_in_week : ¬∀ table calls s, Run (Succeeds (act table)) .start calls s →
    ∀ projectId state, s.projectStates.get? projectId = some state → s.Agrees projectId state := by
  intro hall
  obtain ⟨s, hfold, hspent⟩ := exists_foldlM_of_check (act gpt4o) weeklyCalls .start
    (fun s => (s.projectStates.get? "project-1").any fun state =>
      state.totalSpend ≠ costOf (s.periodEvents "project-1" state)) (by decide +kernel)
  obtain ⟨state, hstate, hne⟩ := (Option.any_eq_true _ _).mp hspent
  exact of_decide_eq_true hne (hall gpt4o weeklyCalls s (run_of_foldlM hfold) "project-1" state hstate).events

end CostState

end NousCore.Cost
