import NousCore.Cost.Aggregates

/-!
# A budget's ceiling is enforced

* `TermsKept` : how policies may change;
* `Watched`, `Guards` : what every step keeps, and `guards_of_run`.
-/

namespace NousCore.Cost

open CostState

/-! ## Terms -/

variable {s : CostState}

namespace CostState

def terms (s : CostState) (projectId : String) : Option (ℚ × PeriodType) :=
  (s.effectivePolicy projectId).map fun policy => (policy.hardCeilingUsd, policy.period)

theorem terms_of_ceiling {projectId : String} {ceiling : ℚ} (h : s.Ceiling projectId ceiling) :
    ∃ type, s.terms projectId = some (ceiling, type) := by
  obtain ⟨policy, hpolicy, -, hceiling, -⟩ := h
  refine ⟨policy.period, ?_⟩
  unfold terms
  rw [hpolicy, Option.map_some, hceiling]

def ceilingsIn (pauses : List PauseCall) (projectId : String) (state : ProjectCostState) : List ℚ :=
  (pauses.filter fun pause =>
    pause.projectId = projectId ∧ state.periodStart ≤ pause.time ∧ pause.time < state.periodEnd).map (·.ceilingUsd)

end CostState

/-- The service, and for each project the number of pauses before its terms last changed. -/
structure CostHistory where
  state : CostState
  changed : Record String Nat

namespace CostHistory

def start : CostHistory := ⟨.start, .empty⟩

def changedAt (h : CostHistory) (projectId : String) : Nat := (h.changed.get? projectId).getD 0

def policyProject : CostCall → Option String
  | .setBudgetPolicy projectId _ _ | .removeBudgetPolicy projectId | .configure projectId _ => some projectId
  | .inference _ _ _ _ | .advance _ => none

/-- The changes of terms are noted. -/
def note (h : CostHistory) (call : CostCall) (s' : CostState) : CostHistory where
  state := s'
  changed := match policyProject call with
    | some projectId =>
      if h.state.terms projectId = s'.terms projectId then h.changed else h.changed.set projectId s'.pauses.length
    | none => h.changed

def advance (table : PricingTable) (h : CostHistory) (call : CostCall) : Except String CostHistory :=
  (h.state.act table call).map (h.note call)

end CostHistory

/-- A pause for the ceiling has been raised in the period, and after the first `n`. -/
def PausedFor (pauses : List PauseCall) (n : Nat) (projectId : String) (state : ProjectCostState) (ceiling : ℚ) : Prop :=
  ∃ pause ∈ pauses.drop n, pause.projectId = projectId ∧ pause.ceilingUsd = ceiling ∧ state.periodStart ≤ pause.time

namespace CostHistory

/-- **Enforcement.** A ceiling that is in force and reached has been paused for since the terms last changed, and no
ceiling twice in the period. -/
structure Enforced (h : CostHistory) (projectId : String) (state : ProjectCostState) : Prop where
  paused : ∀ ceiling, h.state.Ceiling projectId ceiling → ceiling ≤ state.totalSpend →
    PausedFor h.state.pauses (h.changedAt projectId) projectId state ceiling
  once : (ceilingsIn h.state.pauses projectId state).Nodup

/-! ## How policies may change -/

def termsAfter (s : CostState) : CostCall → Option (ℚ × PeriodType)
  | .setBudgetPolicy _ policy _ => some (policy.hardCeilingUsd, policy.period)
  | .removeBudgetPolicy projectId => (s.configured.get? projectId).map fun policy => (policy.hardCeilingUsd, policy.period)
  | .configure projectId policy =>
    ((s.budgetPolicies.get? projectId).or policy).map fun policy => (policy.hardCeilingUsd, policy.period)
  | .inference _ _ _ _ | .advance _ => none

def takesBack (s : CostState) (projectId : String) (state : ProjectCostState) : CostCall → Bool
  | .setBudgetPolicy _ policy _ => s.resets projectId state policy
  | _ => false

def stateAfter (s : CostState) (projectId : String) (state : ProjectCostState) : CostCall → ProjectCostState
  | .setBudgetPolicy _ policy now => s.applyPolicy projectId state policy now
  | _ => state

/-- The call changes the terms or the period, or takes a pause back. -/
def Disturbs (s : CostState) (projectId : String) (state : ProjectCostState) (call : CostCall)
    (terms : ℚ × PeriodType) : Prop :=
  s.terms projectId ≠ some terms ∨ takesBack s projectId state call = true ∨
    (stateAfter s projectId state call).periodType ≠ state.periodType

/-- The terms of a project with costs change only while no pause stands, or by a new policy that takes it back; its new
ceiling has not been paused for in the period, and no ceiling twice in a period of a new type. -/
def TermsKeptOf (s : CostState) (projectId : String) (state : ProjectCostState) (call : CostCall) : Prop :=
  (ceilingsIn s.pauses projectId (stateAfter s projectId state call)).Nodup ∧
    ∀ terms ∈ termsAfter s call, Disturbs s projectId state call terms →
      (state.hardCeilingFiredThisPeriod = false ∨ takesBack s projectId state call = true) ∧
        terms.1 ∉ ceilingsIn s.pauses projectId (stateAfter s projectId state call)

def TermsKept (h : CostHistory) (call : CostCall) : Prop :=
  ∀ projectId ∈ policyProject call, ∀ state ∈ h.state.projectStates.get? projectId,
    TermsKeptOf h.state projectId state call

end CostHistory

/-! ## What is kept -/

/-- What is known of a project with costs, of the pauses and of the terms in effect since the first `n` of them. -/
structure Watched (pauses : List PauseCall) (n : Nat) (terms : Option (ℚ × PeriodType)) (projectId : String) (now : Int)
    (state : ProjectCostState) : Prop where
  dated : Dated now state
  before : ∀ pause ∈ pauses, pause.projectId = projectId → pause.time < state.periodEnd
  fired : state.hardCeilingFiredThisPeriod = true → ∀ t, terms = some t → PausedFor pauses n projectId state t.1
  unfired : state.hardCeilingFiredThisPeriod = false → ∀ t, terms = some t → t.1 ∉ ceilingsIn pauses projectId state
  once : (ceilingsIn pauses projectId state).Nodup

variable {pauses : List PauseCall} {n : Nat} {terms : Option (ℚ × PeriodType)} {projectId : String} {now t : Int}
  {state : ProjectCostState} {pause : PauseCall}

theorem mem_ceilingsIn {ceiling : ℚ} : ceiling ∈ ceilingsIn pauses projectId state ↔ ∃ pause ∈ pauses,
    pause.projectId = projectId ∧ state.periodStart ≤ pause.time ∧ pause.time < state.periodEnd ∧
      pause.ceilingUsd = ceiling := by
  unfold ceilingsIn
  simp only [List.mem_map, List.mem_filter, decide_eq_true_eq, and_assoc]

theorem ceilingsIn_eq_nil (h : ∀ pause ∈ pauses, pause.projectId = projectId → pause.time < state.periodStart) :
    ceilingsIn pauses projectId state = [] := by
  refine List.eq_nil_iff_forall_not_mem.mpr fun ceiling hmem => ?_
  obtain ⟨pause, hpause, hproject, hstart, -⟩ := mem_ceilingsIn.mp hmem
  have hlt := h pause hpause hproject
  omega

theorem ceilingsIn_append_of_ne (h : pause.projectId ≠ projectId) :
    ceilingsIn (pauses ++ [pause]) projectId state = ceilingsIn pauses projectId state := by
  unfold ceilingsIn
  rw [List.filter_append, List.filter_singleton, decide_eq_false (fun hall => h hall.1)]
  simp

theorem ceilingsIn_append (hproject : pause.projectId = projectId) (hstart : state.periodStart ≤ pause.time)
    (hend : pause.time < state.periodEnd) :
    ceilingsIn (pauses ++ [pause]) projectId state = ceilingsIn pauses projectId state ++ [pause.ceilingUsd] := by
  unfold ceilingsIn
  rw [List.filter_append, List.filter_singleton, decide_eq_true ⟨hproject, hstart, hend⟩]
  simp

theorem PausedFor.append {ceiling : ℚ} (h : PausedFor pauses n projectId state ceiling) (more : List PauseCall) :
    PausedFor (pauses ++ more) n projectId state ceiling := by
  obtain ⟨pause, hmem, hpause⟩ := h
  refine ⟨pause, ?_, hpause⟩
  rw [List.drop_append]
  exact List.mem_append_left _ hmem

section

variable (h : Watched pauses n terms projectId now state)

include h

theorem Watched.later (hlater : now ≤ t) :
    Watched pauses n terms projectId t state := { h with dated := h.dated.later hlater }

omit h in
theorem watched_createProjectState (s : CostState) (hnone : ∀ pause ∈ pauses, pause.projectId ≠ projectId) (now : Int) :
    Watched pauses n terms projectId now (s.createProjectState projectId now) := by
  have hnil : ceilingsIn pauses projectId (s.createProjectState projectId now) = [] :=
    ceilingsIn_eq_nil fun pause hmem hproject => absurd hproject (hnone pause hmem)
  refine ⟨dated_createProjectState s projectId now, fun pause hmem hproject => absurd hproject (hnone pause hmem),
    fun hfired => absurd hfired (by simp [createProjectState, createEmptyProjectState]), fun _ _ _ => ?_, ?_⟩
  · rw [hnil]
    exact List.not_mem_nil
  · rw [hnil]
    exact List.nodup_nil

theorem Watched.checkPeriodBoundary (hlater : now ≤ t) :
    Watched pauses n terms projectId t (checkPeriodBoundary state t) := by
  have hdated := (h.dated.checkPeriodBoundary hlater).1
  unfold Cost.checkPeriodBoundary at hdated ⊢
  split_ifs at hdated ⊢ with hcross
  · have hafter := h.dated.end_le_reset hcross
    have hbefore : ∀ pause ∈ pauses, pause.projectId = projectId →
        pause.time < (resetProjectState state t).periodStart := fun pause hmem hproject =>
      lt_of_lt_of_le (h.before pause hmem hproject) hafter
    have hnil := ceilingsIn_eq_nil hbefore
    have hnow := computePeriodBounds_le t state.periodType
    refine ⟨hdated, fun pause hmem hproject => ?_, fun hfired => absurd hfired (by simp [resetProjectState]),
      fun _ _ _ => ?_, ?_⟩
    · exact (hbefore pause hmem hproject).trans (lt_of_le_of_lt hnow.1 hnow.2)
    · rw [hnil]
      exact List.not_mem_nil
    · rw [hnil]
      exact List.nodup_nil
  · exact h.later hlater

theorem Watched.accumulate (event : CostEvent)
    (costEvents : List CostEvent) : Watched pauses n terms projectId now (accumulate state event costEvents) :=
  ⟨⟨h.dated.period, h.dated.begun⟩, h.before, h.fired, h.unfired, h.once⟩

theorem Watched.soft (soft : Bool) :
    Watched pauses n terms projectId now { state with softAlertFiredThisPeriod := soft } :=
  ⟨⟨h.dated.period, h.dated.begun⟩, h.before, h.fired, h.unfired, h.once⟩

theorem Watched.other (hother : pause.projectId ≠ projectId) :
    Watched (pauses ++ [pause]) n terms projectId now state := by
  refine ⟨h.dated, fun p hp hproject => ?_, fun hfired t ht => (h.fired hfired t ht).append _, ?_, ?_⟩
  · rcases List.mem_append.mp hp with hp | hp
    · exact h.before p hp hproject
    · rw [List.mem_singleton.mp hp] at hproject
      exact absurd hproject hother
  · rw [ceilingsIn_append_of_ne hother]
    exact h.unfired
  · rw [ceilingsIn_append_of_ne hother]
    exact h.once

theorem Watched.paused (hn : n ≤ pauses.length)
    (hproject : pause.projectId = projectId) (hstart : state.periodStart ≤ pause.time)
    (hend : pause.time < state.periodEnd) (hunfired : state.hardCeilingFiredThisPeriod = false) {type : PeriodType}
    (hterms : terms = some (pause.ceilingUsd, type)) :
    Watched (pauses ++ [pause]) n terms projectId now { state with hardCeilingFiredThisPeriod := true } := by
  have hnew := h.unfired hunfired _ hterms
  have hceilings : ceilingsIn (pauses ++ [pause]) projectId state =
      ceilingsIn pauses projectId state ++ [pause.ceilingUsd] := ceilingsIn_append hproject hstart hend
  refine ⟨⟨h.dated.period, h.dated.begun⟩, fun p hp hp' => ?_, fun _ t ht => ?_, fun hfalse => absurd hfalse (by simp), ?_⟩
  · rcases List.mem_append.mp hp with hp | hp
    · exact h.before p hp hp'
    · rw [List.mem_singleton.mp hp]
      exact hend
  · cases hterms.symm.trans ht
    refine ⟨pause, ?_, hproject, rfl, hstart⟩
    rw [List.drop_append_of_le_length hn]
    exact List.mem_append_right _ (List.mem_singleton_self _)
  · show (ceilingsIn (pauses ++ [pause]) projectId state).Nodup
    rw [hceilings]
    exact List.nodup_append'.mpr ⟨h.once, List.nodup_singleton _, fun c hc hc' => hnew (List.mem_singleton.mp hc' ▸ hc)⟩

end

/-! ## Changes of terms -/

theorem hardCeilingFired_stateAfter (s : CostState) (projectId : String) (state : ProjectCostState) (call : CostCall) :
    (CostHistory.stateAfter s projectId state call).hardCeilingFiredThisPeriod =
      (state.hardCeilingFiredThisPeriod && !CostHistory.takesBack s projectId state call) := by
  cases call with
  | setBudgetPolicy project policy now => rfl
  | inference | removeBudgetPolicy | configure | advance => simp [CostHistory.stateAfter, CostHistory.takesBack]

variable {call : CostCall}

theorem bounds_stateAfter (h : (CostHistory.stateAfter s projectId state call).periodType = state.periodType) :
    (CostHistory.stateAfter s projectId state call).periodStart = state.periodStart ∧
      (CostHistory.stateAfter s projectId state call).periodEnd = state.periodEnd := by
  cases call with
  | setBudgetPolicy project policy now =>
    rcases bounds_applyPolicy s projectId state policy now with ⟨-, hstart, hend⟩ | ⟨hne, -⟩
    · exact ⟨hstart, hend⟩
    · exact absurd h.symm hne
  | inference | removeBudgetPolicy | configure | advance => exact ⟨rfl, rfl⟩

theorem Watched.stateAfter {terms' : Option (ℚ × PeriodType)}
    (h : Watched s.pauses n (s.terms projectId) projectId now state)
    (hkept : CostHistory.TermsKeptOf s projectId state call)
    (hterms' : ∀ u, terms' = some u → u ∈ CostHistory.termsAfter s call)
    (hdated : Dated t (CostHistory.stateAfter s projectId state call))
    (hbefore : ∀ pause ∈ s.pauses, pause.projectId = projectId →
      pause.time < (CostHistory.stateAfter s projectId state call).periodEnd) :
    Watched s.pauses (if s.terms projectId = terms' then n else s.pauses.length) terms' projectId t
      (CostHistory.stateAfter s projectId state call) := by
  have hflag := hardCeilingFired_stateAfter s projectId state call
  obtain ⟨honce, hchange⟩ := hkept
  refine ⟨hdated, hbefore, fun hfired u hu => ?_, fun hunfired u hu => ?_, honce⟩
  · rw [hflag, Bool.and_eq_true_iff] at hfired
    by_cases hdisturbs : CostHistory.Disturbs s projectId state call u
    · rcases (hchange u (hterms' u hu) hdisturbs).1 with hunfired | hback
      · exact absurd (hfired.1.symm.trans hunfired) (by simp)
      · rw [hback] at hfired
        exact absurd hfired.2 (by simp)
    · unfold CostHistory.Disturbs at hdisturbs
      simp only [not_or, not_not] at hdisturbs
      obtain ⟨hterms, -, htype⟩ := hdisturbs
      obtain ⟨pause, hmem, hproject, hceiling, hle⟩ := h.fired hfired.1 u hterms
      rw [if_pos (hterms.trans hu.symm)]
      exact ⟨pause, hmem, hproject, hceiling, (bounds_stateAfter htype).1.trans_le hle⟩
  · by_cases hdisturbs : CostHistory.Disturbs s projectId state call u
    · exact (hchange u (hterms' u hu) hdisturbs).2
    · unfold CostHistory.Disturbs at hdisturbs
      simp only [not_or, not_not] at hdisturbs
      obtain ⟨hterms, hback, htype⟩ := hdisturbs
      rw [hflag, Bool.eq_false_iff.mpr hback] at hunfired
      have hold := h.unfired (by simpa using hunfired) u hterms
      unfold ceilingsIn at hold ⊢
      rw [(bounds_stateAfter htype).1, (bounds_stateAfter htype).2]
      exact hold

/-! ## Steps -/

namespace CostHistory

structure Guards (h : CostHistory) : Prop where
  raised : ∀ pause ∈ h.state.pauses, pause.time ≤ h.state.now ∧ (h.state.projectStates.get? pause.projectId).isSome
  changed : ∀ projectId, h.changedAt projectId ≤ h.state.pauses.length
  watched : ∀ projectId state, h.state.projectStates.get? projectId = some state →
    Watched h.state.pauses (h.changedAt projectId) (h.state.terms projectId) projectId h.state.now state

variable {table : PricingTable} {h h' : CostHistory}

theorem watched_getOrCreate (hguards : Guards h) (hnow : h.state.now ≤ now) (projectId : String) :
    Watched h.state.pauses (h.changedAt projectId) (h.state.terms projectId) projectId now
      (h.state.getOrCreateProjectState projectId now) := by
  unfold getOrCreateProjectState
  cases hstate : h.state.projectStates.get? projectId with
  | some state => exact (hguards.watched projectId state hstate).later hnow
  | none =>
    refine watched_createProjectState h.state (fun pause hp hproject => ?_) now
    have hsome := (hguards.raised pause hp).2
    rw [hproject, hstate] at hsome
    exact absurd hsome (by simp)

/-- **An event** keeps the guards, and leaves every ceiling of its project enforced. -/
theorem guards_of_inference {payload : InferenceCallCompletePayload} {stamped created checked : Int}
    (hguards : Guards h) (hstamped : h.state.now ≤ stamped) (hcreated : stamped ≤ created)
    (hchecked : created ≤ checked)
    (hresult : h' = ⟨h.state.handleInferenceEvent table payload stamped created checked, h.changed⟩) :
    Guards h' ∧ ∀ state, h'.state.projectStates.get? (payload.projectId.getD "_system") = some state →
      Enforced h' (payload.projectId.getD "_system") state := by
  obtain ⟨event, hevent⟩ : ∃ event, costEvent table payload stamped = event := ⟨_, rfl⟩
  have hproject : payload.projectId.getD "_system" = event.projectId := by rw [← hevent]; rfl
  have hstate := watched_getOrCreate hguards (hstamped.trans hcreated) event.projectId
  have hholds := (hstate.dated.checkPeriodBoundary hchecked).2 checked rfl
  have hcounted : Watched h.state.pauses (h.changedAt event.projectId) (h.state.terms event.projectId) event.projectId
      checked (h.state.countEvent event created checked) :=
    (hstate.checkPeriodBoundary hchecked).accumulate event (h.state.costEvents ++ [event])
  obtain ⟨counted, hcountEvent⟩ : ∃ counted, h.state.countEvent event created checked = counted := ⟨_, rfl⟩
  have hin : counted.periodStart ≤ checked ∧ checked < counted.periodEnd := by
    rw [← hcountEvent]
    exact hholds
  rw [hcountEvent] at hcounted
  obtain ⟨alerts, pauses, soft, hard, hhandled, hpaused⟩ := handleInferenceEvent_spec h.state table payload stamped
    created checked hevent hcountEvent
  rw [hhandled] at hresult
  subst hresult
  have hwatched : Watched pauses (h.changedAt event.projectId) (h.state.terms event.projectId) event.projectId checked
      { counted with softAlertFiredThisPeriod := soft, hardCeilingFiredThisPeriod := hard } := by
    rcases hpaused with ⟨rfl, rfl, -⟩ | ⟨ceiling, hceiling, hunfired, rfl, rfl⟩
    · exact hcounted.soft soft
    · obtain ⟨type, hterms⟩ := terms_of_ceiling hceiling
      exact (hcounted.paused (hguards.changed event.projectId) rfl hin.1 hin.2 hunfired hterms).soft soft
  have hprefix : pauses = h.state.pauses ∨ ∃ pause, pauses = h.state.pauses ++ [pause] ∧
      pause.projectId = event.projectId ∧ pause.time = checked := by
    rcases hpaused with ⟨hsame, -⟩ | ⟨ceiling, -, -, -, hmore⟩
    · exact .inl hsame
    · exact .inr ⟨_, hmore, rfl, rfl⟩
  refine ⟨⟨fun pause hp => ?_, fun projectId => ?_, fun projectId state hget => ?_⟩, fun state hget => ?_⟩
  · rw [Record.get?_set]
    have hnow : h.state.now ≤ checked := by omega
    have hold : ∀ p ∈ h.state.pauses, p.time ≤ checked ∧ (if p.projectId = event.projectId then some
        { counted with softAlertFiredThisPeriod := soft, hardCeilingFiredThisPeriod := hard } else
          h.state.projectStates.get? p.projectId).isSome := by
      intro p hp
      obtain ⟨hle, hsome⟩ := hguards.raised p hp
      refine ⟨hle.trans hnow, ?_⟩
      split_ifs
      · rfl
      · exact hsome
    rcases hprefix with rfl | ⟨new, rfl, hnew, htime⟩
    · exact hold pause hp
    · rcases List.mem_append.mp hp with hp | hp
      · exact hold pause hp
      · rw [List.mem_singleton.mp hp, if_pos hnew]
        exact ⟨htime.le, rfl⟩
  · have hle := hguards.changed projectId
    show h.changedAt projectId ≤ pauses.length
    rcases hprefix with rfl | ⟨new, rfl, -⟩
    · exact hle
    · rw [List.length_append]
      omega
  · rw [Record.get?_set] at hget
    split_ifs at hget with hself
    · cases hget
      rw [hself]
      exact hwatched
    · have hold := (hguards.watched projectId state hget).later (show h.state.now ≤ checked by omega)
      rcases hprefix with rfl | ⟨new, rfl, hnew, -⟩
      · exact hold
      · exact hold.other (hnew ▸ Ne.symm hself)
  · rw [hproject] at hget ⊢
    rw [Record.get?_set, if_pos rfl] at hget
    cases hget
    refine ⟨fun ceiling hceiling hle => ?_, hwatched.once⟩
    obtain ⟨type, hterms⟩ := terms_of_ceiling hceiling
    have hfired : hard = true := by
      rcases hpaused with ⟨-, -, hreached⟩ | ⟨-, -, -, hfired, -⟩
      · exact hreached ceiling hceiling hle
      · exact hfired
    exact hwatched.fired hfired (ceiling, type) hterms

variable {s' : CostState}

theorem terms_act (hact : s.act table call = .ok s')
    (hproject : projectId ∈ policyProject call) : ∀ u, s'.terms projectId = some u → u ∈ termsAfter s call := by
  intro u hu
  have hself : policyProject call = some projectId := hproject
  cases call with
  | inference | advance => exact absurd hself (by simp [policyProject])
  | setBudgetPolicy project policy now =>
    obtain rfl := Option.some.inj hself
    unfold act at hact
    dsimp only at hact
    split_ifs at hact
    rw [← Except.ok.inj hact] at hu
    have hpolicy : (s.setBudgetPolicy project policy now).effectivePolicy project = some policy := by
      show ((s.budgetPolicies.set project policy).get? project).or _ = _
      rw [Record.get?_set, if_pos rfl, Option.some_or]
    unfold CostState.terms at hu
    rw [hpolicy] at hu
    exact hu
  | removeBudgetPolicy project =>
    obtain rfl := Option.some.inj hself
    rw [← Except.ok.inj hact] at hu
    have hpolicy : (s.removeBudgetPolicy project).effectivePolicy project = s.configured.get? project := by
      show ((s.budgetPolicies.erase project).get? project).or _ = _
      rw [Record.get?_erase, if_pos rfl, Option.none_or]
      rfl
    unfold CostState.terms at hu
    rw [hpolicy] at hu
    exact hu
  | configure project policy =>
    obtain rfl := Option.some.inj hself
    rw [← Except.ok.inj hact] at hu
    have hpolicy : (s.configure project policy).effectivePolicy project = (s.budgetPolicies.get? project).or policy := by
      cases policy with
      | none =>
        show (s.budgetPolicies.get? project).or ((s.configured.erase project).get? project) = _
        rw [Record.get?_erase, if_pos rfl]
      | some policy =>
        show (s.budgetPolicies.get? project).or ((s.configured.set project policy).get? project) = _
        rw [Record.get?_set, if_pos rfl]
    unfold CostState.terms at hu
    rw [hpolicy] at hu
    exact hu

/-- What a change of a policy leaves of the service. -/
structure Applied (s : CostState) (projectId : String) (call : CostCall) (s' : CostState) : Prop where
  pauses : s'.pauses = s.pauses
  now : s.now ≤ s'.now
  states : ∀ p, s'.projectStates.get? p =
    if p = projectId then (s.projectStates.get? p).map fun state => stateAfter s p state call else s.projectStates.get? p
  terms : ∀ p, p ≠ projectId → s'.terms p = s.terms p
  dated : ∀ state, Dated s.now state → Dated s'.now (stateAfter s projectId state call)
  before : ∀ state u, u < state.periodEnd → u ≤ s.now → u < (stateAfter s projectId state call).periodEnd

theorem applied_of_act (hact : s.act table call = .ok s')
    (hproject : policyProject call = some projectId) : Applied s projectId call s' := by
  have hstay : ∀ {call : CostCall} {p : String}, (∀ state, stateAfter s p state call = state) → s.projectStates.get? p =
      if p = projectId then (s.projectStates.get? p).map fun state => stateAfter s p state call
      else s.projectStates.get? p := by
    intro call p hsame
    simp only [hsame, Option.map_id', ite_self]
  cases call with
  | inference | advance => exact absurd hproject (by simp [policyProject])
  | setBudgetPolicy project policy now =>
    obtain rfl := Option.some.inj hproject
    unfold act at hact
    dsimp only at hact
    split_ifs at hact with hclock
    rw [← Except.ok.inj hact]
    refine ⟨rfl, hclock, fun p => ?_, fun p hne => ?_, fun state hdated => hdated.applyPolicy s project policy hclock,
      fun state u hlt hle => lt_applyPolicy_end hlt (hle.trans hclock)⟩
    · show (s.projectStates.modify project _).get? p = _
      rw [Record.get?_modify]
      split_ifs with hself
      · rw [hself]
        rfl
      · rfl
    · show Option.map _ (((s.budgetPolicies.set project policy).get? p).or _) = _
      rw [Record.get?_set, if_neg hne]
      rfl
  | removeBudgetPolicy project =>
    obtain rfl := Option.some.inj hproject
    rw [← Except.ok.inj hact]
    refine ⟨rfl, le_rfl, fun p => hstay fun _ => rfl, fun p hne => ?_, fun _ hdated => hdated, fun _ _ hlt _ => hlt⟩
    show Option.map _ (((s.budgetPolicies.erase project).get? p).or _) = _
    rw [Record.get?_erase, if_neg hne]
    rfl
  | configure project policy =>
    obtain rfl := Option.some.inj hproject
    rw [← Except.ok.inj hact]
    cases policy with
    | none =>
      refine ⟨rfl, le_rfl, fun p => hstay fun _ => rfl, fun p hne => ?_, fun _ hdated => hdated, fun _ _ hlt _ => hlt⟩
      unfold CostState.terms effectivePolicy
      show Option.map _ ((s.budgetPolicies.get? p).or ((s.configured.erase project).get? p)) = _
      rw [Record.get?_erase, if_neg hne]
    | some policy =>
      refine ⟨rfl, le_rfl, fun p => hstay fun _ => rfl, fun p hne => ?_, fun _ hdated => hdated, fun _ _ hlt _ => hlt⟩
      unfold CostState.terms effectivePolicy
      show Option.map _ ((s.budgetPolicies.get? p).or ((s.configured.set project policy).get? p)) = _
      rw [Record.get?_set, if_neg hne]

theorem guards_of_policy (hguards : Guards h) (hkept : h.TermsKept call)
    (hproject : policyProject call = some projectId) (hact : h.state.act table call = .ok s') :
    Guards (h.note call s') := by
  have happlied := applied_of_act hact hproject
  have hterms := terms_act hact hproject
  have hself : (h.note call s').changedAt projectId =
      if h.state.terms projectId = s'.terms projectId then h.changedAt projectId else h.state.pauses.length := by
    unfold changedAt note
    rw [hproject]
    dsimp only
    split_ifs with hsame
    · rfl
    · rw [Record.get?_set, if_pos rfl, happlied.pauses]
      rfl
  have hother : ∀ p, p ≠ projectId → (h.note call s').changedAt p = h.changedAt p := by
    intro p hp
    unfold changedAt note
    rw [hproject]
    dsimp only
    split_ifs
    · rfl
    · rw [Record.get?_set, if_neg hp]
  refine ⟨fun pause hp => ?_, fun p => ?_, fun p state hget => ?_⟩
  · change pause ∈ s'.pauses at hp
    rw [happlied.pauses] at hp
    obtain ⟨hle, hsome⟩ := hguards.raised pause hp
    refine ⟨hle.trans happlied.now, ?_⟩
    show (s'.projectStates.get? pause.projectId).isSome
    rw [happlied.states]
    split_ifs
    · rw [Option.isSome_map]
      exact hsome
    · exact hsome
  · have hle := hguards.changed p
    show _ ≤ s'.pauses.length
    rw [happlied.pauses]
    by_cases hp : p = projectId
    · rw [hp] at hle ⊢
      rw [hself]
      split_ifs <;> omega
    · rw [hother p hp]
      exact hle
  · change s'.projectStates.get? p = some state at hget
    rw [happlied.states] at hget
    show Watched s'.pauses _ (s'.terms p) p s'.now state
    rw [happlied.pauses]
    by_cases hp : p = projectId
    · subst hp
      rw [if_pos rfl] at hget
      obtain ⟨old, hold, rfl⟩ := Option.map_eq_some_iff.mp hget
      have hwatched := hguards.watched p old hold
      rw [hself]
      exact hwatched.stateAfter (hkept p hproject old hold) hterms (happlied.dated old hwatched.dated)
        fun pause hpause hpauseProject =>
          happlied.before old _ (hwatched.before pause hpause hpauseProject) (hguards.raised pause hpause).1
    · rw [if_neg hp] at hget
      rw [hother p hp, happlied.terms p hp]
      exact (hguards.watched p state hget).later happlied.now

theorem guards_start : Guards .start :=
  ⟨fun _ hp => absurd hp List.not_mem_nil, fun _ => le_rfl, fun _ _ hget => absurd hget (by simp [start, CostState.start])⟩

theorem guards_of_advance (hguards : Guards h) (hkept : h.TermsKept call)
    (hadvance : h.advance table call = .ok h') : Guards h' := by
  unfold advance at hadvance
  cases hact : h.state.act table call with
  | error message =>
    rw [hact] at hadvance
    cases hadvance
  | ok s' =>
    rw [hact] at hadvance
    cases hadvance
    cases hproject : policyProject call with
    | some projectId => exact guards_of_policy hguards hkept hproject hact
    | none =>
      cases call with
      | setBudgetPolicy projectId policy now => cases hproject
      | removeBudgetPolicy projectId => cases hproject
      | configure projectId policy => cases hproject
      | inference payload stamped created checked =>
        unfold act at hact
        dsimp only at hact
        split_ifs at hact with hclock
        have hresult : h.note (.inference payload stamped created checked) s' =
            ⟨h.state.handleInferenceEvent table payload stamped created checked, h.changed⟩ := by
          rw [← Except.ok.inj hact]
          rfl
        exact (guards_of_inference hguards hclock.1 hclock.2.1 hclock.2.2 hresult).1
      | advance now =>
        unfold act at hact
        dsimp only at hact
        split_ifs at hact with hclock
        cases hact
        exact ⟨fun pause hp => ⟨(hguards.raised pause hp).1.trans hclock, (hguards.raised pause hp).2⟩,
          hguards.changed, fun projectId state hget => (hguards.watched projectId state hget).later hclock⟩

theorem guards_of_run {calls : List CostCall} (hrun : Run (Guarded (Succeeds (advance table)) TermsKept) .start calls h) :
    Guards h :=
  hrun.invariant (fun _ _ _ hguards hstep => guards_of_advance hguards hstep.2 hstep.1) guards_start

/-- **Ceilings.** In a run in which the terms of a project change only while no pause stands, or by a new policy that
takes it back, every event leaves the ceilings of its project enforced. -/
theorem ceiling_enforced {calls : List CostCall}
    (hrun : Run (Guarded (Succeeds (advance table)) TermsKept) .start calls h) (payload : InferenceCallCompletePayload)
    (stamped created checked : Int) (hevent : h.advance table (.inference payload stamped created checked) = .ok h')
    (state : ProjectCostState)
    (hstate : h'.state.projectStates.get? (payload.projectId.getD "_system") = some state) :
    h'.Enforced (payload.projectId.getD "_system") state := by
  unfold advance act at hevent
  dsimp only at hevent
  split_ifs at hevent with hclock
  · have hresult : h' = ⟨h.state.handleInferenceEvent table payload stamped created checked, h.changed⟩ :=
      (Except.ok.inj hevent).symm
    exact (guards_of_inference (guards_of_run hrun) hclock.1 hclock.2.1 hclock.2.2 hresult).2 state hstate
  · cases hevent

/-! ## Runs on fixed inputs -/

instance {s : CostState} {state : ProjectCostState} {call : CostCall} {terms : ℚ × PeriodType} :
    Decidable (Disturbs s projectId state call terms) :=
  inferInstanceAs (Decidable (_ ∨ _ ∨ _))

instance {s : CostState} {state : ProjectCostState} {call : CostCall} :
    Decidable (TermsKeptOf s projectId state call) :=
  inferInstanceAs (Decidable (_ ∧ ∀ terms ∈ termsAfter s call, Disturbs s projectId state call terms →
    (state.hardCeilingFiredThisPeriod = false ∨ takesBack s projectId state call = true) ∧
      terms.1 ∉ ceilingsIn s.pauses projectId (stateAfter s projectId state call)))

instance (h : CostHistory) (call : CostCall) : Decidable (h.TermsKept call) :=
  inferInstanceAs (Decidable (∀ projectId ∈ policyProject call, ∀ state ∈ h.state.projectStates.get? projectId,
    TermsKeptOf h.state projectId state call))

/-- A ceiling is reached, and after it a higher one. -/
def raisedCalls : List CostCall :=
  [.setBudgetPolicy "project-1" (monthlyCeiling 2) midApril,
    .inference (gptCall "project-1" 1) midApril midApril midApril,
    .setBudgetPolicy "project-1" (monthlyCeiling 4) (midApril + 5)]

def secondCall : CostCall := .inference (gptCall "project-1" 1) (midApril + 10) (midApril + 10) (midApril + 11)

theorem ceiling_enforced_of_raised : ∃ h h' state,
    Run (Guarded (Succeeds (advance gpt4o)) TermsKept) .start raisedCalls h ∧ h.advance gpt4o secondCall = .ok h' ∧
      h'.state.projectStates.get? "project-1" = some state ∧ state.totalSpend = 5 ∧ h'.Enforced "project-1" state := by
  obtain ⟨h, hfold, hcheck⟩ := exists_foldlM_of_check (guardStep (advance gpt4o) TermsKept) raisedCalls .start
    (fun h => (h.advance gpt4o secondCall).toOption.any fun h' =>
      (h'.state.projectStates.get? "project-1").any (·.totalSpend = 5)) (by decide +kernel)
  obtain ⟨h', hadvance, hspent⟩ := (Option.any_eq_true _ _).mp hcheck
  obtain ⟨state, hstate, hfive⟩ := (Option.any_eq_true _ _).mp hspent
  have hrun := run_of_guardStep hfold
  have hok := eq_ok_of_toOption hadvance
  exact ⟨h, h', state, hrun, hok, hstate, of_decide_eq_true hfive,
    ceiling_enforced hrun (gptCall "project-1" 1) (midApril + 10) (midApril + 10) (midApril + 11) hok state hstate⟩

/-- A ceiling is reached, the policy is removed, and the ceiling of the configuration is reached as well. -/
def removedCalls : List CostCall :=
  [.configure "project-1" (some (monthlyCeiling 4)),
    .setBudgetPolicy "project-1" (monthlyCeiling 2) midApril,
    .inference (gptCall "project-1" 1) midApril midApril midApril,
    .removeBudgetPolicy "project-1"]

/-- The ceiling of the configuration is not paused for after that of a policy was. -/
theorem ceiling_not_enforced : ¬∀ table calls h h', Run (Succeeds (advance table)) .start calls h →
    ∀ payload stamped created checked, h.advance table (.inference payload stamped created checked) = .ok h' →
      ∀ state, h'.state.projectStates.get? (payload.projectId.getD "_system") = some state →
        h'.Enforced (payload.projectId.getD "_system") state := by
  intro hall
  obtain ⟨h, hfold, hcheck⟩ := exists_foldlM_of_check (advance gpt4o) removedCalls .start
    (fun h => (h.advance gpt4o secondCall).toOption.any fun h' =>
      (h'.state.projectStates.get? "project-1").any fun state => state.totalSpend = 5 ∧
        h'.state.effectivePolicy "project-1" = some (monthlyCeiling 4) ∧
          ∀ pause ∈ h'.state.pauses.drop (h'.changedAt "project-1"), pause.ceilingUsd ≠ 4) (by decide +kernel)
  obtain ⟨h', hadvance, hspent⟩ := (Option.any_eq_true _ _).mp hcheck
  obtain ⟨state, hstate, hfive⟩ := (Option.any_eq_true _ _).mp hspent
  obtain ⟨hspend, hpolicy, hnone⟩ := of_decide_eq_true hfive
  have hok := eq_ok_of_toOption hadvance
  have henforced := hall gpt4o removedCalls h h' (run_of_foldlM hfold) (gptCall "project-1" 1) _ _ _ hok state hstate
  obtain ⟨pause, hpause, -, hceiling, -⟩ := henforced.paused 4 ⟨_, hpolicy, rfl, rfl, by norm_num⟩ (by
    rw [hspend]
    norm_num)
  exact hnone pause hpause hceiling

end CostHistory

end NousCore.Cost
