import NousCore.CommunicationGateway.Logs

/-!
# Messages are sent at most once

* `DedupeKept` : what a query for a former attempt must find;
* `held_of_step`, `held_of_run` : the invariant.
-/

namespace NousCore.CommunicationGateway

open Async NousCore.System

abbrev CommunicationThread :=
  Thread ChannelEgressEnvelope CommunicationOp.Answer CommunicationError CommunicationEgressOutcome

abbrev CommunicationConfig :=
  Config ChannelEgressEnvelope CommunicationOp.Answer CommunicationState CommunicationError CommunicationEgressOutcome

/-- A send of the message has delivered it, or may have. -/
def effectiveFor (egressId : String) : ProviderEvent → Bool
  | .ended envelope result => envelope.egressId = egressId && result.effective
  | .started _ => false

def startedFor (egressId : String) : ProviderEvent → Bool
  | .started envelope => envelope.egressId = egressId
  | .ended _ _ => false

/-- **Messages are sent at most once**, and are answered for as they were sent. -/
structure SentOnce (options : CommunicationOptions) (c : CommunicationConfig) : Prop where
  once : ∀ egressId, c.state.provider.countP (effectiveFor egressId) ≤ 1
  last : ∀ egressId before e after, c.state.provider = before ++ e :: after → effectiveFor egressId e = true →
    ∀ e' ∈ after, startedFor egressId e' = false
  within : ∀ th ∈ c.threads,
    SendsWithin (parseRetryBudget options th.task.retryPolicyRef) th.task (sends th.log)
  deduplicated : ∀ th ∈ c.threads, ∀ attempt, th.program.outcome = some (.ok (.deduplicated attempt)) →
    sends th.log = [] ∧ ∃ other ∈ c.threads, other.task.egressId = th.task.egressId ∧ isEffective other.log = true

/-! ## What a query must find -/

/-- A call that has ended without an effective send. -/
def isSpent (th : CommunicationThread) : Bool := th.program.outcome.isSome && !isEffective th.log

def queriesNext (th : CommunicationThread) : Option String :=
  match th.program with
  | .call (.getLatestDeliveryAttemptByEgressId egressId) _ => some egressId
  | _ => none

/-- The other calls of the message that are past their queries have ended without an effective send. -/
def OthersSpent (c : CommunicationConfig) (i : Nat) (egressId : String) : Prop :=
  ∀ other ∈ c.threads.eraseIdx i, other.task.egressId = egressId → hasPassed other.log = true → isSpent other = true

/-- An attempt of an effective send of the message is stored. -/
def EffectStored (s : CommunicationState) (egressId : String) : Prop :=
  ∃ attempt ∈ attemptsOf egressId s, attempt.standsForEffect = true

/-- A query that finds no attempt finds the other calls spent, and one that finds an attempt finds an effective one
among those stored. -/
def QueryKept (c : CommunicationConfig) (i : Nat) (env : CommunicationEnv) : Prop :=
  ∀ th ∈ c.threads[i]?, ∀ egressId ∈ queriesNext th, env.failure = none →
    if attemptsOf egressId c.state = [] then OthersSpent c i egressId else EffectStored c.state egressId

def DedupeKept (c : CommunicationConfig) : Label ChannelEgressEnvelope CommunicationEnv → Prop
  | .begin _ => True
  | .turn i env => QueryKept c i env

/-! ## What a turn does -/

/-- What the provider sees of an operation. -/
def seen : Sigma CommunicationOp.Answer → List ProviderEvent
  | ⟨.startSend envelope, _⟩ => [.started envelope]
  | ⟨.awaitSend envelope, result⟩ => [.ended envelope result]
  | _ => []

variable {attempt : CommunicationDeliveryAttempt} {egressId : String}

section Turn

variable {options : CommunicationOptions} {envelope : ChannelEgressEnvelope} {l : CommunicationLog} {o : CommunicationOp}
  {env : CommunicationEnv} {s s' : CommunicationState} {r : o.Answer}

theorem provider_of_answers (h : communicationAnswers o env s = some (r, s')) :
    s'.provider = s.provider ++ seen ⟨o, r⟩ := by
  cases o with
  | startSend | awaitSend =>
    cases h
    rfl
  | saveRouteDecision | saveDeliveryAttempt =>
    rcases CommunicationEnv.save_cases h with rfl | rfl <;> exact (List.append_nil _).symm
  | getLatestDeliveryAttemptByEgressId egressId =>
    obtain ⟨rfl, -⟩ := CommunicationEnv.query_eq_some h
    exact (List.append_nil _).symm
  | _ =>
    cases h
    exact (List.append_nil _).symm

theorem attempts_of_answers (h : communicationAnswers o env s = some (r, s'))
    (hmem : attempt ∈ s'.attempts.all) : attempt ∈ s.attempts.all ∨ o = .saveDeliveryAttempt attempt := by
  cases o with
  | saveDeliveryAttempt saved =>
    rcases CommunicationEnv.save_cases h with rfl | rfl
    · exact .inl hmem
    · have hfind := Collection.mem_all.mp hmem
      rw [Collection.find?_put] at hfind
      split_ifs at hfind
      · exact .inr (congrArg _ (Option.some.inj hfind))
      · exact .inl (Collection.mem_all.mpr hfind)
  | saveRouteDecision => rcases CommunicationEnv.save_cases h with rfl | rfl <;> exact .inl hmem
  | getLatestDeliveryAttemptByEgressId egressId =>
    obtain ⟨rfl, -⟩ := CommunicationEnv.query_eq_some h
    exact .inl hmem
  | _ =>
    cases h
    exact .inl hmem

section

variable (hnext : AsksNext options envelope l o)

include hnext

/-- Sends are asked for after the query, and before an effective one; they are of the message of the call. -/
theorem asks_of_seen {e : ProviderEvent} (he : e ∈ seen ⟨o, r⟩) :
    hasPassed l = true ∧ isEffective l = false ∧ ∀ egressId, (effectiveFor egressId e = true →
      egressId = envelope.egressId) ∧ (startedFor egressId e = true → egressId = envelope.egressId) := by
  cases o with
  | startSend sending =>
    obtain rfl := List.mem_singleton.mp he
    exact ⟨hnext.1, hnext.2.1, fun egressId => ⟨nofun, fun h => (of_decide_eq_true h).symm.trans hnext.2.2.1⟩⟩
  | awaitSend sending =>
    obtain rfl := List.mem_singleton.mp he
    refine ⟨hnext.1, hnext.2.1, fun egressId => ⟨fun h => ?_, nofun⟩⟩
    exact (of_decide_eq_true (Bool.and_eq_true_iff.mp h).1).symm.trans hnext.2.2
  | _ => cases he

theorem exists_seen_effective_iff :
    (∃ e ∈ seen ⟨o, r⟩, effectiveFor egressId e = true) ↔
      egressId = envelope.egressId ∧ endsEffective ⟨o, r⟩ = true := by
  cases o with
  | awaitSend sending =>
    have hegress : sending.egressId = envelope.egressId := hnext.2.2
    constructor
    · rintro ⟨e, he, heffective⟩
      obtain rfl := List.mem_singleton.mp he
      obtain ⟨hid, heffective⟩ := Bool.and_eq_true_iff.mp heffective
      exact ⟨(of_decide_eq_true hid).symm.trans hegress, heffective⟩
    · rintro ⟨rfl, heffective⟩
      exact ⟨_, List.mem_singleton_self _, Bool.and_eq_true_iff.mpr ⟨decide_eq_true hegress, heffective⟩⟩
  | startSend sending => simp [seen, effectiveFor, endsEffective]
  | _ => simp [seen, endsEffective]

theorem within_of_asks
    (h : SendsWithin (parseRetryBudget options envelope.retryPolicyRef) envelope (sends l)) :
    SendsWithin (parseRetryBudget options envelope.retryPolicyRef) envelope (sends (l ++ [⟨o, r⟩])) := by
  rw [sends_snoc]
  cases o with
  | startSend sending => exact hnext.2.2.2
  | _ => exact (List.append_nil (sends l)).symm ▸ h

theorem passed_of_asks (heffective : endsEffective ⟨o, r⟩ = true) :
    hasPassed l = true := by
  cases o with
  | awaitSend sending => exact hnext.1
  | _ => cases heffective

end

end Turn

/-! ## The invariant -/

structure Held (options : CommunicationOptions) (c : CommunicationConfig) : Prop where
  follows : ∀ th ∈ c.threads, th.program.Follows (AsksNext options th.task) AsksLast th.log
  once : ∀ egressId, c.state.provider.countP (effectiveFor egressId) ≤ 1
  last : ∀ egressId before e after, c.state.provider = before ++ e :: after → effectiveFor egressId e = true →
    ∀ e' ∈ after, startedFor egressId e' = false
  within : ∀ th ∈ c.threads,
    SendsWithin (parseRetryBudget options th.task.retryPolicyRef) th.task (sends th.log)
  passed : ∀ th ∈ c.threads, isEffective th.log = true → hasPassed th.log = true
  /-- Of two calls past their queries one has ended without an effective send. -/
  apart : ∀ (i j : Nat) th th', i ≠ j → c.threads[i]? = some th → c.threads[j]? = some th' →
    th.task.egressId = th'.task.egressId → hasPassed th.log = true → hasPassed th'.log = true →
    isSpent th = true ∨ isSpent th' = true
  events : ∀ egressId, (∃ e ∈ c.state.provider, effectiveFor egressId e = true) ↔
    ∃ th ∈ c.threads, th.task.egressId = egressId ∧ isEffective th.log = true
  attempts : ∀ attempt ∈ c.state.attempts.all, attempt.standsForEffect = true →
    ∃ e ∈ c.state.provider, effectiveFor attempt.egressId e = true
  found : ∀ th ∈ c.threads, hasFound th.log = true →
    ∃ e ∈ c.state.provider, effectiveFor th.task.egressId e = true

section Invariant

variable {options : CommunicationOptions} {c c' : CommunicationConfig}

theorem Held.none_effective (h : Held options c) {i : Nat} {task : ChannelEgressEnvelope} {o : CommunicationOp}
    {next : o.Answer → CommunicationM CommunicationEgressOutcome} {log : CommunicationLog}
    (hget : c.threads[i]? = some ⟨task, .call o next, log⟩) (hpassed : hasPassed log = true)
    (hnone : isEffective log = false) : ∀ e ∈ c.state.provider, effectiveFor task.egressId e = false := by
  intro e he
  by_contra heffective
  obtain ⟨th, hth, htask, hth_effective⟩ := (h.events task.egressId).mp ⟨e, he, Bool.not_eq_false _ ▸ heffective⟩
  obtain ⟨j, hj⟩ := List.mem_iff_getElem?.mp hth
  by_cases hij : i = j
  · subst hij
    cases hget.symm.trans hj
    exact absurd hth_effective (Bool.eq_false_iff.mp hnone)
  · rcases h.apart i j _ _ hij hget hj htask.symm hpassed (h.passed th hth hth_effective) with hspent | hspent
    · cases hspent
    · rw [isSpent, hth_effective, Bool.not_true, Bool.and_false] at hspent
      cases hspent

theorem held_start : Held options (System.start .empty) where
  follows := by simp [System.start]
  once := fun egressId => Nat.zero_le _
  last := fun egressId before e after h => absurd h (by simp [System.start, CommunicationState.empty])
  within := by simp [System.start]
  passed := by simp [System.start]
  apart := fun i j th th' _ hi => absurd hi (by simp [System.start])
  events := fun egressId => by simp [System.start, CommunicationState.empty]
  attempts := fun attempt h => absurd (Collection.mem_all.mp h) (by simp [System.start, CommunicationState.empty, Collection.empty, Collection.find?])
  found := by simp [System.start]

/-! ### A turn -/

section Turn

variable {i : Nat} {task : ChannelEgressEnvelope} {o : CommunicationOp}
  {next : o.Answer → CommunicationM CommunicationEgressOutcome} {log : CommunicationLog} {r : o.Answer}

section

variable (h : Held options c)

include h

section

variable (hget : c.threads[i]? = some ⟨task, .call o next, log⟩)

include hget

theorem Held.asks :
    AsksNext options task log o := (h.follows _ (List.mem_of_getElem? hget)).1

omit hget in
omit h in
theorem length_seen_le (e : Sigma CommunicationOp.Answer) : (seen e).length ≤ 1 := by
  unfold seen
  split <;> simp

theorem Held.once_turn (egressId : String) :
    (c.state.provider ++ seen ⟨o, r⟩).countP (effectiveFor egressId) ≤ 1 := by
  rw [List.countP_append]
  by_cases hseen : ∃ e ∈ seen ⟨o, r⟩, effectiveFor egressId e = true
  · obtain ⟨e, he, heffective⟩ := hseen
    obtain ⟨hpassed, hnone, hid⟩ := asks_of_seen (h.asks hget) he
    obtain rfl := (hid egressId).1 heffective
    have hzero : c.state.provider.countP (effectiveFor task.egressId) = 0 :=
      List.countP_eq_zero.mpr fun e he => Bool.eq_false_iff.mp (h.none_effective hget hpassed hnone e he)
    have hle : (seen ⟨o, r⟩).countP (effectiveFor task.egressId) ≤ (seen ⟨o, r⟩).length := List.countP_le_length
    have hlength := length_seen_le ⟨o, r⟩
    omega
  · have hzero : (seen ⟨o, r⟩).countP (effectiveFor egressId) = 0 :=
      List.countP_eq_zero.mpr fun e he heffective => hseen ⟨e, he, heffective⟩
    rw [hzero]
    exact h.once egressId

theorem Held.last_turn
    {before after : List ProviderEvent} {e : ProviderEvent} (hsplit : c.state.provider ++ seen ⟨o, r⟩ = before ++ e :: after)
    (heffective : effectiveFor egressId e = true) : ∀ e' ∈ after, startedFor egressId e' = false := by
  have hlength := length_seen_le ⟨o, r⟩
  cases hseen : seen ⟨o, r⟩ with
  | nil =>
    rw [hseen, List.append_nil] at hsplit
    exact h.last egressId before e after hsplit heffective
  | cons new rest =>
    obtain rfl : rest = [] := by
      rw [hseen, List.length_cons] at hlength
      exact List.length_eq_zero_iff.mp (by omega)
    rw [hseen] at hsplit
    rcases after.eq_nil_or_concat with rfl | ⟨after', last, rfl⟩
    · simp
    · rw [List.concat_eq_append, ← List.cons_append, ← List.append_assoc] at hsplit
      obtain ⟨hprovider, hlast⟩ := List.append_inj' hsplit rfl
      obtain rfl := List.cons.inj hlast |>.1
      intro e' he'
      rw [List.concat_eq_append] at he'
      rcases List.mem_append.mp he' with he' | he'
      · exact h.last egressId before e after' hprovider heffective e' he'
      · obtain rfl := List.mem_singleton.mp he'
        by_contra hstarted
        obtain ⟨hpassed, hnone, hid⟩ := asks_of_seen (r := r) (h.asks hget) (hseen ▸ List.mem_cons_self)
        obtain rfl := (hid egressId).2 (Bool.not_eq_false _ ▸ hstarted)
        have hmem : e ∈ c.state.provider := hprovider ▸ List.mem_append_right _ List.mem_cons_self
        rw [h.none_effective hget hpassed hnone e hmem] at heffective
        cases heffective

omit h in
theorem mem_turn {th : CommunicationThread}
    (hth : th ∈ c.threads.set i ⟨task, next r, log ++ [⟨o, r⟩]⟩ ++ []) :
    th = ⟨task, next r, log ++ [⟨o, r⟩]⟩ ∨ th ∈ c.threads := by
  obtain ⟨j, hj⟩ := List.mem_iff_getElem?.mp hth
  rcases getElem?_set_append hget hj with ⟨-, rfl⟩ | ⟨-, hold⟩ | ⟨-, hnew⟩
  · exact .inl rfl
  · exact .inr (List.mem_of_getElem? hold)
  · cases hnew

omit h in
theorem exists_effective_turn
    {th : CommunicationThread} (hth : th ∈ c.threads) (hid : th.task.egressId = egressId)
    (heffective : isEffective th.log = true) :
    ∃ th ∈ c.threads.set i ⟨task, next r, log ++ [⟨o, r⟩]⟩ ++ [],
      th.task.egressId = egressId ∧ isEffective th.log = true := by
  obtain ⟨j, hj⟩ := List.mem_iff_getElem?.mp hth
  by_cases hij : j = i
  · subst hij
    cases hget.symm.trans hj
    refine ⟨_, List.mem_of_getElem? (getElem?_self hget), hid, ?_⟩
    rw [isEffective_snoc, heffective]
    rfl
  · exact ⟨th, List.mem_of_getElem? (getElem?_of_ne hij hj), hid, heffective⟩

theorem Held.events_turn
    (egressId : String) : (∃ e ∈ c.state.provider ++ seen ⟨o, r⟩, effectiveFor egressId e = true) ↔
      ∃ th ∈ c.threads.set i ⟨task, next r, log ++ [⟨o, r⟩]⟩ ++ [],
        th.task.egressId = egressId ∧ isEffective th.log = true := by
  constructor
  · rintro ⟨e, he, heffective⟩
    rcases List.mem_append.mp he with he | he
    · obtain ⟨th, hth, hid, hlog⟩ := (h.events egressId).mp ⟨e, he, heffective⟩
      exact exists_effective_turn hget hth hid hlog
    · obtain ⟨hid, hends⟩ := (exists_seen_effective_iff (h.asks hget)).mp ⟨e, he, heffective⟩
      refine ⟨_, List.mem_of_getElem? (getElem?_self hget), hid.symm, ?_⟩
      rw [isEffective_snoc, hends]
      exact Bool.or_true _
  · have hold : (∃ e ∈ c.state.provider, effectiveFor egressId e = true) →
        ∃ e ∈ c.state.provider ++ seen ⟨o, r⟩, effectiveFor egressId e = true :=
      fun ⟨e, he, heffective⟩ => ⟨e, List.mem_append_left _ he, heffective⟩
    rintro ⟨th, hth, hid, heffective⟩
    rcases mem_turn hget hth with rfl | hth
    · rw [isEffective_snoc, Bool.or_eq_true] at heffective
      rcases heffective with heffective | hends
      · exact hold ((h.events egressId).mpr ⟨_, List.mem_of_getElem? hget, hid, heffective⟩)
      · obtain ⟨e, he, heffective⟩ := (exists_seen_effective_iff (h.asks hget)).mpr ⟨hid.symm, hends⟩
        exact ⟨e, List.mem_append_right _ he, heffective⟩
    · exact hold ((h.events egressId).mpr ⟨th, hth, hid, heffective⟩)

theorem spent_of_passed {env : CommunicationEnv} {s' : CommunicationState} (hkept : QueryKept c i env)
    (hanswers : communicationAnswers o env c.state = some (r, s')) (hfinds : findsNone ⟨o, r⟩ = true) {j : Nat}
    {other : CommunicationThread} (hij : j ≠ i) (hother : c.threads[j]? = some other)
    (hid : other.task.egressId = task.egressId) (hpassed : hasPassed other.log = true) : isSpent other = true := by
  cases o with
  | getLatestDeliveryAttemptByEgressId egressId =>
    obtain rfl : egressId = task.egressId := h.asks hget
    have hr : r = .ok none := by
      unfold findsNone at hfinds
      split at hfinds
      · rename_i heq
        cases heq
        rfl
      · cases hfinds
    obtain ⟨hfailure, hempty⟩ := (CommunicationEnv.query_eq_some hanswers).2.1 hr
    have hmem : other ∈ c.threads.eraseIdx i := List.mem_eraseIdx_iff_getElem?.mpr ⟨j, hij, hother⟩
    have hothers := hkept _ hget _ rfl hfailure
    rw [if_pos hempty] at hothers
    exact hothers other hmem hid hpassed
  | _ => cases hfinds

theorem Held.apart_turn {env : CommunicationEnv} {s' : CommunicationState} (hkept : QueryKept c i env)
    (hanswers : communicationAnswers o env c.state = some (r, s')) {j : Nat} {other : CommunicationThread}
    (hij : j ≠ i) (hother : c.threads[j]? = some other) (hid : other.task.egressId = task.egressId)
    (hpassed : hasPassed (log ++ [⟨o, r⟩]) = true) (hpassed' : hasPassed other.log = true) : isSpent other = true := by
  rw [hasPassed_snoc, Bool.or_eq_true] at hpassed
  rcases hpassed with hpassed | hfinds
  · rcases h.apart i j _ _ hij.symm hget hother hid.symm hpassed hpassed' with hspent | hspent
    · cases hspent
    · exact hspent
  · exact spent_of_passed h hget hkept hanswers hfinds hij hother hid hpassed'

theorem Held.found_turn {env : CommunicationEnv} {s' : CommunicationState} (hkept : QueryKept c i env)
    (hanswers : communicationAnswers o env c.state = some (r, s')) (hfound : hasFound (log ++ [⟨o, r⟩]) = true) :
    ∃ e ∈ c.state.provider, effectiveFor task.egressId e = true := by
  rw [hasFound_snoc, Bool.or_eq_true] at hfound
  rcases hfound with hfound | hfinds
  · exact h.found _ (List.mem_of_getElem? hget) hfound
  · cases o with
    | getLatestDeliveryAttemptByEgressId egressId =>
      obtain rfl : egressId = task.egressId := h.asks hget
      obtain ⟨existing, hr⟩ : ∃ existing, r = .ok (some existing) := by
        unfold findsSome at hfinds
        split at hfinds
        · rename_i existing heq
          cases heq
          exact ⟨existing, rfl⟩
        · cases hfinds
      obtain ⟨hfailure, hne⟩ := (CommunicationEnv.query_eq_some hanswers).2.2 existing hr
      have hstored := hkept _ hget _ rfl hfailure
      rw [if_neg hne] at hstored
      obtain ⟨attempt, hmem, hstands⟩ := hstored
      obtain ⟨hall, hid⟩ := List.mem_filter.mp hmem
      rw [← of_decide_eq_true hid]
      exact h.attempts attempt hall hstands
    | _ => cases hfinds

theorem Held.attempts_turn {env : CommunicationEnv} {s' : CommunicationState}
    (hanswers : communicationAnswers o env c.state = some (r, s'))
    (hmem : attempt ∈ s'.attempts.all) (hstands : attempt.standsForEffect = true) :
    ∃ e ∈ c.state.provider, effectiveFor attempt.egressId e = true := by
  rcases attempts_of_answers hanswers hmem with hold | rfl
  · exact h.attempts attempt hold hstands
  · obtain ⟨hid, heffective⟩ := h.asks hget
    exact (h.events attempt.egressId).mpr ⟨_, List.mem_of_getElem? hget, hid.symm, heffective hstands⟩

end

end

end Turn

theorem Held.begin (h : Held options c) (envelope : ChannelEgressEnvelope) (returned : _) :
    Held options { c with threads := c.threads ++ [(communicationSystem options).thread envelope], returned := returned } := by
  have hmem : ∀ th ∈ c.threads ++ [(communicationSystem options).thread envelope],
      th ∈ c.threads ∨ th = (communicationSystem options).thread envelope := fun th hth =>
    (List.mem_append.mp hth).imp id List.mem_singleton.mp
  have hget : ∀ (i : Nat) th, (c.threads ++ [(communicationSystem options).thread envelope])[i]? = some th →
      hasPassed th.log = true → c.threads[i]? = some th := by
    intro i th hi hpassed
    by_cases hlt : i < c.threads.length
    · rwa [List.getElem?_append_left hlt] at hi
    · rw [List.getElem?_append_right (not_lt.mp hlt)] at hi
      obtain rfl := List.mem_singleton.mp (List.mem_of_getElem? hi)
      cases hpassed
  refine ⟨?_, h.once, h.last, ?_, ?_, ?_, fun egressId => (h.events egressId).trans ⟨?_, ?_⟩, h.attempts, ?_⟩
  · intro th hth
    rcases hmem th hth with hold | rfl
    · exact h.follows th hold
    · exact follows_run options envelope
  · intro th hth
    rcases hmem th hth with hold | rfl
    · exact h.within th hold
    · exact ⟨0, Nat.zero_le _, .inl rfl⟩
  · intro th hth heffective
    rcases hmem th hth with hold | rfl
    · exact h.passed th hold heffective
    · cases heffective
  · intro i j th th' hij hi hj hid hpassed hpassed'
    exact h.apart i j th th' hij (hget i th hi hpassed) (hget j th' hj hpassed') hid hpassed hpassed'
  · rintro ⟨th, hth, hid, heffective⟩
    exact ⟨th, List.mem_append_left _ hth, hid, heffective⟩
  · rintro ⟨th, hth, hid, heffective⟩
    rcases hmem th hth with hold | rfl
    · exact ⟨th, hold, hid, heffective⟩
    · cases heffective
  · intro th hth hfound
    rcases hmem th hth with hold | rfl
    · exact h.found th hold hfound
    · cases hfound

theorem held_of_step {label : Label ChannelEgressEnvelope CommunicationEnv} (h : Held options c)
    (hstep : Guarded (communicationSystem options).Step DedupeKept c label c') : Held options c' := by
  obtain ⟨hstep, hkept⟩ := hstep
  have hfollows := follows_of_step (communicationSystem options) (follows_run options) h.follows hstep
  have hstepped := stepped_of_step hstep
  clear hstep
  cases hstepped with
  | begin envelope => exact h.begin envelope _
  | @turn i env task log o next r s' hget hblocked hanswers =>
    have hprovider : s'.provider = c.state.provider ++ seen ⟨o, r⟩ := provider_of_answers hanswers
    have hold : ∀ egressId, (∃ e ∈ c.state.provider, effectiveFor egressId e = true) →
        ∃ e ∈ s'.provider, effectiveFor egressId e = true := by
      rintro egressId ⟨e, he, heffective⟩
      exact ⟨e, hprovider ▸ List.mem_append_left _ he, heffective⟩
    refine ⟨hfollows, fun egressId => ?_, fun egressId before e after hsplit heffective => ?_, fun th hth => ?_,
      fun th hth heffective => ?_, fun j k th th' hjk hj hk hid hpassed hpassed' => ?_, fun egressId => ?_,
      fun attempt hmem hstands => hold _ (h.attempts_turn hget hanswers hmem hstands), fun th hth hfound => hold _ ?_⟩
    · rw [hprovider]
      exact h.once_turn hget egressId
    · rw [hprovider] at hsplit
      exact h.last_turn hget hsplit heffective
    · rcases mem_turn hget hth with rfl | hth
      · exact within_of_asks (h.asks hget) (h.within _ (List.mem_of_getElem? hget))
      · exact h.within th hth
    · rcases mem_turn hget hth with rfl | hth
      · rw [isEffective_snoc, Bool.or_eq_true] at heffective
        rw [hasPassed_snoc, Bool.or_eq_true]
        rcases heffective with heffective | hends
        · exact .inl (h.passed _ (List.mem_of_getElem? hget) heffective)
        · exact .inl (passed_of_asks (h.asks hget) hends)
      · exact h.passed th hth heffective
    · rcases getElem?_set_append hget hj with ⟨rfl, rfl⟩ | ⟨hji, hjold⟩ | ⟨-, hnew⟩
      · rcases getElem?_set_append hget hk with ⟨rfl, rfl⟩ | ⟨hki, hkold⟩ | ⟨-, hnew⟩
        · exact absurd rfl hjk
        · exact .inr (h.apart_turn hget hkept hanswers hki hkold hid.symm hpassed hpassed')
        · cases hnew
      · rcases getElem?_set_append hget hk with ⟨rfl, rfl⟩ | ⟨hki, hkold⟩ | ⟨-, hnew⟩
        · exact .inl (h.apart_turn hget hkept hanswers hji hjold hid hpassed' hpassed)
        · exact h.apart j k th th' hjk hjold hkold hid hpassed hpassed'
        · cases hnew
      · cases hnew
    · rw [hprovider]
      exact h.events_turn hget egressId
    · rcases mem_turn hget hth with rfl | hth
      · exact h.found_turn hget hkept hanswers hfound
      · exact h.found th hth hfound

theorem held_of_run {ls : List (Label ChannelEgressEnvelope CommunicationEnv)}
    (hrun : Run (Guarded (communicationSystem options).Step DedupeKept) (System.start .empty) ls c) : Held options c :=
  hrun.invariant (fun _ _ _ hc hstep => held_of_step hc hstep) held_start

theorem Held.sentOnce (h : Held options c) : SentOnce options c := by
  refine ⟨h.once, h.last, h.within, fun th hth attempt hout => ?_⟩
  obtain ⟨hfound, hsends⟩ : AsksLast th.log (.ok (.deduplicated attempt)) := (h.follows th hth).of_outcome hout
  exact ⟨hsends, (h.events _).mp (h.found th hth hfound)⟩

end Invariant

/-- **Messages are sent at most once** in every run whose queries find what they must. -/
theorem sent_once {options : CommunicationOptions} {ls : List (Label ChannelEgressEnvelope CommunicationEnv)}
    {c : CommunicationConfig}
    (hrun : Run (Guarded (communicationSystem options).Step DedupeKept) (System.start .empty) ls c) :
    SentOnce options c :=
  (held_of_run hrun).sentOnce

/-! ## Two calls for one message -/

section Message

def plainOptions : CommunicationOptions where
  authorizedAccountIds := []
  deliveryProvider := true
  nudgeDiscovery := false
  witness := false
  defaultRetryBudget := 1

def message : ChannelEgressEnvelope where
  egressId := "message-1"
  channel := .telegram
  channelId := "channel-1"
  workspaceId := none
  accountId := "account-1"
  conversationId := "conversation-1"
  threadId := none
  recipientBindingRef := "binding-1"
  messageClass := .response
  payloadRef := "payload-1"
  deliveryPolicyRef := "delivery"
  retryPolicyRef := "retry-2"
  requestedAt := "2026-01-01T00:00:00.000Z"
  traceParent := none

def recipient : CommunicationIdentityBindingRecord :=
  ⟨"binding-1", .telegram, "account-1", "identity-1", none, .active, none⟩

def answering (result : CommunicationProviderSendResult) (latest : Option CommunicationDeliveryAttempt) :
    CommunicationEnv :=
  ⟨"2026-01-01T00:00:01.000Z", "id-1", none, some recipient, 0, latest, result, "authorization-1"⟩

def turns (i n : Nat) (env : CommunicationEnv) : List (Label ChannelEgressEnvelope CommunicationEnv) :=
  List.replicate n (.turn i env)

/-- The attempt that a call leaves when its only send ends so. -/
def leftAttempt (outcome : CommunicationDeliveryAttemptOutcome) (reasonCodes : List CommunicationRejectReason) :
    CommunicationDeliveryAttempt where
  deliveryAttemptId := "id-1"
  routeId := "id-1"
  egressId := "message-1"
  outcome := outcome
  failureClass := none
  retryBudgetRemaining := 2
  providerMessageRef := none
  failoverTargetBindingRef := none
  reasonCodes := reasonCodes
  evidenceRefs := ["delivery:message-1"]
  occurredAt := "2026-01-01T00:00:01.000Z"

/-- Two calls of which the first has ended when the second begins. -/
def oneAfterTheOther (result : CommunicationProviderSendResult) (left : CommunicationDeliveryAttempt) :
    List (Label ChannelEgressEnvelope CommunicationEnv) :=
  .begin message :: turns 0 12 (answering result none) ++ .begin message :: turns 1 9 (answering result (some left))

/-- Two calls that have both queried before either sends. -/
def overlapping : List (Label ChannelEgressEnvelope CommunicationEnv) :=
  .begin message :: .begin message :: turns 0 7 (answering (.delivered none) none) ++
    turns 1 7 (answering (.delivered none) none) ++ turns 0 2 (answering (.delivered none) none) ++
    turns 1 2 (answering (.delivered none) none)

instance (c : CommunicationConfig) (i : Nat) (egressId : String) : Decidable (OthersSpent c i egressId) :=
  inferInstanceAs (Decidable (∀ other ∈ c.threads.eraseIdx i, _ → _ → _))

instance (s : CommunicationState) (egressId : String) : Decidable (EffectStored s egressId) :=
  inferInstanceAs (Decidable (∃ attempt ∈ attemptsOf egressId s, _))

instance (c : CommunicationConfig) (i : Nat) (env : CommunicationEnv) : Decidable (QueryKept c i env) :=
  inferInstanceAs (Decidable (∀ th ∈ c.threads[i]?, ∀ egressId ∈ queriesNext th, _ → ite _ _ _))

instance (c : CommunicationConfig) : ∀ label, Decidable (DedupeKept c label)
  | .begin _ => .isTrue trivial
  | .turn i env => inferInstanceAs (Decidable (QueryKept c i env))

/-- A call that has been answered `deduplicated`. -/
def isDeduplicated (th : CommunicationThread) : Bool :=
  th.program.outcome.any fun y => y.toOption.any fun outcome => match outcome with
    | .deduplicated _ => true
    | _ => false

theorem sent_once_of_oneAfterTheOther : ∃ c, SentOnce plainOptions c ∧ c.threads.any isDeduplicated = true := by
  obtain ⟨c, hrun, hdeduplicated⟩ := (communicationSystem plainOptions).exists_run_of_checkedStep DedupeKept
    (oneAfterTheOther (.delivered none) (leftAttempt .delivered [])) .empty (fun c => c.threads.any isDeduplicated)
    (by decide +kernel)
  exact ⟨c, sent_once hrun, hdeduplicated⟩

/-- Two calls that overlap deliver the message twice; and after one that was blocked the message is never delivered,
while the next call takes it for a repetition. -/
theorem sent_twice_or_never :
    (∃ ls c, Run (communicationSystem plainOptions).Step (System.start .empty) ls c ∧
      c.state.provider.countP (effectiveFor "message-1") = 2 ∧ ¬SentOnce plainOptions c) ∧
    ∃ ls c, Run (communicationSystem plainOptions).Step (System.start .empty) ls c ∧
      c.threads.any isDeduplicated = true ∧ c.state.provider.countP (effectiveFor "message-1") = 0 ∧
      ¬SentOnce plainOptions c := by
  constructor
  · obtain ⟨c, hrun, hcount⟩ := (communicationSystem plainOptions).exists_run_of_steps overlapping .empty
      (fun c => c.state.provider.countP (effectiveFor "message-1") = 2) (by decide +kernel)
    have hcount := of_decide_eq_true hcount
    refine ⟨_, c, hrun, hcount, fun h => ?_⟩
    have hle := h.once "message-1"
    omega
  · obtain ⟨c, hrun, hcheck⟩ := (communicationSystem plainOptions).exists_run_of_steps
      (oneAfterTheOther (.blocked .policyBlocked) (leftAttempt .deliveryBlocked [.policyBlocked])) .empty
      (fun c => c.threads.any isDeduplicated && decide (c.state.provider.countP (effectiveFor "message-1") = 0) &&
        c.threads.all fun th => !isEffective th.log) (by decide +kernel)
    simp only [Bool.and_eq_true, decide_eq_true_eq] at hcheck
    obtain ⟨⟨hdeduplicated, hcount⟩, hnone⟩ := hcheck
    refine ⟨_, c, hrun, hdeduplicated, hcount, fun h => ?_⟩
    obtain ⟨th, hth, hanswered⟩ := List.any_eq_true.mp hdeduplicated
    obtain ⟨y, hy, hanswered⟩ := (Option.any_eq_true _ _).mp hanswered
    obtain ⟨outcome, hok, hanswered⟩ := (Option.any_eq_true _ _).mp hanswered
    cases y with
    | error e => cases hok
    | ok answer =>
      obtain rfl := Option.some.inj hok
      cases answer with
      | deduplicated attempt =>
        obtain ⟨-, other, hother, -, heffective⟩ := h.deduplicated th hth attempt hy
        have hall := List.all_eq_true.mp hnone other hother
        rw [heffective] at hall
        cases hall
      | delivered | blocked | failedReviewRequired => cases hanswered

end Message

end NousCore.CommunicationGateway
