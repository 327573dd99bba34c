import NousCore.Agent.Partition

/-!
# When the partitioned path refines the sequential one

* `MayEnd` : a terminal result tells which tool it is from;
* `refines_iff_separable` : the partitioned path refines the sequential one on these turns, and on no others.
-/

namespace NousCore.Agent

/-- Whether a call of a tool may come to a terminal result. -/
def MayEnd (toolName : String) (result : AgentResult) : Prop :=
  match result.outcome with
  | .completed _ _ _ _ => toolName = taskCompleteToolName
  | .escalated _ _ _ _ => toolName = requestEscalationToolName
  | .budgetExhausted _ _ _ _ => isDispatchToolName toolName = true
  | .error _ detail => detail.lookup "toolName" = some (.string toolName)
  | .aborted _ | .suspended _ _ => False

theorem MayEnd.eq_or {toolName toolName' : String} {result : AgentResult} (h : MayEnd toolName result)
    (h' : MayEnd toolName' result) :
    toolName = toolName' ∨ isDispatchToolName toolName = true ∧ isDispatchToolName toolName' = true := by
  unfold MayEnd at h h'
  cases houtcome : result.outcome <;> rw [houtcome] at h h'
  case completed => exact .inl (h.trans h'.symm)
  case escalated => exact .inl (h.trans h'.symm)
  case budgetExhausted => exact .inr ⟨h, h'⟩
  case error => exact .inl (Json.string.inj (Option.some.inj (h.symm.trans h')))
  case aborted => exact h.elim
  case suspended => exact h.elim

/-! ## Turns -/

def EndedBefore (results : Nat → Except Thrown ToolHandlingResult) (i : Nat) : Prop :=
  ∃ j < i, ∃ result, results j = .ok (.terminal result)

/-- A call is rejected, and none before it ends the run. -/
def Rejects (results : Nat → Except Thrown ToolHandlingResult) (n : Nat) : Prop :=
  ∃ i < n, (∃ thrown, results i = .error thrown) ∧ ∀ j < i, ∃ frame, results j = .ok (.frame frame)

def SafeEnds (toolDefinitions : List ToolDefinition) (toolCalls : List ToolCall)
    (results : Nat → Except Thrown ToolHandlingResult) : Prop :=
  ∃ e ∈ concurrentOf toolDefinitions toolCalls, ∃ result, results e.1 = .ok (.terminal result)

/-- What the calls of a turn have to be, so that partitioning them makes no difference. -/
structure Separable (toolDefinitions : List ToolDefinition) (toolCalls : List ToolCall)
    (results : Nat → Except Thrown ToolHandlingResult) : Prop where
  dispatches : ∀ i call, toolCalls[i]? = some call → isDispatchToolName call.name = true → EndedBefore results i
  serial : ∀ e ∈ serialOf toolDefinitions toolCalls, SafeEnds toolDefinitions toolCalls results →
    EndedBefore results e.1
  named : ∀ e ∈ concurrentOf toolDefinitions toolCalls, (∃ thrown, results e.1 = .error thrown) → e.2.name ≠ ""

section Turn

variable (config : ToolConcurrencyConfig) (toolDefinitions : List ToolDefinition) (toolCalls : List ToolCall)
  (handled : Nat → Except Thrown ToolHandlingResult) (batched : Nat → ToolHandlingResult)

/-- What the sequential path returns the partitioned path returns as well: the same frames and the same terminal
result; and each call before the first terminal one, which has its frame among them, is executed once. -/
def Refines : Prop :=
  ∀ frames terminal, (execute handled batched none toolDefinitions toolCalls).1 = .ok (frames, terminal) →
    (execute handled batched (some config) toolDefinitions toolCalls).1 = .ok (frames, terminal) ∧
    ∀ i < frames.length, (execute handled batched (some config) toolDefinitions toolCalls).2.count i = 1

end Turn

section Facts

variable {config : ToolConcurrencyConfig} {toolDefinitions : List ToolDefinition} {toolCalls : List ToolCall}
  {handled : Nat → Except Thrown ToolHandlingResult} {batched : Nat → ToolHandlingResult}
  {results : Nat → Except Thrown ToolHandlingResult} {frames : List GatewayContextFrame}
  {terminal : Option AgentResult} {n : Nat}

variable {e : IndexedCall}

theorem mem_concurrentOf : e ∈ concurrentOf toolDefinitions toolCalls ↔
    toolCalls[e.1]? = some e.2 ∧ isDispatchToolName e.2.name = false ∧ isSafe toolDefinitions e.2.name = true := by
  unfold concurrentOf standardOf
  rw [List.mem_filter, List.mem_filter, mem_indexed, Bool.not_eq_true', and_assoc]

theorem mem_serialOf : e ∈ serialOf toolDefinitions toolCalls ↔
    toolCalls[e.1]? = some e.2 ∧ isDispatchToolName e.2.name = false ∧ isSafe toolDefinitions e.2.name = false := by
  unfold serialOf standardOf
  rw [List.mem_filter, List.mem_filter, mem_indexed, Bool.not_eq_true', Bool.not_eq_true', and_assoc]

variable {i : Nat} {call : ToolCall}

variable (handled batched) in
theorem resultOf_eq (hcall : toolCalls[i]? = some call)
    (hname : isDispatchToolName call.name = false) : resultOf handled batched toolCalls i = handled i := by
  unfold resultOf
  rw [if_neg]
  rintro ⟨-, hmem⟩
  obtain ⟨call', hcall', hdispatch⟩ := mem_dispatchesOf.mp hmem
  rw [hcall, Option.some.injEq] at hcall'
  rw [← hcall', hname] at hdispatch
  cases hdispatch

theorem Yields.frame_of_lt (h : Yields results (List.range n) frames terminal) (hi : i < frames.length) :
    ∃ frame, results i = .ok (.frame frame) := by
  have hlength := h.length_le
  rw [List.length_range] at hlength
  exact h.results_of_lt hi (List.getElem?_range (Nat.lt_of_lt_of_le hi hlength))

theorem not_rejects (h : Yields results (List.range n) frames terminal) : ¬Rejects results n := by
  rintro ⟨i, hi, ⟨thrown, hthrown⟩, hbefore⟩
  have hle : frames.length ≤ i := by
    by_contra hlt
    obtain ⟨frame, hframe⟩ := h.frame_of_lt (not_le.mp hlt)
    exact absurd (hframe.symm.trans hthrown) (by simp)
  rcases h.end_of with ⟨hlength, -⟩ | ⟨k, result, hk, hresult, -⟩
  · rw [List.length_range] at hlength
    omega
  · rw [List.getElem?_range (Nat.lt_of_le_of_lt hle hi), Option.some.injEq] at hk
    rw [← hk] at hresult
    rcases hle.eq_or_lt with heq | hlt
    · rw [heq, hthrown] at hresult
      cases hresult
    · obtain ⟨frame, hframe⟩ := hbefore _ hlt
      exact absurd (hframe.symm.trans hresult) (by simp)

theorem range_eq_append {l₁ l₂ : List Nat} (h : List.range n = l₁ ++ i :: l₂) :
    i < n ∧ l₁ = List.range i := by
  have hi : (List.range n)[l₁.length]? = some i := by rw [h]; simp
  obtain ⟨hlt, heq⟩ := List.getElem?_eq_some_iff.mp hi
  rw [List.getElem_range] at heq
  rw [List.length_range, heq] at hlt
  refine ⟨hlt, ?_⟩
  have htake : (List.range n).take l₁.length = l₁ := by rw [h]; simp
  rw [List.take_range, heq, Nat.min_eq_left hlt.le] at htake
  exact htake.symm

theorem yields_or_rejects (results : Nat → Except Thrown ToolHandlingResult) (n : Nat) :
    (∃ frames terminal, Yields results (List.range n) frames terminal) ∨ Rejects results n := by
  refine (exists_yields results (List.range n)).imp_right ?_
  rintro ⟨l₁, i, l₂, thrown, hl, hframes, hthrown⟩
  obtain ⟨hi, hl₁⟩ := range_eq_append hl
  exact ⟨i, hi, ⟨thrown, hthrown⟩, fun j hj => hframes j (by rw [hl₁]; exact List.mem_range.mpr hj)⟩

theorem Yields.not_endedBefore (h : Yields results (List.range n) frames terminal)
    (hi : i ≤ frames.length) : ¬EndedBefore results i := by
  rintro ⟨j, hj, result, hresult⟩
  obtain ⟨frame, hframe⟩ := h.frame_of_lt (Nat.lt_of_lt_of_le hj hi)
  exact absurd (hframe.symm.trans hresult) (by simp)

theorem mem_standard (hseparable : Separable toolDefinitions toolCalls results)
    (hyields : Yields results (List.range toolCalls.length) frames terminal) (hi : i < toolCalls.length)
    (hle : i ≤ frames.length) : i ∈ (concurrentOf toolDefinitions toolCalls).map Prod.fst ∨
      i ∈ (serialOf toolDefinitions toolCalls).map Prod.fst := by
  have hcall : toolCalls[i]? = some toolCalls[i] := List.getElem?_eq_getElem hi
  cases hname : isDispatchToolName toolCalls[i].name with
  | true => exact absurd (hseparable.dispatches i _ hcall hname) (hyields.not_endedBefore hle)
  | false =>
    cases hsafe : isSafe toolDefinitions toolCalls[i].name with
    | true => exact .inl (List.mem_map_of_mem (mem_concurrentOf (e := (i, toolCalls[i])).mpr ⟨hcall, hname, hsafe⟩))
    | false => exact .inr (List.mem_map_of_mem (mem_serialOf (e := (i, toolCalls[i])).mpr ⟨hcall, hname, hsafe⟩))

theorem Yields.exists_terminal (h : Yields results (List.range n) frames terminal) (hlt : frames.length < n) :
    ∃ result, results frames.length = .ok (.terminal result) ∧ terminal = some result := by
  rcases h.end_of with ⟨hlength, -⟩ | ⟨k, result, hk, hresult, hterminal⟩
  · rw [List.length_range] at hlength
    omega
  · rw [List.getElem?_range hlt, Option.some.injEq] at hk
    exact ⟨result, hk ▸ hresult, hterminal⟩

theorem Yields.safeEnds (h : Yields results (List.range toolCalls.length) frames terminal)
    (hlt : frames.length < toolCalls.length)
    (hsafe : frames.length ∈ (concurrentOf toolDefinitions toolCalls).map Prod.fst) :
    SafeEnds toolDefinitions toolCalls results := by
  obtain ⟨e, he, heq⟩ := List.mem_map.mp hsafe
  obtain ⟨result, hresult, -⟩ := h.exists_terminal hlt
  exact ⟨e, he, result, heq ▸ hresult⟩

/-! ## What the partitioned path records -/

/-- What a turn has recorded, and the calls that were executed after the safe ones. -/
structure Recorded (toolDefinitions : List ToolDefinition) (toolCalls : List ToolCall)
    (results : Nat → Except Thrown ToolHandlingResult) (after : Handled) (executed : List Nat) : Prop where
  safe : ∀ e ∈ concurrentOf toolDefinitions toolCalls,
    ∃ result, settledResult e.2 (results e.1) = .ok result ∧ after.get? e.1 = some result
  stopped : SafeEnds toolDefinitions toolCalls results →
    ∀ i ∈ (serialOf toolDefinitions toolCalls).map Prod.fst, after.get? i = none
  ended : ¬SafeEnds toolDefinitions toolCalls results → ∃ frames terminal,
    Yields results ((serialOf toolDefinitions toolCalls).map Prod.fst) frames terminal ∧
    ∀ i ∈ (serialOf toolDefinitions toolCalls).map Prod.fst, after.get? i =
      if i ∈ ((serialOf toolDefinitions toolCalls).map Prod.fst).take (frames.length + 1) then (results i).toOption
      else none
  other : ∀ i, i ∉ (concurrentOf toolDefinitions toolCalls).map Prod.fst →
    i ∉ (serialOf toolDefinitions toolCalls).map Prod.fst → after.get? i = none
  executed_nodup : executed.Nodup
  mem_executed : ∀ i, i ∈ executed ↔
    i ∈ (serialOf toolDefinitions toolCalls).map Prod.fst ∧ (after.get? i).isSome = true

theorem settledResult_eq_terminal {result : Except Thrown ToolHandlingResult} {x : AgentResult} :
    settledResult call result = .ok (.terminal x) ↔ result = .ok (.terminal x) := by
  unfold settledResult
  cases result with
  | ok result => exact Iff.rfl
  | error thrown =>
    dsimp only
    cases hframe : buildToolErrorFrame call.name call.id thrown <;> simp [Functor.map, Except.map]

theorem settledResult_isOk_iff {result : Except Thrown ToolHandlingResult} :
    (∃ r, settledResult call result = .ok r) ↔ ((∃ thrown, result = .error thrown) → call.name ≠ "") := by
  unfold settledResult
  cases result with
  | ok result => simp
  | error thrown =>
    unfold buildToolErrorFrame createContextFrame
    by_cases hname : call.name = ""
    · simp [hname, Functor.map, Except.map]
    · simp [hname, Functor.map, Except.map]

theorem not_mem_serialOf (h : i ∈ (concurrentOf toolDefinitions toolCalls).map Prod.fst) :
    i ∉ (serialOf toolDefinitions toolCalls).map Prod.fst := by
  intro hserial
  obtain ⟨e, he, rfl⟩ := List.mem_map.mp h
  obtain ⟨e', he', heq⟩ := List.mem_map.mp hserial
  have hsafe := mem_concurrentOf.mp he
  have hunsafe := mem_serialOf.mp he'
  rw [heq, hsafe.1, Option.some.injEq] at hunsafe
  rw [← hunsafe.1, hsafe.2.2] at hunsafe
  cases hunsafe.2.2

theorem not_mem_dispatchesOf
    (h : e ∈ concurrentOf toolDefinitions toolCalls ∨ e ∈ serialOf toolDefinitions toolCalls) :
    e.1 ∉ (dispatchesOf toolCalls).map Prod.fst := by
  intro hmem
  obtain ⟨call, hcall, hdispatch⟩ := mem_dispatchesOf.mp hmem
  have hnot : toolCalls[e.1]? = some e.2 ∧ isDispatchToolName e.2.name = false := by
    rcases h with h | h
    · exact (mem_concurrentOf.mp h).imp_right And.left
    · exact (mem_serialOf.mp h).imp_right And.left
  rw [hnot.1, Option.some.injEq] at hcall
  rw [← hcall, hnot.2] at hdispatch
  cases hdispatch

theorem nodup_serialOf : ((serialOf toolDefinitions toolCalls).map Prod.fst).Nodup :=
  nodup_map_fst_of_sublist (List.filter_sublist.trans List.filter_sublist)

theorem nodup_concurrentOf : ((concurrentOf toolDefinitions toolCalls).map Prod.fst).Nodup :=
  nodup_map_fst_of_sublist (List.filter_sublist.trans List.filter_sublist)

variable (batched) in
theorem exists_concurrent {size : Nat} (hsize : 0 < size) {dispatchResults : Handled} (log : List Nat)
    (hdispatch : ∀ i ∉ (dispatchesOf toolCalls).map Prod.fst, dispatchResults.get? i = none)
    (hsafe : ∀ e ∈ concurrentOf toolDefinitions toolCalls, ∃ result, settledResult e.2 (handled e.1) = .ok result) :
    ∃ concurrent : Handled,
      (∀ e ∈ concurrentOf toolDefinitions toolCalls, ∃ result,
        settledResult e.2 (resultOf handled batched toolCalls e.1) = .ok result ∧ concurrent.get? e.1 = some result) ∧
      (∀ i ∉ (concurrentOf toolDefinitions toolCalls).map Prod.fst, concurrent.get? i = none) ∧
      (concurrent.values.any (·.isTerminal) = true ↔
        SafeEnds toolDefinitions toolCalls (resultOf handled batched toolCalls)) ∧
      start (handlePartitioned (executing handled batched) toolDefinitions size dispatchResults (indexed toolCalls))
        log = start (if concurrent.values.any (·.isTerminal) then pure concurrent
          else handleInOrder (executing handled batched) dispatchResults (serialOf toolDefinitions toolCalls) concurrent)
          (log ++ (concurrentOf toolDefinitions toolCalls).map Prod.fst) := by
  obtain ⟨concurrent, hmem, hnot, hstart⟩ := start_handlePartitioned batched hsize log hdispatch
    hsafe
  have hrecorded : ∀ e ∈ concurrentOf toolDefinitions toolCalls, ∃ result,
      settledResult e.2 (resultOf handled batched toolCalls e.1) = .ok result ∧ concurrent.get? e.1 = some result := by
    intro e he
    obtain ⟨result, hresult⟩ := hsafe e he
    obtain ⟨hcall, hname, -⟩ := mem_concurrentOf.mp he
    refine ⟨result, (resultOf_eq handled batched hcall hname).symm ▸ hresult, ?_⟩
    rw [hmem e he, hresult]
    rfl
  refine ⟨concurrent, hrecorded, hnot, ?_, hstart⟩
  rw [Record.any_values]
  constructor
  · rintro ⟨i, r, hget, hterminal⟩
    have hi : i ∈ (concurrentOf toolDefinitions toolCalls).map Prod.fst := by
      by_contra hi
      rw [hnot i hi] at hget
      cases hget
    obtain ⟨e, he, rfl⟩ := List.mem_map.mp hi
    obtain ⟨result, hresult, hget'⟩ := hrecorded e he
    cases hget.symm.trans hget'
    cases r with
    | frame frame => cases hterminal
    | terminal x => exact ⟨e, he, x, settledResult_eq_terminal.mp hresult⟩
  · rintro ⟨e, he, x, hx⟩
    obtain ⟨result, hresult, hget⟩ := hrecorded e he
    rw [settledResult_eq_terminal.mpr hx, Except.ok.injEq] at hresult
    exact ⟨e.1, result, hget, hresult ▸ rfl⟩

theorem exists_recorded {size : Nat} (hsize : 0 < size) {dispatchResults : Handled} (log : List Nat)
    (hresolved : resolved handled dispatchResults = resultOf handled batched toolCalls)
    (hdispatch : ∀ i ∉ (dispatchesOf toolCalls).map Prod.fst, dispatchResults.get? i = none)
    (hsafe : ∀ e ∈ concurrentOf toolDefinitions toolCalls, ∃ result, settledResult e.2 (handled e.1) = .ok result)
    (hserial : SafeEnds toolDefinitions toolCalls (resultOf handled batched toolCalls) ∨ ∃ frames terminal,
      Yields (resultOf handled batched toolCalls) ((serialOf toolDefinitions toolCalls).map Prod.fst) frames terminal) :
    ∃ after executed,
      start (handlePartitioned (executing handled batched) toolDefinitions size dispatchResults (indexed toolCalls))
        log = (.ok after, log ++ (concurrentOf toolDefinitions toolCalls).map Prod.fst ++ executed) ∧
      Recorded toolDefinitions toolCalls (resultOf handled batched toolCalls) after executed := by
  obtain ⟨concurrent, hrecorded, hnot, hends, hstart⟩ := exists_concurrent batched hsize log
    hdispatch hsafe
  by_cases hstopped : SafeEnds toolDefinitions toolCalls (resultOf handled batched toolCalls)
  · refine ⟨concurrent, [], ?_, ⟨hrecorded, fun _ i hi => hnot i fun hc => not_mem_serialOf hc hi,
      fun h => absurd hstopped h, fun i hc _ => hnot i hc, List.nodup_nil, fun i => ?_⟩⟩
    · rw [hstart, if_pos (hends.mpr hstopped), start_pure, List.append_nil]
    · refine iff_of_false List.not_mem_nil fun ⟨hi, hsome⟩ => ?_
      rw [hnot i fun hc => not_mem_serialOf hc hi] at hsome
      cases hsome
  · obtain ⟨frames, terminal, hyields⟩ := hserial.resolve_left hstopped
    obtain ⟨after, hafter, hget⟩ := start_handleInOrder batched
      (log ++ (concurrentOf toolDefinitions toolCalls).map Prod.fst) (hresolved.symm ▸ hyields) concurrent
    rw [hresolved] at hget
    have hall : (((serialOf toolDefinitions toolCalls).map Prod.fst).take (frames.length + 1)).filter
        (fun i => (dispatchResults.get? i).isNone) =
        ((serialOf toolDefinitions toolCalls).map Prod.fst).take (frames.length + 1) := by
      refine List.filter_eq_self.mpr fun i hi => ?_
      obtain ⟨e, he, rfl⟩ := List.mem_map.mp (List.mem_of_mem_take hi)
      rw [hdispatch e.1 (not_mem_dispatchesOf (.inr he))]
      rfl
    rw [hall] at hafter
    have hserialGet : ∀ i ∈ (serialOf toolDefinitions toolCalls).map Prod.fst, after.get? i =
        if i ∈ ((serialOf toolDefinitions toolCalls).map Prod.fst).take (frames.length + 1)
        then (resultOf handled batched toolCalls i).toOption else none := by
      intro i hi
      rw [hget i, hnot i fun hc => not_mem_serialOf hc hi]
    refine ⟨after, ((serialOf toolDefinitions toolCalls).map Prod.fst).take (frames.length + 1), ?_,
      ⟨fun e he => ?_, fun h => absurd h hstopped,
      fun _ => ⟨frames, terminal, hyields, hserialGet⟩, fun i hc hs => ?_,
      nodup_serialOf.sublist (List.take_sublist _ _), fun i => ?_⟩⟩
    · rw [hstart, if_neg fun h => hstopped (hends.mp h), hafter]
    · obtain ⟨result, hresult, hconcurrent⟩ := hrecorded e he
      refine ⟨result, hresult, ?_⟩
      rw [hget e.1, if_neg fun h => not_mem_serialOf (List.mem_map_of_mem he) (List.mem_of_mem_take h), hconcurrent]
    · rw [hget i, if_neg fun h => hs (List.mem_of_mem_take h), hnot i hc]
    · constructor
      · intro hi
        refine ⟨List.mem_of_mem_take hi, ?_⟩
        obtain ⟨result, hresult⟩ := hyields.exists_ok_of_mem hi
        rw [hget i, if_pos hi, hresult]
        rfl
      · rintro ⟨hi, hsome⟩
        by_contra hnotTaken
        rw [hserialGet i hi, if_neg hnotTaken] at hsome
        cases hsome

variable {after : Handled} {executed : List Nat}

theorem Recorded.isSome_or
    (h : Recorded toolDefinitions toolCalls results after executed) {result : ToolHandlingResult}
    (hget : after.get? i = some result) : (∃ e ∈ concurrentOf toolDefinitions toolCalls, e.1 = i) ∨
      ∃ e ∈ serialOf toolDefinitions toolCalls, e.1 = i ∧ results i = .ok result := by
  by_cases hc : i ∈ (concurrentOf toolDefinitions toolCalls).map Prod.fst
  · obtain ⟨e, he, rfl⟩ := List.mem_map.mp hc
    exact .inl ⟨e, he, rfl⟩
  · have hs : i ∈ (serialOf toolDefinitions toolCalls).map Prod.fst := by
      by_contra hs
      rw [h.other i hc hs] at hget
      cases hget
    obtain ⟨e, he, rfl⟩ := List.mem_map.mp hs
    refine .inr ⟨e, he, rfl, ?_⟩
    by_cases hends : SafeEnds toolDefinitions toolCalls results
    · rw [h.stopped hends e.1 hs] at hget
      cases hget
    · obtain ⟨frames, terminal, -, hended⟩ := h.ended hends
      rw [hended e.1 hs] at hget
      split_ifs at hget
      cases hresult : results e.1 with
      | error thrown =>
        rw [hresult] at hget
        cases hget
      | ok r =>
        rw [hresult] at hget
        exact congrArg Except.ok (Option.some.inj hget)

theorem Recorded.eq_of_get?
    (h : Recorded toolDefinitions toolCalls results after executed) {result result' : ToolHandlingResult}
    (hget : after.get? i = some result) (hresult : results i = .ok result') : result = result' := by
  rcases h.isSome_or hget with ⟨e, he, rfl⟩ | ⟨e, he, rfl, hok⟩
  · obtain ⟨r, hr, hget'⟩ := h.safe e he
    rw [hresult] at hr
    cases hget.symm.trans hget'
    exact (Except.ok.inj hr).symm
  · exact Except.ok.inj (hok.symm.trans hresult)

theorem map_fst_serialOf : (serialOf toolDefinitions toolCalls).map Prod.fst =
    (List.range toolCalls.length).filter fun i => (serialOf toolDefinitions toolCalls).any fun e => e.1 = i := by
  rw [← map_fst_indexed, List.filter_map]
  change List.map Prod.fst (List.filter _ (standardOf toolCalls)) = _
  unfold standardOf
  rw [List.filter_filter]
  refine congrArg _ (List.filter_congr fun e he => Bool.eq_iff_iff.mpr ?_)
  have hmem : (!isSafe toolDefinitions e.2.name && !isDispatchToolName e.2.name) = true ↔
      e ∈ serialOf toolDefinitions toolCalls := by
    rw [mem_serialOf, Bool.and_eq_true, Bool.not_eq_true', Bool.not_eq_true', and_comm]
    exact (and_iff_right (mem_indexed.mp he)).symm
  rw [hmem, Function.comp_apply, List.any_eq_true]
  refine ⟨fun h => ⟨e, h, decide_eq_true rfl⟩, fun ⟨e', he', heq⟩ => ?_⟩
  have hindex : e'.1 = e.1 := of_decide_eq_true heq
  have hcall := (mem_serialOf.mp he').1
  rw [hindex, mem_indexed.mp he, Option.some.injEq] at hcall
  exact (Prod.ext hindex hcall.symm : e' = e) ▸ he'

theorem Recorded.isSome_of_serial
    (h : Recorded toolDefinitions toolCalls results after executed) (hends : ¬SafeEnds toolDefinitions toolCalls results)
    (hyields : Yields results (List.range toolCalls.length) frames terminal)
    (hend : frames.length < toolCalls.length → frames.length ∈ (serialOf toolDefinitions toolCalls).map Prod.fst)
    (hi : i ∈ (serialOf toolDefinitions toolCalls).map Prod.fst) (hle : i ≤ frames.length) :
    (after.get? i).isSome = true := by
  obtain ⟨frames', terminal', hserial, hget⟩ := h.ended hends
  have hany : ∀ j, j ∈ (serialOf toolDefinitions toolCalls).map Prod.fst →
      ((serialOf toolDefinitions toolCalls).any fun e => e.1 = j) = true := by
    intro j hj
    obtain ⟨e, he, rfl⟩ := List.mem_map.mp hj
    exact List.any_eq_true.mpr ⟨e, he, decide_eq_true rfl⟩
  obtain ⟨frames₁, hfilter, htake⟩ := hyields.filter
    (p := fun i => (serialOf toolDefinitions toolCalls).any fun e => e.1 = i) fun k hk => by
      obtain ⟨hlt, rfl⟩ := List.getElem?_eq_some_iff.mp hk
      rw [List.length_range] at hlt
      rw [List.getElem_range]
      exact hany _ (hend hlt)
  rw [← map_fst_serialOf] at hfilter htake
  obtain ⟨rfl, -⟩ := hserial.unique hfilter
  have hlt : i < toolCalls.length := by
    obtain ⟨e, he, rfl⟩ := List.mem_map.mp hi
    exact (List.getElem?_eq_some_iff.mp (mem_serialOf.mp he).1).1
  have hmem := htake i (by rw [List.take_range, List.mem_range]; omega) (hany i hi)
  obtain ⟨r, hr⟩ := hserial.exists_ok_of_mem hmem
  rw [hget i hi, if_pos hmem, hr]
  rfl

theorem Recorded.isSome_of_separable (h : Recorded toolDefinitions toolCalls results after executed)
    (hseparable : Separable toolDefinitions toolCalls results)
    (hyields : Yields results (List.range toolCalls.length) frames terminal) (hi : i < toolCalls.length)
    (hle : i ≤ frames.length) : (after.get? i).isSome = true := by
  rcases mem_standard hseparable hyields hi hle with hsafe | hserial
  · obtain ⟨e, he, rfl⟩ := List.mem_map.mp hsafe
    obtain ⟨r, -, hget⟩ := h.safe e he
    exact hget ▸ rfl
  · have hends : ¬SafeEnds toolDefinitions toolCalls results := by
      intro hends
      obtain ⟨e, he, rfl⟩ := List.mem_map.mp hserial
      exact hyields.not_endedBefore hle (hseparable.serial e he hends)
    refine h.isSome_of_serial hends hyields (fun hlt => ?_) hserial hle
    exact (mem_standard hseparable hyields hlt le_rfl).resolve_left fun hsafe =>
      hends (hyields.safeEnds hlt hsafe)

/-! ## The two directions -/

variable (toolDefinitions toolCalls handled batched) in
theorem execute_partitioned (henabled : config.enabled = true) : ∃ (dispatchResults : Handled) (size : Nat) (log : List Nat),
    0 < size ∧ resolved handled dispatchResults = resultOf handled batched toolCalls ∧
    (∀ i ∉ (dispatchesOf toolCalls).map Prod.fst, dispatchResults.get? i = none) ∧
    (∀ i ∉ (dispatchesOf toolCalls).map Prod.fst, i ∉ log) ∧
    execute handled batched (some config) toolDefinitions toolCalls = start (do
      let handled ← handlePartitioned (executing handled batched) toolDefinitions size dispatchResults (indexed toolCalls)
      return collect handled (List.range toolCalls.length)) log := by
  obtain ⟨dispatchResults, hbatch, hresolved, hdispatch⟩ :=
    start_dispatches handled batched toolCalls
  have hsize : 1 < config.maxConcurrent.getD 1 := of_decide_eq_true ((Bool.and_eq_true _ _).mp henabled).2
  refine ⟨dispatchResults, config.maxConcurrent.getD 1,
    if 1 < (dispatchesOf toolCalls).length then (dispatchesOf toolCalls).map Prod.fst else [],
    Nat.lt_trans Nat.zero_lt_one hsize, hresolved, hdispatch, fun i hi => ?_, ?_⟩
  · split_ifs
    · exact hi
    · exact List.not_mem_nil
  · have hcalls : handleCalls (executing handled batched) (some config) toolDefinitions dispatchResults
        (indexed toolCalls) = handlePartitioned (executing handled batched) toolDefinitions
          (config.maxConcurrent.getD 1) dispatchResults (indexed toolCalls) := if_pos henabled
    rw [← hcalls]
    exact start_bind_ok hbatch

theorem refines_of_separable (henabled : config.enabled = true)
    (hseparable : Separable toolDefinitions toolCalls (resultOf handled batched toolCalls)) :
    Refines config toolDefinitions toolCalls handled batched := by
  intro frames terminal hsequential
  have hyields := execute_sequential_iff.mp hsequential
  obtain ⟨dispatchResults, size, log, hsize, hresolved, hdispatch, hlog, hexecute⟩ :=
    execute_partitioned toolDefinitions toolCalls handled batched henabled
  have hsafe : ∀ e ∈ concurrentOf toolDefinitions toolCalls, ∃ result,
      settledResult e.2 (handled e.1) = .ok result := by
    intro e he
    obtain ⟨hcall, hname, -⟩ := mem_concurrentOf.mp he
    rw [settledResult_isOk_iff, ← resultOf_eq handled batched hcall hname]
    exact hseparable.named e he
  have hserial : SafeEnds toolDefinitions toolCalls (resultOf handled batched toolCalls) ∨ ∃ frames terminal,
      Yields (resultOf handled batched toolCalls) ((serialOf toolDefinitions toolCalls).map Prod.fst) frames
        terminal := by
    by_cases hends : SafeEnds toolDefinitions toolCalls (resultOf handled batched toolCalls)
    · exact .inl hends
    · refine .inr ?_
      rw [map_fst_serialOf]
      obtain ⟨frames', hfilter, -⟩ := hyields.filter
        (p := fun i => (serialOf toolDefinitions toolCalls).any fun e => e.1 = i) fun k hk => by
          obtain ⟨hlt, rfl⟩ := List.getElem?_eq_some_iff.mp hk
          rw [List.length_range] at hlt
          rw [List.getElem_range]
          have hmem := (mem_standard hseparable hyields hlt le_rfl).resolve_left fun hsafe =>
            hends (hyields.safeEnds hlt hsafe)
          obtain ⟨e, he, heq⟩ := List.mem_map.mp hmem
          exact List.any_eq_true.mpr ⟨e, he, decide_eq_true heq⟩
      exact ⟨frames', terminal, hfilter⟩
  obtain ⟨after, executed, hstart, hrecorded⟩ := exists_recorded hsize log hresolved hdispatch hsafe hserial
  rw [hexecute, start_bind_ok hstart, start_pure]
  refine ⟨congrArg Except.ok (hyields.collect fun i hi => ?_), fun i hi => ?_⟩
  · have hmem := hyields.exists_ok_of_mem hi
    obtain ⟨r, hr⟩ := hmem
    rw [List.take_range, List.mem_range] at hi
    have hsome := hrecorded.isSome_of_separable hseparable hyields (i := i) (by omega) (by omega)
    obtain ⟨r', hr'⟩ := Option.isSome_iff_exists.mp hsome
    rw [hr', hrecorded.eq_of_get? hr' hr, hr]
    rfl
  · have hlt : i < toolCalls.length := by
      have := hyields.length_le
      rw [List.length_range] at this
      omega
    have hsome := hrecorded.isSome_of_separable hseparable hyields hlt hi.le
    rw [List.count_append, List.count_append]
    rcases mem_standard hseparable hyields hlt hi.le with hconcurrent | hserial
    · obtain ⟨e, he, heq⟩ := List.mem_map.mp hconcurrent
      have hnot := heq ▸ not_mem_dispatchesOf (.inl he)
      have hnotExecuted : i ∉ executed := fun h => not_mem_serialOf hconcurrent ((hrecorded.mem_executed i).mp h).1
      rw [List.count_eq_zero_of_not_mem (hlog i hnot), List.count_eq_zero_of_not_mem hnotExecuted,
        List.count_eq_one_of_mem nodup_concurrentOf hconcurrent]
    · obtain ⟨e, he, heq⟩ := List.mem_map.mp hserial
      have hnot := heq ▸ not_mem_dispatchesOf (.inr he)
      have hexecuted : i ∈ executed := (hrecorded.mem_executed i).mpr ⟨hserial, hsome⟩
      rw [List.count_eq_zero_of_not_mem (hlog i hnot),
        List.count_eq_zero_of_not_mem fun h => not_mem_serialOf h hserial,
        List.count_eq_one_of_mem hrecorded.executed_nodup hexecuted]

theorem exists_recorded_of_execute (henabled : config.enabled = true)
    (h : (execute handled batched (some config) toolDefinitions toolCalls).1 = .ok (frames, terminal)) :
    ∃ after executed, Recorded toolDefinitions toolCalls (resultOf handled batched toolCalls) after executed ∧
      collect after (List.range toolCalls.length) = (frames, terminal) := by
  obtain ⟨dispatchResults, size, log, hsize, hresolved, hdispatch, -, hexecute⟩ :=
    execute_partitioned toolDefinitions toolCalls handled batched henabled
  rw [hexecute] at h
  cases hhandle : start (handlePartitioned (executing handled batched) toolDefinitions size dispatchResults
      (indexed toolCalls)) log with
  | mk result log' =>
    cases result with
    | error thrown =>
      rw [start_bind_error hhandle] at h
      cases h
    | ok after =>
      have hsafe := exists_result_of_handlePartitioned hsize hdispatch hhandle
      have hserial : SafeEnds toolDefinitions toolCalls (resultOf handled batched toolCalls) ∨ ∃ frames terminal,
          Yields (resultOf handled batched toolCalls) ((serialOf toolDefinitions toolCalls).map Prod.fst) frames
            terminal := by
        obtain ⟨concurrent, -, -, hends, hstart⟩ := exists_concurrent batched hsize log
          hdispatch hsafe
        by_cases hstopped : SafeEnds toolDefinitions toolCalls (resultOf handled batched toolCalls)
        · exact .inl hstopped
        · rw [hhandle, if_neg fun h => hstopped (hends.mp h)] at hstart
          rw [← hresolved]
          exact .inr (exists_yields_of_handleInOrder hstart.symm)
      obtain ⟨after', executed, hstart, hrecorded⟩ := exists_recorded hsize log hresolved hdispatch hsafe
        hserial
      rw [hhandle, Prod.mk.injEq, Except.ok.injEq] at hstart
      rw [start_bind_ok hhandle, start_pure] at h
      exact ⟨after', executed, hrecorded, hstart.1 ▸ Except.ok.inj h⟩

/-- The call that ends the turn is recorded if one with its terminal result is: that is a call of the same tool. -/
theorem Recorded.isSome_of_terminal (h : Recorded toolDefinitions toolCalls results after executed)
    (hends : ∀ i call result, toolCalls[i]? = some call → results i = .ok (.terminal result) →
      MayEnd call.name result)
    (hyields : Yields results (List.range toolCalls.length) frames terminal) {t : Nat} {result : AgentResult}
    (ht : after.get? t = some (.terminal result)) (hterminal : results frames.length = .ok (.terminal result))
    (hlt : frames.length < toolCalls.length) : (after.get? frames.length).isSome = true := by
  have hcall : toolCalls[frames.length]? = some toolCalls[frames.length] := List.getElem?_eq_getElem hlt
  have hend := hends _ _ _ hcall hterminal
  rcases h.isSome_or ht with ⟨e, he, rfl⟩ | ⟨e, he, rfl, hresult⟩
  · obtain ⟨r, hr, hget⟩ := h.safe e he
    cases ht.symm.trans hget
    obtain ⟨hcall', hname, hsafe⟩ := mem_concurrentOf.mp he
    rcases hend.eq_or (hends _ _ _ hcall' (settledResult_eq_terminal.mp hr)) with hsame | ⟨-, hdispatch⟩
    · obtain ⟨r, -, hget⟩ := h.safe (frames.length, toolCalls[frames.length])
        (mem_concurrentOf.mpr ⟨hcall, hsame ▸ hname, hsame ▸ hsafe⟩)
      exact hget ▸ rfl
    · exact absurd (hname.symm.trans hdispatch) Bool.false_ne_true
  · obtain ⟨hcall', hname, hsafe⟩ := mem_serialOf.mp he
    have hstopped : ¬SafeEnds toolDefinitions toolCalls results := fun hstopped => by
      rw [h.stopped hstopped e.1 (List.mem_map_of_mem he)] at ht
      cases ht
    rcases hend.eq_or (hends _ _ _ hcall' hresult) with hsame | ⟨-, hdispatch⟩
    · have hserial : frames.length ∈ (serialOf toolDefinitions toolCalls).map Prod.fst :=
        List.mem_map_of_mem (mem_serialOf (e := (frames.length, toolCalls[frames.length])).mpr
          ⟨hcall, hsame ▸ hname, hsame ▸ hsafe⟩)
      exact h.isSome_of_serial hstopped hyields (fun _ => hserial) hserial le_rfl
    · exact absurd (hname.symm.trans hdispatch) Bool.false_ne_true

theorem Recorded.isSome_of_collect (h : Recorded toolDefinitions toolCalls results after executed)
    (hends : ∀ i call result, toolCalls[i]? = some call → results i = .ok (.terminal result) →
      MayEnd call.name result)
    (hyields : Yields results (List.range toolCalls.length) frames terminal)
    (hcollect : collect after (List.range toolCalls.length) = (frames, terminal))
    (hi : i < toolCalls.length) (hle : i ≤ frames.length) : (after.get? i).isSome = true := by
  rcases collect_spec after (List.range toolCalls.length) with
    ⟨l₁, t, l₂, result, hl, ht, hresult, hbefore, hlength⟩ | ⟨hnone, -, hlength⟩
  · obtain ⟨htlt, rfl⟩ := range_eq_append hl
    rw [hcollect] at hresult hlength
    have hk : frames.length ≤ t := by
      rw [hlength]
      exact List.countP_le_length.trans (List.length_range).le
    have hklt : frames.length < toolCalls.length := Nat.lt_of_le_of_lt hk htlt
    obtain ⟨result', hterminal, heq⟩ := hyields.exists_terminal hklt
    obtain rfl := Option.some.inj (heq.symm.trans hresult)
    have hsome := h.isSome_of_terminal hends hyields ht hterminal hklt
    obtain ⟨r, hr⟩ := Option.isSome_iff_exists.mp hsome
    have hkt : frames.length = t := by
      refine hk.antisymm (not_lt.mp fun hlt => hbefore _ (List.mem_range.mpr hlt) result' ?_)
      rw [hr, h.eq_of_get? hr hterminal]
    rcases hle.eq_or_lt with rfl | hlt
    · exact hsome
    · rw [← hkt] at hlength
      have hcount : (List.range frames.length).countP (fun j => (after.get? j).isSome) =
          (List.range frames.length).length := by rw [← hlength, List.length_range]
      exact List.countP_eq_length.mp hcount i (List.mem_range.mpr hlt)
  · rw [hcollect] at hnone hlength
    have hall : frames.length = toolCalls.length := by
      rcases hyields.end_of with ⟨hall, -⟩ | ⟨k, result, -, -, hsome⟩
      · rwa [List.length_range] at hall
      · exact absurd (hnone.symm.trans hsome) (by simp)
    have hcount : (List.range toolCalls.length).countP (fun j => (after.get? j).isSome) =
        (List.range toolCalls.length).length := by rw [← hlength, List.length_range, hall]
    exact List.countP_eq_length.mp hcount i (List.mem_range.mpr hi)

theorem separable_of_refines (henabled : config.enabled = true)
    (hends : ∀ i call result, toolCalls[i]? = some call →
      resultOf handled batched toolCalls i = .ok (.terminal result) → MayEnd call.name result)
    (hyields : Yields (resultOf handled batched toolCalls) (List.range toolCalls.length) frames terminal)
    (hrefines : Refines config toolDefinitions toolCalls handled batched) :
    Separable toolDefinitions toolCalls (resultOf handled batched toolCalls) := by
  obtain ⟨after, executed, hrecorded, hcollect⟩ := exists_recorded_of_execute henabled
    (hrefines frames terminal (execute_sequential_iff.mpr hyields)).1
  have hsome : ∀ i < toolCalls.length, after.get? i = none → frames.length < i := by
    intro i hi hnone
    by_contra hle
    have hsome := hrecorded.isSome_of_collect hends hyields hcollect hi (not_lt.mp hle)
    rw [hnone] at hsome
    cases hsome
  have hended : ∀ i < toolCalls.length, frames.length < i → EndedBefore (resultOf handled batched toolCalls) i := by
    intro i hi hlt
    obtain ⟨result, hresult, -⟩ := hyields.exists_terminal (Nat.lt_trans hlt hi)
    exact ⟨frames.length, hlt, result, hresult⟩
  refine ⟨fun i call hcall hname => ?_, fun e he hsafeEnds => ?_, fun e he hthrown => ?_⟩
  · have hi := (List.getElem?_eq_some_iff.mp hcall).1
    have hmem : i ∈ (dispatchesOf toolCalls).map Prod.fst := mem_dispatchesOf.mpr ⟨call, hcall, hname⟩
    refine hended i hi (hsome i hi (hrecorded.other i (fun hc => ?_) fun hs => ?_))
    · obtain ⟨e, he, rfl⟩ := List.mem_map.mp hc
      exact not_mem_dispatchesOf (.inl he) hmem
    · obtain ⟨e, he, rfl⟩ := List.mem_map.mp hs
      exact not_mem_dispatchesOf (.inr he) hmem
  · have hi := (List.getElem?_eq_some_iff.mp (mem_serialOf.mp he).1).1
    exact hended e.1 hi (hsome e.1 hi (hrecorded.stopped hsafeEnds e.1 (List.mem_map_of_mem he)))
  · obtain ⟨result, hresult, -⟩ := hrecorded.safe e he
    exact settledResult_isOk_iff.mp ⟨result, hresult⟩ hthrown

end Facts

/-- **The partitioned path refines the sequential one on separable turns.** Calls whose results do not depend on the
order of execution are given by their results, and a terminal result tells which tool it is from. Then the frames, the
terminal result and the calls executed before it are those of the sequential path exactly when that path rejects the
turn, or when it is separable: no dispatch call comes before the end of the run, nor does a call that is not safe when
a safe one ends it, and no safe call without a name is rejected. -/
theorem refines_iff_separable (config : ToolConcurrencyConfig) (toolDefinitions : List ToolDefinition)
    (toolCalls : List ToolCall) (handled : Nat → Except Thrown ToolHandlingResult) (batched : Nat → ToolHandlingResult)
    (henabled : config.enabled = true)
    (hends : ∀ i call result, toolCalls[i]? = some call →
      resultOf handled batched toolCalls i = .ok (.terminal result) → MayEnd call.name result) :
    Refines config toolDefinitions toolCalls handled batched ↔
      Rejects (resultOf handled batched toolCalls) toolCalls.length ∨
        Separable toolDefinitions toolCalls (resultOf handled batched toolCalls) := by
  constructor
  · intro hrefines
    rcases yields_or_rejects (resultOf handled batched toolCalls) toolCalls.length with ⟨_, _, hyields⟩ | hrejects
    · exact .inr (separable_of_refines henabled hends hyields hrefines)
    · exact .inl hrejects
  · rintro (hrejects | hseparable)
    · intro frames terminal hsequential
      exact absurd hrejects (not_rejects (execute_sequential_iff.mp hsequential))
    · exact refines_of_separable henabled hseparable

/-! ## Two turns -/

def twoAtATime : ToolConcurrencyConfig := ⟨some 2, some true⟩

def searchIsSafe : List ToolDefinition := [⟨"search", some true⟩]

def searchTwiceAndComplete : List ToolCall :=
  [⟨"search", .null, some "a"⟩, ⟨"search", .null, some "b"⟩, ⟨taskCompleteToolName, .null, some "c"⟩]

def resultFrame : GatewayContextFrame := ⟨.tool, .toolResult, "found", none, none⟩

def completedResult : AgentResult :=
  ⟨.completed .null .null none [], ⟨"run", none, 1⟩, ⟨.ofNat 1, .ofNat 0, .ofNat 0, .ofNat 0⟩, []⟩

/-- Two searches are found, and the third call ends the run. -/
def searchResults (i : Nat) : Except Thrown ToolHandlingResult :=
  if i = 2 then .ok (.terminal completedResult) else .ok (.frame resultFrame)

theorem searchTwiceAndComplete_refines :
    Refines twoAtATime searchIsSafe searchTwiceAndComplete searchResults fun _ => .frame resultFrame := by
  have hresult : resultOf searchResults (fun _ => .frame resultFrame) searchTwiceAndComplete = searchResults := by
    funext i
    exact if_neg fun h => absurd h.1 (by decide +kernel)
  have hterminal : ∀ i call result, searchTwiceAndComplete[i]? = some call →
      searchResults i = .ok (.terminal result) → i = 2 ∧ call.name = taskCompleteToolName ∧ result = completedResult := by
    intro i call result hcall hresult
    unfold searchResults at hresult
    split_ifs at hresult with hi
    · subst hi
      cases hcall
      exact ⟨rfl, rfl, (ToolHandlingResult.terminal.inj (Except.ok.inj hresult)).symm⟩
    · cases hresult
  refine (refines_iff_separable twoAtATime searchIsSafe searchTwiceAndComplete searchResults _ (by decide +kernel)
    ?_).mpr (.inr ⟨?_, ?_, ?_⟩)
  · intro i call result hcall hok
    rw [hresult] at hok
    obtain ⟨-, hname, rfl⟩ := hterminal i call result hcall hok
    exact hname
  · intro i call hcall hname
    have hnone : ∀ call ∈ searchTwiceAndComplete, isDispatchToolName call.name = false := by decide +kernel
    rw [hnone call (List.mem_of_getElem? hcall)] at hname
    cases hname
  · rintro e - ⟨e', he', result, hok⟩
    rw [hresult] at hok
    obtain ⟨hcall, -, hsafe⟩ := mem_concurrentOf.mp he'
    obtain ⟨-, hname, -⟩ := hterminal e'.1 e'.2 result hcall hok
    rw [hname] at hsafe
    exact absurd hsafe (by decide +kernel)
  · rintro e - ⟨thrown, hthrown⟩
    rw [hresult] at hthrown
    unfold searchResults at hthrown
    split_ifs at hthrown

def dispatchOnce : List ToolCall := [⟨dispatchWorkerToolName, .null, some "a"⟩]

/-- The only dispatch call of a turn is neither executed nor answered. -/
theorem dispatchOnce_not_refines : twoAtATime.enabled = true ∧
    ¬Refines twoAtATime [] dispatchOnce (fun _ => .ok (.frame resultFrame)) fun _ => .frame resultFrame := by
  refine ⟨by decide +kernel, fun h => ?_⟩
  have hsequential : (execute (fun _ => .ok (.frame resultFrame)) (fun _ => .frame resultFrame) none [] dispatchOnce).1 =
      .ok ([resultFrame], none) := by rfl
  have hpartitioned : (execute (fun _ => .ok (.frame resultFrame)) (fun _ => .frame resultFrame) (some twoAtATime) []
      dispatchOnce).1 = .ok ([], none) := by rfl
  have hsame := (h _ _ hsequential).1
  rw [hpartitioned] at hsame
  cases hsame

end NousCore.Agent
