import NousCore.Agent.ToolCalls

/-!
# Partitioned tool calls

* `start_handleInOrder`, `start_handleChunks`, `start_handlePartitioned` : what the loops return and execute;
* `execute_sequential_iff` : the sequential path returns what the turn has to come to.
-/

namespace NousCore.Agent

/-! ## What a turn comes to -/

/-- Frame after frame, until a call ends the run. -/
inductive Yields (results : Nat → Except Thrown ToolHandlingResult) :
    List Nat → List GatewayContextFrame → Option AgentResult → Prop
  | nil : Yields results [] [] none
  | frame {index : Nat} {rest : List Nat} {frame : GatewayContextFrame} {frames : List GatewayContextFrame}
      {terminal : Option AgentResult} : results index = .ok (.frame frame) → Yields results rest frames terminal →
      Yields results (index :: rest) (frame :: frames) terminal
  | terminal {index : Nat} {rest : List Nat} {result : AgentResult} : results index = .ok (.terminal result) →
      Yields results (index :: rest) [] (some result)

section Yields

variable {results : Nat → Except Thrown ToolHandlingResult} {l : List Nat} {frames : List GatewayContextFrame}
  {terminal : Option AgentResult} {handled : Handled}

theorem exists_yields (results : Nat → Except Thrown ToolHandlingResult) (l : List Nat) :
    (∃ frames terminal, Yields results l frames terminal) ∨
      ∃ l₁ index l₂ thrown, l = l₁ ++ index :: l₂ ∧ (∀ i ∈ l₁, ∃ frame, results i = .ok (.frame frame)) ∧
        results index = .error thrown := by
  induction l with
  | nil => exact .inl ⟨[], none, .nil⟩
  | cons index rest ih =>
    cases hresult : results index with
    | error thrown => exact .inr ⟨[], index, rest, thrown, rfl, by simp, hresult⟩
    | ok result =>
      cases result with
      | terminal result => exact .inl ⟨[], some result, .terminal hresult⟩
      | frame frame =>
        rcases ih with ⟨frames, terminal, h⟩ | ⟨l₁, i, l₂, thrown, rfl, hframes, hthrown⟩
        · exact .inl ⟨frame :: frames, terminal, .frame hresult h⟩
        · refine .inr ⟨index :: l₁, i, l₂, thrown, rfl, ?_, hthrown⟩
          exact List.forall_mem_cons.mpr ⟨⟨frame, hresult⟩, hframes⟩

section

variable (h : Yields results l frames terminal)

include h

theorem Yields.length_le : frames.length ≤ l.length := by
  induction h with
  | nil => exact Nat.le_refl _
  | frame _ _ ih => exact Nat.succ_le_succ ih
  | terminal _ => exact Nat.zero_le _

theorem Yields.results_of_lt {k i : Nat} (hk : k < frames.length)
    (hi : l[k]? = some i) : ∃ frame, results i = .ok (.frame frame) := by
  induction h generalizing k with
  | nil => cases hk
  | @frame index rest frame frames terminal hresult _ ih =>
    cases k with
    | zero =>
      cases hi
      exact ⟨frame, hresult⟩
    | succ k => exact ih (Nat.lt_of_succ_lt_succ hk) hi
  | terminal _ => cases hk

theorem Yields.end_of :
    (frames.length = l.length ∧ terminal = none) ∨
      ∃ i result, l[frames.length]? = some i ∧ results i = .ok (.terminal result) ∧ terminal = some result := by
  induction h with
  | nil => exact .inl ⟨rfl, rfl⟩
  | frame _ _ ih =>
    rcases ih with ⟨hlength, hterminal⟩ | ih
    · exact .inl ⟨congrArg (· + 1) hlength, hterminal⟩
    · exact .inr ih
  | @terminal index rest result hresult => exact .inr ⟨index, result, rfl, hresult, rfl⟩

theorem Yields.exists_ok_of_mem {i : Nat}
    (hi : i ∈ l.take (frames.length + 1)) : ∃ result, results i = .ok result := by
  induction h with
  | nil => cases hi
  | @frame index rest frame frames terminal hresult _ ih =>
    rw [List.length_cons, List.take_succ_cons, List.mem_cons] at hi
    rcases hi with rfl | hi
    · exact ⟨_, hresult⟩
    · exact ih hi
  | @terminal index rest result hresult =>
    rw [List.length_nil, List.take_succ_cons, List.take_zero, List.mem_singleton] at hi
    exact ⟨_, hi ▸ hresult⟩

theorem Yields.collect
    (hhandled : ∀ i ∈ l.take (frames.length + 1), handled.get? i = (results i).toOption) :
    Agent.collect handled l = (frames, terminal) := by
  induction h with
  | nil => rfl
  | @frame index rest frame frames terminal hresult _ ih =>
    have hget : handled.get? index = some (.frame frame) := by
      rw [hhandled index (by simp), hresult]
      rfl
    have hrest := ih fun i hi => hhandled i (by simpa using .inr hi)
    unfold Agent.collect
    rw [hget]
    rw [hrest]
  | @terminal index rest result hresult =>
    unfold Agent.collect
    rw [hhandled index (by simp), hresult]
    rfl

theorem Yields.filter {p : Nat → Bool}
    (hp : ∀ i, l[frames.length]? = some i → p i = true) : ∃ frames', Yields results (l.filter p) frames' terminal ∧
      ∀ i ∈ l.take (frames.length + 1), p i = true → i ∈ (l.filter p).take (frames'.length + 1) := by
  induction h with
  | nil => exact ⟨[], .nil, by simp⟩
  | @frame index rest frame frames terminal hresult _ ih =>
    obtain ⟨frames', hyields, htake⟩ := ih hp
    by_cases hindex : p index = true
    · rw [List.filter_cons_of_pos hindex]
      refine ⟨frame :: frames', .frame hresult hyields, fun i hi hpi => ?_⟩
      rw [List.length_cons, List.take_succ_cons, List.mem_cons] at hi ⊢
      exact hi.imp_right fun hi => htake i hi hpi
    · rw [List.filter_cons_of_neg hindex]
      refine ⟨frames', hyields, fun i hi hpi => ?_⟩
      rw [List.length_cons, List.take_succ_cons, List.mem_cons] at hi
      rcases hi with rfl | hi
      · exact absurd hpi hindex
      · exact htake i hi hpi
  | @terminal index rest result hresult =>
    rw [List.filter_cons_of_pos (hp index rfl)]
    exact ⟨[], .terminal hresult, by simp⟩

end

end Yields

theorem collect_spec (handled : Handled) (l : List Nat) :
    (∃ l₁ i l₂ result, l = l₁ ++ i :: l₂ ∧ handled.get? i = some (.terminal result) ∧
      (collect handled l).2 = some result ∧ (∀ j ∈ l₁, ∀ result, handled.get? j ≠ some (.terminal result)) ∧
      (collect handled l).1.length = l₁.countP fun j => (handled.get? j).isSome) ∨
    ((collect handled l).2 = none ∧ (∀ j ∈ l, ∀ result, handled.get? j ≠ some (.terminal result)) ∧
      (collect handled l).1.length = l.countP fun j => (handled.get? j).isSome) := by
  induction l with
  | nil => exact .inr ⟨rfl, by simp, rfl⟩
  | cons index rest ih =>
    unfold collect
    cases hget : handled.get? index with
    | none =>
      rcases ih with ⟨l₁, i, l₂, result, rfl, hi, hresult, hbefore, hlength⟩ | ⟨hresult, hbefore, hlength⟩
      · refine .inl ⟨index :: l₁, i, l₂, result, rfl, hi, hresult, ?_, ?_⟩
        · exact List.forall_mem_cons.mpr ⟨by simp [hget], hbefore⟩
        · rw [hlength, List.countP_cons_of_neg (by simp [hget])]
      · refine .inr ⟨hresult, ?_, ?_⟩
        · exact List.forall_mem_cons.mpr ⟨by simp [hget], hbefore⟩
        · rw [hlength, List.countP_cons_of_neg (by simp [hget])]
    | some x =>
      cases x with
      | terminal result => exact .inl ⟨[], index, rest, result, rfl, hget, rfl, by simp, rfl⟩
      | frame frame =>
        rcases ih with ⟨l₁, i, l₂, result, rfl, hi, hresult, hbefore, hlength⟩ | ⟨hresult, hbefore, hlength⟩
        · refine .inl ⟨index :: l₁, i, l₂, result, rfl, hi, hresult, ?_, ?_⟩
          · exact List.forall_mem_cons.mpr ⟨by simp [hget], hbefore⟩
          · rw [List.length_cons, hlength, List.countP_cons_of_pos (by simp [hget])]
        · refine .inr ⟨hresult, ?_, ?_⟩
          · exact List.forall_mem_cons.mpr ⟨by simp [hget], hbefore⟩
          · rw [List.length_cons, hlength, List.countP_cons_of_pos (by simp [hget])]

theorem Yields.unique {results : Nat → Except Thrown ToolHandlingResult} {l : List Nat}
    {frames frames' : List GatewayContextFrame} {terminal terminal' : Option AgentResult}
    (h : Yields results l frames terminal) (h' : Yields results l frames' terminal') :
    frames = frames' ∧ terminal = terminal' := by
  induction h generalizing frames' terminal' with
  | nil =>
    cases h'
    exact ⟨rfl, rfl⟩
  | @frame index rest frame frames terminal hresult _ ih =>
    cases h' with
    | frame hresult' hrest =>
      obtain ⟨rfl, rfl⟩ := ih hrest
      rw [hresult, Except.ok.injEq, ToolHandlingResult.frame.injEq] at hresult'
      exact ⟨by rw [hresult'], rfl⟩
    | terminal hresult' => exact absurd (hresult.symm.trans hresult') (by simp)
  | @terminal index rest result hresult =>
    cases h' with
    | frame hresult' _ => exact absurd (hresult.symm.trans hresult') (by simp)
    | terminal hresult' =>
      rw [hresult, Except.ok.injEq, ToolHandlingResult.terminal.injEq] at hresult'
      exact ⟨rfl, congrArg some hresult'⟩

/-! ## Calls whose results are given -/

/-- A handling of calls that logs which of them it executes. -/
abbrev Executing := ExceptT Thrown (StateM (List Nat))

/-- The calls come to the results that are given, whenever they are executed. -/
def executing (handled : Nat → Except Thrown ToolHandlingResult) (batched : Nat → ToolHandlingResult) :
    ToolHandlers Executing where
  handleToolCall index _ := do
    modify (· ++ [index])
    MonadExcept.ofExcept (handled index)
  handleDispatchBatch calls := do
    modify (· ++ calls.map Prod.fst)
    return .ofEntries (calls.map fun e => (e.1, batched e.1))

/-- From the calls that were executed before to those that were afterwards. -/
def start {α : Type} (x : Executing α) (log : List Nat) : Except Thrown α × List Nat := x.run.run log

/-- What the handling of a turn returns, and the calls that were executed, in order. -/
def execute (handled : Nat → Except Thrown ToolHandlingResult) (batched : Nat → ToolHandlingResult)
    (concurrency : Option ToolConcurrencyConfig) (toolDefinitions : List ToolDefinition) (toolCalls : List ToolCall) :
    Except Thrown (List GatewayContextFrame × Option AgentResult) × List Nat :=
  start (handleToolCalls (executing handled batched) concurrency toolDefinitions toolCalls) []

section Start

variable {α β : Type} {x : Executing α} {f : α → Executing β} {log log' : List Nat}

@[simp] theorem start_pure (a : α) : start (pure a) log = (.ok a, log) := rfl

@[simp] theorem start_throw (thrown : Thrown) : start (throw thrown : Executing α) log = (.error thrown, log) := rfl

theorem start_bind_ok {a : α} (h : start x log = (.ok a, log')) : start (x >>= f) log = start (f a) log' := by
  have hx : x.run.run log = pure (.ok a, log') := h
  unfold start
  rw [ExceptT.run_bind, StateT.run_bind, hx]
  rfl

theorem start_bind_error {thrown : Thrown} (h : start x log = (.error thrown, log')) :
    start (x >>= f) log = (.error thrown, log') := by
  have hx : x.run.run log = pure (.error thrown, log') := h
  unfold start
  rw [ExceptT.run_bind, StateT.run_bind, hx]
  rfl

theorem start_settle {result : Except Thrown α} (h : start x log = (result, log')) :
    start (settle x) log = (.ok result, log') := by
  have hmap : start (Except.ok (ε := Thrown) <$> x) log = (Except.ok <$> result, log') := by
    rw [map_eq_pure_bind]
    cases result with
    | ok a => exact start_bind_ok h
    | error thrown => exact start_bind_error h
  have hx : (Except.ok (ε := Thrown) <$> x).run.run log = pure (Except.ok <$> result, log') := hmap
  unfold settle start
  rw [ExceptT.run_tryCatch, StateT.run_bind, hx]
  cases result <;> rfl

theorem start_ofExcept (e : Except Thrown α) : start (MonadExcept.ofExcept e) log = (e, log) := by
  cases e <;> rfl

end Start

/-! ## What the paths handle -/

/-- A rejected call of a chunk comes to its error frame, if it has one. -/
def settledResult (call : ToolCall) : Except Thrown ToolHandlingResult → Except Thrown ToolHandlingResult
  | .ok result => .ok result
  | .error thrown => .frame <$> buildToolErrorFrame call.name call.id thrown

/-- The result of a call: that of the batch it was in, or its own. -/
def resolved (handled : Nat → Except Thrown ToolHandlingResult) (dispatchResults : Handled) (index : Nat) :
    Except Thrown ToolHandlingResult :=
  match dispatchResults.get? index with
  | some result => .ok result
  | none => handled index

variable {after : Handled}

section Paths

variable {handled : Nat → Except Thrown ToolHandlingResult} {batched : Nat → ToolHandlingResult}
  {dispatchResults : Handled} {calls : List IndexedCall} {log : List Nat}

theorem start_handleToolCall (index : Nat) (call : ToolCall) :
    start ((executing handled batched).handleToolCall index call) log = (handled index, log ++ [index]) := by
  have hmodify : start (modify (· ++ [index]) : Executing Unit) log = (.ok (), log ++ [index]) := rfl
  exact (start_bind_ok hmodify).trans (start_ofExcept _)

variable (handled batched dispatchResults log) in
theorem start_resolve (index : Nat) (call : ToolCall) :
    start (resolve (executing handled batched) dispatchResults index call) log =
      (resolved handled dispatchResults index,
        log ++ [index].filter fun i => (dispatchResults.get? i).isNone) := by
  unfold resolve resolved
  cases hget : dispatchResults.get? index with
  | some result => simp [hget]
  | none => simp [hget, start_handleToolCall]

variable (batched log) in
theorem start_handleInOrder {frames : List GatewayContextFrame} {terminal : Option AgentResult}
    (h : Yields (resolved handled dispatchResults) (calls.map Prod.fst) frames terminal) (before : Handled) :
    ∃ after : Handled,
      start (handleInOrder (executing handled batched) dispatchResults calls before) log =
        (.ok after, log ++ ((calls.map Prod.fst).take (frames.length + 1)).filter fun i =>
          (dispatchResults.get? i).isNone) ∧
      ∀ i, after.get? i = if i ∈ (calls.map Prod.fst).take (frames.length + 1)
        then (resolved handled dispatchResults i).toOption else before.get? i := by
  induction calls generalizing frames terminal before log with
  | nil => exact ⟨before, by simp [handleInOrder], by simp⟩
  | cons e rest ih =>
    obtain ⟨index, call⟩ := e
    have hresolve := start_resolve handled batched dispatchResults log index call
    rw [List.map_cons] at h
    cases h with
    | @frame _ _ frame frames _ hresult hrest =>
      rw [hresult] at hresolve
      obtain ⟨after, hafter, hget⟩ := ih _ hrest (before.set index (.frame frame))
      refine ⟨after, (start_bind_ok hresolve).trans (hafter.trans ?_), fun i => ?_⟩
      · rw [List.map_cons, List.length_cons, List.take_succ_cons, List.append_assoc, ← List.filter_append,
          List.singleton_append]
      · rw [hget i, Record.get?_set, List.map_cons, List.length_cons, List.take_succ_cons]
        by_cases hi : i ∈ (rest.map Prod.fst).take (frames.length + 1)
        · rw [if_pos hi, if_pos (List.mem_cons_of_mem _ hi)]
        · rw [if_neg hi]
          by_cases hindex : i = index
          · rw [if_pos hindex, if_pos (hindex ▸ List.mem_cons_self), hindex, hresult]
            rfl
          · rw [if_neg hindex, if_neg (by simp [hindex, hi])]
    | @terminal _ _ result hresult =>
      rw [hresult] at hresolve
      refine ⟨before.set index (.terminal result), (start_bind_ok hresolve).trans ?_, fun i => ?_⟩
      · simp only [ToolHandlingResult.isTerminal, if_true, start_pure, List.map_cons, List.length_nil,
          List.take_succ_cons, List.take_zero]
      · rw [Record.get?_set, List.map_cons, List.length_nil, List.take_succ_cons, List.take_zero]
        by_cases hindex : i = index
        · rw [if_pos hindex, if_pos (by simp [hindex]), hindex, hresult]
          rfl
        · rw [if_neg hindex, if_neg (by simp [hindex])]

variable {before : Handled}

theorem exists_yields_of_handleInOrder {log' : List Nat}
    (h : start (handleInOrder (executing handled batched) dispatchResults calls before) log = (.ok after, log')) :
    ∃ frames terminal, Yields (resolved handled dispatchResults) (calls.map Prod.fst) frames terminal := by
  induction calls generalizing before log with
  | nil => exact ⟨[], none, .nil⟩
  | cons e rest ih =>
    obtain ⟨index, call⟩ := e
    have hresolve := start_resolve handled batched dispatchResults log index call
    unfold handleInOrder at h
    cases hresult : resolved handled dispatchResults index with
    | error thrown =>
      rw [hresult] at hresolve
      rw [start_bind_error hresolve] at h
      cases h
    | ok result =>
      rw [hresult] at hresolve
      rw [start_bind_ok hresolve] at h
      cases result with
      | frame frame =>
        obtain ⟨frames, terminal, hyields⟩ := ih h
        exact ⟨frame :: frames, terminal, .frame hresult hyields⟩
      | terminal result => exact ⟨[], some result, .terminal hresult⟩

theorem start_settleChunk (chunk : List IndexedCall) :
    start (settleChunk (executing handled batched) chunk) log =
      (.ok (chunk.map fun e => (e, handled e.1)), log ++ chunk.map Prod.fst) := by
  induction chunk generalizing log with
  | nil => simp [settleChunk]
  | cons e rest ih =>
    unfold settleChunk
    rw [start_bind_ok (start_settle (start_handleToolCall e.1 e.2)), start_bind_ok ih]
    simp

theorem start_recordSettled (result : Except Thrown ToolHandlingResult) (e : IndexedCall) (before : Handled)
    (log : List Nat) :
    start (recordSettled (m := Executing) before e.1 e.2 result) log =
      ((settledResult e.2 result).map (before.set e.1), log) := by
  cases result with
  | ok result => rfl
  | error thrown =>
    unfold recordSettled settledResult
    dsimp only
    cases buildToolErrorFrame e.2.name e.2.id thrown with
    | ok frame => exact start_bind_ok (start_ofExcept _)
    | error thrown => exact start_bind_error (start_ofExcept _)

variable (log) in
theorem start_recordChunk {chunk : List IndexedCall} (hnodup : (chunk.map Prod.fst).Nodup)
    (h : ∀ e ∈ chunk, ∃ result, settledResult e.2 (handled e.1) = .ok result) (before : Handled) :
    ∃ after : Handled, start (recordChunk (m := Executing) (chunk.map fun e => (e, handled e.1)) before) log =
        (.ok after, log) ∧
      (∀ e ∈ chunk, after.get? e.1 = (settledResult e.2 (handled e.1)).toOption) ∧
      ∀ i ∉ chunk.map Prod.fst, after.get? i = before.get? i := by
  induction chunk generalizing before with
  | nil => exact ⟨before, rfl, by simp, by simp⟩
  | cons e rest ih =>
    rw [List.map_cons, List.nodup_cons] at hnodup
    obtain ⟨hresult, hrest⟩ := List.forall_mem_cons.mp h
    obtain ⟨result, hresult⟩ := hresult
    obtain ⟨after, hafter, hmem, hnot⟩ := ih hnodup.2 hrest (before.set e.1 result)
    have hrecord := start_recordSettled (handled e.1) e before log
    rw [hresult] at hrecord
    refine ⟨after, (start_bind_ok hrecord).trans hafter, List.forall_mem_cons.mpr ⟨?_, hmem⟩, fun i hi => ?_⟩
    · rw [hnot e.1 hnodup.1, Record.get?_set, if_pos rfl, hresult]
      rfl
    · rw [List.map_cons, List.mem_cons, not_or] at hi
      rw [hnot i hi.2, Record.get?_set, if_neg hi.1]

theorem exists_result_of_recordChunk {chunk : List IndexedCall} {log' : List Nat}
    (h : start (recordChunk (m := Executing) (chunk.map fun e => (e, handled e.1)) before) log = (.ok after, log')) :
    ∀ e ∈ chunk, ∃ result, settledResult e.2 (handled e.1) = .ok result := by
  induction chunk generalizing before with
  | nil => simp
  | cons e rest ih =>
    have hrecord := start_recordSettled (handled e.1) e before log
    unfold recordChunk at h
    rw [List.map_cons] at h
    cases hresult : settledResult e.2 (handled e.1) with
    | error thrown =>
      rw [hresult] at hrecord
      rw [start_bind_error hrecord] at h
      cases h
    | ok result =>
      rw [hresult] at hrecord
      rw [start_bind_ok hrecord] at h
      exact List.forall_mem_cons.mpr ⟨⟨result, hresult⟩, ih h⟩

variable {groups : List (List IndexedCall)}

variable (batched log) in
theorem start_handleChunks (hnodup : (groups.flatten.map Prod.fst).Nodup)
    (h : ∀ e ∈ groups.flatten, ∃ result, settledResult e.2 (handled e.1) = .ok result) (before : Handled) :
    ∃ after : Handled, start (handleChunks (executing handled batched) groups before) log =
        (.ok after, log ++ groups.flatten.map Prod.fst) ∧
      (∀ e ∈ groups.flatten, after.get? e.1 = (settledResult e.2 (handled e.1)).toOption) ∧
      ∀ i ∉ groups.flatten.map Prod.fst, after.get? i = before.get? i := by
  induction groups generalizing before log with
  | nil => exact ⟨before, by simp [handleChunks], by simp, by simp⟩
  | cons chunk rest ih =>
    rw [List.flatten_cons, List.map_append, List.nodup_append] at hnodup
    obtain ⟨hchunk, hrest, hdisjoint⟩ := hnodup
    rw [List.flatten_cons, List.forall_mem_append] at h
    obtain ⟨recorded, hrecorded, hmem, hnot⟩ := start_recordChunk (log ++ chunk.map Prod.fst) hchunk h.1 before
    obtain ⟨after, hafter, hmemRest, hnotRest⟩ := ih (log ++ chunk.map Prod.fst) hrest h.2 recorded
    refine ⟨after, ?_, ?_, fun i hi => ?_⟩
    · unfold handleChunks
      rw [start_bind_ok (start_settleChunk chunk), start_bind_ok hrecorded, hafter]
      simp
    · rw [List.flatten_cons, List.forall_mem_append]
      refine ⟨fun e he => ?_, hmemRest⟩
      have hindex := List.mem_map_of_mem (f := Prod.fst) he
      rw [hnotRest e.1 fun hin => hdisjoint e.1 hindex e.1 hin rfl, hmem e he]
    · rw [List.flatten_cons, List.map_append, List.mem_append, not_or] at hi
      rw [hnotRest i hi.2, hnot i hi.1]

theorem exists_result_of_handleChunks {log' : List Nat}
    (h : start (handleChunks (executing handled batched) groups before) log = (.ok after, log')) :
    ∀ e ∈ groups.flatten, ∃ result, settledResult e.2 (handled e.1) = .ok result := by
  induction groups generalizing before log with
  | nil => simp
  | cons chunk rest ih =>
    unfold handleChunks at h
    rw [start_bind_ok (start_settleChunk chunk)] at h
    cases hrecord : start (recordChunk (m := Executing) (chunk.map fun e => (e, handled e.1)) before)
        (log ++ chunk.map Prod.fst) with
    | mk result log₁ =>
      cases result with
      | error thrown =>
        rw [start_bind_error hrecord] at h
        cases h
      | ok recorded =>
        rw [start_bind_ok hrecord] at h
        rw [List.flatten_cons, List.forall_mem_append]
        exact ⟨exists_result_of_recordChunk hrecord, ih h⟩

end Paths

theorem flatten_chunks {α : Type} {size : Nat} (hsize : 0 < size) {n : Nat} {l : List α} (h : l.length ≤ n) :
    (chunks size n l).flatten = l := by
  induction n generalizing l with
  | zero => rw [List.length_eq_zero_iff.mp (Nat.le_zero.mp h), chunks, List.flatten_nil]
  | succ n ih =>
    unfold chunks
    split_ifs with hempty
    · rw [List.isEmpty_iff.mp hempty, List.flatten_nil]
    · rw [List.flatten_cons, ih, List.take_append_drop]
      have hpos : 0 < l.length := List.length_pos_iff.mpr fun hl => hempty (List.isEmpty_iff.mpr hl)
      rw [List.length_drop]
      omega

@[simp] theorem map_fst_indexed (toolCalls : List ToolCall) :
    (indexed toolCalls).map Prod.fst = List.range toolCalls.length := by
  unfold indexed
  rw [List.map_map]
  change toolCalls.zipIdx.map Prod.snd = _
  rw [List.zipIdx_map_snd, List.range_eq_range']

/-! ## A whole turn -/

/-- A dispatch call comes to the result that its batch has when the turn has several of them. -/
def resultOf (handled : Nat → Except Thrown ToolHandlingResult) (batched : Nat → ToolHandlingResult)
    (toolCalls : List ToolCall) (index : Nat) : Except Thrown ToolHandlingResult :=
  if 1 < (dispatchesOf toolCalls).length ∧ index ∈ (dispatchesOf toolCalls).map Prod.fst then .ok (batched index)
  else handled index

theorem mem_dispatchesOf {toolCalls : List ToolCall} {i : Nat} : i ∈ (dispatchesOf toolCalls).map Prod.fst ↔
    ∃ call, toolCalls[i]? = some call ∧ isDispatchToolName call.name = true := by
  rw [List.mem_map]
  constructor
  · rintro ⟨e, he, rfl⟩
    obtain ⟨hmem, hname⟩ := List.mem_filter.mp he
    exact ⟨e.2, mem_indexed.mp hmem, hname⟩
  · rintro ⟨call, hcall, hname⟩
    exact ⟨(i, call), List.mem_filter.mpr ⟨mem_indexed.mpr hcall, hname⟩, rfl⟩

theorem nodup_map_fst_of_sublist {toolCalls : List ToolCall} {l : List IndexedCall}
    (h : l.Sublist (indexed toolCalls)) : (l.map Prod.fst).Nodup := by
  have hsub := h.map Prod.fst
  rw [map_fst_indexed] at hsub
  exact hsub.nodup List.nodup_range

/-- The calls of the partitioned path. -/
def standardOf (toolCalls : List ToolCall) : List IndexedCall :=
  (indexed toolCalls).filter fun e => !isDispatchToolName e.2.name

def concurrentOf (toolDefinitions : List ToolDefinition) (toolCalls : List ToolCall) : List IndexedCall :=
  (standardOf toolCalls).filter fun e => isSafe toolDefinitions e.2.name

def serialOf (toolDefinitions : List ToolDefinition) (toolCalls : List ToolCall) : List IndexedCall :=
  (standardOf toolCalls).filter fun e => !isSafe toolDefinitions e.2.name

theorem standardOf_eq {toolCalls : List ToolCall} {dispatchResults : Handled}
    (h : ∀ i ∉ (dispatchesOf toolCalls).map Prod.fst, dispatchResults.get? i = none) :
    ((indexed toolCalls).filter fun e => !isDispatchToolName e.2.name && (dispatchResults.get? e.1).isNone) =
      standardOf toolCalls := by
  refine List.filter_congr fun e he => ?_
  cases hname : isDispatchToolName e.2.name with
  | true => rfl
  | false =>
    have hnone := h e.1 fun hmem => by
      obtain ⟨call, hcall, hdispatch⟩ := mem_dispatchesOf.mp hmem
      rw [mem_indexed.mp he, Option.some.injEq] at hcall
      rw [← hcall, hname] at hdispatch
      cases hdispatch
    simp [hnone]

section Turn

variable {handled : Nat → Except Thrown ToolHandlingResult} {batched : Nat → ToolHandlingResult}
  {toolDefinitions : List ToolDefinition} {toolCalls : List ToolCall} {config : ToolConcurrencyConfig}

variable (handled batched toolCalls) in
theorem start_dispatches : ∃ dispatchResults : Handled,
    start (handleDispatches (executing handled batched) toolCalls) [] =
      (.ok dispatchResults,
        if 1 < (dispatchesOf toolCalls).length then (dispatchesOf toolCalls).map Prod.fst else []) ∧
    resolved handled dispatchResults = resultOf handled batched toolCalls ∧
    ∀ i ∉ (dispatchesOf toolCalls).map Prod.fst, dispatchResults.get? i = none := by
  unfold handleDispatches
  by_cases hseveral : 1 < (dispatchesOf toolCalls).length
  · simp only [hseveral, if_true]
    have hkeys : ((dispatchesOf toolCalls).map fun e => (e.1, batched e.1)).map Prod.fst =
        (dispatchesOf toolCalls).map Prod.fst := by
      rw [List.map_map]
      rfl
    refine ⟨.ofEntries ((dispatchesOf toolCalls).map fun e => (e.1, batched e.1)), rfl, ?_, fun i hi => ?_⟩
    · funext i
      unfold resolved resultOf
      cases hget : (Record.ofEntries ((dispatchesOf toolCalls).map fun e => (e.1, batched e.1))).get? i with
      | some result =>
        have hmem := Record.mem_of_get?_ofEntries hget
        obtain ⟨e, he, heq⟩ := List.mem_map.mp hmem
        cases heq
        rw [if_pos ⟨hseveral, List.mem_map_of_mem he⟩]
      | none =>
        rw [if_neg fun h => ?_]
        obtain ⟨result, hresult⟩ := Record.exists_get?_ofEntries.mpr (hkeys ▸ h.2)
        exact absurd (hget.symm.trans hresult) (by simp)
    · refine Option.eq_none_iff_forall_ne_some.mpr fun result hresult => hi ?_
      rw [← hkeys]
      exact Record.exists_get?_ofEntries.mp ⟨result, hresult⟩
  · simp only [hseveral, if_false]
    refine ⟨.empty, rfl, ?_, fun i _ => rfl⟩
    funext i
    unfold resolved resultOf
    rw [if_neg fun h => hseveral h.1]
    rfl

theorem execute_sequential_iff {frames : List GatewayContextFrame} {terminal : Option AgentResult} :
    (execute handled batched none toolDefinitions toolCalls).1 = .ok (frames, terminal) ↔
      Yields (resultOf handled batched toolCalls) (List.range toolCalls.length) frames terminal := by
  obtain ⟨dispatchResults, hbatch, hresolved, -⟩ :=
    start_dispatches handled batched toolCalls
  have hexecute : execute handled batched none toolDefinitions toolCalls = start (do
      let handled ← handleInOrder (executing handled batched) dispatchResults (indexed toolCalls) .empty
      return collect handled (List.range toolCalls.length))
      (if 1 < (dispatchesOf toolCalls).length then (dispatchesOf toolCalls).map Prod.fst else []) := by
    exact start_bind_ok hbatch
  have hforward : ∀ frames terminal,
      Yields (resultOf handled batched toolCalls) (List.range toolCalls.length) frames terminal →
      (execute handled batched none toolDefinitions toolCalls).1 = .ok (frames, terminal) := by
    intro frames terminal h
    have hyields : Yields (resolved handled dispatchResults) ((indexed toolCalls).map Prod.fst) frames terminal := by
      rw [hresolved, map_fst_indexed]
      exact h
    obtain ⟨after, hafter, hget⟩ := start_handleInOrder _ _ hyields .empty
    rw [hexecute, start_bind_ok hafter, start_pure]
    refine congrArg Except.ok (h.collect fun i hi => ?_)
    rw [hget i, map_fst_indexed, if_pos hi, hresolved]
  refine ⟨fun h => ?_, hforward frames terminal⟩
  rw [hexecute] at h
  cases hhandle : start (handleInOrder (executing handled batched) dispatchResults (indexed toolCalls) .empty)
      (if 1 < (dispatchesOf toolCalls).length then (dispatchesOf toolCalls).map Prod.fst else []) with
  | mk result log =>
    cases result with
    | error thrown =>
      rw [start_bind_error hhandle] at h
      cases h
    | ok after =>
      obtain ⟨frames', terminal', hyields⟩ := exists_yields_of_handleInOrder hhandle
      rw [hresolved, map_fst_indexed] at hyields
      have hsame := (hexecute ▸ hforward frames' terminal' hyields).symm.trans h
      cases hsame
      exact hyields

variable (batched) in
theorem start_handlePartitioned {size : Nat} (hsize : 0 < size) {dispatchResults : Handled} (log : List Nat)
    (hdispatch : ∀ i ∉ (dispatchesOf toolCalls).map Prod.fst, dispatchResults.get? i = none)
    (h : ∀ e ∈ concurrentOf toolDefinitions toolCalls, ∃ result, settledResult e.2 (handled e.1) = .ok result) :
    ∃ concurrent : Handled,
      (∀ e ∈ concurrentOf toolDefinitions toolCalls,
        concurrent.get? e.1 = (settledResult e.2 (handled e.1)).toOption) ∧
      (∀ i ∉ (concurrentOf toolDefinitions toolCalls).map Prod.fst, concurrent.get? i = none) ∧
      start (handlePartitioned (executing handled batched) toolDefinitions size dispatchResults (indexed toolCalls))
        log = start (if concurrent.values.any (·.isTerminal) then pure concurrent
          else handleInOrder (executing handled batched) dispatchResults (serialOf toolDefinitions toolCalls) concurrent)
          (log ++ (concurrentOf toolDefinitions toolCalls).map Prod.fst) := by
  have hflatten : (chunks size (concurrentOf toolDefinitions toolCalls).length
      (concurrentOf toolDefinitions toolCalls)).flatten = concurrentOf toolDefinitions toolCalls :=
    flatten_chunks hsize le_rfl
  obtain ⟨concurrent, hstart, hmem, hnot⟩ := start_handleChunks batched log
    (hflatten.symm ▸ nodup_map_fst_of_sublist (List.filter_sublist.trans List.filter_sublist))
    (hflatten.symm ▸ h) .empty
  rw [hflatten] at hstart hmem hnot
  refine ⟨concurrent, hmem, hnot, ?_⟩
  unfold handlePartitioned
  rw [standardOf_eq hdispatch]
  exact start_bind_ok hstart

theorem exists_result_of_handlePartitioned {size : Nat} (hsize : 0 < size) {dispatchResults : Handled}
    {log log' : List Nat}
    (hdispatch : ∀ i ∉ (dispatchesOf toolCalls).map Prod.fst, dispatchResults.get? i = none)
    (h : start (handlePartitioned (executing handled batched) toolDefinitions size dispatchResults
      (indexed toolCalls)) log = (.ok after, log')) :
    ∀ e ∈ concurrentOf toolDefinitions toolCalls, ∃ result, settledResult e.2 (handled e.1) = .ok result := by
  unfold handlePartitioned at h
  rw [standardOf_eq hdispatch] at h
  cases hchunks : start (handleChunks (executing handled batched)
      (chunks size (concurrentOf toolDefinitions toolCalls).length (concurrentOf toolDefinitions toolCalls))
      .empty) log with
  | mk result log₁ =>
    cases result with
    | error thrown =>
      have herror := h.symm.trans (start_bind_error hchunks)
      cases herror
    | ok concurrent =>
      have hresults := exists_result_of_handleChunks hchunks
      rw [flatten_chunks hsize le_rfl] at hresults
      exact hresults

end Turn

end NousCore.Agent
