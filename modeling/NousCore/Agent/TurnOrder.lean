import Mathlib.Algebra.Order.BigOperators.Group.List
import NousCore.Agent.Turn

/-!
# What runs after a call that ends the run

* `Acceptable` : the calls that can end the run: those of standard tools, and of the others those with acceptable params;
* `ends_handleInOrder` : one rule for the loop over the calls.
-/

namespace NousCore.Agent

open Fallible

/-! ## Calls that can end the run -/

def Acceptable (params : ToolParams) (call : ToolCall) : Prop :=
  if isDispatchToolName call.name then (params.dispatch call.name call.params).toOption.isSome = true
  else if call.name = taskCompleteToolName then (params.taskCompletion call.params).toOption.isSome = true
  else if call.name = requestEscalationToolName then (params.escalation call.params).toOption.isSome = true
  else if call.name = flagObservationToolName then (params.observation call.params).toOption.isSome = true
  else True

variable {frame : Thrown → Turn ToolHandlingResult}

section

variable {params : ToolParams} {runtime : GatewayRuntime} {α β : Type} {index : Nat} {call : ToolCall} {s s' : TurnState}
  {x : Turn α} {p : Nat → Prop}

/-- Nothing has been done but for the calls of `p`. -/
def OnlyFor (p : Nat → Prop) (s s' : TurnState) : Prop := ∀ step ∈ s'.steps, step ∈ s.steps ∨ p step.index

theorem OnlyFor.refl (p : Nat → Prop) (s : TurnState) : OnlyFor p s s := fun _ => .inl

theorem OnlyFor.trans {p : Nat → Prop} (s₁ s₂ s₃ : TurnState) (h : OnlyFor p s₁ s₂) (h' : OnlyFor p s₂ s₃) :
    OnlyFor p s₁ s₃ := fun step hstep => (h' step hstep).elim (h step) .inr

theorem respects_tryCatch {R : TurnState → TurnState → Prop} {handle : Thrown → Turn α}
    (htrans : ∀ s₁ s₂ s₃, R s₁ s₂ → R s₂ s₃ → R s₁ s₃) (hx : Respects R x) (hhandle : ∀ e, Respects R (handle e)) :
    Respects R (tryCatch x handle) := by
  intro s
  refine ends_tryCatch (hx s) fun e s₁ hs₁ => ?_
  exact (hhandle e s₁).mono (fun _ s₂ hs₂ => htrans s s₁ s₂ hs₁ hs₂) fun _ s₂ hs₂ => htrans s s₁ s₂ hs₁ hs₂

/-- The computation leaves the state as it is. -/
def Still (x : Turn α) : Prop := Respects (fun s s' => s' = s) x

theorem still_ofExcept (y : Except Thrown α) : Still (MonadExcept.ofExcept y : Turn α) := by
  intro s
  cases y <;> rfl

theorem Still.bind {f : α → Turn β} (h : Still x) (hf : ∀ a, Still (f a)) : Still (x >>= f) :=
  respects_bind (fun _ _ _ h h' => h'.trans h) h hf

theorem Still.onlyFor {p : Nat → Prop} (h : Still x) : Respects (OnlyFor p) x := fun s =>
  (h s).mono (fun _ _ hs => hs ▸ OnlyFor.refl p s) fun _ _ hs => hs ▸ OnlyFor.refl p s

theorem still_toolFrame (source : GatewayContextSource) (content name : String) (toolCallId : Option String) :
    Still (toolFrame source content name toolCallId) :=
  (still_ofExcept _).bind fun _ _ => ends_pure rfl

theorem still_terminate (outcome : AgentOutcome) (refs : List TraceEvidenceReference) :
    Still (terminate runtime outcome refs) := by
  intro s
  refine ends_bind (show Ends (get : Turn TurnState) s (fun a s' => a = s ∧ s' = s) _ from ⟨rfl, rfl⟩) fun a s' h => ?_
  obtain ⟨rfl, rfl⟩ := h
  dsimp only
  split_ifs
  · exact ends_pure rfl
  · exact ends_throw rfl

theorem still_failOrFrame {frame : Turn ToolHandlingResult} (h : Still frame) (toolName : String) (thrown : Thrown) :
    Still (failOrFrame runtime toolName frame thrown) := by
  unfold failOrFrame
  split_ifs
  · exact still_terminate _ _
  · exact h

/-! ## What each call does -/

/-- A computation after which only steps for calls of `p` are new. -/
abbrev For (p : Nat → Prop) (x : Turn α) : Prop := Respects (OnlyFor p) x

theorem for_modify {f : TurnState → TurnState} (h : ∀ s, ∀ step ∈ (f s).steps, step ∈ s.steps ∨ p step.index) :
    For p (modify f : Turn PUnit) := fun s => ends_modify (h s)

theorem for_note {step : TurnStep} (h : p step.index) : For p (note step) :=
  for_modify fun s step' hstep => (List.mem_append.mp hstep).imp_right fun hmem => by
    rw [List.mem_singleton.mp hmem]
    exact h

theorem For.bind {x : Turn α} {f : α → Turn β} (h : For p x) (hf : ∀ a, For p (f a)) : For p (x >>= f) :=
  respects_bind (OnlyFor.trans) h hf

theorem for_ofExcept (y : Except Thrown α) : For p (MonadExcept.ofExcept y : Turn α) := (still_ofExcept y).onlyFor

theorem for_caught {x : Turn ToolHandlingResult} {toolName : String}
    (h : For p x) (hframe : ∀ thrown, Still (frame thrown)) :
    For p (tryCatch x fun thrown => failOrFrame runtime toolName (frame thrown) thrown) :=
  respects_tryCatch OnlyFor.trans h fun thrown => (still_failOrFrame (hframe thrown) _ _).onlyFor

theorem for_executePreparedDispatch (h : p index) : For p (executePreparedDispatch runtime index call) := by
  refine for_caught ((for_note h).bind fun _ => (for_ofExcept _).bind fun value => ?_) fun _ => still_toolFrame _ _ _ _
  refine For.bind (for_modify fun s step hstep => .inl hstep) fun _ => (for_note h).bind fun _ => ?_
  exact (still_toolFrame _ _ _ _).onlyFor

theorem for_map {f : α → β} (h : For p x) : For p (f <$> x) := by
  rw [map_eq_pure_bind]
  exact h.bind fun _ _ => ends_pure (OnlyFor.refl _ _)

theorem for_prepareDispatchTool (params : ToolParams) (runtime : GatewayRuntime) (call : ToolCall) (batchMode : Bool) :
    For p (prepareDispatchTool params runtime call batchMode) := by
  unfold prepareDispatchTool
  cases lifecycleHook runtime call.name with
  | none => exact for_map (still_toolFrame _ _ _ _).onlyFor
  | some hook =>
    cases params.dispatch call.name call.params with
    | error thrown => exact for_map (still_toolFrame _ _ _ _).onlyFor
    | ok budget =>
      refine For.bind (fun s => OnlyFor.refl p s) fun granted => ?_
      split_ifs
      · exact fun s => ends_pure (OnlyFor.refl _ s)
      · exact for_map (still_toolFrame _ _ _ _).onlyFor
      · refine for_map (Still.onlyFor fun s => ?_)
        exact ends_bind (show Ends (get : Turn TurnState) s (fun _ s' => s' = s) _ from rfl) fun _ s' h =>
          h ▸ still_terminate _ _ s'

theorem for_handleToolCall (params : ToolParams) (runtime : GatewayRuntime) (call : ToolCall) (h : p index) :
    For p (handleToolCall params runtime index call) := by
  have hframe : ∀ {source content name toolCallId}, For p (toolFrame source content name toolCallId) :=
    (still_toolFrame _ _ _ _).onlyFor
  unfold handleToolCall
  split_ifs
  · refine (for_prepareDispatchTool params runtime call false).bind fun prepared => ?_
    cases prepared with
    | none => exact for_executePreparedDispatch h
    | some immediate => exact fun s => ends_pure (OnlyFor.refl _ s)
  · unfold handleTaskCompleteTool
    cases runtime.taskComplete with
    | none => exact hframe
    | some taskComplete =>
      cases params.taskCompletion call.params with
      | error thrown => exact hframe
      | ok _ =>
        refine for_caught ((for_note h).bind fun _ => (for_ofExcept _).bind fun value => ?_) fun _ =>
          still_toolFrame _ _ _ _
        exact (still_terminate _ _).onlyFor
  · unfold handleEscalationTool
    cases params.escalation call.params with
    | error thrown => exact hframe
    | ok request =>
      refine (for_note h).bind fun _ => ?_
      cases (runtime.requestEscalation.elim (.ok ()) (· index) : Except Thrown Unit) with
      | error thrown => exact (still_terminate _ _).onlyFor
      | ok _ => exact (still_terminate _ _).onlyFor
  · unfold handleObservationTool
    cases params.observation call.params with
    | error thrown => exact hframe
    | ok observationType =>
      refine respects_tryCatch OnlyFor.trans ?_ fun thrown => (still_terminate _ _).onlyFor
      refine For.bind (for_modify fun s step hstep => .inl hstep) fun _ => (for_note h).bind fun _ => ?_
      exact (for_ofExcept _).bind fun _ => (for_ofExcept _).bind fun _ => hframe
  · refine for_caught ((for_note h).bind fun _ => (for_ofExcept _).bind fun content => hframe) fun _ => ?_
    exact (still_ofExcept _).bind fun _ _ => ends_pure rfl

theorem ends_map_some {x : Turn ToolHandlingResult} (h : Ends x s (fun r _ => r.isTerminal = false) fun _ _ => True) :
    Ends (some <$> x) s (fun prepared _ => ∃ r, prepared = some r ∧ r.isTerminal = false) fun _ _ => True := by
  rw [map_eq_pure_bind]
  exact ends_bind h fun r _ hr => ends_pure ⟨r, rfl, hr⟩

theorem ends_toolFrame (source : GatewayContextSource) (content name : String) (toolCallId : Option String) :
    Ends (toolFrame source content name toolCallId) s (fun r _ => r.isTerminal = false) fun _ _ => True :=
  ends_bind ((still_ofExcept _ s).mono (fun _ _ _ => trivial) fun _ _ _ => trivial) fun _ _ _ => ends_pure rfl

/-- Only a dispatch with acceptable params is prepared, or ends the run, which it does not in a batch. -/
theorem ends_prepareDispatchTool (params : ToolParams) (runtime : GatewayRuntime) (call : ToolCall) (batchMode : Bool)
    (s : TurnState) : Ends (prepareDispatchTool params runtime call batchMode) s (fun prepared _ =>
      (∃ r, prepared = some r ∧ r.isTerminal = false) ∨
        (params.dispatch call.name call.params).toOption.isSome = true ∧ (batchMode = true → prepared = none))
      fun _ _ => True := by
  unfold prepareDispatchTool
  cases lifecycleHook runtime call.name with
  | none => exact (ends_map_some (ends_toolFrame _ _ _ _)).mono (fun _ _ => .inl) fun _ _ => id
  | some hook =>
    cases params.dispatch call.name call.params with
    | error thrown => exact (ends_map_some (ends_toolFrame _ _ _ _)).mono (fun _ _ => .inl) fun _ _ => id
    | ok budget =>
      refine ends_bind (show Ends (requestSpawn _) s (fun _ _ => True) _ from trivial) fun granted s' _ => ?_
      split_ifs with hgranted hbatch
      · exact ends_pure (.inr ⟨rfl, fun _ => rfl⟩)
      · exact (ends_map_some (ends_toolFrame _ _ _ _)).mono (fun _ _ => .inl) fun _ _ => id
      · rw [map_eq_pure_bind]
        refine ends_bind (show Ends (spawnBudgetExhausted runtime) s' (fun _ _ => True) fun _ _ => True from ?_)
          fun _ _ _ => ends_pure (.inr ⟨rfl, fun h => absurd h hbatch⟩)
        refine ends_bind (show Ends (get : Turn TurnState) s' (fun _ _ => True) _ from trivial) fun _ s'' _ => ?_
        exact (still_terminate _ _ s'').mono (fun _ _ _ => trivial) fun _ _ _ => trivial

theorem not_isTerminal_of_not_acceptable (h : ¬Acceptable params call) (s : TurnState) :
    Ends (handleToolCall params runtime index call) s (fun r _ => r.isTerminal = false) fun _ _ => True := by
  unfold Acceptable at h
  unfold handleToolCall
  split_ifs at h ⊢
  · refine ends_bind (ends_prepareDispatchTool params runtime call false s) fun prepared s' hprepared => ?_
    obtain ⟨r, rfl, hr⟩ := hprepared.resolve_right fun hprepared => h hprepared.1
    exact ends_pure hr
  · unfold handleTaskCompleteTool
    cases runtime.taskComplete with
    | none => exact ends_toolFrame _ _ _ _
    | some taskComplete =>
      cases hrequest : params.taskCompletion call.params with
      | error thrown => exact ends_toolFrame _ _ _ _
      | ok _ => exact absurd (by rw [hrequest]; rfl) h
  · unfold handleEscalationTool
    cases hrequest : params.escalation call.params with
    | error thrown => exact ends_toolFrame _ _ _ _
    | ok _ => exact absurd (by rw [hrequest]; rfl) h
  · unfold handleObservationTool
    cases hrequest : params.observation call.params with
    | error thrown => exact ends_toolFrame _ _ _ _
    | ok _ => exact absurd (by rw [hrequest]; rfl) h
  · exact absurd trivial h

/-! ## The batch -/

variable {P : IndexedCall → Option ToolHandlingResult → Prop}

theorem ends_prepareBatch {I : TurnState → Prop} {E : Prop} {calls : List IndexedCall} {immediate : Handled}
    (h : ∀ e ∈ calls, ∀ s, I s →
      Ends (prepareDispatchTool params runtime e.2 true) s (fun prepared s' => P e prepared ∧ I s') fun _ _ => E)
    (hs : I s) :
    Ends (prepareBatch params runtime calls immediate) s (fun batch s' => I s' ∧
      (∀ i r, batch.1.get? i = some r → immediate.get? i = some r ∨ ∃ e ∈ calls, e.1 = i ∧ P e (some r)) ∧
      (∀ e ∈ batch.2, e ∈ calls ∧ P e none) ∧ ∀ e ∈ calls, e ∈ batch.2 ∨ ∃ r, P e (some r)) fun _ _ => E := by
  induction calls generalizing immediate s with
  | nil => exact ends_pure ⟨hs, fun _ _ => .inl, fun _ he => absurd he List.not_mem_nil,
      fun _ he => absurd he List.not_mem_nil⟩
  | cons head rest ih =>
    have ih' := fun {immediate s} => @ih s immediate fun e he => h e (List.mem_cons_of_mem _ he)
    refine ends_bind (h head List.mem_cons_self s hs) fun prepared s' hprepared => ?_
    obtain ⟨hP, hI⟩ := hprepared
    cases prepared with
    | some result =>
      refine (ih' hI).mono (fun batch s'' hbatch => ?_) fun _ _ hE => hE
      obtain ⟨hI', hvalues, hpending, hall⟩ := hbatch
      refine ⟨hI', fun i r hr => ?_, fun e he => (hpending e he).imp_left (List.mem_cons_of_mem _), fun e he => ?_⟩
      · rcases hvalues i r hr with hr | ⟨e, he, hei, hr⟩
        · rw [Record.get?_set] at hr
          split_ifs at hr with hi
          · exact .inr ⟨head, List.mem_cons_self, hi.symm, Option.some.inj hr ▸ hP⟩
          · exact .inl hr
        · exact .inr ⟨e, List.mem_cons_of_mem _ he, hei, hr⟩
      · rcases List.mem_cons.mp he with rfl | he
        · exact .inr ⟨result, hP⟩
        · exact hall e he
    | none =>
      refine ends_bind (ih' hI) fun batch s'' hbatch => ?_
      obtain ⟨hI', hvalues, hpending, hall⟩ := hbatch
      refine ends_pure ⟨hI', fun i r hr => ?_, fun e he => ?_, fun e he => ?_⟩
      · exact (hvalues i r hr).imp_right fun ⟨e, he, hr⟩ => ⟨e, List.mem_cons_of_mem _ he, hr⟩
      · rcases List.mem_cons.mp he with rfl | he
        · exact ⟨List.mem_cons_self, hP⟩
        · exact (hpending e he).imp_left (List.mem_cons_of_mem _)
      · rcases List.mem_cons.mp he with rfl | he
        · exact .inl List.mem_cons_self
        · exact (hall e he).imp_left (List.mem_cons_of_mem _)

/-- Calls without their ids. -/
def unidentified (calls : List IndexedCall) : List IndexedCall := calls.map fun e => (e.1, { e.2 with id := none })

theorem ends_handleDispatchBatch {V : Nat → ToolHandlingResult → Prop}
    {I : List IndexedCall → TurnState → Prop} {E : Prop} {calls : List IndexedCall}
    (hprepare : ∀ e ∈ unidentified calls, ∀ s, I [] s →
      Ends (prepareDispatchTool params runtime e.2 true) s (fun prepared s' => P e prepared ∧ I [] s') fun _ _ => E)
    (hvalue : ∀ e ∈ unidentified calls, ∀ r, P e (some r) → V e.1 r)
    (hexecute : ∀ e ∈ unidentified calls, P e none → ∀ done s, I done s → Ends (executePreparedDispatch runtime e.1 e.2) s
      (fun r s' => V e.1 r ∧ I (done ++ [e]) s') fun _ s' => (E ∧ ∀ frame, V e.1 (.frame frame)) ∧ I (done ++ [e]) s')
    (hs : I [] s) : Ends (handleDispatchBatch params runtime calls) s (fun handled s' =>
      (∀ i r, handled.get? i = some r → V i r) ∧ ∃ pending, I pending s' ∧
        ∀ e ∈ unidentified calls, e ∈ pending ∨ ∃ r, P e (some r)) fun _ _ => E := by
  refine ends_bind (ends_prepareBatch hprepare hs) fun batch s₁ hbatch => ?_
  obtain ⟨hs₁, hvalues, hpending, hall⟩ := hbatch
  have hsettle := @ends_settleChunk ⟨executePreparedDispatch runtime, fun _ => pure .empty⟩ batch.2 s₁
    (fun e y => (∀ r, y = .ok r → V e.1 r) ∧ ∀ thrown, y = .error thrown → E ∧ ∀ frame, V e.1 (.frame frame)) I []
    (fun e he done s hs => (hexecute e (hpending e he).1 (hpending e he).2 done s hs).mono
      (fun r _ h => ⟨⟨fun _ heq => Except.ok.inj heq ▸ h.1, fun _ heq => (nomatch heq)⟩, h.2⟩)
      fun _ _ h => ⟨⟨fun _ heq => (nomatch heq), fun _ _ => h.1⟩, h.2⟩) hs₁
  refine ends_bind (hsettle.mono (fun _ _ => id) fun _ _ => False.elim) fun settled s₂ hsettled => ?_
  obtain ⟨hs₂, hsettled⟩ := hsettled
  refine (ends_recordChunk (fun e r h => (hsettled _ h).2.1 r rfl) (fun e _ frame h _ => ((hsettled _ h).2.2 _ rfl).2 frame)
    (fun e _ _ h _ => ((hsettled _ h).2.2 _ rfl).1) fun i r hr => ?_).mono
      (fun handled s' h => ⟨h.2, batch.2, h.1 ▸ hs₂, hall⟩) fun _ _ => id
  obtain ⟨e, he, rfl, hP⟩ := (hvalues i r hr).resolve_left fun hempty => nomatch hempty
  exact hvalue e he r hP

end

/-! ## What is done by the end of a turn -/

/-- When a call ends the run, nothing has been done for a later one. -/
def StopsInTime (params : ToolParams) (toolCalls : List ToolCall) : Prop :=
  ∀ (runtime : GatewayRuntime) (concurrency : Option ToolConcurrencyConfig) (toolDefinitions : List ToolDefinition)
    (tracker : BudgetTracker) (correlation : GatewayCorrelation) (handled : Handled) (s : TurnState),
    concurrency.any (·.enabled) = false →
    outcome (handledCalls params runtime concurrency toolDefinitions toolCalls) ⟨tracker, correlation, []⟩ =
      (.ok handled, s) →
    ∀ index result, handled.get? index = some (.terminal result) → ∀ step ∈ s.steps, step.index ≤ index

/-- The call of the index is one of several dispatch calls, and is prepared. -/
def Batched (params : ToolParams) (toolCalls : List ToolCall) (index : Nat) : Prop :=
  1 < (dispatchesOf toolCalls).length ∧
    ∃ call, toolCalls[index]? = some call ∧ isDispatchToolName call.name = true ∧ Acceptable params call

section

variable {params : ToolParams} {runtime : GatewayRuntime} {concurrency : Option ToolConcurrencyConfig}
  {toolDefinitions : List ToolDefinition} {toolCalls : List ToolCall} {s s' : TurnState} {p : Nat → Prop} {i j : Nat}
  {a b call : ToolCall}

theorem OnlyFor.steps (h : OnlyFor p s s') (hs : ∀ step ∈ s.steps, p step.index) : ∀ step ∈ s'.steps, p step.index :=
  fun step hstep => (h step hstep).elim (hs step) id

theorem acceptable_iff (h : isDispatchToolName call.name = true) :
    Acceptable params call ↔ (params.dispatch call.name call.params).toOption.isSome = true := by
  unfold Acceptable
  rw [if_pos h]

theorem exists_of_mem_unidentified {e : IndexedCall} (h : e ∈ unidentified (dispatchesOf toolCalls)) :
    ∃ call, toolCalls[e.1]? = some call ∧ isDispatchToolName call.name = true ∧ e.2 = { call with id := none } := by
  obtain ⟨e', he', rfl⟩ := List.mem_map.mp h
  obtain ⟨hmem, hname⟩ := List.mem_filter.mp he'
  exact ⟨e'.2, mem_indexed.mp hmem, hname, rfl⟩

theorem ends_handleDispatches (hs : s.steps = []) :
    Ends (handleDispatches (gatewayHandlers params runtime) toolCalls) s (fun handled s' =>
      (∀ i r, handled.get? i = some r → r.isTerminal = true → Batched params toolCalls i) ∧
        ∀ step ∈ s'.steps, Batched params toolCalls step.index) fun _ _ => True := by
  unfold handleDispatches
  split_ifs with hseveral
  · have hbatched : ∀ e ∈ unidentified (dispatchesOf toolCalls),
        (params.dispatch e.2.name e.2.params).toOption.isSome = true → Batched params toolCalls e.1 := by
      intro e he haccepted
      obtain ⟨call, hcall, hname, hstripped⟩ := exists_of_mem_unidentified he
      rw [hstripped] at haccepted
      exact ⟨hseveral, call, hcall, hname, (acceptable_iff hname).mpr haccepted⟩
    refine (ends_handleDispatchBatch
      (P := fun e prepared => (prepared = none → Batched params toolCalls e.1) ∧ ∀ r, prepared = some r → r.isTerminal = false)
      (V := fun i r => r.isTerminal = true → Batched params toolCalls i)
      (I := fun _ s => ∀ step ∈ s.steps, Batched params toolCalls step.index) (fun e he s hs => ?_)
      (fun e _ r hr hterminal => absurd hterminal (by rw [hr.2 r rfl]; exact Bool.false_ne_true))
      (fun e _ hP _ s hs => ?_) ?_).mono (fun handled s' h => ⟨h.1, h.2.choose_spec.1⟩) fun _ _ => id
    · refine ((ends_prepareDispatchTool params runtime e.2 true s).and (for_prepareDispatchTool _ _ _ _ s)).mono
        (fun prepared s' h => ⟨?_, h.2.steps hs⟩) fun _ _ _ => trivial
      rcases h.1 with ⟨r, rfl, hr⟩ | ⟨haccepted, hnone⟩
      · exact ⟨fun hnone => absurd hnone (Option.some_ne_none r), fun r' hr' => Option.some.inj hr' ▸ hr⟩
      · exact ⟨fun _ => hbatched e he haccepted, fun r hr => absurd (hnone rfl ▸ hr) (Option.some_ne_none r).symm⟩
    · exact (for_executePreparedDispatch (hP.1 rfl) s).mono (fun r s' h => ⟨fun _ => hP.1 rfl, h.steps hs⟩)
        fun _ s' h => ⟨⟨trivial, fun _ _ => hP.1 rfl⟩, h.steps hs⟩
    · rw [hs]
      exact fun _ h => absurd h List.not_mem_nil
  · refine ends_pure ⟨fun i r hr => (nomatch hr), ?_⟩
    rw [hs]
    exact fun _ h => absurd h List.not_mem_nil

/-- What has been done by the end of the run was done in the batch, or for the calls up to the one that ends it. -/
theorem ends_handledCalls (hsequential : concurrency.any (·.enabled) = false) (hs : s.steps = []) :
    Ends (handledCalls params runtime concurrency toolDefinitions toolCalls) s (fun handled s' =>
      ∀ index result, handled.get? index = some (.terminal result) →
        (∃ call, toolCalls[index]? = some call ∧ Acceptable params call) ∧
          ∀ step ∈ s'.steps, Batched params toolCalls step.index ∨ step.index ≤ index) fun _ _ => True := by
  refine ends_bind (ends_handleDispatches hs) fun dispatchResults s₁ hdispatches => ?_
  obtain ⟨hterminal, hsteps⟩ := hdispatches
  unfold handleCalls
  rw [hsequential, if_neg Bool.false_ne_true]
  refine (ends_handleInOrder (Q := fun e r => r.isTerminal = true → Acceptable params e.2)
    (I := fun n s => ∀ step ∈ s.steps, Batched params toolCalls step.index ∨ step.index < n)
    (fun m n s hmn h step hstep => (h step hstep).imp id fun hlt => lt_of_lt_of_le hlt hmn) (fun e he s hs => ?_)
    (sorted_indexed toolCalls) fun e _ step hstep => .inl (hsteps step hstep)).mono (fun handled s' h => ?_) fun _ _ => id
  · unfold resolve
    cases hresult : dispatchResults.get? e.1 with
    | some r =>
      refine ends_pure ⟨fun hr => ?_, fun step hstep => (hs step hstep).imp id fun hlt => by omega⟩
      obtain ⟨_, call, hcall, _, haccepted⟩ := hterminal e.1 r hresult hr
      rw [mem_indexed.mp he] at hcall
      exact Option.some.inj hcall ▸ haccepted
    | none =>
      have hfor : Ends (handleToolCall params runtime e.1 e.2) s
          (fun _ s' => ∀ step ∈ s'.steps, Batched params toolCalls step.index ∨ step.index < e.1 + 1) fun _ _ => True :=
        (for_handleToolCall params runtime e.2 (p := fun i => Batched params toolCalls i ∨ i < e.1 + 1)
          (.inr (Nat.lt_succ_self e.1)) s).mono (fun _ s' h => h.steps fun step hstep =>
            (hs step hstep).imp id fun hlt => by omega) fun _ _ _ => trivial
      by_cases haccepted : Acceptable params e.2
      · exact hfor.mono (fun _ _ h => ⟨fun _ => haccepted, h⟩) fun _ _ => id
      · refine ((not_isTerminal_of_not_acceptable haccepted s).and hfor).mono (fun r _ h => ⟨fun hr => ?_, h.2⟩)
          fun _ _ _ => trivial
        exact absurd (h.1 ▸ hr) Bool.false_ne_true
  · obtain ⟨hother, hcalls⟩ := h
    intro index result hresult
    by_cases hmem : ∃ e ∈ indexed toolCalls, e.1 = index
    · obtain ⟨e, he, rfl⟩ := hmem
      rcases hcalls e he with ⟨r, hr, hQ, hI⟩ | ⟨hempty, -⟩
      · rw [hresult] at hr
        cases hr
        refine ⟨⟨e.2, mem_indexed.mp he, hQ rfl⟩, fun step hstep => (hI rfl step hstep).imp id fun hlt => by omega⟩
      · rw [hresult] at hempty
        exact absurd hempty (Option.some_ne_none _)
    · rw [hother index fun e he heq => hmem ⟨e, he, heq⟩] at hresult
      exact absurd hresult.symm (Option.some_ne_none _)

/-! ## A turn in which the witness service is out of order -/

/-- What the witness service throws on whatever is done. -/
def outOfOrder : Thrown := ⟨"out of order", some "WITNESS_AUTHORIZATION_FAILED", []⟩

def leastBudget : GatewayBudget := ⟨1, 1, 1, Nat.one_pos, Nat.one_pos, Nat.one_pos⟩

def failingRuntime : GatewayRuntime where
  executeTool _ _ := .error outOfOrder
  dispatchOrchestrator := some fun _ => .error outOfOrder
  dispatchWorker := some fun _ => .error outOfOrder
  taskComplete := some fun _ => .error outOfOrder
  requestEscalation := some fun _ => .error outOfOrder
  flagObservation := some fun _ => .error outOfOrder
  emit _ := .ok ()
  childContent _ := ""
  acceptsPacket _ := true
  evidenceRefs := []
  elapsedMs := 0
  snapshot usage := ⟨⟨"run", none, 0⟩, leastBudget, usage, 0, none⟩

def unitsOf (params : ToolParams) (call : ToolCall) : Nat :=
  (params.dispatch call.name call.params).toOption.elim 0 estimateBudgetUnits

def ampleTracker (params : ToolParams) (toolCalls : List ToolCall) : BudgetTracker :=
  .new leastBudget (toolCalls.map (unitsOf params)).sum

/-- Nothing is used, and the steps are still there. -/
def Unspent (params : ToolParams) (toolCalls : List ToolCall) (steps : List TurnStep) (s : TurnState) : Prop :=
  s.tracker = ampleTracker params toolCalls ∧ steps ⊆ s.steps

variable {steps : List TurnStep}

theorem ends_note_unspent (step : TurnStep) (h : Unspent params toolCalls steps s) :
    Ends (note step) s (fun _ s' => Unspent params toolCalls (steps ++ [step]) s') fun _ _ => False :=
  ends_modify ⟨h.1, List.append_subset.mpr
    ⟨fun _ hmem => List.mem_append_left _ (h.2 hmem), List.subset_append_right _ _⟩⟩

theorem ends_failWith (toolName : String) (h : Unspent params toolCalls steps s) :
    Ends (failWith failingRuntime toolName outOfOrder) s
      (fun r s' => r.isTerminal = true ∧ Unspent params toolCalls steps s') fun _ _ => False := by
  refine ends_bind (show Ends (get : Turn TurnState) s (fun s₁ s' => s₁ = s ∧ s' = s) _ from ⟨rfl, rfl⟩) fun s₁ s' hs => ?_
  obtain ⟨rfl, rfl⟩ := hs
  rw [if_pos]
  · exact ends_pure ⟨rfl, h⟩
  · unfold AgentResult.accepted
    rw [h.1]
    simp [ampleTracker, BudgetTracker.new, AgentOutcome.accepted, failingRuntime, outOfOrder]

theorem ends_frame {source : GatewayContextSource} {content name : String} (hname : name ≠ "")
    (h : Unspent params toolCalls steps s) : Ends (toolFrame source content name none) s
      (fun _ s' => Unspent params toolCalls steps s') fun _ _ => False := by
  have hframe : createContextFrame .tool source (some content) (some name) (metadataOf (toolCallIdEntry none)) =
      .ok ⟨.tool, source, content, some name, none⟩ := if_neg (by simpa using hname)
  unfold toolFrame
  rw [hframe]
  exact ends_pure h

theorem ends_fail {α : Type} {x : Turn α} (step : TurnStep) (toolName : String)
    {f : α → Turn ToolHandlingResult} (hx : x = throw outOfOrder)
    (h : Unspent params toolCalls steps s) :
    Ends (tryCatch (note step >>= fun _ => x >>= f) fun thrown => failOrFrame failingRuntime toolName (frame thrown) thrown) s
      (fun r s' => r.isTerminal = true ∧ Unspent params toolCalls (steps ++ [step]) s') fun _ _ => False := by
  subst hx
  refine ends_tryCatch (show Ends _ s _ fun e s' => e = outOfOrder ∧ Unspent params toolCalls (steps ++ [step]) s' from ?_)
    ?_
  · refine ends_bind ((ends_note_unspent step h).mono (fun _ _ => id) fun _ _ => False.elim) fun _ s' hs => ?_
    exact ends_throw ⟨rfl, hs⟩
  · rintro e s' ⟨rfl, hs⟩
    exact ends_failWith toolName hs

theorem Unspent.mono {steps steps' : List TurnStep} (h : Unspent params toolCalls steps' s) (hsub : steps ⊆ steps') :
    Unspent params toolCalls steps s := ⟨h.1, List.Subset.trans hsub h.2⟩

theorem requestSpawn_ampleTracker (hcall : call ∈ toolCalls) :
    (ampleTracker params toolCalls).requestSpawn (unitsOf params call) = (true, ampleTracker params toolCalls) := by
  have hle : unitsOf params call ≤ (toolCalls.map (unitsOf params)).sum :=
    List.le_sum_of_mem (List.mem_map_of_mem hcall)
  unfold BudgetTracker.requestSpawn
  split_ifs with hzero hlt
  · rfl
  · rw [show (ampleTracker params toolCalls).spawnUnitsUsed = .ofNat 0 from rfl, JsNumber.ofNat_add,
      show (ampleTracker params toolCalls).spawnBudgetCeiling = (toolCalls.map (unitsOf params)).sum from rfl,
      JsNumber.lt_ofNat] at hlt
    omega
  · rfl

theorem ends_prepare {steps : List TurnStep} {batchMode : Bool} (hcall : call ∈ toolCalls)
    (hname : isDispatchToolName call.name = true) (h : Unspent params toolCalls steps s) :
    Ends (prepareDispatchTool params failingRuntime call batchMode) s
      (fun prepared s' => (Acceptable params call → prepared = none) ∧ Unspent params toolCalls steps s')
      fun _ _ => False := by
  have hhook : lifecycleHook failingRuntime call.name = some fun _ => .error outOfOrder := by
    unfold lifecycleHook
    split_ifs <;> rfl
  have hspawn := @requestSpawn_ampleTracker params _ _ hcall
  unfold unitsOf at hspawn
  unfold prepareDispatchTool
  rw [hhook, acceptable_iff hname]
  cases hdispatch : params.dispatch call.name call.params with
  | error thrown =>
    have hne : call.name ≠ "" := fun hempty => absurd (hempty ▸ hname) (by decide)
    rw [map_eq_pure_bind]
    exact ends_bind (ends_frame hne h) fun _ _ hs => ends_pure ⟨fun hok => absurd hok Bool.false_ne_true, hs⟩
  | ok budget =>
    rw [hdispatch] at hspawn
    have hgranted : Ends (requestSpawn (estimateBudgetUnits budget)) s (fun granted s' => granted = true ∧
        Unspent params toolCalls steps s') fun _ _ => False := by
      refine (show Ends (requestSpawn _) s (fun granted s' => granted = (s.tracker.requestSpawn _).1 ∧
        s' = { s with tracker := (s.tracker.requestSpawn _).2 }) _ from ⟨rfl, rfl⟩).mono (fun granted s' hs => ?_)
          fun _ _ => id
      rw [h.1, show (ampleTracker params toolCalls).requestSpawn (estimateBudgetUnits budget) = _ from hspawn] at hs
      exact ⟨hs.1, hs.2 ▸ ⟨rfl, h.2⟩⟩
    refine ends_bind hgranted fun granted s' hs => ?_
    rw [if_pos hs.1]
    exact ends_pure ⟨fun _ => rfl, hs.2⟩

theorem ends_execute (index : Nat) (call : ToolCall) (h : Unspent params toolCalls steps s) :
    Ends (executePreparedDispatch failingRuntime index call) s
      (fun r s' => r.isTerminal = true ∧ Unspent params toolCalls (steps ++ [.dispatched index]) s') fun _ _ => False := by
  refine ends_fail (.dispatched index) call.name ?_ h
  unfold lifecycleHook
  split_ifs <;> rfl

theorem ends_handleToolCall (index : Nat) (hcall : call ∈ toolCalls)
    (h : Unspent params toolCalls steps s) : Ends (handleToolCall params failingRuntime index call) s
      (fun r s' => (Acceptable params call → r.isTerminal = true) ∧ Unspent params toolCalls steps s')
      fun _ _ => False := by
  have hended : ∀ {x : Turn ToolHandlingResult} (step : TurnStep), Ends x s (fun r s' => r.isTerminal = true ∧
      Unspent params toolCalls (steps ++ [step]) s') (fun _ _ => False) → Ends x s (fun r s' =>
        (Acceptable params call → r.isTerminal = true) ∧ Unspent params toolCalls steps s') fun _ _ => False :=
    fun _ hx => hx.mono (fun _ _ hs => ⟨fun _ => hs.1, hs.2.mono (List.subset_append_left _ _)⟩) fun _ _ => id
  have hrefused : ∀ {toolName : String} {thrown : Thrown}, toolName ≠ "" → ¬Acceptable params call →
      Ends (refused toolName thrown) s (fun r s' =>
        (Acceptable params call → r.isTerminal = true) ∧ Unspent params toolCalls steps s') fun _ _ => False :=
    fun hne hacceptable => (ends_frame hne h).mono (fun _ _ hs => ⟨fun hok => absurd hok hacceptable, hs⟩) fun _ _ => id
  unfold handleToolCall
  split_ifs with hdispatch hcomplete hescalation hobservation
  · refine ends_bind (ends_prepare hcall hdispatch h) fun prepared s' hprepared => ?_
    cases prepared with
    | none => exact (ends_execute index call hprepared.2).mono (fun _ _ hs =>
        ⟨fun _ => hs.1, hs.2.mono (List.subset_append_left _ _)⟩) fun _ _ => id
    | some r => exact ends_pure ⟨fun hok => absurd (hprepared.1 hok) (Option.some_ne_none r), hprepared.2⟩
  · unfold handleTaskCompleteTool
    cases hrequest : params.taskCompletion call.params with
    | error thrown =>
      refine hrefused (by decide) fun hok => ?_
      rw [Acceptable, if_neg hdispatch, if_pos hcomplete, hrequest] at hok
      exact absurd hok Bool.false_ne_true
    | ok _ => exact hended (.executed index) (ends_fail (.executed index) taskCompleteToolName rfl h)
  · unfold handleEscalationTool
    cases hrequest : params.escalation call.params with
    | error thrown =>
      refine hrefused (by decide) fun hok => ?_
      rw [Acceptable, if_neg hdispatch, if_neg hcomplete, if_pos hescalation, hrequest] at hok
      exact absurd hok Bool.false_ne_true
    | ok _ => exact hended (.executed index) (ends_bind (ends_note_unspent (.executed index) h) fun _ s' hs => ends_failWith _ hs)
  · unfold handleObservationTool
    cases hrequest : params.observation call.params with
    | error thrown =>
      refine hrefused (by decide) fun hok => ?_
      rw [Acceptable, if_neg hdispatch, if_neg hcomplete, if_neg hescalation, if_pos hobservation, hrequest] at hok
      exact absurd hok Bool.false_ne_true
    | ok _ =>
      refine hended (.executed index) (ends_tryCatch (show Ends _ s _ fun e s' => e = outOfOrder ∧
        Unspent params toolCalls (steps ++ [.executed index]) s' from ?_) ?_)
      · refine ends_bind (show Ends (modify _) s (fun _ s' => Unspent params toolCalls steps s') _ from ⟨h.1, h.2⟩)
          fun _ s' hs => ?_
        refine ends_bind ((ends_note_unspent (.executed index) hs).mono (fun _ _ => id) fun _ _ => False.elim)
          fun _ s'' hs => ?_
        exact ends_throw ⟨rfl, hs⟩
      · rintro e s' ⟨rfl, hs⟩
        exact ends_failWith _ hs
  · exact hended (.executed index) (ends_fail (.executed index) call.name rfl h)

theorem ends_batch (hseveral : 1 < (dispatchesOf toolCalls).length) (hj : toolCalls[j]? = some b)
    (hname : isDispatchToolName b.name = true) (hb : Acceptable params b) (h : Unspent params toolCalls [] s) :
    Ends (handleDispatches (gatewayHandlers params failingRuntime) toolCalls) s (fun handled s' =>
      (∀ i r, handled.get? i = some r → ∀ call, toolCalls[i]? = some call → Acceptable params call → r.isTerminal = true) ∧
        Unspent params toolCalls [.dispatched j] s') fun _ _ => False := by
  unfold handleDispatches
  rw [if_pos hseveral]
  refine (ends_handleDispatchBatch (P := fun e prepared => Acceptable params e.2 → prepared = none)
    (V := fun i r => ∀ call, toolCalls[i]? = some call → Acceptable params call → r.isTerminal = true)
    (I := fun done s => Unspent params toolCalls (done.map fun e => .dispatched e.1) s) (fun e he s hs => ?_)
    (fun e he r hr call hcall haccepted => ?_) (fun e _ _ done s hs => ?_) h).mono (fun handled s' h => ⟨h.1, ?_⟩)
    fun _ _ => id
  · obtain ⟨call, hcall, hname, hstripped⟩ := exists_of_mem_unidentified he
    rw [hstripped]
    exact @ends_prepare params toolCalls _ call _ _ (List.mem_of_getElem? hcall) hname hs
  · obtain ⟨call', hcall', _, hstripped⟩ := exists_of_mem_unidentified he
    rw [hcall] at hcall'
    rw [hstripped, ← Option.some.inj hcall'] at hr
    exact absurd (hr haccepted) (Option.some_ne_none r)
  · refine (ends_execute e.1 e.2 hs).mono (fun r _ hs => ⟨fun _ _ _ => hs.1, ?_⟩) fun _ _ => False.elim
    rw [List.map_append]
    exact hs.2
  · obtain ⟨-, pending, hpending, hall⟩ := h
    have hmem : (j, { b with id := none }) ∈ unidentified (dispatchesOf toolCalls) :=
      List.mem_map.mpr ⟨(j, b), List.mem_filter.mpr ⟨mem_indexed.mpr hj, hname⟩, rfl⟩
    rcases hall _ hmem with hmem | ⟨r, hr⟩
    · exact hpending.mono (List.cons_subset.mpr ⟨List.mem_map.mpr ⟨_, hmem, rfl⟩, List.nil_subset _⟩)
    · exact absurd (hr hb) (Option.some_ne_none r)

theorem not_stopsInTime (hij : i < j) (hi : toolCalls[i]? = some a) (hj : toolCalls[j]? = some b)
    (hseveral : 1 < (dispatchesOf toolCalls).length) (ha : Acceptable params a) (hname : isDispatchToolName b.name = true)
    (hb : Acceptable params b) : ¬StopsInTime params toolCalls := by
  intro hstops
  have hends : Ends (handledCalls params failingRuntime none [] toolCalls)
      ⟨ampleTracker params toolCalls, ⟨"run", none, 0⟩, []⟩ (fun handled s' => .dispatched j ∈ s'.steps ∧
        ∃ index result, index < j ∧ handled.get? index = some (.terminal result)) fun _ _ => False := by
    refine ends_bind (ends_batch hseveral hj hname hb ⟨rfl, List.nil_subset _⟩) fun dispatchResults s₁ hbatch => ?_
    refine (ends_handleInOrder (Q := fun e r => Acceptable params e.2 → r.isTerminal = true)
      (I := fun _ s => Unspent params toolCalls [.dispatched j] s) (fun _ _ _ _ => id) (fun e he s hs => ?_)
      (sorted_indexed toolCalls) fun _ _ => hbatch.2).mono (fun handled s' h => ?_) fun _ _ => id
    · unfold resolve
      cases hresult : dispatchResults.get? e.1 with
      | some r => exact ends_pure ⟨hbatch.1 e.1 r hresult e.2 (mem_indexed.mp he), hs⟩
      | none => exact ends_handleToolCall e.1 (List.mem_of_getElem? (mem_indexed.mp he)) hs
    · obtain ⟨-, hcalls⟩ := h
      have hfound : ∀ e ∈ indexed toolCalls, e.1 < j → ∀ r, handled.get? e.1 = some r → r.isTerminal = true →
          .dispatched j ∈ s'.steps ∧ ∃ index result, index < j ∧ handled.get? index = some (.terminal result) := by
        intro e he hlt r hr hterminal
        obtain ⟨result, rfl⟩ : ∃ result, r = .terminal result := by
          cases r with
          | frame frame => exact absurd hterminal Bool.false_ne_true
          | terminal result => exact ⟨result, rfl⟩
        rcases hcalls e he with ⟨r', hr', -, hI⟩ | ⟨hempty, -⟩
        · rw [hr] at hr'
          exact ⟨(hI (Option.some.inj hr' ▸ rfl)).2 List.mem_cons_self, e.1, result, hlt, hr⟩
        · rw [hr] at hempty
          exact absurd hempty (Option.some_ne_none _)
      rcases hcalls (i, a) (mem_indexed.mpr hi) with ⟨r, hr, hQ, -⟩ | ⟨-, e, he, hlt, r, hr, hterminal⟩
      · exact hfound (i, a) (mem_indexed.mpr hi) hij r hr (hQ ha)
      · exact hfound e he (Nat.lt_trans hlt hij) r hr hterminal
  unfold Ends at hends
  rcases houtcome : outcome (handledCalls params failingRuntime none [] toolCalls)
    ⟨ampleTracker params toolCalls, ⟨"run", none, 0⟩, []⟩ with ⟨thrown | handled, s'⟩
  · rw [houtcome] at hends
    exact hends
  · rw [houtcome] at hends
    obtain ⟨hmem, index, result, hlt, hresult⟩ := hends
    exact absurd (hstops failingRuntime none [] _ _ handled s' rfl houtcome index result hresult _ hmem) (Nat.not_le.mpr hlt)

end

/-- **Turns that stop in time.** Whatever the tools, the hooks and the budget do, a turn on the sequential path does
nothing for a call after the one that ends the run, exactly when it has one dispatch call at most, or no acceptable
dispatch call after a call that can end the run. -/
theorem sequential_stops_iff (params : ToolParams) (toolCalls : List ToolCall) : StopsInTime params toolCalls ↔
    (dispatchesOf toolCalls).length ≤ 1 ∨ ∀ (i j : Nat) (a b : ToolCall), i < j → toolCalls[i]? = some a →
      toolCalls[j]? = some b → Acceptable params a → isDispatchToolName b.name = true → ¬Acceptable params b := by
  constructor
  · intro hstops
    by_contra hcon
    push Not at hcon
    obtain ⟨hseveral, i, j, a, b, hij, hi, hj, ha, hname, hb⟩ := hcon
    exact not_stopsInTime hij hi hj hseveral ha hname hb hstops
  · intro h runtime concurrency toolDefinitions tracker correlation handled s hsequential hend index result hresult step hstep
    have hends := @ends_handledCalls params runtime concurrency toolDefinitions toolCalls ⟨tracker, correlation, []⟩
      hsequential rfl
    unfold Ends at hends
    rw [hend] at hends
    obtain ⟨⟨a, hcall, ha⟩, hsteps⟩ := hends index result hresult
    rcases hsteps step hstep with ⟨hseveral, b, hb, hname, hacceptable⟩ | hle
    · by_contra hlt
      rcases h with hone | hnone
      · omega
      · exact hnone index step.index a b (not_le.mp hlt) hcall hb ha hname hacceptable
    · exact hle

def acceptingParams : ToolParams where
  dispatch _ _ := .ok none
  taskCompletion _ := .ok ()
  escalation _ := .ok ⟨"blocked", .low, [], none⟩
  observation _ := .ok "note"

theorem complete_then_dispatch_runs_on : ¬StopsInTime acceptingParams
    [⟨"task_complete", .null, none⟩, ⟨"dispatch_worker", .null, none⟩, ⟨"dispatch_worker", .null, none⟩] :=
  not_stopsInTime (i := 0) (j := 1) Nat.one_pos rfl rfl (by decide) rfl rfl rfl

end NousCore.Agent
