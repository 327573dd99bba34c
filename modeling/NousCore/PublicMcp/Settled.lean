import NousCore.PublicMcp.Tasks

/-!
# How executions leave their tasks

* `ran` : what the runtime has answered;
* `settled_iff` : an execution leaves its task settled exactly when the runtime answers that it has completed.
-/

namespace NousCore.PublicMcp

open Async PublicMcpTaskProjectionStore

variable {Value : Type} {service : PublicMcpSurfaceService} {agent : PublicMcpRuntimeAgentDefinition Value}
  {request : PublicMcpAgentInvokeCommand} {taskId runId : String}
  {l l' : Log (@TaskOp.Answer Value)} {s t u : TaskState Value}
  {record : Option (PublicMcpTaskProjectionRecord Value)}

/-! ## Tracking a task -/

/-- The id was made by the call, and `record` is stored under it. -/
structure Tracks (taskId : String) (record : Option (PublicMcpTaskProjectionRecord Value))
    (l : Log (@TaskOp.Answer Value)) (s : TaskState Value) : Prop where
  made : taskId ∈ l.filterMap madeBy
  stored : s.tasks.find? taskId = record

def ranBy : Sigma (@TaskOp.Answer Value) →
    Option (Except String (PublicMcpRuntimeInvocationResultLike Value))
  | ⟨.runAgent _, answer⟩ => some answer
  | _ => none

def ran (l : Log (@TaskOp.Answer Value)) : List (Except String (PublicMcpRuntimeInvocationResultLike Value)) :=
  l.filterMap ranBy

theorem ran_snoc (l : Log (@TaskOp.Answer Value)) (e : Sigma (@TaskOp.Answer Value)) :
    ran (l ++ [e]) = ran l ++ (ranBy e).toList := by
  unfold ran
  rw [List.filterMap_append]
  congr 1

/-- A call that other calls leave its tasks to. -/
abbrev owning : Contract (@TaskOp.Answer Value) (TaskEnv Value) (TaskState Value) := .within OwnTasks

theorem Tracks.snoc {e : Sigma (@TaskOp.Answer Value)} (h : Tracks taskId record l s)
    (hsame : t.tasks.find? taskId = s.tasks.find? taskId) : Tracks taskId record (l ++ [e]) t := by
  refine ⟨?_, hsame.trans h.stored⟩
  rw [List.filterMap_append]
  exact List.mem_append_left _ h.made

theorem meets_ask {α : Type} {o : TaskOp Value} {next : o.Answer → TaskCall Value α}
    {post : Log (@TaskOp.Answer Value) → Except String α → TaskState Value → Prop}
    (htracks : Tracks taskId record l s) (ho : ∀ record, o ≠ .putTask record)
    (h : ∀ env s', Tracks taskId record (l ++ [⟨o, (answerTask env s' o).1⟩]) s' →
      (next (answerTask env s' o).1).Meets taskAnswers owning post (l ++ [⟨o, (answerTask env s' o).1⟩]) s') :
    (.call o next : TaskCall Value α).Meets taskAnswers owning post l s := by
  refine meets_within_call fun env r s' hanswers hown => ?_
  have hanswer : answerTask env (env.others s) o = (r, s') := Option.some.inj hanswers
  have hstate : (answerTask env (env.others s) o).2 = env.others s := by
    cases o <;> first | rfl | exact absurd rfl (ho _)
  obtain rfl : env.others s = s' := hstate.symm.trans (congrArg Prod.snd hanswer)
  obtain rfl : (answerTask env (env.others s) o).1 = r := congrArg Prod.fst hanswer
  exact h env (env.others s) (htracks.snoc (hown taskId htracks.made))

theorem meets_putTask {α : Type} {next : PublicMcpTaskProjectionRecord Value} {k : Unit → TaskCall Value α}
    {post : Log (@TaskOp.Answer Value) → Except String α → TaskState Value → Prop}
    (hmade : next.taskId ∈ l.filterMap madeBy)
    (h : ∀ s', Tracks next.taskId (some next) (l ++ [⟨.putTask next, ()⟩]) s' →
      (k ()).Meets taskAnswers owning post (l ++ [⟨.putTask next, ()⟩]) s') :
    (.call (.putTask next) k : TaskCall Value α).Meets taskAnswers owning post l s := by
  refine meets_within_call fun env r s' hanswers _ => ?_
  cases hanswers
  refine h _ ⟨?_, Collection.find?_put_self _ next⟩
  rw [List.filterMap_append]
  exact List.mem_append_left _ hmade

theorem meets_update {patch : PublicMcpTaskProjectionRecord Value → PublicMcpTaskProjectionRecord Value}
    {raw : PublicMcpTaskProjectionRecord Value} (htracks : Tracks taskId (some raw) l s)
    (hvalid : ValidTask (patch raw)) (hid : (patch raw).taskId = taskId) :
    (update taskId patch).Meets taskAnswers owning
      (fun l' y t => (∃ p, y = .ok p) ∧ Tracks taskId (some (patch raw)) l' t ∧ ran l' = ran l) l s := by
  subst hid
  refine meets_ask htracks (fun _ h => nomatch h) fun env s₁ htracks₁ => ?_
  rw [show (answerTask env s₁ (.getTask (patch raw).taskId)).1 = some raw from htracks₁.stored] at htracks₁ ⊢
  show (unwrap (parseTaskRecord (patch raw)) >>= fun next => _).Meets _ _ _ _ _
  rw [parseTaskRecord, if_pos hvalid]
  refine meets_putTask htracks₁.made fun s₂ htracks₂ => ⟨⟨_, rfl⟩, htracks₂, ?_⟩
  rw [ran_snoc, ran_snoc]
  simp [ranBy]

/-! ## Acceptance -/

/-- The task of an accepted invocation is stored, and the runtime has not been asked. -/
structure Accepted (request : PublicMcpAgentInvokeCommand) (taskId : String)
    (l : Log (@TaskOp.Answer Value)) (s : TaskState Value) : Prop where
  made : taskId ∈ l.filterMap madeBy
  stored : ∃ record, s.tasks.find? taskId = some record ∧ ValidTask record ∧ record.taskId = taskId ∧
    record.subjectNamespace = request.subject.namespace ∧ record.subjectClientId = request.subject.clientId ∧
    record.result = none ∧ record.status = .queued
  ran : ran l = []

theorem meets_audit {requestId : String} {timestamp : IsoTime} {outcome : String} {rejectReason : Option String}
    (htracks : Tracks taskId record l s) :
    (audit service request requestId timestamp outcome rejectReason).Meets taskAnswers owning
      (fun l' _ t => Tracks taskId record l' t ∧ ran l' = ran l) l s := by
  unfold audit
  split_ifs
  · refine meets_ask htracks (fun _ h => nomatch h) fun env s' htracks' => (meets_unwrap _).mpr ⟨htracks', ?_⟩
    rw [ran_snoc]
    exact List.append_nil _
  · exact ⟨htracks, rfl⟩

theorem meets_auditEnd {timestamp : IsoTime} {outcome : String} {rejectReason : Option String}
    (htracks : Tracks taskId record l s) :
    (auditEnd service request timestamp outcome rejectReason).Meets taskAnswers owning
      (fun l' _ t => Tracks taskId record l' t ∧ ran l' = ran l) l s := by
  unfold auditEnd
  split_ifs
  · refine meets_ask htracks (fun _ h => nomatch h) fun env s' htracks' => ?_
    refine (meets_audit htracks').mono fun l' _ t h => ⟨h.1, h.2.trans ?_⟩
    rw [ran_snoc]
    exact List.append_nil _
  · exact ⟨htracks, rfl⟩

theorem accepted_invokeAsync : (invokeAsync service agent request).Meets taskAnswers owning
    (fun l' y t => ∀ accepted, y = .ok accepted → Accepted request accepted.taskId l' t) [] s := by
  refine meets_within_call fun env taskId s₁ hanswers _ => ?_
  refine meets_within_call fun env runId s₂ hanswers _ => ?_
  refine meets_within_call fun env submittedAt s₃ hanswers _ => ?_
  show (create _ >>= fun _ => _).Meets _ _ _ _ _
  rw [meets_bind]
  unfold create
  rw [meets_bind, meets_unwrap, parseTaskRecord]
  split_ifs with hvalid
  · refine meets_putTask (by simp [madeBy, newRecord]) fun s₄ htracks => ?_
    show (audit service request _ _ _ _ >>= fun _ => _).Meets _ _ _ _ _
    rw [meets_bind]
    refine (meets_audit htracks).mono fun l₅ y s₅ h => ?_
    cases y with
    | error message => rintro _ ⟨⟩
    | ok _ =>
      refine meets_ask h.1 (fun _ h => nomatch h) fun env s₆ htracks₆ => ?_
      rintro accepted haccepted
      cases haccepted
      refine ⟨htracks₆.made, ⟨_, htracks₆.stored, hvalid, rfl, rfl, rfl, rfl, rfl⟩, ?_⟩
      rw [ran_snoc, h.2]
      simp [ran, ranBy]
  · rintro _ ⟨⟩

/-! ## Execution -/

section Execution

variable [RuntimeValue Value]

def RuntimeCompleted (l : Log (@TaskOp.Answer Value)) : Prop :=
  ∃ r, .ok r ∈ ran l ∧ r.status = .completed

/-- What an execution leaves: the result of a runtime that completed, or a task without a result. -/
inductive Left (request : PublicMcpAgentInvokeCommand) (taskId : String) (l : Log (@TaskOp.Answer Value))
    (s : TaskState Value) : Prop
  | completed {record : PublicMcpTaskProjectionRecord Value} {r : PublicMcpRuntimeInvocationResultLike Value}
      {result : PublicMcpTaskResult Value} : Tracks taskId (some record) l s →
      record.subjectNamespace = request.subject.namespace → record.subjectClientId = request.subject.clientId →
      ran l = [.ok r] → r.status = .completed → record.status = .completed → record.result = some result →
      Left request taskId l s
  | running {record : PublicMcpTaskProjectionRecord Value} : Tracks taskId (some record) l s →
      ¬RuntimeCompleted l → record.status.terminal = false → record.result = none → Left request taskId l s

omit [RuntimeValue Value] in
theorem parseTaskResult_text (taskId : String) (status : PublicMcpTaskResultStatus) (result : Option (AgentRun Value))
    (code message : String) : ∃ e, parseTaskResult taskId status result (some (.string code, message)) = .error e := by
  unfold parseTaskResult
  split_ifs
  · exact ⟨_, rfl⟩
  · exact ⟨_, rfl⟩

/-- Only a completed result is stored: the code of an error is a text, which the schema of the results refuses. -/
theorem left_settleTask {record : PublicMcpTaskProjectionRecord Value}
    {r : PublicMcpRuntimeInvocationResultLike Value} {completedAt : IsoTime}
    (htracks : Tracks taskId (some record) l s) (hvalid : ValidTask record) (hid : record.taskId = taskId)
    (hspace : record.subjectNamespace = request.subject.namespace)
    (hclient : record.subjectClientId = request.subject.clientId) (hran : ran l = [.ok r])
    (hstatus : record.status.terminal = false) (hresult : record.result = none) :
    (settleTask service taskId runId request r completedAt).Meets taskAnswers owning
      (fun l' _ t => Left request taskId l' t) l s := by
  unfold settleTask
  by_cases hcompleted : r.status = .completed
  · rw [if_pos hcompleted, meets_bind, meets_unwrap, parseTaskResult, if_neg (hid ▸ hvalid.1)]
    dsimp only
    rw [meets_bind]
    obtain ⟨htask, htool, hnamespace, hrun, -, hclientId, -⟩ := hvalid
    refine (meets_update htracks ?_ hid).mono ?_
    · refine ⟨htask, htool, hnamespace, hrun, by simp, hclientId, ?_⟩
      rintro result hresult'
      cases hresult'
      exact ⟨hid ▸ htask, by simp⟩
    · rintro l' y t ⟨⟨p, rfl⟩, htracks', hran'⟩
      refine (meets_auditEnd htracks').mono fun l'' _ u h => ?_
      exact .completed h.1 hspace hclient (h.2.trans (hran'.trans hran)) hcompleted rfl rfl
  · rw [if_neg hcompleted]
    obtain ⟨e, he⟩ := parseTaskResult_text taskId (if r.status = .blocked then .blocked else .failed)
      (none : Option (AgentRun Value)) ((r.error.map (·.code)).getD r.status.text)
      ((r.error.map (·.message)).getD "Public agent invocation failed")
    rw [meets_bind, meets_unwrap, he]
    refine .running htracks ?_ hstatus hresult
    rintro ⟨r', hr', hr'completed⟩
    rw [hran] at hr'
    cases List.mem_singleton.mp hr'
    exact hcompleted hr'completed

theorem left_executeAsyncTask (haccepted : Accepted request taskId l s) :
    (executeAsyncTask service taskId runId agent request).Meets taskAnswers owning
      (fun l' _ t => Left request taskId l' t) l s := by
  obtain ⟨hmade, ⟨record, hstored, hvalid, hid, hspace, hclient, hresult, hstatus⟩, hran⟩ := haccepted
  have hnot : ∀ {l' : Log (@TaskOp.Answer Value)}, (∀ r, .ok r ∉ ran l') → ¬RuntimeCompleted l' :=
    fun h ⟨r, hr, _⟩ => h r hr
  refine meets_ask ⟨hmade, hstored⟩ (fun _ h => nomatch h) fun env s₁ htracks₁ => ?_
  show (markRunning taskId _ >>= fun _ => _).Meets _ _ _ _ _
  rw [meets_bind]
  have hvalid' : ∀ updatedAt, ValidTask { record with
      status := .running, updatedAt := updatedAt, waitReason := none, errorCode := none } := by
    obtain ⟨h₁, h₂, h₃, h₄, -, h₆, h₇⟩ := hvalid
    exact fun updatedAt => ⟨h₁, h₂, h₃, h₄, by simp, h₆, h₇⟩
  refine (meets_update htracks₁ (hvalid' _) hid).mono ?_
  rintro l₂ y s₂ ⟨⟨p, rfl⟩, htracks₂, hran₂⟩
  have hran₂ : ran l₂ = [] := by
    rw [hran₂, ran_snoc, hran]
    rfl
  have hrunning : ¬RuntimeCompleted l₂ := hnot fun r hr => absurd hr (by simp [hran₂])
  rw [meets_bind, meets_unwrap]
  cases agent.buildTaskInstructions request with
  | error message => exact .running htracks₂ hrunning rfl hresult
  | ok taskInstructions =>
    dsimp only
    rw [meets_bind, meets_unwrap]
    cases agent.buildPayload.mapM fun build => build request with
    | error message => exact .running htracks₂ hrunning rfl hresult
    | ok payload =>
      refine meets_ask htracks₂ (fun _ h => nomatch h) fun env s₃ htracks₃ => ?_
      obtain ⟨others, id, now, rejected, answered⟩ := env
      have hran₃ : ∀ invocation, ran (l₂ ++ [⟨.runAgent invocation, answered⟩]) = [answered] := fun invocation => by
        rw [ran_snoc, hran₂]
        rfl
      cases answered with
      | error message =>
        refine .running htracks₃ (hnot fun r hr => ?_) rfl hresult
        change _ ∈ ran (l₂ ++ [⟨.runAgent _, .error message⟩]) at hr
        rw [hran₃] at hr
        exact absurd (List.mem_singleton.mp hr) (by simp)
      | ok r =>
        refine meets_ask htracks₃ (fun _ h => nomatch h) fun env' s₄ htracks₄ => ?_
        refine left_settleTask htracks₄ (hvalid' _) hid hspace hclient ?_ rfl hresult
        rw [ran_snoc]
        exact congrArg (· ++ []) (hran₃ _)

/-- A settled task: its status is final and that of the runtime, and its client is given a result. -/
structure Settled (subject : PublicMcpSubject) (taskId : String) (l : Log (@TaskOp.Answer Value))
    (s : TaskState Value) : Prop where
  stored : ∃ record, s.tasks.find? taskId = some record ∧ record.status.terminal = true ∧
    ∀ r, .ok r ∈ ran l → record.status = r.status.toTaskStatus
  answered : ∀ y l' t, (getTaskResult subject taskId).Ends taskAnswers OwnTasks l s y l' t →
    ∃ result, y = .ok (some result)

omit [RuntimeValue Value] in
theorem Left.settles_iff (h : Left request taskId l s) : Settled request.subject taskId l s ↔ RuntimeCompleted l := by
  cases h with
  | @completed record r result htracks hspace hclient hran hcompleted hstatus hresult =>
    refine ⟨fun _ => ⟨r, by simp [hran], hcompleted⟩, fun _ => ⟨⟨record, htracks.stored, ?_, ?_⟩, ?_⟩⟩
    · rw [hstatus]
      rfl
    · intro r' hr'
      rw [hran] at hr'
      cases List.mem_singleton.mp hr'
      rw [hstatus, hcompleted]
      rfl
    · intro y l' t hends
      refine Meets.of_within (P := fun _ y _ => ∃ result, y = .ok (some result)) ?_ hends
      refine meets_ask htracks (fun _ h => nomatch h) fun env s' htracks' => ?_
      rw [show (answerTask env s' (.getTask taskId)).1 = some record from htracks'.stored]
      refine ⟨result, ?_⟩
      rw [Option.filter_some, if_pos (by simp [hspace, hclient])]
      exact congrArg Except.ok hresult
  | @running record htracks hnot hstatus hresult =>
    refine ⟨fun hsettled => ?_, fun hcompleted => absurd hcompleted hnot⟩
    obtain ⟨record', hstored, hterminal, -⟩ := hsettled.stored
    cases htracks.stored.symm.trans hstored
    rw [hstatus] at hterminal
    cases hterminal

/-- **Settled tasks.** However the runtime behaves, the execution of an accepted task leaves it settled exactly when
the runtime answers with the status `completed`. -/
theorem settled_iff {accepted : PublicMcpAgentInvokeTaskAccepted} {y : Except String Unit}
    (haccepted : (invokeAsync service agent request).Ends taskAnswers OwnTasks [] s (.ok accepted) l t)
    (hends : (executeAsyncTask service accepted.taskId accepted.runId agent request).Ends taskAnswers OwnTasks l t y
      l' u) :
    Settled request.subject accepted.taskId l' u ↔ RuntimeCompleted l' :=
  ((left_executeAsyncTask ((accepted_invokeAsync.of_within haccepted) accepted rfl)).of_within hends).settles_iff

end Execution

/-! ## One task, completed and failed -/

instance : RuntimeValue Json where
  asString
    | .string s => some s
    | _ => none
  response
    | .object entries => (entries.lookup "response").bind Json.string?
    | _ => none
  isObject
    | .object _ | .array _ => true
    | _ => false

def agentOne : PublicMcpRuntimeAgentDefinition Json where
  targetClass := .orchestrator
  buildTaskInstructions := fun _ => .ok "handle request"
  buildPayload := none

def invokeOne : PublicMcpAgentInvokeCommand where
  requestId := "550e8400-e29b-41d4-a716-446655440002"
  subject :=
    { clientId := "client-1"
      clientIdHash := "0123456789abcdef0123456789abcdef0123456789abcdef0123456789abcdef"
      tokenFingerprint := none
      «namespace» := "app:0123456789abcdef0123456789abcdef0123456789abcdef0123456789abcdef" }
  memory := none

def envOf (answer : Except String (PublicMcpRuntimeInvocationResultLike Json)) (id : String) : TaskEnv Json :=
  ⟨fun s => s, id, toISOString 1773446400000, none, answer⟩

def withoutAudit : PublicMcpSurfaceService := ⟨false⟩

theorem exists_execution (answer : Except String (PublicMcpRuntimeInvocationResultLike Json))
    (P : Log (@TaskOp.Answer Json) → Bool)
    (h : (do
      let (accepted, l, s) ← (invokeAsync withoutAudit agentOne invokeOne).logged taskAnswers OwnTasks
        [envOf answer "task-1", envOf answer "run-1", envOf answer "", envOf answer "", envOf answer ""] [] ⟨.empty⟩
      let accepted ← accepted.toOption
      let (_, l', _) ← (executeAsyncTask withoutAudit accepted.taskId accepted.runId agentOne invokeOne).logged
        taskAnswers OwnTasks (List.replicate (if answer.toOption.any (·.status = .completed) then 7 else 5)
          (envOf answer "")) l s
      some (P l')) = some true) :
    ∃ accepted l t y l' u, (invokeAsync withoutAudit agentOne invokeOne).Ends taskAnswers OwnTasks [] ⟨.empty⟩
      (.ok accepted) l t ∧ (executeAsyncTask withoutAudit accepted.taskId accepted.runId agentOne invokeOne).Ends
        taskAnswers OwnTasks l t y l' u ∧ P l' = true := by
  obtain ⟨⟨accepted, l, s⟩, hinvoke, h⟩ := Option.bind_eq_some_iff.mp h
  obtain ⟨accepted', haccepted, h⟩ := Option.bind_eq_some_iff.mp h
  obtain ⟨⟨y, l', u⟩, hexecute, hP⟩ := Option.bind_eq_some_iff.mp h
  cases accepted with
  | error message => cases haccepted
  | ok accepted =>
    obtain rfl : accepted = accepted' := Option.some.inj haccepted
    exact ⟨accepted, l, s, y, l', u, ends_of_logged hinvoke, ends_of_logged hexecute, Option.some.inj hP⟩

/-- The runtime answers with a text that it calls its response. -/
def completedOne : PublicMcpRuntimeInvocationResultLike Json :=
  ⟨"run-1", .completed, .object [("response", .string "done")], none⟩

def failedOne : PublicMcpRuntimeInvocationResultLike Json :=
  ⟨"run-1", .failed, .null, some ⟨"TOOL_EXECUTION_FAILED", "the agent failed"⟩⟩

theorem completed_settled :
    ∃ accepted l t y l' u, (invokeAsync withoutAudit agentOne invokeOne).Ends taskAnswers OwnTasks [] ⟨.empty⟩
      (.ok accepted) l t ∧ (executeAsyncTask withoutAudit accepted.taskId accepted.runId agentOne invokeOne).Ends
        taskAnswers OwnTasks l t y l' u ∧ Settled invokeOne.subject accepted.taskId l' u := by
  obtain ⟨accepted, l, t, y, l', u, hinvoke, hexecute, hran⟩ := exists_execution (.ok completedOne)
    (fun l => (ran l).any fun answer => answer.toOption.any (·.status = .completed)) (by decide +kernel)
  refine ⟨accepted, l, t, y, l', u, hinvoke, hexecute, (settled_iff hinvoke hexecute).mpr ?_⟩
  obtain ⟨answer, hanswer, hcompleted⟩ := List.any_eq_true.mp hran
  cases answer with
  | error message => cases hcompleted
  | ok r => exact ⟨r, hanswer, of_decide_eq_true hcompleted⟩

/-- The runtime fails, and the task stays as it was marked: running, and without a result. -/
theorem failed_not_settled :
    ∃ accepted l t y l' u, (invokeAsync withoutAudit agentOne invokeOne).Ends taskAnswers OwnTasks [] ⟨.empty⟩
      (.ok accepted) l t ∧ (executeAsyncTask withoutAudit accepted.taskId accepted.runId agentOne invokeOne).Ends
        taskAnswers OwnTasks l t y l' u ∧ ¬Settled invokeOne.subject accepted.taskId l' u := by
  obtain ⟨accepted, l, t, y, l', u, hinvoke, hexecute, hran⟩ := exists_execution (.ok failedOne)
    (fun l => (ran l).all fun answer => answer.toOption.all (·.status = .failed)) (by decide +kernel)
  have hleft := (left_executeAsyncTask ((accepted_invokeAsync.of_within hinvoke) accepted rfl)).of_within hexecute
  refine ⟨accepted, l, t, y, l', u, hinvoke, hexecute, fun hsettled => ?_⟩
  obtain ⟨r, hr, hcompleted⟩ := hleft.settles_iff.mp hsettled
  have hfailed : r.status = .failed := of_decide_eq_true (List.all_eq_true.mp hran _ hr)
  exact absurd (hcompleted.symm.trans hfailed) (by decide)

end NousCore.PublicMcp
