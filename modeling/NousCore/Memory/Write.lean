import NousCore.Access.PolicyEngine
import NousCore.Memory.Failures

/-!
# Governed writes to the long-term memory

* `GovernedTypedLtmWriteInput`, `GovernedTypedLtmPolicyOptions` : what is to be written, and who decides;
* `WriteOp`, `WriteEnv`, `writeAnswers` : the operations of the runtime, and those of the policy;
* `isCrossProjectMemoryWrite`, `buildPolicyAccessContextForMemoryWrite`, `evaluateWritePolicy` : the policy check.
-/

namespace NousCore.Memory

open Async
open Access (ProjectId PolicyAccessContext PolicyDecisionRecord PolicyEvaluationResult MemoryAccessPolicy
  ProjectControlState)

/-! ## What is written -/

structure GovernedTypedLtmWriteDecision where
  approved : Bool
  reason : Option String
  reasonCode : Option String
  policyDecision : Option PolicyDecisionRecord

structure GovernedTypedLtmWriteInput where
  candidate : MemoryWriteCandidate
  projectId : Option String
  actingProjectId : Option ProjectId
  actor : Option MemoryMutationActor
  decision : Option GovernedTypedLtmWriteDecision
  traceId : Option String
  evidenceRefs : Option (List Json)

/-- The dependencies of the policy are asked through operations. -/
structure GovernedTypedLtmPolicyOptions where
  getProjectControlState : Bool
  nodeId : Option String

/-- Of a `ProjectConfig` only its access policy matters here. -/
structure ProjectConfig where
  memoryAccessPolicy : Option MemoryAccessPolicy

structure GovernedTypedLtmWriteResult where
  result : GovernedTypedLtmMutationResult
  policyDecision : Option PolicyDecisionRecord

def DEFAULT_MEMORY_ACCESS_POLICY : MemoryAccessPolicy := ⟨.all, .all, true⟩

/-- A fact or a preference; the id of its project is not empty. -/
def parseTypedCandidate (candidate : MemoryWriteCandidate) : Except String MemoryWriteCandidate :=
  if (candidate.type = .fact ∨ candidate.type = .preference) ∧ candidate.projectId ≠ some "" then .ok candidate
  else .error "Invalid TypedLtmWriteCandidate"

/-! ## Operations -/

inductive WriteOp where
  | ltm (o : LtmOp)
  | getProject (id : ProjectId)
  | getProjectControlState (id : ProjectId)
  | evaluate (ctx : PolicyAccessContext)

@[reducible] def WriteOp.Answer : WriteOp → Type
  | .ltm o => o.Answer
  | .getProject _ => Except String (Option ProjectConfig)
  | .getProjectControlState _ => Except String (Option ProjectControlState)
  | .evaluate _ => Except String PolicyEvaluationResult

structure WriteEnv where
  ltm : LtmEnv
  project : Except String (Option ProjectConfig)
  controlState : Except String (Option ProjectControlState)
  evaluated : Except String PolicyEvaluationResult

def writeAnswers : Answers WriteOp.Answer WriteEnv LtmState
  | .ltm o, env, s => answers o env.ltm s
  | .getProject _, env, s => some (env.project, s)
  | .getProjectControlState _, env, s => some (env.controlState, s)
  | .evaluate _, env, s => some (env.evaluated, s)

def NewWriteIds : Allowance WriteOp.Answer WriteEnv LtmState
  | _, .ltm o, env, s => NewIds [] o env.ltm s
  | _, _, _, _ => True

instance (l : Log WriteOp.Answer) (o : WriteOp) (env : WriteEnv) (s : LtmState) :
    Decidable (NewWriteIds l o env s) :=
  match o with
  | .ltm o => inferInstanceAs (Decidable (NewIds [] o env.ltm s))
  | .getProject _ | .getProjectControlState _ | .evaluate _ => instDecidableTrue

abbrev WriteCall := Async WriteOp.Answer String

def ltm {α : Type} (call : LtmCall α) : WriteCall α := call.via WriteOp.ltm fun _ r => r

def getProject (id : ProjectId) : WriteCall (Option ProjectConfig) := do
  let answer ← perform (WriteOp.getProject id)
  unwrap answer

def getProjectControlState (id : ProjectId) : WriteCall (Option ProjectControlState) := do
  let answer ← perform (WriteOp.getProjectControlState id)
  unwrap answer

def evaluate (ctx : PolicyAccessContext) : WriteCall PolicyEvaluationResult := do
  let answer ← perform (WriteOp.evaluate ctx)
  unwrap answer

/-! ## The policy -/

section

variable (candidate : MemoryWriteCandidate)

def candidateProject : Option ProjectId :=
  candidate.projectId.bind fun id => if h : id ≠ "" then some ⟨id, h⟩ else none

section

variable (actingProjectId : ProjectId)

def isCrossProjectMemoryWrite : Bool :=
  candidate.scope = .global || (candidateProject candidate).any (· ≠ actingProjectId)

/-- The default applies where a project has no policy. -/
def getEffectivePolicy (config : Option ProjectConfig) : Option MemoryAccessPolicy :=
  config.map fun config => config.memoryAccessPolicy.getD DEFAULT_MEMORY_ACCESS_POLICY

def writeContext (target : Option (ProjectId × MemoryAccessPolicy))
    (projectPolicy : MemoryAccessPolicy) (projectControlState : Option ProjectControlState)
    (traceId nodeId : Option String) : PolicyAccessContext where
  action := .write
  fromProjectId := actingProjectId
  targetProjectId := target.map (·.1)
  targetProjectIds := none
  includeGlobal := target.isNone
  projectPolicy := projectPolicy
  targetProjectPolicy := target.map (·.2)
  targetProjectPolicies := none
  nodeOverride := none
  projectControlState := projectControlState
  traceId := traceId
  nodeId := nodeId

/-- No context where a config is missing. -/
def buildPolicyAccessContextForMemoryWrite
    (actingProjectConfig targetProjectConfig : Option ProjectConfig) (projectControlState : Option ProjectControlState)
    (traceId nodeId : Option String) : Option PolicyAccessContext :=
  match getEffectivePolicy actingProjectConfig with
  | none => none
  | some projectPolicy =>
    match candidate.scope, (candidateProject candidate).filter (· ≠ actingProjectId) with
    | .global, _ => some (writeContext actingProjectId none projectPolicy projectControlState traceId nodeId)
    | .project, none => none
    | .project, some targetProjectId =>
      match getEffectivePolicy targetProjectConfig with
      | none => none
      | some targetPolicy =>
        some (writeContext actingProjectId (some (targetProjectId, targetPolicy)) projectPolicy projectControlState
          traceId nodeId)

def deniedPolicyResult (projectId : ProjectId) (targetProjectId : Option ProjectId) (nodeId traceId : Option String)
    (reason : String) : WriteCall PolicyEvaluationResult := do
  let id ← ltm makeId
  let occurredAt ← ltm now
  return { allowed := false
           reasonCode := .denied
           reason := reason
           decisionRecord :=
             { id := id
               projectId := projectId
               targetProjectId := targetProjectId
               action := .write
               allowed := false
               reasonCode := .denied
               reason := reason
               nodeId := nodeId
               traceId := traceId
               occurredAt := occurredAt } }

def getTargetConfig : WriteCall (Option ProjectConfig) :=
  match (candidateProject candidate).filter (· ≠ actingProjectId) with
  | some target => getProject target
  | none => return none

end

end

/-- The state is asked for only where the policy can tell it. -/
def getControlState (policy : GovernedTypedLtmPolicyOptions) (actingProjectId : ProjectId) :
    WriteCall (Option ProjectControlState) :=
  if policy.getProjectControlState then getProjectControlState actingProjectId else return none

/-- Where a write crosses no project, or no policy is configured, there is nothing to evaluate. -/
def evaluateWritePolicy (policy : Option GovernedTypedLtmPolicyOptions) (candidate : MemoryWriteCandidate)
    (actingProjectId : Option ProjectId) (traceId : Option String) : WriteCall (Option PolicyEvaluationResult) :=
  match actingProjectId.filter (isCrossProjectMemoryWrite candidate), policy with
  | none, _ | _, none => return none
  | some actingProjectId, some policy => do
    let actingConfig ← getProject actingProjectId
    let targetConfig ← getTargetConfig candidate actingProjectId
    let projectControlState ← getControlState policy actingProjectId
    match buildPolicyAccessContextForMemoryWrite candidate actingProjectId actingConfig targetConfig
      projectControlState traceId policy.nodeId with
    | some policyCtx => do
      let result ← evaluate policyCtx
      return some result
    | none => do
      let target := if candidate.scope = .global then none else candidateProject candidate
      let result ← deniedPolicyResult actingProjectId target policy.nodeId traceId
        "Policy config unavailable; deny-by-default"
      return some result

/-! ## The write -/

variable (runtime : LtmRuntime) (policy : Option GovernedTypedLtmPolicyOptions)

def writeAuditOf (input : GovernedTypedLtmWriteInput) (mutationId : String) (now : IsoTime) (projectId : Option String)
    (outcome : MemoryMutationOutcome) (reasonCode reason : String) (resultingEntryId : Option String) :
    AppendAuditRecordInput where
  id := mutationId
  action := .create
  actor := input.actor.getD .pfc
  outcome := outcome
  reasonCode := reasonCode
  reason := reason
  projectId := projectId
  targetEntryId := none
  resultingEntryId := resultingEntryId
  tombstoneId := none
  traceId := some (input.traceId.getD input.candidate.traceId)
  evidenceRefs := input.evidenceRefs.getD []
  occurredAt := now

def storeEntry (input : GovernedTypedLtmWriteInput) (candidate : MemoryWriteCandidate) (mutationId : String)
    (now : IsoTime) (decision : GovernedTypedLtmWriteDecision) (policyDecision : Option PolicyDecisionRecord) :
    WriteCall GovernedTypedLtmWriteResult := do
  let projectId := resolveEntryProjectId candidate input.projectId
  let id ← ltm makeId
  let preparedEntry ← ltm (prepareVectorIndexing runtime (candidateToEntry candidate projectId now mutationId id))
  ltm (writePrepared runtime preparedEntry)
  let appliedReasonCode := normalizeReasonCode (decision.reasonCode.or decision.reason) "MEM-CREATE-APPLIED"
  let reason := decision.reason.getD "approved"
  ltm (appendAuditRecord (writeAuditOf input mutationId now projectId .applied appliedReasonCode reason
    (some preparedEntry.id)))
  return ⟨⟨true, mutationId, reason, appliedReasonCode, some preparedEntry.id, none, runtime.vectorIndexing.isSome⟩,
    policyDecision⟩

/-- `write`; the decision of the caller counts only where the policy does not deny. -/
def writeGoverned (input : GovernedTypedLtmWriteInput) : WriteCall GovernedTypedLtmWriteResult := do
  let candidate ← unwrap (parseTypedCandidate input.candidate)
  let mutationId ← ltm makeId
  let now ← ltm now
  let projectId := resolveEntryProjectId candidate input.projectId
  let policyResult ← evaluateWritePolicy policy candidate input.actingProjectId
    (some (input.traceId.getD candidate.traceId))
  match policyResult.filter fun result => !result.allowed with
  | some denied => do
    ltm (appendAuditRecord (writeAuditOf input mutationId now projectId .denied "MEM-CREATE-DENIED"
      s!"{denied.reasonCode.text}: {denied.reason}" none))
    return ⟨notApplied mutationId denied.reason "MEM-CREATE-DENIED", some denied.decisionRecord⟩
  | none => do
    let decision := input.decision.getD ⟨true, some "approved", some "MEM-APPROVED", none⟩
    let policyDecision := decision.policyDecision.or (policyResult.map (·.decisionRecord))
    if !decision.approved then
      let reasonCode := normalizeReasonCode (decision.reasonCode.or decision.reason) "MEM-CREATE-DENIED"
      let reason := decision.reason.getD "denied"
      ltm (appendAuditRecord (writeAuditOf input mutationId now projectId .denied reasonCode reason none))
      return ⟨notApplied mutationId reason reasonCode, policyDecision⟩
    else storeEntry runtime input candidate mutationId now decision policyDecision

end NousCore.Memory
