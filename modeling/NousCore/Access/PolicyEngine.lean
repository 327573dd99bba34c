import NousCore.Lib.Calendar
import NousCore.Lib.Record
import NousCore.Lib.Runs

/-!
# The memory access policy engine

* `isMoreRestrictive`, `mergePolicy` : a node may narrow the policy of its project;
* `evaluate` : the control state first, then the override, then every target, then the global scope;
* `named`, `Supplied`, `Permitted` : the targets of a context, and when access to one is permitted;
* `examined`, `examinesGlobal` : the targets that the evaluation looks at, and whether it looks at the global scope.
-/

namespace NousCore.Access

/-- A UUID; only that it is not empty matters. -/
abbrev ProjectId := { s : String // s ≠ "" }

/-! ## Policies -/

inductive AccessList where
  | all | none
  | projects (ids : List ProjectId)

structure MemoryAccessPolicy where
  canReadFrom : AccessList
  canBeReadBy : AccessList
  inheritsGlobal : Bool

structure NodeMemoryAccessPolicyOverride where
  canReadFrom : Option AccessList
  canBeReadBy : Option AccessList
  inheritsGlobal : Option Bool

def isAccessListMoreRestrictive (project override : AccessList) : Bool :=
  match project, override with
  | .none, .none => true
  | .none, _ => false
  | .all, _ => true
  | .projects _, .all => false
  | .projects _, .none => true
  | .projects project, .projects override => override.all (· ∈ project) && override.length ≤ project.length

/-- A list that lets no more through than that of the project, and that is refused for its length: an empty one where
the project lets nobody through, or one with ids of the project that is longer than the list of the project. -/
def isOverlong (project override : AccessList) : Bool :=
  match project, override with
  | .none, .projects ids => ids.isEmpty
  | .projects project, .projects override => override.all (· ∈ project) && project.length < override.length
  | _, _ => false

def isMoreRestrictive (projectPolicy : MemoryAccessPolicy) (override : NodeMemoryAccessPolicyOverride) : Bool :=
  override.canReadFrom.all (isAccessListMoreRestrictive projectPolicy.canReadFrom) &&
    override.canBeReadBy.all (isAccessListMoreRestrictive projectPolicy.canBeReadBy) &&
    override.inheritsGlobal.all fun inheritsGlobal => !inheritsGlobal || projectPolicy.inheritsGlobal

def mergePolicy (projectPolicy : MemoryAccessPolicy) (override : NodeMemoryAccessPolicyOverride) :
    MemoryAccessPolicy where
  canReadFrom := override.canReadFrom.getD projectPolicy.canReadFrom
  canBeReadBy := override.canBeReadBy.getD projectPolicy.canBeReadBy
  inheritsGlobal := override.inheritsGlobal.getD projectPolicy.inheritsGlobal

def AccessList.permits : AccessList → ProjectId → Bool
  | .none, _ => false
  | .all, _ => true
  | .projects ids, id => id ∈ ids

def canReadFrom (fromPolicy : MemoryAccessPolicy) (targetProjectId : ProjectId) : Bool :=
  fromPolicy.canReadFrom.permits targetProjectId

def canBeReadBy (targetPolicy : MemoryAccessPolicy) (fromProjectId : ProjectId) : Bool :=
  targetPolicy.canBeReadBy.permits fromProjectId

/-! ## Contexts -/

inductive PolicyAction where
  | read | write | retrieve

def PolicyAction.text : PolicyAction → String
  | .read => "read"
  | .write => "write"
  | .retrieve => "retrieve"

inductive ProjectControlState where
  | running | pausedReview | hardStopped | resuming
  deriving DecidableEq

structure PolicyAccessContext where
  action : PolicyAction
  fromProjectId : ProjectId
  targetProjectId : Option ProjectId
  targetProjectIds : Option (List ProjectId)
  includeGlobal : Bool
  projectPolicy : MemoryAccessPolicy
  targetProjectPolicy : Option MemoryAccessPolicy
  targetProjectPolicies : Option (Record String MemoryAccessPolicy)
  nodeOverride : Option NodeMemoryAccessPolicyOverride
  projectControlState : Option ProjectControlState
  traceId : Option String
  nodeId : Option String

/-- The one target that a read or a write has to name, with its policy. -/
def requireTarget (ctx : PolicyAccessContext) : Except String (ProjectId × MemoryAccessPolicy) :=
  match ctx.targetProjectId, ctx.targetProjectPolicy with
  | none, _ => .error ("PolicyAccessContext: action " ++ ctx.action.text ++ " requires targetProjectId")
  | some _, none => .error ("PolicyAccessContext: action " ++ ctx.action.text ++ " requires targetProjectPolicy")
  | some targetId, some targetPolicy => .ok (targetId, targetPolicy)

def validateActionContext (ctx : PolicyAccessContext) : Except String Unit :=
  match ctx.action with
  | .read => (requireTarget ctx).map fun _ => ()
  | .write =>
    if ctx.includeGlobal ∧ ctx.targetProjectId = none ∧ ctx.targetProjectPolicy = none then .ok ()
    else (requireTarget ctx).map fun _ => ()
  | .retrieve =>
    let hasSingleTarget := ctx.targetProjectId.isSome && ctx.targetProjectPolicy.isSome
    let hasMultiTarget := ctx.targetProjectIds.any (0 < ·.length) && ctx.targetProjectPolicies.isSome
    let hasGlobalOnly := ctx.includeGlobal && !hasSingleTarget && !hasMultiTarget
    if hasSingleTarget || hasMultiTarget || hasGlobalOnly then .ok ()
    else .error ("PolicyAccessContext: action retrieve requires (targetProjectId + targetProjectPolicy) or " ++
      "(targetProjectIds + targetProjectPolicies) or includeGlobal=true")

/-! ## Answers -/

inductive PolicyReasonCode where
  | default | denied | nodeOverride | invalidOverride | cannotReadFrom | cannotBeReadBy | globalDenied
  | controlStateBlocked
  deriving DecidableEq

def PolicyReasonCode.text : PolicyReasonCode → String
  | .default => "POL-DEFAULT"
  | .denied => "POL-DENIED"
  | .nodeOverride => "POL-NODE-OVERRIDE"
  | .invalidOverride => "POL-INVALID-OVERRIDE"
  | .cannotReadFrom => "POL-CANNOT-READ-FROM"
  | .cannotBeReadBy => "POL-CANNOT-BE-READ-BY"
  | .globalDenied => "POL-GLOBAL-DENIED"
  | .controlStateBlocked => "POL-CONTROL-STATE-BLOCKED"

def PolicyReasonCode.reason : PolicyReasonCode → String
  | .default => "Policy default applied"
  | .denied => "Access denied by policy"
  | .nodeOverride => "Node-level override applied"
  | .invalidOverride => "Node override rejected (not more restrictive)"
  | .cannotReadFrom => "fromProject canReadFrom does not include target"
  | .cannotBeReadBy => "target canBeReadBy does not include fromProject"
  | .globalDenied => "inheritsGlobal is false; global access denied"
  | .controlStateBlocked => "projectControlState is hard_stopped; all access blocked"

structure PolicyDecisionRecord where
  id : String
  projectId : ProjectId
  targetProjectId : Option ProjectId
  action : PolicyAction
  allowed : Bool
  reasonCode : PolicyReasonCode
  reason : String
  nodeId : Option String
  traceId : Option String
  occurredAt : IsoTime

structure PolicyEvaluationResult where
  allowed : Bool
  reasonCode : PolicyReasonCode
  reason : String
  decisionRecord : PolicyDecisionRecord

/-- `randomUUID()` and `new Date()`. -/
structure RecordStamp where
  id : String
  occurredAt : IsoTime

def createDecisionRecord (stamp : RecordStamp) (ctx : PolicyAccessContext) (allowed : Bool)
    (reasonCode : PolicyReasonCode) (targetProjectId : Option ProjectId) : PolicyDecisionRecord where
  id := stamp.id
  projectId := ctx.fromProjectId
  targetProjectId := targetProjectId.or ctx.targetProjectId
  action := ctx.action
  allowed := allowed
  reasonCode := reasonCode
  reason := reasonCode.reason
  nodeId := ctx.nodeId
  traceId := ctx.traceId
  occurredAt := stamp.occurredAt

variable (stamp : RecordStamp) (ctx : PolicyAccessContext)

def deny (reasonCode : PolicyReasonCode) (targetProjectId : Option ProjectId) : PolicyEvaluationResult where
  allowed := false
  reasonCode := reasonCode
  reason := reasonCode.reason
  decisionRecord := createDecisionRecord stamp ctx false reasonCode targetProjectId

def allow (targetProjectId : Option ProjectId) : PolicyEvaluationResult :=
  let reasonCode : PolicyReasonCode := if ctx.nodeOverride.isSome then .nodeOverride else .default
  { allowed := true
    reasonCode := reasonCode
    reason := reasonCode.reason
    decisionRecord := createDecisionRecord stamp ctx true reasonCode targetProjectId }

/-! ## The evaluation -/

def PolicyAccessContext.effectivePolicy : MemoryAccessPolicy :=
  match ctx.nodeOverride with
  | some override => mergePolicy ctx.projectPolicy override
  | none => ctx.projectPolicy

def targetDenial (effectivePolicy : MemoryAccessPolicy) (targetId : ProjectId) (targetPolicy : MemoryAccessPolicy) :
    Option PolicyReasonCode :=
  if !canReadFrom effectivePolicy targetId then some .cannotReadFrom
  else if !canBeReadBy targetPolicy ctx.fromProjectId then some .cannotBeReadBy
  else none

def PolicyAccessContext.targets : List ProjectId := ctx.targetProjectIds.getD ctx.targetProjectId.toList

/-- The policies that a retrieval looks its targets up in. -/
def PolicyAccessContext.policies : Record String MemoryAccessPolicy :=
  ctx.targetProjectPolicies.getD <|
    match ctx.targetProjectId, ctx.targetProjectPolicy with
    | some targetId, some targetPolicy => Record.empty.set targetId.val targetPolicy
    | _, _ => .empty

/-- The loop over the targets: the first that is denied. A target without a policy is passed over. -/
def targetsDenial (effectivePolicy : MemoryAccessPolicy) : List ProjectId → Option (ProjectId × PolicyReasonCode)
  | [] => none
  | targetId :: rest =>
    match ctx.policies.get? targetId.val with
    | none => targetsDenial effectivePolicy rest
    | some targetPolicy =>
      match targetDenial ctx effectivePolicy targetId targetPolicy with
      | some reasonCode => some (targetId, reasonCode)
      | none => targetsDenial effectivePolicy rest

/-- Reading from, or writing to, the one target that is named. -/
def evaluateTarget (effectivePolicy : MemoryAccessPolicy) : Except String PolicyEvaluationResult := do
  let (targetId, targetPolicy) ← requireTarget ctx
  match targetDenial ctx effectivePolicy targetId targetPolicy with
  | some reasonCode => return deny stamp ctx reasonCode (some targetId)
  | none => return allow stamp ctx (some targetId)

def evaluateGlobal (effectivePolicy : MemoryAccessPolicy) : PolicyEvaluationResult :=
  if !effectivePolicy.inheritsGlobal then deny stamp ctx .globalDenied none else allow stamp ctx none

def evaluateAction (effectivePolicy : MemoryAccessPolicy) : Except String PolicyEvaluationResult :=
  match ctx.action with
  | .read => evaluateTarget stamp ctx effectivePolicy
  | .write =>
    if ctx.includeGlobal && ctx.targetProjectId.isNone then .ok (evaluateGlobal stamp ctx effectivePolicy)
    else evaluateTarget stamp ctx effectivePolicy
  | .retrieve =>
    match targetsDenial ctx effectivePolicy ctx.targets with
    | some (targetId, reasonCode) => .ok (deny stamp ctx reasonCode (some targetId))
    | none =>
      if ctx.includeGlobal then .ok (evaluateGlobal stamp ctx effectivePolicy) else .ok (allow stamp ctx none)

def evaluate : Except String PolicyEvaluationResult := do
  validateActionContext ctx
  if ctx.projectControlState = some .hardStopped then return deny stamp ctx .controlStateBlocked none
  if ctx.nodeOverride.any fun override => !isMoreRestrictive ctx.projectPolicy override then
    return deny stamp ctx .invalidOverride none
  evaluateAction stamp ctx ctx.effectivePolicy

end NousCore.Access

namespace NousCore.Access

variable {stamp : RecordStamp} {ctx : PolicyAccessContext} {effectivePolicy : MemoryAccessPolicy}
  {result : PolicyEvaluationResult}

/-! ## Soundness -/

section

variable (ctx : PolicyAccessContext)

def named : List ProjectId := ctx.targetProjectIds.getD [] ++ ctx.targetProjectId.toList

def Supplied (targetId : ProjectId) (policy : MemoryAccessPolicy) : Prop :=
  (∃ policies, ctx.targetProjectPolicies = some policies ∧ policies.get? targetId.val = some policy) ∨
    ctx.targetProjectId = some targetId ∧ ctx.targetProjectPolicy = some policy

/-- The target may be read from, and lets the acting project read. -/
def Permitted (targetId : ProjectId) : Prop :=
  ∃ policy, Supplied ctx targetId policy ∧ canReadFrom ctx.effectivePolicy targetId = true ∧
    canBeReadBy policy ctx.fromProjectId = true

structure Sound : Prop where
  running : ctx.projectControlState ≠ some .hardStopped
  targets : ∀ targetId ∈ named ctx, Permitted ctx targetId
  globalScope : ctx.includeGlobal = true → ctx.effectivePolicy.inheritsGlobal = true

end

/-! ## What the evaluation looks at -/

def examined (ctx : PolicyAccessContext) : List ProjectId :=
  match ctx.action with
  | .read | .write => ctx.targetProjectId.toList
  | .retrieve => ctx.targets.filter fun targetId => (ctx.policies.get? targetId.val).isSome

def examinesGlobal (ctx : PolicyAccessContext) : Bool :=
  match ctx.action with
  | .read => false
  | .write => ctx.targetProjectId.isNone
  | .retrieve => true

/-- Whatever the evaluation does not look at is permitted. -/
structure LeavesNothing (ctx : PolicyAccessContext) : Prop where
  targets : ∀ targetId ∈ named ctx, targetId ∉ examined ctx → Permitted ctx targetId
  globalScope : examinesGlobal ctx = false → ctx.includeGlobal = true → ctx.effectivePolicy.inheritsGlobal = true

theorem supplied_of_policies {targetId : ProjectId} {policy : MemoryAccessPolicy}
    (h : ctx.policies.get? targetId.val = some policy) : Supplied ctx targetId policy := by
  unfold PolicyAccessContext.policies at h
  cases hpolicies : ctx.targetProjectPolicies with
  | some policies =>
    rw [hpolicies] at h
    exact .inl ⟨policies, hpolicies, h⟩
  | none =>
    rw [hpolicies, Option.getD_none] at h
    split at h
    · rename_i targetId' targetPolicy hid hpolicy
      rw [Record.get?_set] at h
      split_ifs at h with hkey
      · obtain rfl : targetId = targetId' := Subtype.ext hkey
        exact .inr ⟨hid, hpolicy.trans h⟩
      · cases h
    · cases h

theorem permits_of_targetDenial {targetId : ProjectId} {policy : MemoryAccessPolicy}
    (h : targetDenial ctx effectivePolicy targetId policy = none) :
    canReadFrom effectivePolicy targetId = true ∧ canBeReadBy policy ctx.fromProjectId = true := by
  unfold targetDenial at h
  split_ifs at h with hread hby
  rw [Bool.not_eq_true, Bool.not_eq_false'] at hread hby
  exact ⟨hread, hby⟩

theorem targetDenial_of_targetsDenial {targets : List ProjectId} (h : targetsDenial ctx effectivePolicy targets = none) :
    ∀ targetId ∈ targets, ∀ policy, ctx.policies.get? targetId.val = some policy →
      targetDenial ctx effectivePolicy targetId policy = none := by
  induction targets with
  | nil => simp
  | cons first rest ih =>
    rw [targetsDenial] at h
    intro targetId hmem policy hpolicy
    split at h
    · rename_i hnone
      rcases List.mem_cons.mp hmem with rfl | hmem
      · rw [hpolicy] at hnone
        cases hnone
      · exact ih h targetId hmem policy hpolicy
    · rename_i firstPolicy hfirst
      split at h
      · cases h
      · rename_i hdenial
        rcases List.mem_cons.mp hmem with rfl | hmem
        · cases hfirst.symm.trans hpolicy
          exact hdenial
        · exact ih h targetId hmem policy hpolicy

theorem requireTarget_eq_ok {target : ProjectId × MemoryAccessPolicy} (h : requireTarget ctx = .ok target) :
    ctx.targetProjectId = some target.1 ∧ ctx.targetProjectPolicy = some target.2 := by
  unfold requireTarget at h
  split at h
  · cases h
  · cases h
  · rename_i targetId targetPolicy hid hpolicy
    cases h
    exact ⟨hid, hpolicy⟩

theorem permitted_of_evaluateTarget (h : evaluateTarget stamp ctx ctx.effectivePolicy = .ok result)
    (hallowed : result.allowed = true) : ∀ targetId ∈ ctx.targetProjectId.toList, Permitted ctx targetId := by
  obtain ⟨⟨targetId, policy⟩, htarget, h⟩ := bind_eq_ok.mp h
  obtain ⟨hid, hpolicy⟩ := requireTarget_eq_ok htarget
  intro targetId' hmem
  obtain rfl : targetId' = targetId := by
    rw [hid] at hmem
    exact List.mem_singleton.mp hmem
  dsimp only at h
  split at h
  · cases h
    cases hallowed
  · rename_i hdenial
    exact ⟨policy, .inr ⟨hid, hpolicy⟩, permits_of_targetDenial hdenial⟩

theorem inheritsGlobal_of_evaluateGlobal (h : (evaluateGlobal stamp ctx effectivePolicy).allowed = true) :
    effectivePolicy.inheritsGlobal = true := by
  unfold evaluateGlobal at h
  split_ifs at h with hglobal
  · cases h
  · simpa using hglobal

theorem evaluate_allowed (h : evaluate stamp ctx = .ok result) (hallowed : result.allowed = true) :
    ctx.projectControlState ≠ some .hardStopped ∧ evaluateAction stamp ctx ctx.effectivePolicy = .ok result := by
  obtain ⟨-, -, h⟩ := bind_eq_ok.mp h
  split_ifs at h with hstopped hoverride
  · cases h
    cases hallowed
  · cases h
    cases hallowed
  · exact ⟨hstopped, h⟩

theorem examined_permitted (h : evaluateAction stamp ctx ctx.effectivePolicy = .ok result)
    (hallowed : result.allowed = true) :
    (∀ targetId ∈ examined ctx, Permitted ctx targetId) ∧
      (examinesGlobal ctx = true → ctx.includeGlobal = true → ctx.effectivePolicy.inheritsGlobal = true) := by
  unfold evaluateAction at h
  unfold examined examinesGlobal
  cases haction : ctx.action with
  | read =>
    rw [haction] at h
    exact ⟨permitted_of_evaluateTarget h hallowed, nofun⟩
  | write =>
    rw [haction] at h
    dsimp only at h
    split_ifs at h with hglobal
    · cases h
      rw [Bool.and_eq_true, Option.isNone_iff_eq_none] at hglobal
      rw [hglobal.2]
      exact ⟨nofun, fun _ _ => inheritsGlobal_of_evaluateGlobal hallowed⟩
    · refine ⟨permitted_of_evaluateTarget h hallowed, fun hnone hinclude => ?_⟩
      exact absurd ((Bool.and_eq_true _ _).mpr ⟨hinclude, hnone⟩) hglobal
  | retrieve =>
    rw [haction] at h
    dsimp only at h
    split at h
    · cases h
      cases hallowed
    · rename_i hdenial
      refine ⟨fun targetId hmem => ?_, fun _ hinclude => ?_⟩
      · obtain ⟨hmem, hsome⟩ := List.mem_filter.mp hmem
        obtain ⟨policy, hpolicy⟩ := Option.isSome_iff_exists.mp hsome
        have hnone := targetDenial_of_targetsDenial hdenial targetId hmem policy hpolicy
        exact ⟨policy, supplied_of_policies hpolicy, permits_of_targetDenial hnone⟩
      · rw [if_pos hinclude] at h
        cases h
        exact inheritsGlobal_of_evaluateGlobal hallowed

/-- **Nothing is allowed unchecked.** A context that is allowed is sound if and only if whatever the evaluation does
not look at is permitted. -/
theorem sound_iff_of_allowed (h : evaluate stamp ctx = .ok result) (hallowed : result.allowed = true) :
    Sound ctx ↔ LeavesNothing ctx := by
  obtain ⟨hrunning, haction⟩ := evaluate_allowed h hallowed
  obtain ⟨htargets, hglobal⟩ := examined_permitted haction hallowed
  constructor
  · intro hsound
    exact ⟨fun targetId hmem _ => hsound.targets targetId hmem, fun _ => hsound.globalScope⟩
  · intro hleaves
    refine ⟨hrunning, fun targetId hmem => ?_, fun hinclude => ?_⟩
    · by_cases hexamined : targetId ∈ examined ctx
      · exact htargets targetId hexamined
      · exact hleaves.targets targetId hmem hexamined
    · cases hexamines : examinesGlobal ctx with
      | true => exact hglobal hexamines hinclude
      | false => exact hleaves.globalScope hexamines hinclude

/-! ## Two retrievals -/

def openPolicy : MemoryAccessPolicy := ⟨.all, .all, true⟩

def sealedPolicy : MemoryAccessPolicy := ⟨.all, .none, true⟩

def stampOne : RecordStamp := ⟨"00000000-0000-4000-8000-000000000003", ⟨"2024-01-01T00:00:00.000Z", 1704067200000⟩⟩

def acting : ProjectId := ⟨"00000000-0000-4000-8000-000000000001", by decide⟩

def other : ProjectId := ⟨"00000000-0000-4000-8000-000000000002", by decide⟩

/-- `acting` retrieves from `other`, whose policy is `policy`, and names the targets `targetProjectIds` as well. -/
def retrieveFrom (policy : MemoryAccessPolicy) (targetProjectIds : Option (List ProjectId)) : PolicyAccessContext where
  action := .retrieve
  fromProjectId := acting
  targetProjectId := some other
  targetProjectIds := targetProjectIds
  includeGlobal := false
  projectPolicy := openPolicy
  targetProjectPolicy := some policy
  targetProjectPolicies := none
  nodeOverride := none
  projectControlState := none
  traceId := none
  nodeId := none

theorem retrieveFrom_open_sound_iff :
    evaluate stampOne (retrieveFrom openPolicy none) = .ok (allow stampOne (retrieveFrom openPolicy none) none) ∧
      (allow stampOne (retrieveFrom openPolicy none) none).allowed = true ∧
      (Sound (retrieveFrom openPolicy none) ↔ LeavesNothing (retrieveFrom openPolicy none)) :=
  ⟨rfl, rfl, @sound_iff_of_allowed stampOne _ _ rfl rfl⟩

/-- An empty list of targets hides the one that is named, and that lets nobody read. -/
theorem retrieveFrom_sealed_not_sound :
    evaluate stampOne (retrieveFrom sealedPolicy (some [])) =
        .ok (allow stampOne (retrieveFrom sealedPolicy (some [])) none) ∧
      (allow stampOne (retrieveFrom sealedPolicy (some [])) none).allowed = true ∧
      ¬Sound (retrieveFrom sealedPolicy (some [])) := by
  refine ⟨rfl, rfl, fun hsound => ?_⟩
  obtain ⟨policy, hsupplied, -, hby⟩ := hsound.targets other (List.mem_singleton_self _)
  rcases hsupplied with ⟨policies, hpolicies, -⟩ | ⟨-, hpolicy⟩
  · cases hpolicies
  · cases hpolicy
    cases hby

end NousCore.Access
