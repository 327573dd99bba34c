import NousCore.Access.PolicyEngine
import Mathlib.Data.Finite.Defs
import Mathlib.Data.Fintype.EquivFin

/-!
# Node overrides narrow access

* `Narrows` : what one policy permits another permits, `evaluateAction_mono` that it then allows as much;
* `isAccessListMoreRestrictive_iff` : what is refused lets more through, or is longer than it has to be.
-/

namespace NousCore.Access

/-! ## Access lists -/

instance : Infinite ProjectId :=
  Infinite.of_injective (fun n : Nat => ⟨String.ofList (List.replicate (n + 1) 'a'), by simp [List.replicate_succ]⟩)
    fun m n h => by simpa using congrArg (fun id : ProjectId => id.val.length) h

theorem exists_id_not_mem (ids : List ProjectId) : ∃ id, id ∉ ids := by
  obtain ⟨id, hid⟩ := Infinite.exists_notMem_finset ids.toFinset
  exact ⟨id, fun h => hid (List.mem_toFinset.mpr h)⟩

def AccessList.Narrows (narrow wide : AccessList) : Prop := ∀ id, narrow.permits id = true → wide.permits id = true

theorem isAccessListMoreRestrictive_iff {project override : AccessList} :
    isAccessListMoreRestrictive project override = true ↔
      override.Narrows project ∧ isOverlong project override = false := by
  unfold AccessList.Narrows
  cases project with
  | all => exact ⟨fun _ => ⟨fun _ _ => rfl, by cases override <;> rfl⟩, fun _ => by cases override <;> rfl⟩
  | none =>
    cases override with
    | none => simp [isAccessListMoreRestrictive, isOverlong, AccessList.permits]
    | all =>
      obtain ⟨id, -⟩ := exists_id_not_mem []
      exact ⟨nofun, fun h => absurd (h.1 id rfl) Bool.false_ne_true⟩
    | projects ids =>
      refine ⟨nofun, fun ⟨hnarrows, hempty⟩ => ?_⟩
      cases ids with
      | nil => cases hempty
      | cons id ids => exact absurd (hnarrows id (by simp [AccessList.permits])) Bool.false_ne_true
  | projects project =>
    cases override with
    | none => simp [isAccessListMoreRestrictive, isOverlong, AccessList.permits]
    | all =>
      obtain ⟨id, hid⟩ := exists_id_not_mem project
      exact ⟨nofun, fun h => absurd (of_decide_eq_true (h.1 id rfl)) hid⟩
    | projects ids =>
      simp only [isAccessListMoreRestrictive, isOverlong, AccessList.permits, Bool.and_eq_true, List.all_eq_true,
        decide_eq_true_eq, Bool.and_eq_false_iff, decide_eq_false_iff_not, not_lt]
      constructor
      · rintro ⟨hsubset, hlength⟩
        exact ⟨hsubset, .inr hlength⟩
      · rintro ⟨hsubset, hall | hlength⟩
        · exact absurd hall (Bool.not_eq_false _ ▸ List.all_eq_true.mpr fun id hid => decide_eq_true (hsubset id hid))
        · exact ⟨hsubset, hlength⟩

/-! ## Policies -/

structure Narrows (narrow wide : MemoryAccessPolicy) : Prop where
  canReadFrom : narrow.canReadFrom.Narrows wide.canReadFrom
  canBeReadBy : narrow.canBeReadBy.Narrows wide.canBeReadBy
  inheritsGlobal : narrow.inheritsGlobal = true → wide.inheritsGlobal = true

/-- With the override, something is permitted that the policy of the project does not permit. -/
def Widens (projectPolicy : MemoryAccessPolicy) (override : NodeMemoryAccessPolicyOverride) : Prop :=
  (∃ id, canReadFrom (mergePolicy projectPolicy override) id = true ∧ canReadFrom projectPolicy id = false) ∨
    (∃ id, canBeReadBy (mergePolicy projectPolicy override) id = true ∧ canBeReadBy projectPolicy id = false) ∨
    (mergePolicy projectPolicy override).inheritsGlobal = true ∧ projectPolicy.inheritsGlobal = false

/-- One of the lists of the override is longer than it has to be. -/
def hasOverlong (projectPolicy : MemoryAccessPolicy) (override : NodeMemoryAccessPolicyOverride) : Bool :=
  override.canReadFrom.any (isOverlong projectPolicy.canReadFrom) ||
    override.canBeReadBy.any (isOverlong projectPolicy.canBeReadBy)

variable {projectPolicy : MemoryAccessPolicy} {override : NodeMemoryAccessPolicyOverride}

theorem all_isAccessListMoreRestrictive_iff {project : AccessList} {override : Option AccessList} :
    override.all (isAccessListMoreRestrictive project) = true ↔
      (override.getD project).Narrows project ∧ override.any (isOverlong project) = false := by
  cases override with
  | none => exact ⟨fun _ => ⟨fun _ h => h, rfl⟩, fun _ => rfl⟩
  | some list => exact isAccessListMoreRestrictive_iff

theorem narrows_iff : Narrows (mergePolicy projectPolicy override) projectPolicy ↔ ¬Widens projectPolicy override := by
  constructor
  · rintro h (⟨id, hmerged, hnot⟩ | ⟨id, hmerged, hnot⟩ | ⟨hmerged, hnot⟩)
    · exact absurd (h.canReadFrom id hmerged) (Bool.not_eq_true _ ▸ hnot)
    · exact absurd (h.canBeReadBy id hmerged) (Bool.not_eq_true _ ▸ hnot)
    · exact absurd (h.inheritsGlobal hmerged) (Bool.not_eq_true _ ▸ hnot)
  · intro h
    simp only [Widens, not_or, not_exists, not_and, Bool.not_eq_false] at h
    exact ⟨h.1, h.2.1, h.2.2⟩

/-- An override is accepted exactly when it narrows access, and none of its lists is longer than it has to be. -/
theorem isMoreRestrictive_iff : isMoreRestrictive projectPolicy override = true ↔
    Narrows (mergePolicy projectPolicy override) projectPolicy ∧ hasOverlong projectPolicy override = false := by
  have hglobal : (override.inheritsGlobal.all fun inheritsGlobal => !inheritsGlobal || projectPolicy.inheritsGlobal) = true ↔
      ((mergePolicy projectPolicy override).inheritsGlobal = true → projectPolicy.inheritsGlobal = true) := by
    unfold mergePolicy
    rcases override.inheritsGlobal with _ | _ | _ <;> simp
  unfold isMoreRestrictive hasOverlong
  rw [Bool.and_eq_true, Bool.and_eq_true, all_isAccessListMoreRestrictive_iff, all_isAccessListMoreRestrictive_iff,
    hglobal, Bool.or_eq_false_iff]
  constructor
  · rintro ⟨⟨⟨hread, hreadLong⟩, hby, hbyLong⟩, hinherits⟩
    exact ⟨⟨hread, hby, hinherits⟩, hreadLong, hbyLong⟩
  · rintro ⟨⟨hread, hby, hinherits⟩, hreadLong, hbyLong⟩
    exact ⟨⟨⟨hread, hreadLong⟩, hby, hbyLong⟩, hinherits⟩

/-! ## The evaluation under a wider policy -/

def PolicyAccessContext.withoutOverride (ctx : PolicyAccessContext) : PolicyAccessContext :=
  { ctx with nodeOverride := none }

variable {ctx : PolicyAccessContext} {stamp stamp' : RecordStamp} {narrow wide : MemoryAccessPolicy}
  {result : PolicyEvaluationResult}

section

variable (h : Narrows narrow wide)

include h

theorem targetDenial_mono {targetId : ProjectId} {targetPolicy : MemoryAccessPolicy}
    (hnone : targetDenial ctx narrow targetId targetPolicy = none) :
    targetDenial ctx.withoutOverride wide targetId targetPolicy = none := by
  obtain ⟨hread, hby⟩ := permits_of_targetDenial hnone
  unfold targetDenial canReadFrom canBeReadBy
  rw [h.canReadFrom targetId hread, show targetPolicy.canBeReadBy.permits ctx.withoutOverride.fromProjectId = true from hby]
  rfl

theorem targetsDenial_mono {targets : List ProjectId}
    (hnone : targetsDenial ctx narrow targets = none) : targetsDenial ctx.withoutOverride wide targets = none := by
  induction targets with
  | nil => rfl
  | cons targetId rest ih =>
    rw [targetsDenial] at hnone ⊢
    rw [show ctx.withoutOverride.policies = ctx.policies from rfl]
    cases hpolicy : ctx.policies.get? targetId.val with
    | none =>
      rw [hpolicy] at hnone
      exact ih hnone
    | some targetPolicy =>
      rw [hpolicy] at hnone
      dsimp only at hnone ⊢
      cases hdenial : targetDenial ctx narrow targetId targetPolicy with
      | some reasonCode =>
        rw [hdenial] at hnone
        cases hnone
      | none =>
        rw [hdenial] at hnone
        rw [targetDenial_mono h hdenial]
        exact ih hnone

theorem evaluateTarget_mono (hresult : evaluateTarget stamp ctx narrow = .ok result)
    (hallowed : result.allowed = true) :
    ∃ result', evaluateTarget stamp' ctx.withoutOverride wide = .ok result' ∧ result'.allowed = true := by
  obtain ⟨⟨targetId, targetPolicy⟩, htarget, hresult⟩ := bind_eq_ok.mp hresult
  dsimp only at hresult
  cases hdenial : targetDenial ctx narrow targetId targetPolicy with
  | some reasonCode =>
    rw [hdenial] at hresult
    cases hresult
    cases hallowed
  | none =>
    refine ⟨allow stamp' ctx.withoutOverride (some targetId), bind_eq_ok.mpr ⟨(targetId, targetPolicy), htarget, ?_⟩, rfl⟩
    dsimp only
    rw [targetDenial_mono h hdenial]
    rfl

theorem evaluateGlobal_mono (hallowed : (evaluateGlobal stamp ctx narrow).allowed = true) :
    (evaluateGlobal stamp' ctx.withoutOverride wide).allowed = true := by
  unfold evaluateGlobal
  rw [h.inheritsGlobal (inheritsGlobal_of_evaluateGlobal hallowed)]
  rfl

/-- **A wider policy allows as much**, with or without an override in the context. -/
theorem evaluateAction_mono (hresult : evaluateAction stamp ctx narrow = .ok result)
    (hallowed : result.allowed = true) :
    ∃ result', evaluateAction stamp' ctx.withoutOverride wide = .ok result' ∧ result'.allowed = true := by
  unfold evaluateAction at hresult ⊢
  rw [show ctx.withoutOverride.action = ctx.action from rfl]
  cases haction : ctx.action with
  | read =>
    rw [haction] at hresult
    exact evaluateTarget_mono h hresult hallowed
  | write =>
    rw [haction] at hresult
    dsimp only at hresult ⊢
    rw [show ctx.withoutOverride.includeGlobal = ctx.includeGlobal from rfl,
      show ctx.withoutOverride.targetProjectId = ctx.targetProjectId from rfl]
    split_ifs at hresult ⊢ with hglobal
    · cases hresult
      exact ⟨_, rfl, evaluateGlobal_mono h hallowed⟩
    · exact evaluateTarget_mono h hresult hallowed
  | retrieve =>
    rw [haction] at hresult
    cases hdenial : targetsDenial ctx narrow ctx.targets with
    | some denial =>
      rw [hdenial] at hresult
      cases hresult
      cases hallowed
    | none =>
      rw [hdenial] at hresult
      rw [show ctx.withoutOverride.targets = ctx.targets from rfl, targetsDenial_mono h hdenial,
        show ctx.withoutOverride.includeGlobal = ctx.includeGlobal from rfl]
      dsimp only at hresult ⊢
      split_ifs at hresult ⊢
      · cases hresult
        exact ⟨_, rfl, evaluateGlobal_mono h hallowed⟩
      · exact ⟨_, rfl, rfl⟩

end

/-! ## Overrides -/

/-- The override of the context is looked at: the context is complete, and its project is not stopped. -/
def LooksAtOverride (ctx : PolicyAccessContext) : Prop :=
  validateActionContext ctx = .ok () ∧ ctx.projectControlState ≠ some .hardStopped

/-- **Overrides only narrow access**, and are refused only for widening it. -/
structure OverrideNarrows (ctx : PolicyAccessContext) : Prop where
  monotone : ∀ stamp result, evaluate stamp ctx = .ok result → result.allowed = true →
    ∀ stamp', ∃ result', evaluate stamp' ctx.withoutOverride = .ok result' ∧ result'.allowed = true
  refused : ∀ stamp result override, ctx.nodeOverride = some override → evaluate stamp ctx = .ok result →
    result.reasonCode = .invalidOverride → Widens ctx.projectPolicy override

theorem evaluate_withoutOverride (h : LooksAtOverride ctx) :
    evaluate stamp ctx.withoutOverride = evaluateAction stamp ctx.withoutOverride ctx.projectPolicy := by
  unfold evaluate
  rw [show validateActionContext ctx.withoutOverride = validateActionContext ctx from rfl, h.1]
  show (if ctx.projectControlState = some .hardStopped then _ else _) = _
  rw [if_neg h.2]
  rfl

theorem reasonCode_of_evaluateAction {effectivePolicy : MemoryAccessPolicy}
    (h : evaluateAction stamp ctx effectivePolicy = .ok result) : result.reasonCode ≠ .invalidOverride := by
  have hallow : ∀ targetId, (allow stamp ctx targetId).reasonCode ≠ .invalidOverride := by
    intro targetId
    unfold allow
    split_ifs <;> exact nofun
  have hdenial : ∀ {targetId targetPolicy reasonCode},
      targetDenial ctx effectivePolicy targetId targetPolicy = some reasonCode → reasonCode ≠ .invalidOverride := by
    intro targetId targetPolicy reasonCode h
    unfold targetDenial at h
    split_ifs at h <;> obtain rfl := Option.some.inj h <;> exact nofun
  have hglobal : (evaluateGlobal stamp ctx effectivePolicy).reasonCode ≠ .invalidOverride := by
    unfold evaluateGlobal
    split_ifs
    · exact nofun
    · exact hallow _
  have htarget : evaluateTarget stamp ctx effectivePolicy = .ok result → result.reasonCode ≠ .invalidOverride := by
    intro h
    obtain ⟨⟨targetId, targetPolicy⟩, -, h⟩ := bind_eq_ok.mp h
    dsimp only at h
    cases hfound : targetDenial ctx effectivePolicy targetId targetPolicy with
    | some reasonCode =>
      rw [hfound] at h
      cases h
      exact hdenial hfound
    | none =>
      rw [hfound] at h
      cases h
      exact hallow _
  have htargets : ∀ {targets denial}, targetsDenial ctx effectivePolicy targets = some denial →
      denial.2 ≠ .invalidOverride := by
    intro targets
    induction targets with
    | nil => exact nofun
    | cons targetId rest ih =>
      intro denial h
      rw [targetsDenial] at h
      split at h
      · exact ih h
      · split at h
        · rename_i hfound
          cases h
          exact hdenial hfound
        · exact ih h
  unfold evaluateAction at h
  split at h
  · exact htarget h
  · split_ifs at h
    · cases h
      exact hglobal
    · exact htarget h
  · split at h
    · rename_i hfound
      cases h
      exact htargets hfound
    · split_ifs at h <;> cases h
      · exact hglobal
      · exact hallow _

theorem evaluate_override (hoverride : ctx.nodeOverride = some override) (hlooks : LooksAtOverride ctx) :
    evaluate stamp ctx = if isMoreRestrictive ctx.projectPolicy override
      then evaluateAction stamp ctx (mergePolicy ctx.projectPolicy override)
      else .ok (deny stamp ctx .invalidOverride none) := by
  unfold evaluate PolicyAccessContext.effectivePolicy
  rw [hlooks.1, hoverride]
  rw [if_neg hlooks.2]
  cases hrestrictive : isMoreRestrictive ctx.projectPolicy override with
  | true | false =>
    show (if (!isMoreRestrictive ctx.projectPolicy override) = true then _ else _) = _
    rw [hrestrictive]
    rfl

theorem looksAtOverride_of_evaluate (h : evaluate stamp ctx = .ok result)
    (hreason : result.allowed = true ∨ result.reasonCode = .invalidOverride) : LooksAtOverride ctx := by
  obtain ⟨⟨⟩, hvalid, h⟩ := bind_eq_ok.mp h
  refine ⟨hvalid, fun hstopped => ?_⟩
  rw [if_pos hstopped] at h
  cases h
  rcases hreason with hreason | hreason <;> cases hreason

/-- **Overrides narrow access** exactly when no list of an override that is looked at is longer than it has to be, or
the override widens access with another field. -/
theorem overrideNarrows_iff (ctx : PolicyAccessContext) : OverrideNarrows ctx ↔
    (LooksAtOverride ctx → ∀ override, ctx.nodeOverride = some override →
      hasOverlong ctx.projectPolicy override = true → Widens ctx.projectPolicy override) := by
  constructor
  · intro h hlooks override hoverride hlong
    by_contra hwidens
    have hrefused : isMoreRestrictive ctx.projectPolicy override = false := by
      rw [← Bool.not_eq_true, isMoreRestrictive_iff, hlong]
      exact fun hboth => by cases hboth.2
    have hresult := @evaluate_override _ _ ⟨"", ⟨"", 0⟩⟩ hoverride hlooks
    rw [hrefused, if_neg Bool.false_ne_true] at hresult
    exact hwidens (h.refused _ _ override hoverride hresult rfl)
  · intro h
    refine ⟨fun stamp result hresult hallowed stamp' => ?_, fun stamp result override hoverride hresult hreason => ?_⟩
    · have hlooks := looksAtOverride_of_evaluate hresult (.inl hallowed)
      rw [evaluate_withoutOverride hlooks]
      cases hoverride : ctx.nodeOverride with
      | none =>
        have haction := (evaluate_allowed hresult hallowed).2
        unfold PolicyAccessContext.effectivePolicy at haction
        rw [hoverride] at haction
        exact evaluateAction_mono ⟨fun _ h => h, fun _ h => h, id⟩ haction hallowed
      | some override =>
        rw [evaluate_override hoverride hlooks] at hresult
        split_ifs at hresult with hrestrictive
        · exact evaluateAction_mono (isMoreRestrictive_iff.mp hrestrictive).1 hresult hallowed
        · cases hresult
          cases hallowed
    · have hlooks := looksAtOverride_of_evaluate hresult (.inr hreason)
      rw [evaluate_override hoverride hlooks] at hresult
      split_ifs at hresult with hrestrictive
      · exact absurd hreason (reasonCode_of_evaluateAction hresult)
      · rw [isMoreRestrictive_iff, not_and_or, narrows_iff, not_not, Bool.not_eq_false] at hrestrictive
        exact hrestrictive.elim id (h hlooks override hoverride)

/-- The project may read from `other` only; its node names it twice. -/
theorem repeated_id_refused : ¬∀ ctx, OverrideNarrows ctx := by
  intro h
  let ctx : PolicyAccessContext :=
    { retrieveFrom openPolicy none with
      projectPolicy := ⟨.projects [other], .all, true⟩
      nodeOverride := some ⟨some (.projects [other, other]), none, none⟩ }
  obtain ⟨id, hmerged, hnot⟩ | ⟨id, -, hnot⟩ | ⟨-, hnot⟩ :=
    (h ctx).refused stampOne (deny stampOne ctx .invalidOverride none) _ rfl rfl rfl
  · have hmem : id ∈ [other, other] := of_decide_eq_true hmerged
    have hnotMem : id ∉ [other] := of_decide_eq_false hnot
    rw [List.mem_singleton] at hnotMem
    rcases List.mem_cons.mp hmem with hid | hid
    · exact hnotMem hid
    · exact hnotMem (List.mem_singleton.mp hid)
  · cases hnot
  · cases hnot

end NousCore.Access
