import NousCore.Workflow.Finality
import NousCore.Workflow.ListsAgree

/-!
# Readiness

* `MadeReady`, `OutstandingAfter` : the nodes a completion makes ready, and the nodes that are outstanding after it;
* `diamondRun_ready_early` : with one branch of a diamond completed, the bottom is ready while the other branch is.
-/

namespace NousCore.Workflow

/-- Dispatched, and not settled yet. -/
def Outstanding (status : Option WorkflowNodeRunStatus) : Prop :=
  status = some .ready ∨ status = some .waiting ∨ status = some .blocked

instance (status : Option WorkflowNodeRunStatus) : Decidable (Outstanding status) :=
  inferInstanceAs (Decidable (status = some .ready ∨ status = some .waiting ∨ status = some .blocked))

section

variable (graph : DerivedWorkflowGraph)

/-- The completion of `n` makes `q` ready: as a successor that is not outstanding or loses the race, or as the loop
node. -/
def MadeReady (s : WorkflowRunState) (op : RunStateOp) (n q : WorkflowNodeDefinitionId) :
    Prop :=
  NextReady graph s op n q ∧ (LosesRace graph s op n q ∨ ¬Outstanding (s.nodeStatus q)) ∨
    loopToReactivate s graph n = some q

def OutstandingAfter (s : WorkflowRunState) (op : RunStateOp)
    (n q : WorkflowNodeDefinitionId) : Prop :=
  q ≠ n ∧ ¬LosesRace graph s op n q ∧ Outstanding (s.nodeStatus q) ∨ MadeReady graph s op n q

/-- The edges that are activated once `n` is completed. -/
def activatedBy (s : WorkflowRunState) (op : RunStateOp) (n : WorkflowNodeDefinitionId) :
    List WorkflowEdgeId :=
  s.activatedEdgeIds ++ getActivatedOutboundEdgeIds graph n (op.branchKey s) (graph.nodeType n)

/-- The operation is no cancellation. Where it completes a node and makes a node other than a join ready, the source of
an inbound edge is not outstanding, unless the readiness check has seen to it: the edge is activated, the node a
successor, and the source not the loop node that is ready again. -/
structure AwaitsSources (s : WorkflowRunState) (op : RunStateOp) : Prop where
  noCancel : ∀ transition, op ≠ .cancel transition
  sources : ∀ n ∈ op.completes, ∀ m, graph.nodeType m ≠ some .parallelJoin → MadeReady graph s op n m →
    ∀ e ∈ graph.inboundEdgeIds m, ∀ q, graph.source e = some q →
      NextReady graph s op n m ∧ e ∈ activatedBy graph s op n ∧ loopToReactivate s graph n ≠ some q ∨
        ¬OutstandingAfter graph s op n q

end

section

variable {s s' s₁ s₂ s₃ : WorkflowRunState} {graph : DerivedWorkflowGraph} {n m q : WorkflowNodeDefinitionId}
  {op : RunStateOp} {outcome : WorkflowNodeOutcome} {core core' : NodeCore} {stale : WorkflowNodeDefinitionId → Prop}

theorem Slot.Agrees.outstanding {stale : Prop} {sl : Slot} (h : sl.Agrees stale) :
    Outstanding sl.status ↔ sl.ready ∨ sl.waiting ∨ sl.blocked := by
  constructor
  · rintro (hs | hs | hs)
    · exact .inl (h.ready.mpr hs)
    · exact .inr (.inl (h.waiting hs))
    · exact .inr (.inr (h.blocked hs))
  · rintro (hl | hl | hl)
    · exact .inl (h.ready.mp hl)
    · exact (h.waitingOnly hl).elim (fun hs => .inr (.inl hs)) fun hs => .inl hs.2
    · exact (h.blockedOnly hl).elim (fun hs => .inr (.inr hs)) fun hs => .inl hs.2

theorem not_nextReady_of_completed (h : q ∈ n :: s.completedNodeIds) : ¬NextReady graph s op n q := by
  intro hnext
  have := (mem_getNextReadyNodeIds.mp hnext).2
  simp only [candidateIsReady, Bool.and_eq_true, decide_eq_true_eq] at this
  exact this.1.1 h

theorem NextReady.leads (h : NextReady graph s op n q) : graph.Leads n q := by
  obtain ⟨⟨e, he, -, htarget⟩, -⟩ := mem_getNextReadyNodeIds.mp h
  exact ⟨e, he, htarget⟩

namespace NodeStep

/-- A step that completes `n`, read at the states around the activation of the successors. -/
structure Completes (graph : DerivedWorkflowGraph) (s : WorkflowRunState) (op : RunStateOp) (n : WorkflowNodeDefinitionId)
    (stale : WorkflowNodeDefinitionId → Prop) (s₂ s₃ : WorkflowRunState) : Prop where
  agrees : ∀ j, (s.slot j).Agrees (stale j)
  agrees₂ : ∀ j, (s₂.slot j).Agrees (stale j)
  self : (s₂.slot n).status = some .completed
  lost : ∀ j, j ≠ n → LosesRace graph s op n j → s₂.slot j = (s.slot j).skip
  kept : ∀ j, j ≠ n → ¬LosesRace graph s op n j → s₂.slot j = s.slot j
  readied : ∀ j, j ∈ readiedIds s₂ graph n (op.branchKey s) ↔ NextReady graph s op n j ∧
    ¬(s₂.slot j).ready ∧ ¬(s₂.slot j).waiting ∧ ¬(s₂.slot j).blocked ∧ ¬(s₂.slot j).completed
  loop : loopToReactivate s₂ graph n = loopToReactivate s graph n
  activated : Activated s₂ s₃ graph n (op.branchKey s)

theorem completes (h : NodeStep graph s op s' n outcome core core' s₁ s₂ s₃) (hout : outcome = .completed)
    (htarget : op.target = some (n, outcome)) (hs : Consistent stale s) : Completes graph s op n stale s₂ s₃ := by
  have hagrees₁ := h.agrees₁ htarget hs.agrees
  have hn : (s₁.slot n).status = some .completed := by
    rw [Slot.Agrees.status_of_core h.settled.core, (h.takes.sound htarget ((hs.agrees n).core core h.before)).2, hout]
    rfl
  obtain ⟨hself, hslot⟩ := h.slot₂ hout hn
  exact ⟨hs.agrees, (h.raced hout hagrees₁).1, by rw [hself, hn], fun j hj => (hslot j hj).1, fun j hj => (hslot j hj).2,
    fun j => h.mem_readiedIds hout, h.loop hout hn hs.parent, h.activated hout⟩

end NodeStep

namespace NodeStep.Completes

variable (h : NodeStep.Completes graph s op n stale s₂ s₃)

include h

theorem not_lost (hq : (s₂.slot q).waiting ∨ (s₂.slot q).ready ∨ (s₂.slot q).blocked) (hqn : q ≠ n) :
    ¬LosesRace graph s op n q := by
  intro hl
  rw [h.lost q hqn hl] at hq
  simp [Slot.skip] at hq

theorem ne_of_listed (hq : (s₂.slot q).waiting ∨ (s₂.slot q).ready ∨ (s₂.slot q).blocked) : q ≠ n := by
  rintro rfl
  have hout : Outstanding (s₂.slot q).status := (h.agrees₂ q).outstanding.mpr (by tauto)
  rw [h.self] at hout
  simp [Outstanding] at hout

theorem madeReady (hq : Readied s₂ graph n (op.branchKey s) q) : MadeReady graph s op n q ∨
    (s₂.slot q).waiting ∧ graph.nodeType q = some .parallelJoin := by
  rcases hq with hq | hq | hq
  · obtain ⟨hnext, hr, hw, hb, -⟩ := (h.readied q).mp hq
    have hqn : q ≠ n := by
      rintro rfl
      exact not_nextReady_of_completed List.mem_cons_self hnext
    refine .inl (.inl ⟨hnext, ?_⟩)
    by_cases hl : LosesRace graph s op n q
    · exact .inl hl
    · rw [h.kept q hqn hl] at hr hw hb
      refine .inr fun hout => ?_
      rw [← WorkflowRunState.status_slot, (h.agrees q).outstanding] at hout
      tauto
  · exact .inl (.inr (h.loop ▸ hq))
  · obtain ⟨hw, htype, -⟩ := mem_waitingJoinNodeIds.mp hq
    exact .inr ⟨hw, htype⟩

theorem outstandingAfter (hq : Outstanding (s₃.slot q).status) : OutstandingAfter graph s op n q := by
  have hkept : (s₂.slot q).ready ∨ (s₂.slot q).waiting ∨ (s₂.slot q).blocked → OutstandingAfter graph s op n q := by
    intro hl
    have hqn := h.ne_of_listed (by tauto : (s₂.slot q).waiting ∨ (s₂.slot q).ready ∨ (s₂.slot q).blocked)
    have hnot := h.not_lost (by tauto) hqn
    refine .inl ⟨hqn, hnot, ?_⟩
    rw [← WorkflowRunState.status_slot, ← h.kept q hqn hnot, (h.agrees₂ q).outstanding]
    exact hl
  by_cases hr : Readied s₂ graph n (op.branchKey s) q
  · rcases h.madeReady hr with hmade | ⟨hw, -⟩
    · exact .inr hmade
    · exact hkept (.inr (.inl hw))
  · rcases (h.activated.nodeStatus h.agrees₂ q).2 hr with hsame | ⟨-, -, hpending⟩
    · rw [hsame, (h.agrees₂ q).outstanding] at hq
      exact hkept hq
    · rw [hpending] at hq
      simp [Outstanding] at hq

theorem madeReady_of_listed (hbefore : ¬(s.slot q).ready) (hafter : (s₃.slot q).ready)
    (hjoin : graph.nodeType q ≠ some .parallelJoin) : MadeReady graph s op n q := by
  rw [h.activated.ready] at hafter
  rcases hafter with hr | hr
  · have hqn := h.ne_of_listed (.inr (.inl hr))
    rw [h.kept q hqn (h.not_lost (.inr (.inl hr)) hqn)] at hr
    exact absurd hr hbefore
  · exact (h.madeReady hr).resolve_right fun hw => hjoin hw.2

/-- What is completed before the successors are activated is not outstanding after, unless it is the loop node. -/
theorem not_outstanding_of_completed (hq : q ∈ n :: s.completedNodeIds) (hloop : loopToReactivate s graph n ≠ some q) :
    ¬Outstanding (s₃.slot q).status := by
  intro hout
  rcases h.outstandingAfter hout with ⟨hqn, -, hbefore⟩ | ⟨hnext, -⟩ | hl
  · have hdone : (s.slot q).completed := (List.mem_cons.mp hq).resolve_left hqn
    rw [← WorkflowRunState.status_slot, (h.agrees q).completed.mp hdone] at hbefore
    simp [Outstanding] at hbefore
  · exact not_nextReady_of_completed hq hnext
  · exact hloop hl

end NodeStep.Completes

theorem completes_of_newly_ready (hs : Consistent stale s) (hok : applyRunStateOp graph s op = .ok s')
    (hcancel : ∀ transition, op ≠ .cancel transition) (hbefore : ¬(s.slot m).ready) (hafter : (s'.slot m).ready) :
    ∃ n s₂ s₃, n ∈ op.completes ∧ NodeStep.Completes graph s op n stale s₂ s₃ ∧ s'.slot = s₃.slot := by
  cases htarget : op.target with
  | none =>
    cases op with
    | record _ _ => cases htarget
    | resolve _ _ => cases htarget
    | complete _ _ => cases htarget
    | pause transition =>
      rw [(pause_spec hok).1.slot] at hafter
      exact absurd hafter hbefore
    | resume transition =>
      rw [(resume_spec hok).1.slot] at hafter
      exact absurd hafter hbefore
    | cancel transition => exact absurd rfl (hcancel transition)
  | some target =>
    obtain ⟨n, outcome⟩ := target
    obtain ⟨core, core', s₁, s₂, s₃, hstep⟩ := nodeStep_spec hs.lineage htarget hok
    by_cases hout : outcome = .completed
    · exact ⟨n, s₂, s₃, by simp [RunStateOp.completes, htarget, hout], hstep.completes hout htarget hs, hstep.finished.slot⟩
    · rw [hstep.finished.slot, hstep.other hout] at hafter
      by_cases hm : m = n
      · exact absurd (hm ▸ hafter) hstep.settled.ready
      · rw [hstep.moved.others m hm] at hafter
        exact absurd hafter hbefore

/-- **Readiness of one step.** A node other than a join is put in the ready list only when no source of its inbound
edges is outstanding after the step. -/
theorem AwaitsSources.ready (hgraph : Built graph) (hs : Consistent stale s) (hawaits : AwaitsSources graph s op)
    (hok : applyRunStateOp graph s op = .ok s') (hjoin : graph.nodeType m ≠ some .parallelJoin)
    (hbefore : m ∉ s.readyNodeIds) (hafter : m ∈ s'.readyNodeIds) (hleads : graph.Leads q m) :
    ¬Outstanding (s'.nodeStatus q) := by
  obtain ⟨n, s₂, s₃, hn, hcompletes, hslot⟩ := completes_of_newly_ready hs hok hawaits.noCancel hbefore hafter
  have hmade := hcompletes.madeReady_of_listed hbefore (hslot ▸ hafter) hjoin
  obtain ⟨e, he, hsource⟩ := hgraph.leads_iff.mp hleads
  rw [← WorkflowRunState.status_slot, hslot]
  rcases hawaits.sources n hn m hjoin hmade e he q hsource with ⟨hnext, hactivated, hloop⟩ | hnot
  · refine hcompletes.not_outstanding_of_completed ?_ hloop
    have hready := (mem_getNextReadyNodeIds.mp hnext).2
    simp only [candidateIsReady, if_neg hjoin, Bool.and_eq_true, List.all_eq_true, List.mem_filter, decide_eq_true_eq]
      at hready
    have := hready.2 e ⟨he, hactivated⟩
    simpa [hsource] using this
  · exact fun hout => hnot (hcompletes.outstandingAfter hout)

/-! ## Diamonds -/

/-- `a` leads to `b` and to `c`, and both lead to `d`; no other edge leads to any of the four. No branch is a loop
node, and `d` is not a join. -/
structure Diamond (graph : DerivedWorkflowGraph) (a b c d : WorkflowNodeDefinitionId) : Prop where
  top : ∀ p, ¬graph.Leads p a
  left : ∀ p, graph.Leads p b ↔ p = a
  right : ∀ p, graph.Leads p c ↔ p = a
  bottom : ∀ p, graph.Leads p d ↔ p = b ∨ p = c
  noLoop : graph.nodeType a ≠ some .loop ∧ graph.nodeType b ≠ some .loop ∧ graph.nodeType c ≠ some .loop
  noJoin : graph.nodeType d ≠ some .parallelJoin

/-- Ready, executed or settled. -/
def Touched (status : Option WorkflowNodeRunStatus) : Prop :=
  Outstanding status ∨ status = some .completed ∨ status = some .failed

/-- The branches are over: the top is completed, and neither branch is outstanding. -/
structure BranchesOver (s : WorkflowRunState) (a b c : WorkflowNodeDefinitionId) : Prop where
  top : s.nodeStatus a = some .completed
  left : ¬Outstanding (s.nodeStatus b)
  right : ¬Outstanding (s.nodeStatus c)

structure DiamondInv (graph : DerivedWorkflowGraph) (a b c d : WorkflowNodeDefinitionId) (s : WorkflowRunState) : Prop where
  consistent : Consistent (fun j => graph.nodeType j = some .loop) s
  left : Outstanding (s.nodeStatus b) → s.nodeStatus a = some .completed
  right : Outstanding (s.nodeStatus c) → s.nodeStatus a = some .completed
  touched : Touched (s.nodeStatus d) → BranchesOver s a b c
  parent : ∀ j, s.parentOf j = some d → BranchesOver s a b c

variable {a b c d : WorkflowNodeDefinitionId}

theorem NodeStep.Completes.stays_completed (h : NodeStep.Completes graph s op n stale s₂ s₃)
    (htop : ∀ p, ¬graph.Leads p a) (hloop : graph.nodeType a ≠ some .loop)
    (ha : a = n ∨ s.nodeStatus a = some .completed) : (s₃.slot a).status = some .completed := by
  have hdone₂ : (s₂.slot a).status = some .completed := by
    by_cases han : a = n
    · rw [han, h.self]
    · have ha := ha.resolve_left han
      have hnot : ¬LosesRace graph s op n a := fun hl => by
        have := hl.2.kept.2.2
        simp [ha, isResolved] at this
      rw [h.kept a han hnot, WorkflowRunState.status_slot, ha]
  have hidle : ¬Readied s₂ graph n (op.branchKey s) a := by
    rintro (hr | hr | hr)
    · exact htop n ((h.readied a).mp hr).1.leads
    · exact hloop (loopToReactivate_eq_some.mp hr).2.1
    · have := (h.agrees₂ a).outstanding.mpr (.inr (.inl (mem_waitingJoinNodeIds.mp hr).1))
      rw [hdone₂] at this
      simp [Outstanding] at this
  rcases (h.activated.nodeStatus h.agrees₂ a).2 hidle with hsame | ⟨hreset, -, -⟩
  · rw [hsame, hdone₂]
  · exfalso
    rw [resetBodyIds] at hreset
    cases hp : loopToReactivate s₂ graph n with
    | none => simp [hp] at hreset
    | some p =>
      rw [hp, Option.elim_some, loopBodyNodeIds, List.mem_map] at hreset
      obtain ⟨e, he, hto⟩ := hreset
      obtain ⟨i, hi, hget⟩ := List.mem_filterMap.mp (List.mem_filter.mp he).1
      exact htop p ⟨i, hi, by rw [DerivedWorkflowGraph.target, hget, Option.map_some, hto]⟩

structure DiamondStep (a b c d : WorkflowNodeDefinitionId) (s s' : WorkflowRunState) : Prop where
  top : s.nodeStatus a = some .completed → s'.nodeStatus a = some .completed
  branch : ∀ x, x = b ∨ x = c → Outstanding (s'.nodeStatus x) → Outstanding (s.nodeStatus x) ∨
    s.nodeStatus a ≠ some .completed ∧ s'.nodeStatus a = some .completed
  bottom : Touched (s'.nodeStatus d) → Touched (s.nodeStatus d) ∨ BranchesOver s' a b c ∨ ∃ j, s.parentOf j = some d
  parent : ∀ j, s'.parentOf j = some d → s.parentOf j = some d ∨ Touched (s.nodeStatus d)

theorem DiamondStep.inv (hstep : DiamondStep a b c d s s') (h : DiamondInv graph a b c d s)
    (hs' : Consistent (fun j => graph.nodeType j = some .loop) s') : DiamondInv graph a b c d s' := by
  have hover : BranchesOver s a b c → BranchesOver s' a b c := by
    intro ho
    exact ⟨hstep.top ho.top, fun hb => (hstep.branch b (.inl rfl) hb).elim ho.left fun hn => hn.1 ho.top,
      fun hc => (hstep.branch c (.inr rfl) hc).elim ho.right fun hn => hn.1 ho.top⟩
  refine ⟨hs', fun hb => ?_, fun hc => ?_, fun hd => ?_, fun j hj => ?_⟩
  · exact (hstep.branch b (.inl rfl) hb).elim (fun hb => hstep.top (h.left hb)) fun hn => hn.2
  · exact (hstep.branch c (.inr rfl) hc).elim (fun hc => hstep.top (h.right hc)) fun hn => hn.2
  · rcases hstep.bottom hd with hd | ho | ⟨j, hj⟩
    · exact hover (h.touched hd)
    · exact ho
    · exact hover (h.parent j hj)
  · exact hover ((hstep.parent j hj).elim (h.parent j) h.touched)

theorem NodeStep.diamondStep (h : NodeStep graph s op s' n outcome core core' s₁ s₂ s₃) (hout : outcome ≠ .completed)
    (hbefore : Outstanding (s.nodeStatus n)) : DiamondStep a b c d s s' := by
  have hslot : s'.slot = s₁.slot := by rw [h.finished.slot, h.other hout]
  have hsame : ∀ j, j ≠ n → s'.nodeStatus j = s.nodeStatus j := by
    intro j hj
    rw [← WorkflowRunState.status_slot, ← WorkflowRunState.status_slot, hslot, h.moved.others j hj]
  have hparent : ∀ j, s'.parentOf j = s.parentOf j := by
    intro j
    rw [h.finished.parent, h.other hout, h.moved.parent]
  refine ⟨fun ha => ?_, fun x _ hx => ?_, fun hd => ?_, fun j hj => .inl (hparent j ▸ hj)⟩
  · rw [hsame a, ha]
    rintro rfl
    rw [ha] at hbefore
    simp [Outstanding] at hbefore
  · by_cases hxn : x = n
    · exact .inl (hxn ▸ hbefore)
    · exact .inl (hsame x hxn ▸ hx)
  · by_cases hdn : d = n
    · exact .inl (.inl (hdn ▸ hbefore))
    · exact .inl (hsame d hdn ▸ hd)

theorem NodeStep.Completes.diamondStep (h : NodeStep.Completes graph s op n stale s₂ s₃) (hd : Diamond graph a b c d)
    (hslot : s'.slot = s₃.slot) (hbefore : Outstanding (s.nodeStatus n))
    (hparent : ∀ j, s'.parentOf j = some d → s.parentOf j = some d ∨ n = d)
    (hready : d ∉ s.readyNodeIds → d ∈ s'.readyNodeIds → ∀ x, graph.Leads x d → ¬Outstanding (s'.nodeStatus x))
    (hbranch : ∀ x, x = b ∨ x = c → Outstanding (s.nodeStatus x) → s.nodeStatus a = some .completed) :
    DiamondStep a b c d s s' := by
  have hstatus : ∀ j, s'.nodeStatus j = (s₃.slot j).status := by
    intro j
    rw [← WorkflowRunState.status_slot, hslot]
  have htop : s.nodeStatus a = some .completed → s'.nodeStatus a = some .completed := by
    intro ha
    rw [hstatus]
    exact h.stays_completed hd.top hd.noLoop.1 (.inr ha)
  refine ⟨htop, fun x hx hout => ?_, fun hdt => ?_, fun j hj => ?_⟩
  · rw [hstatus] at hout
    have hleads : ∀ p, graph.Leads p x → p = a := by
      rcases hx with rfl | rfl
      · exact fun p => (hd.left p).mp
      · exact fun p => (hd.right p).mp
    have htype : graph.nodeType x ≠ some .loop := by
      rcases hx with rfl | rfl
      · exact hd.noLoop.2.1
      · exact hd.noLoop.2.2
    rcases h.outstandingAfter hout with ⟨-, -, hx⟩ | ⟨hnext, -⟩ | hloop
    · exact .inl hx
    · obtain rfl := hleads n hnext.leads
      refine .inr ⟨fun hdone => ?_, ?_⟩
      · rw [hdone] at hbefore
        simp [Outstanding] at hbefore
      · rw [hstatus]
        exact h.stays_completed hd.top hd.noLoop.1 (.inl rfl)
    · exact absurd (loopToReactivate_eq_some.mp hloop).2.1 htype
  · by_cases hdr : Readied s₂ graph n (op.branchKey s) d
    · have hafter : d ∈ s'.readyNodeIds := by
        have : (s'.slot d).ready := by
          rw [hslot, h.activated.ready]
          exact .inr hdr
        exact this
      by_cases hbefore' : d ∈ s.readyNodeIds
      · exact .inl (.inl ((h.agrees d).outstanding.mpr (.inl hbefore') |> fun ho => by
          rwa [WorkflowRunState.status_slot] at ho))
      · rcases h.madeReady hdr with (⟨hnext, -⟩ | hloop) | ⟨-, htype⟩
        · have hsources := hready hbefore' hafter
          have ha := htop (hbranch n ((hd.bottom n).mp hnext.leads) hbefore)
          exact .inr (.inl ⟨ha, hsources b ((hd.bottom b).mpr (.inl rfl)), hsources c ((hd.bottom c).mpr (.inr rfl))⟩)
        · exact .inr (.inr ⟨n, (loopToReactivate_eq_some.mp hloop).1⟩)
        · exact absurd htype hd.noJoin
    · rw [hstatus] at hdt
      rcases (h.activated.nodeStatus h.agrees₂ d).2 hdr with hsame | ⟨-, -, hpending⟩
      · rw [hsame] at hdt
        by_cases hdn : d = n
        · exact .inl (.inl (hdn ▸ hbefore))
        · by_cases hl : LosesRace graph s op n d
          · rw [h.lost d hdn hl] at hdt
            cases hcore : (s.slot d).core <;> simp [Slot.status, Slot.skip, hcore, Touched, Outstanding, NodeCore.reset] at hdt
          · rw [h.kept d hdn hl, WorkflowRunState.status_slot] at hdt
            exact .inl hdt
      · rw [hpending] at hdt
        simp [Touched, Outstanding] at hdt
  · rcases hparent j hj with hj | rfl
    · exact .inl hj
    · exact .inr (.inl hbefore)

theorem SameNodes.diamondStep (h : SameNodes s s') : DiamondStep a b c d s s' := by
  have hsame : ∀ j, s'.nodeStatus j = s.nodeStatus j := by
    intro j
    rw [← WorkflowRunState.status_slot, ← WorkflowRunState.status_slot, h.slot]
  exact ⟨fun ha => hsame a ▸ ha, fun x _ hx => .inl (hsame x ▸ hx), fun hd => .inl (hsame d ▸ hd),
    fun j hj => .inl (h.parent ▸ hj)⟩

theorem DiamondInv.step (hgraph : Built graph) (hd : Diamond graph a b c d) (h : DiamondInv graph a b c d s)
    (hawaits : AwaitsSources graph s op) (hok : applyRunStateOp graph s op = .ok s') : DiamondInv graph a b c d s' := by
  have hs' : Consistent (fun j => graph.nodeType j = some .loop) s' :=
    h.consistent.step hok hawaits.noCancel not_loop_join fun _ _ p hp _ => (loopToReactivate_eq_some.mp hp).2.1
  refine DiamondStep.inv ?_ h hs'
  cases htarget : op.target with
  | none =>
    cases op with
    | record _ _ => cases htarget
    | resolve _ _ => cases htarget
    | complete _ _ => cases htarget
    | pause transition => exact (pause_spec hok).1.diamondStep
    | resume transition => exact (resume_spec hok).1.diamondStep
    | cancel transition => exact absurd rfl (hawaits.noCancel transition)
  | some target =>
    obtain ⟨n, outcome⟩ := target
    obtain ⟨core, core', s₁, s₂, s₃, hstep⟩ := nodeStep_spec h.consistent.lineage htarget hok
    have hbefore : Outstanding (s.nodeStatus n) := by
      have hs := Slot.Agrees.status_of_core hstep.before
      rw [← WorkflowRunState.status_slot, hs]
      rcases hstep.takes.outstanding ((h.consistent.agrees n).core core hstep.before) with hc | hc | hc <;>
        simp [Outstanding, hc]
    by_cases hout : outcome = .completed
    · refine (hstep.completes hout htarget h.consistent).diamondStep hd hstep.finished.slot hbefore (fun j hj => ?_)
        (fun hb ha x hx => hawaits.ready hgraph h.consistent hok hd.noJoin hb ha hx) ?_
      · rw [hstep.finished.parent, (hstep.activated hout).parent] at hj
        split_ifs at hj with hl hr
        · exact .inr (Option.some.inj hj)
        · exact .inl (hstep.parent₂ hout j ▸ hj)
      · rintro x (rfl | rfl) hx
        · exact h.left hx
        · exact h.right hx
    · exact hstep.diamondStep hout hbefore

theorem Initial.diamondInv (hgraph : Built graph) (hd : Diamond graph a b c d) (h : Initial graph s) :
    DiamondInv graph a b c d s := by
  have hs := h.spec
  -- a node that something leads to is no entry, and pending
  have hpending : ∀ {p x}, graph.Leads p x → ¬Touched (s.nodeStatus x) := by
    intro p x hleads ht
    have hnot : x ∉ getInitialReadyNodeIds graph := fun hx => hgraph.entry_not_led hx hleads
    have hcore := hs.core x
    rw [← WorkflowRunState.status_slot, Slot.status, hcore] at ht
    split_ifs at ht <;> simp [initialCore, hnot, Touched, Outstanding] at ht
  refine ⟨h.consistent hgraph _, fun hb => ?_, fun hc => ?_, fun ht => ?_, fun j hj => ?_⟩
  · exact absurd (.inl hb) (hpending ((hd.left a).mpr rfl))
  · exact absurd (.inl hc) (hpending ((hd.right a).mpr rfl))
  · exact absurd ht (hpending ((hd.bottom b).mpr (.inl rfl)))
  · simp [hs.parent] at hj

end

/-! ## One branch of a diamond -/

/-- The steps outside loops that make a node ready only when all its inbound edges are activated. -/
def AllActivated (graph : DerivedWorkflowGraph) (s : WorkflowRunState) (op : RunStateOp) : Prop :=
  op.isCancel = false ∧ ∀ n ∈ op.completes, loopToReactivate s graph n = none ∧
    ∀ m ∈ getNextReadyNodeIds graph (n :: s.completedNodeIds) (activatedBy graph s op n) (some n),
      ∀ e ∈ graph.inboundEdgeIds m, e ∈ activatedBy graph s op n

instance (graph : DerivedWorkflowGraph) (s : WorkflowRunState) (op : RunStateOp) : Decidable (AllActivated graph s op) :=
  inferInstanceAs (Decidable (op.isCancel = false ∧ ∀ n ∈ op.completes, loopToReactivate s graph n = none ∧
    ∀ m ∈ getNextReadyNodeIds graph (n :: s.completedNodeIds) (activatedBy graph s op n) (some n),
      ∀ e ∈ graph.inboundEdgeIds m, e ∈ activatedBy graph s op n))

theorem AllActivated.awaitsSources {graph : DerivedWorkflowGraph} {s : WorkflowRunState} {op : RunStateOp}
    (h : AllActivated graph s op) : AwaitsSources graph s op := by
  obtain ⟨hcancel, hall⟩ := h
  refine ⟨fun transition hc => by simp [hc, RunStateOp.isCancel] at hcancel, fun n hn m _ hmade e he q _ => .inl ?_⟩
  obtain ⟨hloop, hactivated⟩ := hall n hn
  rcases hmade with ⟨hnext, -⟩ | hl
  · exact ⟨hnext, hactivated m hnext e he, by simp [hloop]⟩
  · rw [hloop] at hl
    cases hl

end NousCore.Workflow
