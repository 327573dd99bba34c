import NousCore.Workflow.Joins

/-!
# Loop bodies

A loop node that chooses to go on dispatches its body. The completion of a node that it dispatched itself re-activates it.

* `BodyOf` : what is reached through a `loop` edge;
* `DispatchedDuring`, `executions` : what a run dispatches, and how often it executes a node.
-/

namespace NousCore.Workflow

/-! ## A body and its iterations -/

def BodyOf (graph : DerivedWorkflowGraph) (loop m : WorkflowNodeDefinitionId) : Prop :=
  ∃ b ∈ loopBodyNodeIds graph loop, Relation.ReflTransGen (fun a c => c ∈ graph.successors a) b m

namespace RunStateOp

def about (op : RunStateOp) : Option WorkflowNodeDefinitionId := op.target.map (·.1)

def isRecord : RunStateOp → Bool
  | record .. => true
  | _ => false

/-- The execution of a loop node that chooses to go on. -/
def continuesLoop (loop : WorkflowNodeDefinitionId) : RunStateOp → Prop
  | record n result .. => n = loop ∧ result.outcome = .completed ∧ result.selectedBranchKey = some "loop"
  | _ => False

theorem isRecord.target {op : RunStateOp} (h : op.isRecord = true) :
    ∃ n outcome, op.target = some (n, outcome) ∧ op.races = true ∧ op.isCancel = false := by
  cases op with
  | record n result => exact ⟨n, result.outcome, rfl, rfl, rfl⟩
  | resolve | complete | pause | resume | cancel => cases h

theorem continuesLoop.completes {op : RunStateOp} {loop : WorkflowNodeDefinitionId} (h : op.continuesLoop loop) :
    op.completes = some loop := by
  cases op with
  | record n result =>
    obtain ⟨rfl, hout, -⟩ := h
    simp [RunStateOp.completes, RunStateOp.target, hout]
  | resolve | complete | pause | resume | cancel => exact h.elim

theorem isRecord.takes {op : RunStateOp} (h : op.isRecord = true) {core core' : NodeCore} (htakes : op.Takes core core') :
    core.status = .ready := by
  cases op with
  | record n result => exact htakes.1
  | resolve | complete | pause | resume | cancel => cases h

end RunStateOp

def executions (ops : List RunStateOp) (m : WorkflowNodeDefinitionId) : Nat := ops.countP (·.about = some m)

/-- A step of the run dispatches `m`. -/
def DispatchedDuring (graph : DerivedWorkflowGraph) :
    WorkflowRunState → List RunStateOp → WorkflowNodeDefinitionId → Prop
  | _, [], _ => False
  | s, op :: ops, m => ∃ t, applyRunStateOp graph s op = .ok t ∧
      (Dispatched op.about s t m ∨ DispatchedDuring graph t ops m)

abbrev RecordStep (graph : DerivedWorkflowGraph) : WorkflowRunState → RunStateOp → WorkflowRunState → Prop :=
  Guarded (RunStateStep graph) fun _ op => op.isRecord = true

/-- The executed body nodes are completed, and a completion
* cancels no ready body node;
* re-activates the loop node when no other body node is ready and no body node becomes ready;
* re-activates no other loop node that lies in the body or resets a part of it. -/
structure RunsBody (graph : DerivedWorkflowGraph) (loop : WorkflowNodeDefinitionId) (s : WorkflowRunState)
    (op : RunStateOp) : Prop where
  completes : ∀ n ∈ op.about, BodyOf graph loop n → op.completes = some n
  wins : ∀ n ∈ op.completes, ∀ m ∈ s.readyNodeIds, BodyOf graph loop m → ¬Loses graph s n m
  last : ∀ n ∈ op.completes, loopToReactivate s graph n = some loop →
    ∀ m, BodyOf graph loop m → (m ∈ s.readyNodeIds → m = n) ∧ ¬NextReady graph s op n m
  apart : ∀ n ∈ op.completes, ∀ p, loopToReactivate s graph n = some p → p ≠ loop →
    ∀ m, BodyOf graph loop m → p ≠ m ∧ m ∉ loopBodyNodeIds graph p

abbrev IterationStep (graph : DerivedWorkflowGraph) (loop : WorkflowNodeDefinitionId) :
    WorkflowRunState → RunStateOp → WorkflowRunState → Prop :=
  Guarded (RecordStep graph) fun s op => s.nodeStatus loop = some .completed ∧ RunsBody graph loop s op

/-- The loop node chooses to go on with `op₀`, and the steps `l` of its iteration follow. -/
inductive Iteration (graph : DerivedWorkflowGraph) (loop : WorkflowNodeDefinitionId) (s : WorkflowRunState)
    (op₀ : RunStateOp) : List RunStateOp → WorkflowRunState → Prop
  | start {t : WorkflowRunState} : RecordStep graph s op₀ t → op₀.continuesLoop loop → Iteration graph loop s op₀ [] t
  | step {l : List RunStateOp} {t u : WorkflowRunState} {op : RunStateOp} : Iteration graph loop s op₀ l t →
      IterationStep graph loop t op u → Iteration graph loop s op₀ (l ++ [op]) u

section

variable {graph : DerivedWorkflowGraph} {s t u : WorkflowRunState} {n m : WorkflowNodeDefinitionId} {op : RunStateOp}
  {ops : List RunStateOp}

theorem dispatchedDuring_snoc (h : Run (RunStateStep graph) s ops t) (hop : applyRunStateOp graph t op = .ok u) :
    DispatchedDuring graph s (ops ++ [op]) m ↔ DispatchedDuring graph s ops m ∨ Dispatched op.about t u m := by
  induction ops generalizing s with
  | nil =>
    obtain rfl := h.eq_of_nil
    constructor
    · rintro ⟨u', hu', hm | hm⟩
      · rw [hop] at hu'
        cases hu'
        exact .inr hm
      · exact hm.elim
    · rintro (hm | hm)
      · exact hm.elim
      · exact ⟨u, hop, .inl hm⟩
  | cons first ops ih =>
    obtain ⟨s', hfirst, hrest⟩ := h.uncons
    have hfirst : applyRunStateOp graph s first = .ok s' := hfirst
    rw [List.cons_append, DispatchedDuring, DispatchedDuring]
    simp only [hfirst, Except.ok.injEq, exists_eq_left', ih hrest, or_assoc]

theorem executions_snoc (ops : List RunStateOp) (op : RunStateOp) (m : WorkflowNodeDefinitionId) :
    executions (ops ++ [op]) m = executions ops m + if op.about = some m then 1 else 0 := by
  simp [executions, List.countP_append, List.countP_cons]

/-! ## One step -/

namespace NodeStep

variable {s' s₁ s₂ s₃ : WorkflowRunState} {outcome : WorkflowNodeOutcome} {core core' : NodeCore}

theorem stays_ready (h : NodeStep graph s op s' n outcome core core' s₁ s₂ s₃)
    (hstatus : core'.status = mapOutcomeToStatus outcome) (hmn : m ≠ n)
    (hl : outcome = .completed → ¬LosesRace graph s op n m) (hs : (s.slot m).ready) : (s'.slot m).ready := by
  rw [h.finished.slot]
  by_cases hout : outcome = .completed
  · have hstatus₁ : (s₁.slot n).status = some .completed := by
      rw [Slot.status, h.settled.core, Option.map_some, hstatus, hout]
      rfl
    rw [(h.activated hout).ready, ((h.slot₂ hout hstatus₁).2 m hmn).2 (hl hout)]
    exact .inl hs
  · rwa [h.other hout, h.moved.others m hmn]

theorem ends_completed (h : NodeStep graph s op s' n .completed core core' s₁ s₂ s₃)
    (hstatus : core'.status = .completed) (hn : Unreset graph s₂ n n) : (s'.slot n).status = some .completed := by
  have hstatus₁ : (s₁.slot n).status = some .completed := by
    rw [Slot.status, h.settled.core, Option.map_some, hstatus]
  have hsame := (h.slot₂ rfl hstatus₁).1
  rw [h.finished.slot, (h.activated rfl).completed hn, hsame]
  · exact hstatus₁
  · rw [hsame]
    exact h.settled.completed.mpr (.inr rfl)
  · rw [hsame, h.settled.waiting]
    exact fun h => WorkflowNodeOutcome.noConfusion h

theorem leaves_ready (h : NodeStep graph s op s' n .completed core core' s₁ s₂ s₃)
    (hstatus : core'.status = .completed) (hparent : ∀ j, s.parentOf j ≠ some j) : ¬(s'.slot n).ready := by
  have hstatus₁ : (s₁.slot n).status = some .completed := by
    rw [Slot.status, h.settled.core, Option.map_some, hstatus]
  have hsame := (h.slot₂ rfl hstatus₁).1
  rw [h.finished.slot, (h.activated rfl).ready, hsame]
  rintro (hr | hr | hr | hr)
  · exact h.settled.ready hr
  · exact not_mem_readiedIds (h.listed₂ rfl) hr
  · rw [h.loop rfl hstatus₁ hparent] at hr
    exact hparent n (loopToReactivate_eq_some.mp hr).1
  · have := (mem_waitingJoinNodeIds.mp hr).1
    rw [hsame, h.settled.waiting] at this
    cases this

end NodeStep

/-! ## One iteration -/

/-- What an iteration has done with `m`: it is to be executed, and ready once it is dispatched; or it was executed. -/
def Phase (s : WorkflowRunState) (m : WorkflowNodeDefinitionId) (count : Nat) (dispatched : Prop) : Prop :=
  count = 0 ∧ (dispatched → (s.slot m).ready) ∨ count = 1 ∧ (s.slot m).status = some .completed

theorem Phase.of_ready {count : Nat} {dispatched : Prop} (h : Phase s m count dispatched)
    (hs : (s.slot m).status = some .ready) : count = 0 := by
  rcases h with ⟨rfl, -⟩ | ⟨-, hdone⟩
  · rfl
  · rw [hs] at hdone
    cases hdone

/-- What the recorded execution of `n` does to the other nodes and to `n`. -/
structure Executes (graph : DerivedWorkflowGraph) (s : WorkflowRunState) (op : RunStateOp) (t : WorkflowRunState)
    (n : WorkflowNodeDefinitionId) : Prop where
  about : op.about = some n
  wasReady : (s.slot n).status = some .ready
  under : ∀ m, Dispatched op.about s t m → m ≠ n ∧ DispatchedUnder graph s n t m
  staysReady : ∀ m, m ≠ n → (op.completes = some n → ¬Loses graph s n m) → (s.slot m).ready → (t.slot m).ready
  staysCompleted : ∀ m, m ≠ n → (op.completes = some n → Unreset graph s n m) → (s.slot m).status = some .completed →
    (t.slot m).status = some .completed
  endsCompleted : op.completes = some n → Unreset graph s n n → (t.slot n).status = some .completed
  leavesReady : op.completes = some n → ¬(t.slot n).ready
  reactivates : op.completes = some n → ∀ p, loopToReactivate s graph n = some p → (t.slot p).status = some .ready
  readied : ∀ m, m ≠ n → (t.slot m).ready → (s.slot m).ready ∨ op.completes = some n ∧
    (NextReady graph s op n m ∨ loopToReactivate s graph n = some m ∨ (s.slot m).waiting ∧ ¬Loses graph s n m)

theorem completes_eq_some_iff {outcome : WorkflowNodeOutcome} (htarget : op.target = some (n, outcome)) :
    op.completes = some n ↔ outcome = .completed := by
  rw [RunStateOp.completes, htarget]
  cases outcome <;> simp

theorem NextReady.not_completed (h : NextReady graph s op n m) : m ∉ s.completedNodeIds := by
  have := (mem_getNextReadyNodeIds.mp h).2
  simp only [candidateIsReady, Bool.and_eq_true, decide_eq_true_eq] at this
  exact fun hc => this.1.1 (List.mem_cons_of_mem n hc)

theorem exists_executes (hs : LoopConsistent graph s) (h : RecordStep graph s op t) : ∃ n, Executes graph s op t n := by
  obtain ⟨n, outcome, htarget, hraces, hcancel⟩ := RunStateOp.isRecord.target h.2
  obtain ⟨core, core', s₁, s₂, s₃, hstep⟩ := nodeStep_spec hs.lineage htarget h.1
  have habout : op.about = some n := by rw [RunStateOp.about, htarget, Option.map_some]
  have hcompletes := completes_eq_some_iff htarget
  obtain ⟨-, hstatus⟩ := hstep.takes.sound htarget ((hs.agrees n).core core hstep.before)
  have hready : (s.slot n).status = some .ready := by
    rw [Slot.status, hstep.before, Option.map_some, RunStateOp.isRecord.takes h.2 hstep.takes]
  have hstatus₁ : outcome = .completed → (s₁.slot n).status = some .completed := by
    rintro rfl
    rw [Slot.status, hstep.settled.core, Option.map_some, hstatus]
    rfl
  have hloop : outcome = .completed → loopToReactivate s₂ graph n = loopToReactivate s graph n :=
    fun hout => hstep.loop hout (hstatus₁ hout) hs.parent
  have hunreset : ∀ m, outcome = .completed → Unreset graph s n m → Unreset graph s₂ n m := by
    intro m hout hm p hp
    rw [hloop hout] at hp
    exact hm p hp
  refine ⟨n, habout, hready, fun m hm => ?_, fun m hmn hl hr => ?_, fun m hmn hm hdone => ?_, fun hout hn => ?_,
    fun hout => ?_, fun hout p hp => ?_, fun m hmn hr => ?_⟩
  · rw [habout] at hm
    exact hm.under hs.lineage htarget hraces h.1
  · exact hstep.stays_ready hstatus hmn (fun hout hlost => hl (hcompletes.mpr hout) hlost.2) hr
  · exact hstep.stays_completed hstatus hmn (fun hout => hunreset m hout (hm (hcompletes.mpr hout))) hdone
      ((hs.agrees m).completed.mpr hdone) ((hs.agrees m).not_waiting (by simp [hdone]) (by simp [hdone]))
  · obtain rfl := hcompletes.mp hout
    exact hstep.ends_completed hstatus (hunreset n rfl hn)
  · obtain rfl := hcompletes.mp hout
    exact hstep.leaves_ready hstatus hs.parent
  · have hout := hcompletes.mp hout
    rw [hstep.finished.slot]
    exact ((hstep.activated hout).nodeStatus (hstep.raced hout (hstep.agrees₁ htarget hs.agrees)).1 p).1
      (.inr (.inl ((hloop hout).trans hp)))
  · rw [hstep.finished.slot] at hr
    by_cases hout : outcome = .completed
    · have hslot := (hstep.slot₂ hout (hstatus₁ hout)).2 m hmn
      have hkept : ¬LosesRace graph s op n m ∨ ¬(s₂.slot m).ready ∧ ¬(s₂.slot m).waiting := by
        by_cases hl : LosesRace graph s op n m
        · rw [hslot.1 hl]
          exact .inr ⟨id, id⟩
        · exact .inl hl
      rcases (hstep.activated hout).ready m |>.mp hr with hr | hr | hr | hr
      · have hl := hkept.resolve_right fun h => h.1 hr
        exact .inl (hslot.2 hl ▸ hr)
      · exact .inr ⟨hcompletes.mpr hout, .inl ((hstep.mem_readiedIds hout).mp hr).1⟩
      · exact .inr ⟨hcompletes.mpr hout, .inr (.inl ((hloop hout).symm.trans hr))⟩
      · have hw := (mem_waitingJoinNodeIds.mp hr).1
        have hl := hkept.resolve_right fun h => h.2 hw
        exact .inr ⟨hcompletes.mpr hout, .inr (.inr ⟨hslot.2 hl ▸ hw, fun hlost => hl ⟨hraces, hlost⟩⟩)⟩
    · rw [hstep.other hout, hstep.moved.others m hmn] at hr
      exact .inl hr

section

variable {loop : WorkflowNodeDefinitionId} {count : Nat} {dispatched : Prop}

theorem Phase.step (hs : LoopConsistent graph s) (h : IterationStep graph loop s op t) (hbody : BodyOf graph loop m)
    (hphase : Phase s m count dispatched) (hloop : t.nodeStatus loop ≠ some .ready) :
    Phase t m (count + if op.about = some m then 1 else 0) (dispatched ∨ Dispatched op.about s t m) := by
  obtain ⟨hrecord, -, hruns⟩ := h
  obtain ⟨n, hexec⟩ := exists_executes hs hrecord
  have hmem : ∀ {x : Option WorkflowNodeDefinitionId}, x = some n → n ∈ x := fun h => h
  have hunreset : op.completes = some n → Unreset graph s n m := by
    intro hout p hp
    by_cases hpl : p = loop
    · have := hexec.reactivates hout p hp
      rw [WorkflowRunState.status_slot, hpl] at this
      exact absurd this hloop
    · exact hruns.apart n (hmem hout) p hp hpl m hbody
  by_cases hmn : m = n
  · subst hmn
    rw [if_pos hexec.about, hphase.of_ready hexec.wasReady]
    have hout := hruns.completes m (hmem hexec.about) hbody
    exact .inr ⟨rfl, hexec.endsCompleted hout (hunreset hout)⟩
  · have hother : op.about ≠ some m := fun h => hmn (Option.some.inj (h.symm.trans hexec.about))
    rw [if_neg hother, Nat.add_zero]
    rcases hphase with ⟨rfl, hready⟩ | ⟨rfl, hdone⟩
    · refine .inl ⟨rfl, ?_⟩
      rintro (hm | hm)
      · exact hexec.staysReady m hmn (fun hout => hruns.wins n (hmem hout) m (hready hm) hbody) (hready hm)
      · obtain ⟨-, -, -, -, -, -, -, -, hr⟩ := hexec.under m hm
        exact hr
    · exact .inr ⟨rfl, hexec.staysCompleted m hmn hunreset hdone⟩

theorem Phase.reactivated (hs : LoopConsistent graph s) (h : IterationStep graph loop s op t)
    (hbody : BodyOf graph loop m) (hphase : Phase s m count dispatched) (hloop : t.nodeStatus loop = some .ready)
    (hm : dispatched ∨ Dispatched op.about s t m) : count + (if op.about = some m then 1 else 0) = 1 := by
  obtain ⟨hrecord, hchosen, hruns⟩ := h
  obtain ⟨n, hexec⟩ := exists_executes hs hrecord
  rw [← WorkflowRunState.status_slot] at hchosen hloop
  have hlisted : (s.slot loop).completed := (hs.agrees loop).completed.mpr hchosen
  have hnotReady : ¬(s.slot loop).ready := by simp [(hs.agrees loop).ready, hchosen]
  have hnotWaiting : ¬(s.slot loop).waiting := (hs.agrees loop).not_waiting (by simp [hchosen]) (by simp [hchosen])
  have hln : loop ≠ n := by
    rintro rfl
    have := hexec.wasReady
    rw [hchosen] at this
    cases this
  obtain ⟨hout, hl⟩ : op.completes = some n ∧ loopToReactivate s graph n = some loop := by
    rcases hexec.readied loop hln ((hs.step hrecord.1 (RunStateOp.isRecord.target hrecord.2).choose_spec.choose_spec.2.2).agrees
      loop |>.ready.mpr hloop) with hr | ⟨hout, hr | hr | hr⟩
    · exact absurd hr hnotReady
    · exact absurd hlisted hr.not_completed
    · exact ⟨hout, hr⟩
    · exact absurd hr.1 hnotWaiting
  by_cases hmn : m = n
  · subst hmn
    rw [if_pos hexec.about, hphase.of_ready hexec.wasReady]
  · have hother : op.about ≠ some m := fun h => hmn (Option.some.inj (h.symm.trans hexec.about))
    rw [if_neg hother, Nat.add_zero]
    obtain ⟨hlast, hnext⟩ := hruns.last n hout hl m hbody
    rcases hphase with ⟨rfl, hready⟩ | ⟨rfl, -⟩
    · rcases hm with hm | hm
      · exact absurd (hlast (hready hm)) hmn
      · obtain ⟨-, hunder⟩ := hexec.under m hm
        have hr : (t.slot m).ready := by
          obtain ⟨-, -, -, -, -, -, -, hr⟩ := hunder
          exact hr
        rcases hexec.readied m hmn hr with hr | ⟨-, hr | hr | ⟨hw, hlost⟩⟩
        · exact absurd (hlast hr) hmn
        · exact absurd hr hnext
        · obtain rfl : loop = m := Option.some.inj (hl.symm.trans hr)
          by_cases hlost : Loses graph s n loop
          · have := hlost.kept.2.2
            rw [← WorkflowRunState.status_slot, hchosen] at this
            simp [isResolved] at this
          · exact absurd hlisted (hunder.unlisted hmn hlost).2.2.2
        · exact absurd hw (hunder.unlisted hmn hlost).2.1
    · rfl

theorem LoopConsistent.record (hs : LoopConsistent graph s) (h : RecordStep graph s op t) : LoopConsistent graph t := by
  obtain ⟨-, -, -, -, hcancel⟩ := RunStateOp.isRecord.target h.2
  exact hs.step h.1 hcancel

namespace Iteration

variable {op₀ : RunStateOp} {l : List RunStateOp}

section

variable (h : Iteration graph loop s op₀ l t)

include h

theorem run : Run (RecordStep graph) s (op₀ :: l) t := by
  induction h with
  | start hstep _ => exact .snoc .nil hstep
  | step _ hstep ih => exact .snoc ih hstep.1

theorem consistent (hs : LoopConsistent graph s) : LoopConsistent graph t :=
  h.run.invariant (P := LoopConsistent graph) (fun _ _ _ hs hstep => hs.record hstep) hs

theorem phase (hs : LoopConsistent graph s) (hbody : BodyOf graph loop m)
    (hloop : t.nodeStatus loop ≠ some .ready) :
    Phase t m (executions l m) (DispatchedDuring graph s (op₀ :: l) m) := by
  induction h with
  | start hstep _ =>
    obtain ⟨n, hexec⟩ := exists_executes hs hstep
    refine .inl ⟨rfl, fun hm => ?_⟩
    have hm := (@dispatchedDuring_snoc _ _ _ _ _ _ [] .nil hstep.1).mp hm |>.resolve_left id
    obtain ⟨-, -, -, -, -, -, -, -, hr⟩ := hexec.under m hm
    exact hr
  | step hl hstep ih =>
    have hphase := (ih (by simp [hstep.2.1])).step (hl.consistent hs) hstep hbody hloop
    rw [executions_snoc, ← List.cons_append, dispatchedDuring_snoc hl.run.forget_guard hstep.1.1]
    exact hphase

theorem executed_completes (hbody : BodyOf graph loop m) :
    ∀ op ∈ l, op.about = some m → op.completes = some m := by
  induction h with
  | start => exact fun op hop => absurd hop List.not_mem_nil
  | step _ hstep ih =>
    intro op' hop habout
    rcases List.mem_append.mp hop with hop | hop
    · exact ih op' hop habout
    · obtain rfl := List.mem_singleton.mp hop
      exact hstep.2.2.completes m habout hbody

theorem ne_nil (hs : LoopConsistent graph s)
    (hloop : t.nodeStatus loop = some .ready) : l ≠ [] := by
  cases h with
  | start hstep hchoice =>
    obtain ⟨n, hexec⟩ := exists_executes hs hstep
    have hout := hchoice.completes
    obtain rfl : n = loop := by
      have habout := hexec.about
      rw [RunStateOp.completes] at hout
      rw [RunStateOp.about] at habout
      split at hout
      · next htarget =>
        rw [htarget] at habout
        exact (Option.some.inj habout).symm.trans (Option.some.inj hout)
      · cases hout
    rw [← WorkflowRunState.status_slot] at hloop
    exact absurd (((hs.record hstep).agrees n).ready.mpr hloop) (hexec.leavesReady hout)
  | step => simp

end

end Iteration

/-- **Iterations run the whole body.** In every run of recorded executions, however it began: within an iteration whose
steps keep to `RunsBody`, no body node that is dispatched is executed twice, and when the loop node is ready again each of
them was executed and completed. -/
theorem loop_runs_body {s₀ : WorkflowRunState} {op₀ : RunStateOp} {l₀ l : List RunStateOp} (hgraph : Built graph)
    (hinit : Initial graph s₀) (hrun : Run (RecordStep graph) s₀ l₀ s) (hiteration : Iteration graph loop s op₀ l t) :
    ∀ m, BodyOf graph loop m → DispatchedDuring graph s (op₀ :: l) m →
      executions l m ≤ 1 ∧ (t.nodeStatus loop = some .ready →
        executions l m = 1 ∧ ∃ op ∈ l, op.completes = some m) := by
  intro m hbody hm
  have hs : LoopConsistent graph s :=
    hrun.invariant (P := LoopConsistent graph) (fun _ _ _ hs hstep => hs.record hstep) (hinit.consistent hgraph _)
  by_cases hloop : t.nodeStatus loop = some .ready
  · have hone : executions l m = 1 := by
      have hne := hiteration.ne_nil hs hloop
      cases hiteration with
      | start => exact absurd rfl hne
      | @step l t' _ op hl hstep =>
        have hphase := hl.phase hs hbody (by simp [hstep.2.1])
        rw [← List.cons_append, dispatchedDuring_snoc hl.run.forget_guard hstep.1.1] at hm
        rw [executions_snoc]
        exact hphase.reactivated (hl.consistent hs) hstep hbody hloop hm
    refine ⟨hone.le, fun _ => ⟨hone, ?_⟩⟩
    obtain ⟨op, hop, habout⟩ := List.countP_pos_iff.mp (by rw [← executions, hone]; exact Nat.one_pos)
    exact ⟨op, hop, hiteration.executed_completes hbody op hop (of_decide_eq_true habout)⟩
  · refine ⟨?_, fun h => absurd h hloop⟩
    rcases hiteration.phase hs hbody hloop with ⟨hcount, -⟩ | ⟨hcount, -⟩ <;> omega

end

end

/-! ## Two bodies -/

/-- A loop node, its body, and an edge more. -/
def bodyDefinition (edge : WorkflowEdgeDefinition) : WorkflowDefinition where
  id := 1
  projectId := 1
  version := "1"
  name := "loop"
  entryNodeIds := [1]
  nodes := [sampleNode 1 (.loop 3 "exit" none), sampleNode 2 (.transform "t" "m"), sampleNode 3 (.transform "t" "m")]
  edges := [⟨1, 1, 2, some "loop", 0⟩, edge]

/-- The loop node chooses to go on, and then the first body node is completed. -/
def loopTurn (graph : DerivedWorkflowGraph) (s : WorkflowRunState)
    (check : WorkflowRunState → WorkflowRunState → Bool) : Bool :=
  (applyRunStateOp graph s (sampleRecord 1 .completed (some "loop"))).toOption.any fun u =>
    (applyRunStateOp graph u (sampleRecord 2 .completed none)).toOption.any fun t => check u t

theorem dispatched_of_any {node : Option WorkflowNodeDefinitionId} {s t : WorkflowRunState} {m : WorkflowNodeDefinitionId}
    (hnode : node ≠ some m) (h : ((t.dispatchLineage.drop s.dispatchLineage.length).any fun lineage =>
      lineage.nodeDefinitionId = m ∧ lineage.parentNodeDefinitionId ≠ none) = true) : Dispatched node s t m := by
  obtain ⟨lineage, hmem, hlineage⟩ := List.any_eq_true.mp h
  exact ⟨hnode, lineage, hmem, of_decide_eq_true hlineage⟩

/-- A body of one node is executed before the loop node is ready again. -/
theorem singleBody_runs : ∃ graph s₀ u t, Built graph ∧ Initial graph s₀ ∧
    Iteration graph 1 s₀ (sampleRecord 1 .completed (some "loop")) [sampleRecord 2 .completed none] t ∧
    BodyOf graph 1 2 ∧ Dispatched (some 1) s₀ u 2 ∧ t.nodeStatus 1 = some .ready ∧
    executions [sampleRecord 2 .completed none] 2 = 1 := by
  obtain ⟨graph, s₀, s, hgraph, hinit, hrun, hcheck⟩ := exists_run_of_check (fun _ _ _ => True)
    (bodyDefinition ⟨2, 1, 3, some "exit", 0⟩) []
    (fun graph s => loopTurn graph s fun u t => loopBodyNodeIds graph 1 = [2] ∧ graph.successors 2 = [] ∧
      u.nodeStatus 1 = some .completed ∧ raceSiblings u graph 2 = [] ∧ loopToReactivate u graph 2 = some 1 ∧
      getNextReadyNodeIds graph (2 :: u.completedNodeIds)
        (u.activatedEdgeIds ++ getActivatedOutboundEdgeIds graph 2 none (graph.nodeType 2)) (some 2) = [] ∧
      ((u.dispatchLineage.drop s.dispatchLineage.length).any fun lineage =>
        lineage.nodeDefinitionId = 2 ∧ lineage.parentNodeDefinitionId ≠ none) = true ∧ t.nodeStatus 1 = some .ready)
    (by decide +kernel)
  obtain rfl := hrun.eq_of_nil
  obtain ⟨u, hu, hcheck⟩ := exists_ok_of_any hcheck
  obtain ⟨t, ht, hcheck⟩ := exists_ok_of_any hcheck
  obtain ⟨hbodies, hsuccessors, hchosen, hsiblings, hloop, hnext, hdispatched, hready⟩ := of_decide_eq_true hcheck
  have hbody : ∀ m, BodyOf graph 1 m → m = 2 := by
    rintro m ⟨b, hb, hpath⟩
    rw [hbodies, List.mem_singleton] at hb
    subst hb
    rcases Relation.ReflTransGen.cases_head hpath with hm | ⟨c, hc, -⟩
    · exact hm.symm
    · rw [hsuccessors] at hc
      exact absurd hc List.not_mem_nil
  have hruns : RunsBody graph 1 u (sampleRecord 2 .completed none) := by
    refine ⟨fun n hn _ => hn, fun n hn m _ _ hl => ?_, fun n hn _ m hm => ?_, fun n hn p hp hne => ?_⟩
    · obtain rfl : 2 = n := Option.some.inj hn
      exact absurd hsiblings hl.start_ne_nil
    · obtain rfl : 2 = n := Option.some.inj hn
      obtain rfl := hbody m hm
      refine ⟨fun _ => rfl, fun h => ?_⟩
      rw [NextReady] at h
      exact absurd (hnext ▸ h) List.not_mem_nil
    · obtain rfl : 2 = n := Option.some.inj hn
      exact absurd (Option.some.inj (hp.symm.trans hloop)) hne
  have hiteration : Iteration graph 1 s (sampleRecord 1 .completed (some "loop")) [sampleRecord 2 .completed none] t :=
    .step (.start ⟨hu, rfl⟩ ⟨rfl, rfl, rfl⟩) ⟨⟨ht, rfl⟩, hchosen, hruns⟩
  have hfirst : Dispatched (some 1) s u 2 := dispatched_of_any (by decide) hdispatched
  have hmem : BodyOf graph 1 2 := ⟨2, by simp [hbodies], .refl⟩
  exact ⟨graph, s, u, t, hgraph, hinit, hiteration, hmem, hfirst, hready,
    ((loop_runs_body hgraph hinit .nil hiteration 2 hmem ⟨u, hu, .inl hfirst⟩).2 hready).1⟩

/-- The body has two nodes, and all are completed in the end. With the first the loop node is ready again, while the
second is dispatched and not executed. -/
theorem chain_reactivated_early : ∃ graph s₀ u t v, Built graph ∧ Initial graph s₀ ∧
    RecordStep graph s₀ (sampleRecord 1 .completed (some "loop")) u ∧
    RecordStep graph u (sampleRecord 2 .completed none) t ∧ RecordStep graph t (sampleRecord 3 .completed none) v ∧
    graph.nodeType 1 = some .loop ∧ BodyOf graph 1 3 ∧ Dispatched (some 2) u t 3 ∧
    u.nodeStatus 1 = some .completed ∧ t.nodeStatus 1 = some .ready ∧ t.nodeStatus 3 = some .ready ∧
    executions [sampleRecord 2 .completed none] 3 = 0 ∧ v.nodeStatus 3 = some .completed := by
  obtain ⟨graph, s₀, s, hgraph, hinit, hrun, hcheck⟩ := exists_run_of_check (fun _ _ _ => True)
    (bodyDefinition ⟨2, 2, 3, none, 0⟩) []
    (fun graph s => loopTurn graph s fun u t =>
      (applyRunStateOp graph t (sampleRecord 3 .completed none)).toOption.any fun v => graph.nodeType 1 = some .loop ∧
        2 ∈ loopBodyNodeIds graph 1 ∧ 3 ∈ graph.successors 2 ∧
        ((t.dispatchLineage.drop u.dispatchLineage.length).any fun lineage =>
          lineage.nodeDefinitionId = 3 ∧ lineage.parentNodeDefinitionId ≠ none) = true ∧
        u.nodeStatus 1 = some .completed ∧ t.nodeStatus 1 = some .ready ∧ t.nodeStatus 3 = some .ready ∧
        v.nodeStatus 3 = some .completed) (by decide +kernel)
  obtain rfl := hrun.eq_of_nil
  obtain ⟨u, hu, hcheck⟩ := exists_ok_of_any hcheck
  obtain ⟨t, ht, hcheck⟩ := exists_ok_of_any hcheck
  obtain ⟨v, hv, hcheck⟩ := exists_ok_of_any hcheck
  obtain ⟨htype, hbody, hsuccessor, hdispatched, hchosen, hready, hwaits, hdone⟩ := of_decide_eq_true hcheck
  exact ⟨graph, s, u, t, v, hgraph, hinit, ⟨hu, rfl⟩, ⟨ht, rfl⟩, ⟨hv, rfl⟩, htype, ⟨2, hbody, .single hsuccessor⟩,
    dispatched_of_any (by decide) hdispatched, hchosen, hready, hwaits, rfl, hdone⟩

end NousCore.Workflow
