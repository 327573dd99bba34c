import NousCore.Access.PolicyEngine
import NousCore.Knowledge.Types

/-!
# Refreshes of a project, one after the other

`refreshProjectKnowledge` keeps the last refresh of each project in a map, and chains the next one to it.

* `RefreshRun` : a call of `refreshProjectKnowledge`, with the run that it is chained to;
* `RefreshStep` : a call, the start and the end of a `runRefresh`, and the end of a call;
* `Chained` : what the map and the chains say of the runs.
-/

namespace NousCore.Knowledge

/-! ## Calls and steps -/

inductive RefreshPhase where
  /-- The run waits for the one that it is chained to. -/
  | chained
  | running
  /-- The promise of the run is settled, the `finally` of the call is still to come. -/
  | settled (succeeded : Bool)
  | returned (succeeded : Bool)
  deriving DecidableEq

def RefreshPhase.isSettled : RefreshPhase → Bool
  | .settled _ | .returned _ => true
  | .chained | .running => false

def RefreshPhase.isReturned : RefreshPhase → Bool
  | .returned _ => true
  | _ => false

structure RefreshRun where
  projectId : ProjectId
  previous : Option Nat
  phase : RefreshPhase

/-- The calls that were made, in order, and the map of the runs that are chained to next. -/
structure RefreshState where
  runs : List RefreshRun
  refreshLocks : Record ProjectId Nat

def RefreshState.empty : RefreshState := ⟨[], .empty⟩

namespace RefreshState

variable (s : RefreshState)

def setPhase (i : Nat) (phase : RefreshPhase) : RefreshState :=
  { s with runs := s.runs.modify i ({ · with phase := phase }) }

/-- A request that the schema accepts: the next run is chained to that of the map, and takes its place. -/
def call (projectId : ProjectId) : RefreshState where
  runs := s.runs ++ [⟨projectId, s.refreshLocks.get? projectId, .chained⟩]
  refreshLocks := s.refreshLocks.set projectId s.runs.length

/-- `finally`: the run is taken out of the map, if it is still there. -/
def release (i : Nat) (projectId : ProjectId) : RefreshState :=
  if s.refreshLocks.get? projectId = some i then { s with refreshLocks := s.refreshLocks.erase projectId } else s

/-- `previous.catch(() => null)` is settled once `previous` is, however it ended. -/
def previousSettled (run : RefreshRun) : Bool :=
  run.previous.all fun j => (s.runs[j]?).any (·.phase.isSettled)

end RefreshState

inductive RefreshLabel where
  | call (projectId : ProjectId)
  | refused
  | start (i : Nat)
  | settle (i : Nat) (succeeded : Bool)
  | return (i : Nat)

def refreshStep (s : RefreshState) : RefreshLabel → Option RefreshState
  | .call projectId => some (s.call projectId)
  -- `ProjectKnowledgeRefreshRequestSchema.parse` throws before the map is read
  | .refused => some s
  | .start i => s.runs[i]?.bind fun run =>
      if run.phase = .chained ∧ s.previousSettled run then some (s.setPhase i .running) else none
  | .settle i succeeded => s.runs[i]?.bind fun run =>
      if run.phase = .running then some (s.setPhase i (.settled succeeded)) else none
  | .return i => s.runs[i]?.bind fun run =>
      match run.phase with
      | .settled succeeded => some ((s.release i run.projectId).setPhase i (.returned succeeded))
      | _ => none

/-- The project that a step is about. -/
def RefreshLabel.project (s : RefreshState) : RefreshLabel → Option ProjectId
  | .call projectId => some projectId
  | .refused => none
  | .start i | .settle i _ | .return i => s.runs[i]?.map (·.projectId)

/-! ## The chains -/

/-- What a run is chained to: the last call before it of its project; or all of them are settled. -/
def ChainedTo (s : RefreshState) (j : Nat) (run : RefreshRun) : Prop :=
  match run.previous with
  | some i => i < j ∧ (∃ a, s.runs[i]? = some a ∧ a.projectId = run.projectId) ∧
      ∀ (k : Nat) (a : RefreshRun), i < k → k < j → s.runs[k]? = some a → a.projectId ≠ run.projectId
  | none => ∀ (k : Nat) (a : RefreshRun), k < j → s.runs[k]? = some a → a.projectId = run.projectId →
      a.phase.isSettled = true

/-- What the map has of a project: its last call, which has not returned; or all its runs are settled. -/
def Locked (s : RefreshState) (projectId : ProjectId) : Prop :=
  match s.refreshLocks.get? projectId with
  | some i => (∃ a, s.runs[i]? = some a ∧ a.projectId = projectId ∧ a.phase.isReturned = false) ∧
      ∀ (k : Nat) (a : RefreshRun), i < k → s.runs[k]? = some a → a.projectId ≠ projectId
  | none => ∀ (k : Nat) (a : RefreshRun), s.runs[k]? = some a → a.projectId = projectId → a.phase.isSettled = true

structure Chained (s : RefreshState) : Prop where
  chained : ∀ j run, s.runs[j]? = some run → ChainedTo s j run
  locked : ∀ projectId, Locked s projectId
  /-- A run starts once those of the earlier calls are settled. -/
  ordered : ∀ (i j : Nat) (a b : RefreshRun), i < j → s.runs[i]? = some a → s.runs[j]? = some b → a.projectId = b.projectId →
    b.phase ≠ .chained → a.phase.isSettled = true

section

variable {s t : RefreshState} {i j : Nat} {run : RefreshRun} {phase : RefreshPhase} {label : RefreshLabel}

theorem runs_setPhase {b : RefreshRun} : (s.setPhase i phase).runs[j]? = some b ↔
    ∃ a, s.runs[j]? = some a ∧ b = if i = j then { a with phase := phase } else a := by
  simp only [RefreshState.setPhase, List.getElem?_modify, Option.map_eq_map, Option.map_eq_some_iff]
  exact exists_congr fun a => and_congr_right fun _ => eq_comm

variable {projectId : ProjectId}

theorem runs_call : (s.call projectId).runs[j]? = some run ↔ s.runs[j]? = some run ∨
    j = s.runs.length ∧ run = ⟨projectId, s.refreshLocks.get? projectId, .chained⟩ := by
  simp only [RefreshState.call]
  rcases Nat.lt_trichotomy j s.runs.length with hj | rfl | hj
  · rw [List.getElem?_append_left hj]
    exact ⟨.inl, fun h => h.resolve_right fun h => absurd h.1 hj.ne⟩
  · simp [eq_comm]
  · rw [List.getElem?_eq_none (by simp; omega), List.getElem?_eq_none (by omega)]
    simp
    omega

theorem Chained.settled_before (hs : Chained s) (hrun : s.runs[j]? = some run) (hprevious : s.previousSettled run = true) :
    ∀ k a, k < j → s.runs[k]? = some a → a.projectId = run.projectId → a.phase.isSettled = true := by
  intro k a hk ha hproject
  have hchained := hs.chained j run hrun
  unfold ChainedTo at hchained
  unfold RefreshState.previousSettled at hprevious
  cases hp : run.previous with
  | none =>
    rw [hp] at hchained
    exact hchained k a hk ha hproject
  | some i =>
    rw [hp] at hchained hprevious
    obtain ⟨-, ⟨b, hb, hbp⟩, hbetween⟩ := hchained
    have hsettled : b.phase.isSettled = true := by simpa [hb] using hprevious
    rcases Nat.lt_trichotomy k i with hki | rfl | hik
    · refine hs.ordered k i a b hki ha hb (hproject.trans hbp.symm) fun h => ?_
      rw [h] at hsettled
      cases hsettled
    · cases hb.symm.trans ha
      exact hsettled
    · exact absurd hproject (hbetween k a hik hk ha)

theorem Chained.previousSettled_iff (hs : Chained s) (hrun : s.runs[j]? = some run) : s.previousSettled run = true ↔
    ∀ k a, k < j → s.runs[k]? = some a → a.projectId = run.projectId → a.phase.isSettled = true := by
  refine ⟨hs.settled_before hrun, fun h => ?_⟩
  have hchained := hs.chained j run hrun
  unfold ChainedTo at hchained
  unfold RefreshState.previousSettled
  cases hp : run.previous with
  | none => rfl
  | some i =>
    rw [hp] at hchained
    obtain ⟨hij, ⟨b, hb, hbp⟩, -⟩ := hchained
    simpa [hb] using h i b hij hb hbp

/-! ## What the steps keep -/

theorem Chained.empty : Chained .empty := by
  refine ⟨fun j run h => ?_, fun projectId => ?_, fun i j a b _ h => ?_⟩
  · simp [RefreshState.empty] at h
  · intro k a h
    simp [RefreshState.empty] at h
  · simp [RefreshState.empty] at h

theorem Chained.call (hs : Chained s) (projectId : ProjectId) : Chained (s.call projectId) := by
  have hbound : ∀ k a, s.runs[k]? = some a → k < s.runs.length := fun k a h => (List.getElem?_eq_some_iff.mp h).1
  refine ⟨fun j run hrun => ?_, fun other => ?_, fun i j a b hij ha hb hproject hphase => ?_⟩
  · rcases runs_call.mp hrun with hrun | ⟨rfl, rfl⟩
    · have hj := hbound j run hrun
      have hchained := hs.chained j run hrun
      unfold ChainedTo at *
      cases hp : run.previous with
      | none =>
        rw [hp] at hchained
        intro k a hk ha
        exact hchained k a hk ((runs_call.mp ha).resolve_right fun h => absurd h.1 (hk.trans hj).ne)
      | some i =>
        rw [hp] at hchained
        obtain ⟨hij, ⟨a, ha, hap⟩, hbetween⟩ := hchained
        refine ⟨hij, ⟨a, runs_call.mpr (.inl ha), hap⟩, fun k a hik hk ha => ?_⟩
        exact hbetween k a hik hk ((runs_call.mp ha).resolve_right fun h => absurd h.1 (hk.trans hj).ne)
    · have hlocked := hs.locked projectId
      unfold ChainedTo
      unfold Locked at hlocked
      cases hlock : s.refreshLocks.get? projectId with
      | none =>
        rw [hlock] at hlocked
        intro k a hk ha
        exact hlocked k a ((runs_call.mp ha).resolve_right fun h => absurd h.1 hk.ne)
      | some i =>
        rw [hlock] at hlocked
        obtain ⟨⟨a, ha, hap, -⟩, hlast⟩ := hlocked
        refine ⟨hbound i a ha, ⟨a, runs_call.mpr (.inl ha), hap⟩, fun k a hik hk ha => ?_⟩
        exact hlast k a hik ((runs_call.mp ha).resolve_right fun h => absurd h.1 hk.ne)
  · have hget : (s.call projectId).refreshLocks.get? other =
        if other = projectId then some s.runs.length else s.refreshLocks.get? other := Record.get?_set _ _ _ _
    unfold Locked
    rw [hget]
    by_cases hother : other = projectId
    · subst hother
      rw [if_pos rfl]
      refine ⟨⟨_, runs_call.mpr (.inr ⟨rfl, rfl⟩), rfl, rfl⟩, fun k a hk ha => ?_⟩
      rcases runs_call.mp ha with ha | ⟨rfl, -⟩
      · exact absurd (hbound k a ha) (by omega)
      · exact absurd hk (lt_irrefl _)
    · rw [if_neg hother]
      have hlocked := hs.locked other
      unfold Locked at hlocked
      cases hlock : s.refreshLocks.get? other with
      | none =>
        rw [hlock] at hlocked
        intro k a ha hap
        rcases runs_call.mp ha with ha | ⟨-, rfl⟩
        · exact hlocked k a ha hap
        · exact absurd hap.symm hother
      | some i =>
        rw [hlock] at hlocked
        obtain ⟨⟨a, ha, hap, hnot⟩, hlast⟩ := hlocked
        refine ⟨⟨a, runs_call.mpr (.inl ha), hap, hnot⟩, fun k a hik ha => ?_⟩
        rcases runs_call.mp ha with ha | ⟨-, rfl⟩
        · exact hlast k a hik ha
        · exact Ne.symm hother
  · rcases runs_call.mp hb with hb | ⟨-, rfl⟩
    · have ha := (runs_call.mp ha).resolve_right fun h => absurd h.1 (hij.trans (hbound j b hb)).ne
      exact hs.ordered i j a b hij ha hb hproject hphase
    · exact absurd rfl hphase

/-- A phase goes on: what is settled stays so, and a run starts once the one that it is chained to is settled. -/
theorem Chained.setPhase (hs : Chained s) (hrun : s.runs[i]? = some run)
    (hsettled : run.phase.isSettled = true → phase.isSettled = true)
    (hreturned : phase.isReturned = true → s.refreshLocks.get? run.projectId ≠ some i)
    (hstart : run.phase = .chained → s.previousSettled run = true) : Chained (s.setPhase i phase) := by
  have hkeep : ∀ k b, (s.setPhase i phase).runs[k]? = some b → ∃ a, s.runs[k]? = some a ∧
      b.projectId = a.projectId ∧ b.previous = a.previous ∧ (a.phase.isSettled = true → b.phase.isSettled = true) ∧
      (k ≠ i → b = a) := by
    intro k b hb
    obtain ⟨a, ha, rfl⟩ := runs_setPhase.mp hb
    refine ⟨a, ha, ?_⟩
    split_ifs with hki
    · subst hki
      cases hrun.symm.trans ha
      exact ⟨rfl, rfl, hsettled, fun h => absurd rfl h⟩
    · exact ⟨rfl, rfl, id, fun _ => rfl⟩
  have hexists : ∀ k a, s.runs[k]? = some a → ∃ b, (s.setPhase i phase).runs[k]? = some b ∧
      b.projectId = a.projectId ∧ (k ≠ i → b = a) ∧ (k = i → b.phase = phase) := by
    intro k a ha
    refine ⟨_, runs_setPhase.mpr ⟨a, ha, rfl⟩, ?_⟩
    split_ifs with hki
    · exact ⟨rfl, fun h => absurd hki.symm h, fun _ => rfl⟩
    · exact ⟨rfl, fun _ => rfl, fun h => absurd h.symm hki⟩
  refine ⟨fun j b hb => ?_, fun projectId => ?_, fun k j b c hkj hb hc hproject hphase => ?_⟩
  · obtain ⟨a, ha, hap, hprevious, -⟩ := hkeep j b hb
    have hchained := hs.chained j a ha
    unfold ChainedTo at *
    rw [hprevious, hap]
    cases hp : a.previous with
    | none =>
      rw [hp] at hchained
      intro k d hk hd hdp
      obtain ⟨e, he, hep, -, hes, -⟩ := hkeep k d hd
      exact hes (hchained k e hk he (hep.symm.trans hdp))
    | some l =>
      rw [hp] at hchained
      obtain ⟨hlj, ⟨d, hd, hdp⟩, hbetween⟩ := hchained
      obtain ⟨e, he, hep, -⟩ := hexists l d hd
      refine ⟨hlj, ⟨e, he, hep.trans hdp⟩, fun k d hlk hk hd => ?_⟩
      obtain ⟨e, he, hep, -⟩ := hkeep k d hd
      exact hep ▸ hbetween k e hlk hk he
  · have hlocked := hs.locked projectId
    unfold Locked at *
    have hlocks : (s.setPhase i phase).refreshLocks = s.refreshLocks := rfl
    rw [hlocks]
    cases hlock : s.refreshLocks.get? projectId with
    | none =>
      rw [hlock] at hlocked
      intro k d hd hdp
      obtain ⟨e, he, hep, -, hes, -⟩ := hkeep k d hd
      exact hes (hlocked k e he (hep.symm.trans hdp))
    | some l =>
      rw [hlock] at hlocked
      obtain ⟨⟨d, hd, hdp, hnot⟩, hlast⟩ := hlocked
      obtain ⟨e, he, hep, hother, hthis⟩ := hexists l d hd
      refine ⟨⟨e, he, hep.trans hdp, ?_⟩, fun k d hlk hd => ?_⟩
      · by_cases hli : l = i
        · subst hli
          cases hrun.symm.trans hd
          rw [hthis rfl, Bool.eq_false_iff]
          exact fun h => hreturned h (hdp ▸ hlock)
        · rw [hother hli]
          exact hnot
      · obtain ⟨e, he, hep, -⟩ := hkeep k d hd
        exact hep ▸ hlast k e hlk he
  · obtain ⟨d, hd, hdp, -, hds, -⟩ := hkeep k b hb
    obtain ⟨e, he, hep, -, -, hesame⟩ := hkeep j c hc
    refine hds ?_
    by_cases hji : j = i
    · subst hji
      cases hrun.symm.trans he
      by_cases hchained : run.phase = .chained
      · exact hs.settled_before hrun (hstart hchained) k d hkj hd ((hdp.symm.trans hproject).trans hep)
      · exact hs.ordered k j d run hkj hd hrun ((hdp.symm.trans hproject).trans hep) hchained
    · rw [hesame hji] at hphase
      exact hs.ordered k j d e hkj hd he ((hdp.symm.trans hproject).trans hep) hphase

theorem Chained.release (hs : Chained s) (hrun : s.runs[i]? = some run) (hsettled : run.phase.isSettled = true) :
    Chained (s.release i run.projectId) := by
  unfold RefreshState.release
  split_ifs with hlock
  · refine ⟨hs.chained, fun projectId => ?_, hs.ordered⟩
    have hlocked := hs.locked projectId
    unfold Locked at *
    rw [Record.get?_erase]
    by_cases hproject : projectId = run.projectId
    · subst hproject
      rw [hlock] at hlocked
      rw [if_pos rfl]
      intro k a ha hap
      rcases Nat.lt_trichotomy k i with hki | rfl | hik
      · refine hs.ordered k i a run hki ha hrun hap fun h => ?_
        rw [h] at hsettled
        cases hsettled
      · cases hrun.symm.trans ha
        exact hsettled
      · exact absurd hap (hlocked.2 k a hik ha)
    · rw [if_neg hproject]
      exact hlocked
  · exact hs

theorem get?_release (s : RefreshState) (i : Nat) (projectId : ProjectId) :
    (s.release i projectId).refreshLocks.get? projectId ≠ some i := by
  unfold RefreshState.release
  split_ifs with hlock
  · rw [Record.get?_erase, if_pos rfl]
    exact nofun
  · exact hlock

theorem runs_release (s : RefreshState) (i : Nat) (projectId : ProjectId) : (s.release i projectId).runs = s.runs := by
  unfold RefreshState.release
  split_ifs <;> rfl

theorem Chained.step (hs : Chained s) (h : refreshStep s label = some t) : Chained t := by
  cases label with
  | call projectId => exact Option.some.inj h ▸ hs.call projectId
  | refused => exact Option.some.inj h ▸ hs
  | start i =>
    obtain ⟨run, hrun, h⟩ := Option.bind_eq_some_iff.mp h
    obtain ⟨⟨hphase, hprevious⟩, rfl⟩ := Option.ite_none_right_eq_some.mp h |>.imp_right Option.some.inj
    exact hs.setPhase hrun (by simp [hphase, RefreshPhase.isSettled]) nofun fun _ => hprevious
  | settle i succeeded =>
    obtain ⟨run, hrun, h⟩ := Option.bind_eq_some_iff.mp h
    obtain ⟨hphase, rfl⟩ := Option.ite_none_right_eq_some.mp h |>.imp_right Option.some.inj
    exact hs.setPhase hrun (fun _ => rfl) nofun (by simp [hphase])
  | «return» i =>
    obtain ⟨run, hrun, h⟩ := Option.bind_eq_some_iff.mp h
    split at h
    · next succeeded hphase =>
      cases h
      have hsettled : run.phase.isSettled = true := by rw [hphase]; rfl
      refine (hs.release hrun hsettled).setPhase (runs_release s i _ ▸ hrun) (fun _ => rfl)
        (fun _ => get?_release s i _) (by simp [hphase])
    · cases h

theorem chained_of_run {labels : List RefreshLabel} (h : Run (Takes refreshStep) .empty labels s) : Chained s :=
  h.invariant (P := Chained) (fun _ _ _ hs hstep => hs.step hstep) .empty

/-! ## Projects apart -/

/-- What the service has of a project: its runs, in the order of the calls, and its run in the map. -/
def RefreshState.ofProject (s : RefreshState) (projectId : ProjectId) : List RefreshRun × Option Nat :=
  (s.runs.filter (·.projectId = projectId), s.refreshLocks.get? projectId)

theorem filter_setPhase (hrun : s.runs[i]? = some run) (hne : run.projectId ≠ projectId) :
    (s.setPhase i phase).runs.filter (·.projectId = projectId) = s.runs.filter (·.projectId = projectId) := by
  obtain ⟨hi, rfl⟩ := List.getElem?_eq_some_iff.mp hrun
  have hmodify := List.modify_eq_take_cons_drop (f := ({ · with phase := phase } : RefreshRun → RefreshRun)) hi
  conv_rhs => rw [← List.take_append_drop i s.runs, List.drop_eq_getElem_cons hi]
  simp only [RefreshState.setPhase, hmodify, List.filter_append, List.filter_cons, hne, decide_false, Bool.false_eq_true,
    if_false]

theorem ofProject_refreshStep (h : refreshStep s label = some t)
    (hother : label.project s ≠ some projectId) : t.ofProject projectId = s.ofProject projectId := by
  unfold RefreshState.ofProject
  cases label with
  | call own =>
    cases h
    have hne : own ≠ projectId := fun heq => hother (heq ▸ rfl)
    simp [RefreshState.call, Record.get?_set, hne, hne.symm]
  | refused =>
    cases h
    rfl
  | start | settle =>
    obtain ⟨run, hrun, h⟩ := Option.bind_eq_some_iff.mp h
    obtain ⟨-, rfl⟩ := Option.ite_none_right_eq_some.mp h |>.imp_right Option.some.inj
    rw [filter_setPhase hrun fun heq => hother (by simp [RefreshLabel.project, hrun, heq])]
    rfl
  | «return» i =>
    obtain ⟨run, hrun, h⟩ := Option.bind_eq_some_iff.mp h
    have hne : run.projectId ≠ projectId := fun heq => hother (by simp [RefreshLabel.project, hrun, heq])
    split at h
    · cases h
      rw [filter_setPhase (runs_release s i _ ▸ hrun) hne, runs_release]
      congr 1
      show (s.release i run.projectId).refreshLocks.get? projectId = _
      unfold RefreshState.release
      split_ifs
      · rw [Record.get?_erase, if_neg hne.symm]
      · rfl
    · cases h

/-! ## In every interleaving -/

/-- What holds of the refreshes of a project, whatever the interleaving. -/
structure Serialised (s : RefreshState) : Prop where
  alone : ∀ (i j : Nat) (a b : RefreshRun), s.runs[i]? = some a → s.runs[j]? = some b → a.projectId = b.projectId →
    a.phase = .running → b.phase = .running → i = j
  /-- Those of the earlier calls are over when one has started. -/
  inOrder : ∀ (i j : Nat) (a b : RefreshRun), i < j → s.runs[i]? = some a → s.runs[j]? = some b →
    a.projectId = b.projectId → b.phase ≠ .chained → a.phase.isSettled = true
  /-- One that has not started may do so as soon as they are, whether they succeeded or not. -/
  mayStart : ∀ (j : Nat) (b : RefreshRun), s.runs[j]? = some b → b.phase = .chained →
    ((refreshStep s (.start j)).isSome = true ↔ ∀ (i : Nat) (a : RefreshRun), i < j → s.runs[i]? = some a → a.projectId = b.projectId → a.phase.isSettled = true)
  apart : ∀ label t projectId, refreshStep s label = some t → label.project s ≠ some projectId →
    t.ofProject projectId = s.ofProject projectId
  /-- Once all calls have returned, the map is empty. -/
  emptied : (∀ run ∈ s.runs, run.phase.isReturned = true) → s.refreshLocks.entries = []

theorem Chained.serialised (hs : Chained s) : Serialised s where
  alone i j a b ha hb hproject hrunning hrunning' := by
    by_contra hne
    rcases Nat.lt_or_gt_of_ne hne with hij | hji
    · have hsettled := hs.ordered i j a b hij ha hb hproject (by rw [hrunning']; exact nofun)
      rw [hrunning] at hsettled
      cases hsettled
    · have hsettled := hs.ordered j i b a hji hb ha hproject.symm (by rw [hrunning]; exact nofun)
      rw [hrunning'] at hsettled
      cases hsettled
  inOrder := hs.ordered
  mayStart j b hb hphase := by
    rw [← hs.previousSettled_iff hb]
    simp [refreshStep, hb, hphase]
  apart _ _ _ := ofProject_refreshStep
  emptied hall := by
    by_contra hne
    obtain ⟨⟨projectId, i⟩, he⟩ := List.exists_mem_of_ne_nil _ hne
    have hlocked := hs.locked projectId
    unfold Locked at hlocked
    rw [Record.get?_eq_some.mpr he] at hlocked
    obtain ⟨⟨a, ha, -, hnot⟩, -⟩ := hlocked
    rw [hall a (List.mem_of_getElem? ha)] at hnot
    cases hnot

/-- **The refreshes of one project run one after the other, in the order of the calls, in every interleaving.** -/
theorem refreshes_serialised {labels : List RefreshLabel} (h : Run (Takes refreshStep) .empty labels s) :
    Serialised s :=
  (chained_of_run h).serialised

/-- Two refreshes of one project and one of another: the first fails, the second runs after it. -/
def overlappingRefreshes : List RefreshLabel :=
  [.call Access.acting, .call Access.acting, .call Access.other, .start 0, .start 2, .settle 0 false, .start 1,
    .return 0, .settle 1 true, .settle 2 true, .return 2, .return 1]

theorem overlappingRefreshes_serialised :
    ∃ s, Run (Takes refreshStep) .empty overlappingRefreshes s ∧ Serialised s ∧ s.refreshLocks.entries = [] := by
  obtain ⟨s, hrun, hreturned⟩ := exists_run_of_takes refreshStep overlappingRefreshes .empty
    (fun s => s.runs.all (·.phase.isReturned)) (by decide +kernel)
  have hserialised := refreshes_serialised hrun
  exact ⟨s, hrun, hserialised, hserialised.emptied (List.all_eq_true.mp hreturned)⟩

end

end NousCore.Knowledge
