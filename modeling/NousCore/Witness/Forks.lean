import NousCore.Witness.Failures

/-!
# A ledger that does not fork

* `rejecting_sound` : the contracts of the calls under such a store fit together;
* `SingleChain`, `singleChain_of_run` : the stored events are a single chain in every interleaving.
-/

namespace NousCore.Witness

open Async

variable {H : Type}

/-- The stored events have different sequence numbers, and each names the hash of the stored event with the preceding
number, the first one no hash. -/
structure SingleChain (s : WitnessState H) : Prop where
  distinct : s.events.values.Pairwise fun a b => a.sequence ≠ b.sequence
  first : ∀ e ∈ s.events.values, e.sequence = 1 → e.previousEventHash = none
  next : ∀ e ∈ s.events.values, e.sequence ≠ 1 →
    ∃ d ∈ s.events.values, e.sequence = d.sequence + 1 ∧ e.previousEventHash = some d.eventHash

theorem Threaded.singleChain {idFactory : Nat → String} {s : WitnessState H} (h : Threaded idFactory s) :
    SingleChain s := by
  have hget : ∀ e ∈ s.events.values, s.events.values[e.sequence - 1]? = some e := fun e he =>
    (h.numbered.getElem?_eq (h.numbered.bounds he).1 he).mp rfl
  refine ⟨?_, fun e he hone => ?_, fun e he hne => ?_⟩
  · rw [List.pairwise_iff_getElem]
    intro i j hi hj hij heq
    rw [numbered_iff.mp h.numbered i _ (List.getElem?_eq_getElem hi),
      numbered_iff.mp h.numbered j _ (List.getElem?_eq_getElem hj)] at heq
    omega
  · have hzero := hget e he
    rw [hone] at hzero
    exact h.linked.back_zero hzero
  · have hpos := (h.numbered.bounds he).1
    have hlast := hget e he
    have hlt := (List.getElem?_eq_some_iff.mp hlast).1
    rw [show e.sequence - 1 = e.sequence - 2 + 1 by omega] at hlast
    have hbefore := List.getElem?_eq_getElem (show e.sequence - 2 < s.events.values.length by omega)
    refine ⟨_, List.mem_of_getElem? hbefore, ?_, h.linked.back_succ hbefore hlast⟩
    rw [numbered_iff.mp h.numbered _ _ hbefore]
    omega

/-! ## Contracts -/

/-- The store does not reject the head of an event that it has accepted, and no verification replaces a head in which
an event is recorded. -/
def spared (t : WitnessTask) (l : Log (WitnessOp.Answer (H := H))) (o : WitnessOp H) (x : PutOutcome)
    (s : WitnessState H) : Prop :=
  match o with
  | .putHead _ => if queued t then eventStored l = true → x = .accepted else s.Blank
  | _ => True

instance (t : WitnessTask) (l : Log (WitnessOp.Answer (H := H))) (o : WitnessOp H) (x : PutOutcome)
    (s : WitnessState H) : Decidable (spared t l o x s) :=
  match o with
  | .putHead _ => inferInstanceAs (Decidable (if queued t then eventStored l = true → x = .accepted else s.Blank))
  | .getHead | .getEvent _ | .putEvent _ | .listEvents | .putCheckpoint _ | .listCheckpoints | .latestCheckpoint
  | .getKeyEpoch _ | .putKeyEpoch _ | .putReport _ | .nextId | .createKeyPair => inferInstanceAs (Decidable True)

theorem headFollows_spared {t : WitnessTask} (ht : queued t = true) : HeadFollows (spared (H := H) t) := by
  intro l head x s h
  unfold spared at h
  rwa [if_pos ht] at h

section Sound

variable (idFactory : Nat → String)

/-- Queued calls keep the events one chain, and rely on verifications to leave them alone. -/
def rejectingRely (t : WitnessTask) : WitnessState H → WitnessState H → Prop :=
  if queued t then Steady else fun s s' => Threaded idFactory s → Threaded idFactory s'

def rejectingGuar (t : WitnessTask) : WitnessState H → WitnessState H → Prop :=
  if queued t then fun s s' => Threaded idFactory s → Threaded idFactory s' else Steady

def rejectingPost (t : WitnessTask) : Log (WitnessOp.Answer (H := H)) → Except WitnessError (WitnessResult H) →
    WitnessState H → Prop :=
  fun _ _ s => queued t = true → Ready idFactory s

variable {idFactory} [DecidableEq H] {c : Primitives H} {checkpointInterval : Nat}

theorem rejecting_sound (hinj : Function.Injective idFactory) :
    (service c checkpointInterval idFactory).Sound (fun _ => True) spared (rejectingRely idFactory)
      (rejectingGuar idFactory) (rejectingPost idFactory) (Threaded idFactory) (Ready idFactory) where
  rely_refl := by
    intro t s
    unfold rejectingRely
    split_ifs
    · exact .refl s
    · exact id
  rely_trans := by
    intro t s s' s'' h h'
    unfold rejectingRely at h h' ⊢
    split_ifs at h h' ⊢
    · exact h.trans h'
    · exact h' ∘ h
  rely_inv := by
    intro t s s' hs h
    unfold rejectingRely at h
    split_ifs at h
    · exact hs.congr h.events h.issued
    · exact h hs
  rely_idle := by
    intro t s s' (ht : queued t = true) hs h
    rw [rejectingRely, if_pos ht] at h
    exact hs.steady h
  guar_inv := by
    intro t s s' hs h
    unfold rejectingGuar at h
    split_ifs at h
    · exact h hs
    · exact hs.congr h.events h.issued
  guar_idle := by
    intro t s s' (ht : queued t = false) hs h
    rw [rejectingGuar, if_neg (Bool.eq_false_iff.mp ht)] at h
    exact hs.steady h
  guar_rely := by
    intro t u s s' hs (hshared : queued t = false ∨ queued u = false) h
    unfold rejectingGuar at h
    unfold rejectingRely
    split_ifs at h ⊢ with hu ht
    · rw [ht, hu] at hshared
      simp at hshared
    · exact h
    · exact h
    · exact fun hs => hs.congr h.events h.issued
  shared := by
    intro t s _ ht _
    cases t with
    | verify request now =>
      have hp : (taskBody c checkpointInterval (.verify request now)).Every Reporting :=
        every_bind (every_verify c) fun _ => trivial
      refine (meets_reporting (fun _ _ _ _ h => h) hp [] s).mono fun _ _ _ _ hq => ?_
      cases hq
    | appendAuthorization | appendCompletion | appendInvariant | createCheckpoint | rotateKeyEpoch => cases ht
  alone := by
    intro t s _ (ht : queued t = true) _ hs
    have hcontract : System.contract spared (rejectingRely idFactory) (rejectingGuar idFactory) t =
        rejectingContract (H := H) idFactory (spared t) := by
      unfold System.contract rejectingContract rejectingRely rejectingGuar
      rw [if_pos ht, if_pos ht]
    rw [hcontract]
    exact (meets_queuedTask hinj (headFollows_spared ht) ht hs []).mono fun _ _ _ h _ => h
  post_idle := fun t _ _ _ ht h => h ht
  spawned := by simp [service]

/-- **No fork.** In every interleaving in which the store does not reject the head of an event that it has accepted,
and no verification replaces a head in which an event is recorded, the stored events are a single chain. -/
theorem singleChain_of_run (hinj : Function.Injective idFactory) {s : WitnessState H} (hready : Ready idFactory s)
    {ls : List (Label WitnessTask PutOutcome)}
    {cfg : Config WitnessTask (WitnessOp.Answer (H := H)) (WitnessState H) WitnessError (WitnessResult H)}
    (hrun : Run (Guarded (service c checkpointInterval idFactory).Step (System.Allows (fun _ => True) spared))
      (System.start s) ls cfg) : SingleChain cfg.state :=
  ((rejecting_sound hinj).kept_of_run hready.threaded hready hrun).inv.singleChain

end Sound

theorem ready_empty {idFactory : Nat → String} : Ready idFactory (.empty : WitnessState H) :=
  ⟨⟨trivial, trivial, by simp [WitnessState.empty, Record.empty, Record.keys]⟩, rfl, rfl⟩

/-! ## Two appends -/

/-- Two appends, one after the other, with what the store does with each of their operations. -/
def appendTwice (first second : List PutOutcome) : List (Label WitnessTask PutOutcome) :=
  let append : WitnessTask :=
    .appendAuthorization ⟨.toolExecute, "tool", none, none, .core, .approved, .empty, none⟩ "now"
  .begin append :: first.map (.turn 0) ++ .begin append :: second.map (.turn 1)

/-- The store rejects the first event, and accepts the second one. -/
theorem appendTwice_singleChain :
    ∃ cfg, Run (Guarded (service symbolic 25 unaryId).Step (System.Allows (fun _ => True) spared)) (System.start .empty)
        (appendTwice [.accepted, .accepted, .accepted, .rejected] [.accepted, .accepted, .accepted, .accepted]) cfg ∧
      SingleChain cfg.state := by
  obtain ⟨cfg, hrun, -⟩ := (service symbolic 25 unaryId).exists_run_of_check (fun _ => True) spared
    (appendTwice [.accepted, .accepted, .accepted, .rejected] [.accepted, .accepted, .accepted, .accepted]) .empty
    (fun cfg => decide (cfg.state.events.values.length = 1)) (by decide +kernel)
  exact ⟨cfg, hrun, singleChain_of_run unaryId_injective ready_empty hrun⟩

/-- The store accepts the first event and rejects its head: the second event gets the same number. -/
theorem appendTwice_not_singleChain :
    ∃ cfg, Run (service symbolic 25 unaryId).Step (System.start .empty)
        (appendTwice [.accepted, .accepted, .accepted, .accepted, .rejected] [.accepted, .accepted, .accepted, .accepted])
        cfg ∧ ¬SingleChain cfg.state := by
  obtain ⟨cfg, hrun, hcheck⟩ := (service symbolic 25 unaryId).exists_run_of_check (fun _ => True) (fun _ _ _ _ _ => True)
    (appendTwice [.accepted, .accepted, .accepted, .accepted, .rejected] [.accepted, .accepted, .accepted, .accepted])
    .empty (fun cfg => decide ¬cfg.state.events.values.Pairwise fun (a b : WitnessEvent Digest) =>
      a.sequence ≠ b.sequence) (by decide +kernel)
  exact ⟨cfg, hrun.forget_guard, fun h => of_decide_eq_true hcheck h.distinct⟩

end NousCore.Witness
