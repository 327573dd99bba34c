import NousCore.Witness.Queued
import NousCore.Witness.Verification

/-!
# The service under concurrent calls

* `admitted` : what each task may do; `serviceRely`, `serviceGuar`, `servicePost` : its contract;
* `sound` : the contracts fit together.
-/

namespace NousCore.Witness

open Async

variable {H : Type}

def readEvents : Log (WitnessOp.Answer (H := H)) → List (WitnessEvent H)
  | ⟨.listEvents, events⟩ :: _ => events
  | _ => []

/-- The default head replaces no head of a ledger with events, the key of an epoch replaces no other key, and the
checkpoints are read while each of those that overlap the range ends in it. -/
def Opportune (request : WitnessVerificationRequest) (l : Log (WitnessOp.Answer (H := H))) (s : WitnessState H) :
    WitnessOp H → Prop
  | .putHead _ => s.Blank
  | .putKeyEpoch record => s.keyEpochs.get? record.keyEpoch = none
  | .listCheckpoints => CleanRange (request.first (readEvents l)) (request.last (readEvents l)) (readEvents l)
      s.listCheckpoints
  | _ => True

/-- The store accepts every `put`, and the operations of a verification are opportune. -/
def admitted : WitnessTask → Allowance (WitnessOp.Answer (H := H)) PutOutcome (WitnessState H)
  | .verify request _, l, o, x, s => x = .accepted ∧ Opportune request l s o
  | _, _, _, x, _ => x = .accepted

instance (request : WitnessVerificationRequest) (l : Log (WitnessOp.Answer (H := H))) (s : WitnessState H) :
    DecidablePred (Opportune request l s)
  | .putHead _ => inferInstanceAs (Decidable s.Blank)
  | .putKeyEpoch _ => inferInstanceAs (Decidable (_ = none))
  | .listCheckpoints => inferInstanceAs (Decidable (CleanRange _ _ _ _))
  | .getHead | .getEvent _ | .putEvent _ | .listEvents | .putCheckpoint _ | .latestCheckpoint | .getKeyEpoch _
  | .putReport _ | .nextId | .createKeyPair => inferInstanceAs (Decidable True)

instance (t : WitnessTask) (l : Log (WitnessOp.Answer (H := H))) (o : WitnessOp H) (x : PutOutcome)
    (s : WitnessState H) : Decidable (admitted t l o x s) :=
  match t with
  | .verify request _ => inferInstanceAs (Decidable (x = .accepted ∧ Opportune request l s o))
  | .appendAuthorization _ _ | .appendCompletion _ _ | .appendInvariant _ _ | .createCheckpoint _ _
  | .rotateKeyEpoch _ => inferInstanceAs (Decidable (x = .accepted))

theorem honest_admitted (t : WitnessTask) : Honest (admitted (H := H) t) := by
  intro l o x s h
  cases t with
  | verify request now => exact h.1
  | appendAuthorization | appendCompletion | appendInvariant | createCheckpoint | rotateKeyEpoch => exact h

/-! ## Contracts -/

variable (c : Primitives H) (idFactory : Nat → String)

/-- Queued calls rely on verifications, verifications on everything. -/
def serviceRely (t : WitnessTask) : WitnessState H → WitnessState H → Prop :=
  if queued t then Undisturbed c else Extended c idFactory

def serviceGuar (t : WitnessTask) : WitnessState H → WitnessState H → Prop :=
  if queued t then Extended c idFactory else Undisturbed c

def servicePost (t : WitnessTask) : Log (WitnessOp.Answer (H := H)) → Except WitnessError (WitnessResult H) →
    WitnessState H → Prop :=
  fun _ y s => if queued t then Idle c idFactory s else reportsChain y = false

variable {c idFactory}

theorem verifying_admitted (request : WitnessVerificationRequest) (now : Timestamp) :
    Verifying c (Intact c idFactory) ⟨admitted (.verify request now), Extended c idFactory, Undisturbed c⟩ where
  honest := honest_admitted (.verify request now)
  signed := fun _ h => h.signed
  inv := fun _ _ h => h.intact
  checkpoints := fun _ _ h => h.checkpoints.subset
  refl := .refl
  nextId := fun _ => ⟨⟨rfl, rfl, Nat.le_succ _, .inl rfl⟩, fun _ _ h => h, fun _ _ h => .inl h⟩
  createKeyPair := fun _ => ⟨⟨rfl, rfl, Nat.le_refl _, .inl rfl⟩, fun _ _ h => h, fun _ _ h => .inl h⟩
  putHead := fun _ _ now h => ⟨⟨rfl, rfl, Nat.le_refl _, .inr ⟨h.2, now, rfl⟩⟩, fun _ _ hr => hr, fun _ _ hr => .inl hr⟩
  putKeyEpoch := by
    intro l s r h hpair
    have hnone : s.keyEpochs.get? r.keyEpoch = none := h.2
    refine ⟨⟨rfl, rfl, Nat.le_refl _, .inl rfl⟩, fun e r' hr' => ?_, fun e r' hr' => ?_⟩
    · rw [Record.get?_set, if_neg]
      · exact hr'
      · rintro rfl
        rw [hnone] at hr'
        cases hr'
    · rw [Record.get?_set] at hr'
      split_ifs at hr' with he
      · exact .inr (Option.some.inj hr' ▸ hpair)
      · exact .inl hr'
  putReport := fun _ _ => ⟨⟨rfl, rfl, Nat.le_refl _, .inl rfl⟩, fun _ _ h => h, fun _ _ h => .inl h⟩

variable [DecidableEq H] {checkpointInterval : Nat}

theorem sound (hinj : Function.Injective idFactory) (hverifies : c.Verifies) :
    (service c checkpointInterval idFactory).Sound (fun _ => True) admitted (serviceRely c idFactory)
      (serviceGuar c idFactory) (servicePost c idFactory) (Intact c idFactory) (Idle c idFactory) where
  rely_refl := by
    intro t s
    unfold serviceRely
    split_ifs
    · exact .refl s
    · exact .refl s
  rely_trans := by
    intro t s s' s'' h h'
    unfold serviceRely at h h' ⊢
    split_ifs at h h' ⊢
    · exact h.trans h'
    · exact h.trans h'
  rely_inv := by
    intro t s s' hs h
    unfold serviceRely at h
    split_ifs at h
    · exact hs.undisturbed h
    · exact h.intact hs
  rely_idle := by
    intro t s s' (ht : queued t = true) hs h
    rw [serviceRely, if_pos ht] at h
    exact hs.undisturbed h
  guar_inv := by
    intro t s s' hs h
    unfold serviceGuar at h
    split_ifs at h
    · exact h.intact hs
    · exact hs.undisturbed h
  guar_idle := by
    intro t s s' (ht : queued t = false) hs h
    rw [serviceGuar, if_neg (Bool.eq_false_iff.mp ht)] at h
    exact hs.undisturbed h
  guar_rely := by
    intro t u s s' hs (hshared : queued t = false ∨ queued u = false) h
    unfold serviceGuar at h
    unfold serviceRely
    split_ifs at h ⊢ with hu ht
    · rw [ht, hu] at hshared
      simp at hshared
    · exact h
    · exact h
    · exact h.extended
  shared := by
    intro t s _ ht hs
    cases t with
    | verify request now =>
      refine meets_verify (verifying_admitted request now) hs fun s' l' t id report hextended hallow hreport => ?_
      have hs' := hextended.intact hs
      obtain ⟨-, hopportune⟩ := hallow
      have hclean : CleanRange (request.first s.listEvents) (request.last s.listEvents) s.listEvents
          s'.listCheckpoints := hopportune
      rw [hs.listEvents, hs'.listCheckpoints] at hclean hreport
      split_ifs
      · show report.chainFinding = false
        rw [hreport]
        exact (chainFinding_rangeReport hs' hextended.events _ _).mpr hclean
      · rfl
    | appendAuthorization | appendCompletion | appendInvariant | createCheckpoint | rotateKeyEpoch => cases ht
  alone := by
    intro t s _ (ht : queued t = true) hs hidle
    have hcontract : System.contract admitted (serviceRely c idFactory) (serviceGuar c idFactory) t =
        queuedContract c idFactory (admitted t) := by
      unfold System.contract queuedContract serviceRely serviceGuar
      rw [if_pos ht, if_pos ht]
    rw [hcontract]
    refine (meets_taskBody (honest_admitted t) hinj hverifies ht hidle []).mono fun l y s h => ?_
    unfold servicePost
    rw [if_pos ht]
    exact h
  post_idle := by
    intro t l y s (ht : queued t = true) h
    rw [servicePost, if_pos ht] at h
    exact h
  spawned := by simp [service]

/-! ## Linearity -/

/-- The events are numbered from 1 on and linked, the head is the last event and the last checkpoint unless a queued
call is in progress, and no verification has reported a `CHAIN` finding. -/
structure Linear (c : Primitives H) (checkpointInterval : Nat) (idFactory : Nat → String)
    (cfg : Config WitnessTask (WitnessOp.Answer (H := H)) (WitnessState H) WitnessError (WitnessResult H)) : Prop where
  numbered : Numbered (·.sequence) 1 cfg.state.listEvents
  linked : Chained (·.previousEventHash) (·.eventHash) none cfg.state.listEvents
  head : (∀ th ∈ cfg.threads, (service c checkpointInterval idFactory).holds th = false) →
    InSync cfg.state cfg.state.currentHead
  reports : ∀ th ∈ cfg.threads, queued th.task = false → ∀ y, th.program.outcome = some y → reportsChain y = false

/-- **Linearity.** In every interleaving of calls on an honest store in which each verification stores its default head
only while no event is recorded in the stored head, stores a key only for an epoch that has none, and reads the
checkpoints while those that overlap its range end in it, the ledger stays linear. -/
theorem linear_of_run (hinj : Function.Injective idFactory) (hverifies : c.Verifies) {s : WitnessState H}
    (hidle : Idle c idFactory s) {ls : List (Label WitnessTask PutOutcome)}
    {cfg : Config WitnessTask (WitnessOp.Answer (H := H)) (WitnessState H) WitnessError (WitnessResult H)}
    (hrun : Run (Guarded (service c checkpointInterval idFactory).Step (System.Allows (fun _ => True) admitted))
      (System.start s) ls cfg) : Linear c checkpointInterval idFactory cfg := by
  have hsound : (service c checkpointInterval idFactory).Sound _ _ _ _ _ _ _ := sound hinj hverifies
  have hkept := hsound.kept_of_run hidle.intact hidle hrun
  refine ⟨?_, ?_, fun hnone => (hkept.idle hnone).inSync, fun th hth ht y hy => ?_⟩
  · rw [hkept.inv.listEvents]
    exact hkept.inv.numbered
  · rw [hkept.inv.listEvents]
    exact hkept.inv.linked.1
  · obtain ⟨i, hi⟩ := List.mem_iff_getElem?.mp hth
    have hmeets := hkept.keeps i th hi (System.blocked_false_of_shared ht) (.inl ht) cfg.state
      (hsound.rely_refl _ _)
    obtain ⟨y', hy', hpost⟩ := System.meets_of_outcome hmeets (by rw [hy]; simp)
    rw [hy] at hy'
    cases hy'
    rwa [servicePost, if_neg (by rw [ht]; exact Bool.false_ne_true)] at hpost

/-! ## A verification and an append -/

def verifyAndAppend (turns : List Nat) : List (Label WitnessTask PutOutcome) :=
  .begin (.verify ⟨none, none⟩ "now") ::
    .begin (.appendAuthorization ⟨.toolExecute, "tool", none, none, .core, .approved, .empty, none⟩ "now") ::
    turns.map fun i => .turn i .accepted

/-- The append begins while the verification has read the empty ledger, and goes on when the report is stored. -/
theorem verifyAndAppend_linear :
    ∃ cfg, Run (Guarded (service symbolic 25 unaryId).Step (System.Allows (fun _ => True) admitted))
        (System.start .empty) (verifyAndAppend [0, 0, 1, 0, 0, 0, 0, 0, 0, 0, 0, 1, 1, 1, 1]) cfg ∧
      Linear symbolic 25 unaryId cfg := by
  obtain ⟨cfg, hrun, -⟩ := (service symbolic 25 unaryId).exists_run_of_check (fun _ => True) admitted
    (verifyAndAppend [0, 0, 1, 0, 0, 0, 0, 0, 0, 0, 0, 1, 1, 1, 1]) .empty
    (fun cfg => cfg.threads.all fun th => th.program.outcome.isSome) (by decide +kernel)
  exact ⟨cfg, hrun, linear_of_run unaryId_injective symbolic_verifies idle_empty hrun⟩

/-- The verification has found no head; the append stores its head and an event, and the default head of the
verification replaces that head. -/
theorem verifyAndAppend_not_linear :
    ∃ cfg, Run (Guarded (service symbolic 25 unaryId).Step
        (System.Allows (fun _ => True) fun _ _ _ x _ => x = .accepted)) (System.start .empty)
        (verifyAndAppend [0, 0, 0, 0, 1, 1, 1, 1, 1, 0]) cfg ∧ ¬Linear symbolic 25 unaryId cfg := by
  obtain ⟨cfg, hrun, hcheck⟩ := (service symbolic 25 unaryId).exists_run_of_check (fun _ => True)
    (fun _ _ _ x _ => x = .accepted) (verifyAndAppend [0, 0, 0, 0, 1, 1, 1, 1, 1, 0]) .empty
    (fun cfg => (cfg.threads.all fun th => !(service symbolic 25 unaryId).holds th) &&
      decide (cfg.state.currentHead.lastSequence ≠ cfg.state.events.values.length)) (by decide +kernel)
  obtain ⟨hnone, hhead⟩ := (Bool.and_eq_true _ _).mp hcheck
  refine ⟨cfg, hrun, fun h => of_decide_eq_true hhead (h.head fun th hth => ?_).lastSequence⟩
  simpa using List.all_eq_true.mp hnone th hth

end NousCore.Witness
