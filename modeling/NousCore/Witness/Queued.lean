import NousCore.Witness.Honest

/-!
# The queued calls on an honest store

Each call that `runExclusive` queues, in any company of verifications: it starts from an idle ledger, only adds
events and checkpoints, and leaves an idle ledger. One rule for each function of the service, in continuation style:
what holds when the function returns is what the rest of the call may start from.

* `idle_of_run` : on an honest store queued calls leave the ledger idle.

Runs are evaluated on a symbolic instance, with hashes as terms: what is hashed can be read off the hash. Records
without a predecessor are hashed apart from those with one, so that a hash contains one hash for each link of the chain.
-/

namespace NousCore.Witness

open Async

section

variable {H α : Type} {c : Primitives H} {idFactory : Nat → String}
  {allowed : Allowance (WitnessOp.Answer (H := H)) PutOutcome (WitnessState H)}

/-- A queued call relies on what verifications do, and guarantees that it only adds to the ledger. -/
def queuedContract (c : Primitives H) (idFactory : Nat → String)
    (allowed : Allowance (WitnessOp.Answer (H := H)) PutOutcome (WitnessState H)) :
    Contract (WitnessOp.Answer (H := H)) PutOutcome (WitnessState H) :=
  ⟨allowed, Undisturbed c, Extended c idFactory⟩

variable {post : Log (WitnessOp.Answer (H := H)) → Except WitnessError α → WitnessState H → Prop} {s : WitnessState H}

theorem idle_putHead {head : LedgerHead H} (h : Intact c idFactory s) (hsync : InSync s head) :
    Idle c idFactory { s with head := some head } :=
  ⟨{ h with }, ⟨hsync.1, hsync.2, hsync.3, hsync.4⟩⟩

theorem Intact.putKeyEpoch (h : Intact c idFactory s) {r : KeyEpochRecord} (hpair : ∃ n, r.toKeyPair = c.keyPair n)
    (hfree : ∀ k ∈ s.checkpoints.values, k.keyEpoch ≠ r.keyEpoch) :
    Intact c idFactory { s with keyEpochs := s.keyEpochs.set r.keyEpoch r } := by
  refine { h with signed := fun k hk => ?_, keyPairs := fun e r' hr' => ?_ }
  · obtain ⟨r', hr', hvalid⟩ := h.signed k hk
    exact ⟨r', by rw [Record.get?_set, if_neg (hfree k hk), hr'], hvalid⟩
  · rw [Record.get?_set] at hr'
    split_ifs at hr' with he
    · exact Option.some.inj hr' ▸ hpair
    · exact h.keyPairs e r' hr'

section Rules

variable (hhonest : Honest allowed)
include hhonest

theorem meets_call {o : WitnessOp H} {next : o.Answer → WitnessCall H α} {r : o.Answer} {s' : WitnessState H}
    (hanswers : answers c idFactory o .accepted s = some (r, s')) (hguar : Extended c idFactory s s')
    (hnext : ∀ l s'', Undisturbed c s' s'' →
      (next r).Meets (answers c idFactory) (queuedContract c idFactory allowed) post l s'') :
    ∀ l, (Async.call o next).Meets (answers c idFactory) (queuedContract c idFactory allowed) post l s := fun _ =>
  meets_answered hhonest hanswers (fun _ => hguar) fun _ s'' hs'' => hnext _ s'' hs''

variable {head : LedgerHead H}

theorem meets_putHead {f : Unit → WitnessCall H α}
    (hnext : ∀ l s', Undisturbed c { s with head := some head } s' →
      (f ()).Meets (answers c idFactory) (queuedContract c idFactory allowed) post l s') :
    ∀ l, (putHead head >>= f).Meets (answers c idFactory) (queuedContract c idFactory allowed) post l s :=
  meets_call hhonest (o := .putHead head) rfl
    ⟨List.prefix_refl _, List.prefix_refl _, fun h => { h with }⟩ hnext

variable {now : Timestamp}

theorem meets_getLedgerHead {f : LedgerHead H → WitnessCall H α} (h : Idle c idFactory s)
    (hf : ∀ l s' head, Idle c idFactory s' → InSync s' head →
      (f head).Meets (answers c idFactory) (queuedContract c idFactory allowed) post l s') :
    ∀ l, (getLedgerHead now >>= f).Meets (answers c idFactory) (queuedContract c idFactory allowed) post l s := by
  refine meets_call hhonest (o := .getHead) rfl (.refl s) fun l s' hs' => ?_
  have h' := h.undisturbed hs'
  have hsync := h.inSync
  unfold WitnessState.currentHead at hsync
  cases hhead : s.head with
  | some head =>
    rw [hhead] at hsync
    exact hf l s' head h' (hsync.steady hs'.toSteady)
  | none =>
    rw [hhead] at hsync
    show Meets _ _ _ (putHead (LedgerHead.initial now) >>= (fun _ => pure (LedgerHead.initial now)) >>= f) l s'
    rw [bind_assoc']
    refine meets_putHead hhonest (fun l s'' hs'' => ?_) l
    have hinitial : InSync s (LedgerHead.initial now) := ⟨hsync.1, hsync.2, hsync.3, hsync.4⟩
    have hinitial' := hinitial.steady hs'.toSteady
    have hidle : Idle c idFactory { s' with head := some (LedgerHead.initial now) } :=
      ⟨{ h'.intact with }, ⟨hinitial'.1, hinitial'.2, hinitial'.3, hinitial'.4⟩⟩
    exact hf l s'' _ (hidle.undisturbed hs'') (hidle.inSync.steady hs''.toSteady)

theorem meets_nextId {f : String → WitnessCall H α} (hinj : Function.Injective idFactory)
    (h : Idle c idFactory s)
    (hf : ∀ l s' id, Steady s s' → Idle c idFactory s' → Unused idFactory s' id →
      (∀ e r, s.keyEpochs.get? e = some r → s'.keyEpochs.get? e = some r) →
      (f id).Meets (answers c idFactory) (queuedContract c idFactory allowed) post l s') :
    ∀ l, (nextId >>= f).Meets (answers c idFactory) (queuedContract c idFactory allowed) post l s := by
  have hdrawn : Undisturbed c s { s with issued := s.issued + 1 } :=
    ⟨⟨rfl, rfl, Nat.le_succ _, .inl rfl⟩, fun _ _ hr => hr, fun _ _ hr => .inl hr⟩
  refine meets_call hhonest (o := .nextId) rfl hdrawn.extended fun l s' hs' => ?_
  have hall := hdrawn.trans hs'
  exact hf l s' _ hall.toSteady (h.undisturbed hall) ((h.intact.unused hinj).steady hs'.toSteady) hall.keys

theorem meets_appendLedgerEvent {input : AppendLedgerEventInput}
    {f : WitnessEvent H × LedgerHead H → WitnessCall H α} (h : Intact c idFactory s) (hsync : InSync s head)
    (hunused : Unused idFactory s input.eventId)
    (hf : ∀ l s' nextHead, Idle c idFactory s' → InSync s' nextHead →
      (f (input.event c head now, nextHead)).Meets (answers c idFactory) (queuedContract c idFactory allowed) post l s') :
    ∀ l, (appendLedgerEvent c head input now >>= f).Meets (answers c idFactory)
      (queuedContract c idFactory allowed) post l s := by
  obtain ⟨hintact, hsync'⟩ := h.append input now hsync hunused
  have hvalues := Record.values_set_of_not_mem (input.event c head now) hunused.event
  unfold appendLedgerEvent saveLedgerHead
  simp only [bind_assoc']
  refine meets_call hhonest (o := .putEvent (input.event c head now)) rfl
    ⟨hvalues ▸ List.prefix_append _ _, List.prefix_refl _, fun _ => hintact⟩ fun l s' hs' => ?_
  refine meets_putHead hhonest (fun l s'' hs'' => ?_) l
  have hidle := idle_putHead (hintact.undisturbed hs') (hsync'.steady hs'.toSteady)
  have hlast : InSync s'' (head.afterEvent (input.event c head now) now) :=
    hidle.inSync.steady hs''.toSteady
  exact hf l s'' _ (hidle.undisturbed hs'') hlast

theorem meets_ensureKeyEpoch {keyEpoch : Nat} {f : KeyEpochRecord → WitnessCall H α}
    (h : Idle c idFactory s)
    (hf : ∀ l s' r, Steady s s' → Idle c idFactory s' → s'.keyEpochs.get? keyEpoch = some r →
      (∃ n, r.toKeyPair = c.keyPair n) →
      (f r).Meets (answers c idFactory) (queuedContract c idFactory allowed) post l s') :
    ∀ l, (ensureKeyEpoch keyEpoch now >>= f).Meets (answers c idFactory)
      (queuedContract c idFactory allowed) post l s := by
  refine meets_call hhonest (o := .getKeyEpoch keyEpoch) rfl (.refl s) fun l s₁ hs₁ => ?_
  cases hget : s.keyEpochs.get? keyEpoch with
  | some r =>
    exact hf l s₁ r hs₁.toSteady (h.undisturbed hs₁) (hs₁.keys _ _ hget) (h.intact.keyPairs _ _ hget)
  | none =>
    have hdrawn : Undisturbed c s₁ { s₁ with drawn := s₁.drawn + 1 } :=
      ⟨⟨rfl, rfl, Nat.le_refl _, .inl rfl⟩, fun _ _ hr => hr, fun _ _ hr => .inl hr⟩
    refine meets_call hhonest (o := .createKeyPair) rfl hdrawn.extended (fun l s₂ hs₂ => ?_) l
    have hbefore := hs₁.trans (hdrawn.trans hs₂)
    set record : KeyEpochRecord :=
      { c.keyPair s₁.drawn with keyEpoch := keyEpoch, createdAt := now, activatedAt := now }
    have hpair : ∃ n, record.toKeyPair = c.keyPair n := ⟨s₁.drawn, rfl⟩
    have hfree : ∀ k ∈ s₂.checkpoints.values, k.keyEpoch ≠ record.keyEpoch := by
      rw [hbefore.checkpoints]
      intro k hk he
      obtain ⟨r, hr, -⟩ := h.intact.signed k hk
      rw [he, show record.keyEpoch = keyEpoch from rfl, hget] at hr
      cases hr
    have hintact := (h.intact.undisturbed hbefore).putKeyEpoch hpair hfree
    have hput : Steady s₂ { s₂ with keyEpochs := s₂.keyEpochs.set record.keyEpoch record } :=
      ⟨rfl, rfl, Nat.le_refl _, .inl rfl⟩
    refine meets_call hhonest (o := .putKeyEpoch record) rfl (hput.extended fun _ => hintact) (fun l s₃ hs₃ => ?_) l
    have hidle := (h.undisturbed hbefore).steady hput hintact
    refine hf l s₃ record (hbefore.toSteady.trans (hput.trans hs₃.toSteady)) (hidle.undisturbed hs₃) ?_ hpair
    exact hs₃.keys _ _ (by rw [Record.get?_set, if_pos rfl])

theorem meets_createCheckpointInternal {reason : WitnessCheckpointReason}
    {f : WitnessCheckpoint H → WitnessCall H α} (hinj : Function.Injective idFactory) (hverifies : c.Verifies)
    (h : Idle c idFactory s) (hsync : InSync s head) (hthrow : ∀ l e, post l (.error e) s)
    (hf : ∀ l s' k, Idle c idFactory s' →
      (f k).Meets (answers c idFactory) (queuedContract c idFactory allowed) post l s') :
    ∀ l, (createCheckpointInternal c reason head now >>= f).Meets (answers c idFactory)
      (queuedContract c idFactory allowed) post l s := by
  unfold createCheckpointInternal
  split
  · exact fun l => hthrow l _
  · exact fun l => hthrow l _
  rename_i headHash n hhash hlast
  simp only [bind_assoc']
  refine meets_call hhonest (o := .latestCheckpoint) rfl (.refl s) fun l s₁ hs₁ => ?_
  rw [h.intact.listCheckpoints]
  refine meets_ensureKeyEpoch hhonest (h.undisturbed hs₁) (fun l s₂ keyRecord hs₂ hidle₂ hkey hpair => ?_) l
  have hsteady₂ := hs₁.toSteady.trans hs₂
  refine meets_nextId hhonest hinj hidle₂ (fun l s₃ id hs₃ hidle₃ hunused hkeys => ?_) l
  have hsteady₃ := hsteady₂.trans hs₃
  set body := checkpointBody reason head headHash s.checkpoints.values.getLast?
  set k : WitnessCheckpoint H :=
    { body with
      id := id
      checkpointHash := buildCheckpointHash c body
      signature := c.signDigest (buildCheckpointHash c body) keyRecord.privateKeyPem
      createdAt := now }
  have hsigned : k.Signed c s₃ := by
    obtain ⟨n, hn⟩ := hpair
    refine ⟨keyRecord, hkeys _ _ hkey, ?_⟩
    show c.verifyDigestSignature k.checkpointHash (c.signDigest k.checkpointHash keyRecord.privateKeyPem) _ = true
    rw [hn]
    exact hverifies n _
  obtain ⟨hintact, hsync'⟩ := hidle₃.intact.checkpoint now (hsync.steady hsteady₃) hhash
    (k := k) (show k.toCheckpointBody = checkpointBody reason _ _ _ by rw [hsteady₃.checkpoints]) rfl hunused hsigned
  have hvalues := Record.values_set_of_not_mem k hunused.checkpoint
  unfold saveCheckpoint saveLedgerHead
  rw [bind_assoc']
  refine meets_call hhonest (o := .putCheckpoint k) rfl
    ⟨List.prefix_refl _, hvalues ▸ List.prefix_append _ _, fun _ => hintact⟩ (fun l s₄ hs₄ => ?_) l
  refine meets_putHead hhonest (fun l s₅ hs₅ => ?_) l
  exact hf l s₅ k ((idle_putHead (hintact.undisturbed hs₄) (hsync'.steady hs₄.toSteady)).undisturbed hs₅)

theorem meets_appendEvent {checkpointInterval : Nat} {payload : EventPayload Detail}
    {f : WitnessEvent H → WitnessCall H α} (hinj : Function.Injective idFactory)
    (hverifies : c.Verifies) (h : Idle c idFactory s) (hsync : InSync s head)
    (hthrow : ∀ l s e, Idle c idFactory s → post l (.error e) s)
    (hf : ∀ l s' e, Idle c idFactory s' →
      (f e).Meets (answers c idFactory) (queuedContract c idFactory allowed) post l s') :
    ∀ l, (appendEvent c checkpointInterval head payload now >>= f).Meets (answers c idFactory)
      (queuedContract c idFactory allowed) post l s := by
  unfold appendEvent
  simp only [bind_assoc']
  refine meets_nextId hhonest hinj h fun l s₁ id hs₁ hidle₁ hunused _ => ?_
  refine meets_appendLedgerEvent hhonest hidle₁.intact (hsync.steady hs₁) hunused (fun l s₂ nextHead hidle₂ hsync₂ => ?_) l
  unfold maybeIntervalCheckpoint
  split_ifs
  · exact hf l s₂ _ hidle₂
  · exact hf l s₂ _ hidle₂
  · simp only [bind_assoc']
    exact meets_createCheckpointInternal hhonest hinj hverifies hidle₂ hsync₂ (fun l e => hthrow l s₂ e hidle₂)
      (fun l s₃ _ hidle₃ => hf l s₃ _ hidle₃) l

/-- What a queued call leaves, whether it returns or throws. -/
def leavesIdle (c : Primitives H) (idFactory : Nat → String) :
    Log (WitnessOp.Answer (H := H)) → Except WitnessError α → WitnessState H → Prop :=
  fun _ _ s => Idle c idFactory s

variable [DecidableEq H]

/-- **Queued calls.** On an honest store, and in any company of verifications, a queued call that starts from an idle
ledger only adds events and checkpoints to it, and leaves it idle. -/
theorem meets_taskBody {checkpointInterval : Nat} {t : WitnessTask} (hinj : Function.Injective idFactory)
    (hverifies : c.Verifies) (ht : queued t = true) (h : Idle c idFactory s) :
    ∀ l, (taskBody c checkpointInterval t).Meets (answers c idFactory) (queuedContract c idFactory allowed)
      (leavesIdle c idFactory) l s := by
  have happend : ∀ (head : LedgerHead H) (payload : EventPayload Detail) (now : Timestamp) (s : WitnessState H),
      Idle c idFactory s → InSync s head → ∀ l,
      (appendEvent c checkpointInterval head payload now >>= fun e => pure (WitnessResult.event e)).Meets
        (answers c idFactory) (queuedContract c idFactory allowed) (leavesIdle c idFactory) l s :=
    fun head payload now s h hsync => meets_appendEvent hhonest hinj hverifies h hsync (fun _ _ _ h => h)
      fun _ _ _ h => h
  cases t with
  | verify request now => cases ht
  | appendAuthorization input now =>
    simp only [taskBody, map_eq_bind, appendAuthorization, bind_assoc']
    exact meets_getLedgerHead hhonest h fun l s' head h' hsync => happend head _ now s' h' hsync l
  | appendCompletion input now =>
    simp only [taskBody, map_eq_bind, appendCompletion, bind_assoc']
    refine meets_call hhonest (o := .getEvent input.authorizationRef) rfl (.refl s) fun l s' hs' => ?_
    cases s.events.get? input.authorizationRef with
    | none => exact h.undisturbed hs'
    | some _ =>
      show Meets _ _ _ (getLedgerHead now >>= _ >>= _) l s'
      rw [bind_assoc']
      exact meets_getLedgerHead hhonest (h.undisturbed hs')
        (fun l s'' head h' hsync => happend head _ now s'' h' hsync l) l
  | appendInvariant input now =>
    simp only [taskBody, map_eq_bind, appendInvariant, bind_assoc']
    exact meets_getLedgerHead hhonest h fun l s' head h' hsync => happend head _ now s' h' hsync l
  | createCheckpoint reason now =>
    simp only [taskBody, map_eq_bind, createCheckpoint, bind_assoc']
    refine meets_getLedgerHead hhonest h fun l s' head h' hsync => ?_
    refine meets_createCheckpointInternal hhonest hinj hverifies h' hsync (fun _ _ => h') (fun _ _ _ h'' => ?_) l
    exact h''
  | rotateKeyEpoch now =>
    simp only [taskBody, map_eq_bind, rotateKeyEpoch, bind_assoc']
    refine meets_getLedgerHead hhonest h fun l s₁ head h₁ hsync₁ => ?_
    refine meets_ensureKeyEpoch hhonest h₁ (fun l s₂ r hs₂ h₂ _ _ => ?_) l
    refine meets_putHead hhonest (fun l s₃ hs₃ => ?_) l
    have hsync₂ := hsync₁.steady hs₂
    have hnext : InSync s₂ { head with activeKeyEpoch := head.activeKeyEpoch + 1, updatedAt := now } :=
      ⟨hsync₂.1, hsync₂.2, hsync₂.3, hsync₂.4⟩
    have h₃ := (idle_putHead h₂.intact hnext).undisturbed hs₃
    have hsync₃ := (idle_putHead h₂.intact hnext).inSync.steady hs₃.toSteady
    split_ifs
    · simp only [bind_assoc']
      refine meets_createCheckpointInternal hhonest hinj hverifies h₃ hsync₃ (fun _ _ => h₃) (fun _ _ _ h'' => ?_) l
      exact h''
    · exact h₃

end Rules

end

end NousCore.Witness

namespace NousCore.Witness

open Async

/-! ## A symbolic instance -/

/-- A hash is the term that was hashed. -/
inductive Digest where
  | payload (payload : EventPayload (List (String × Json)))
  | event (sequence : Nat) (payloadHash : Digest)
  | eventAfter (sequence : Nat) (previousEventHash payloadHash : Digest)
  | checkpoint (sequence first last : Nat) (ledgerHeadHash : Digest) (keyEpoch : Nat) (reason : WitnessCheckpointReason)
  | checkpointAfter (sequence first last : Nat) (previousCheckpointHash ledgerHeadHash : Digest) (keyEpoch : Nat)
      (reason : WitnessCheckpointReason)
  | report (id : String)
  deriving DecidableEq

def unaryId (n : Nat) : String := String.ofList (List.replicate n 'x')

theorem unaryId_injective : Function.Injective unaryId := by
  intro m n h
  have hlength := congrArg (fun s => s.toList.length) h
  simpa [unaryId] using hlength

def symbolic : Primitives Digest where
  isUuid := fun s => s.toList.all (· = 'x')
  hashPayload := .payload
  hashLink := fun link => match link.previousEventHash with
    | none => .event link.sequence link.payloadHash
    | some previous => .eventAfter link.sequence previous link.payloadHash
  hashCheckpoint := fun k => match k.previousCheckpointHash with
    | none => .checkpoint k.checkpointSequence k.startEventSequence k.endEventSequence k.ledgerHeadHash k.keyEpoch k.reason
    | some previous => .checkpointAfter k.checkpointSequence k.startEventSequence k.endEventSequence previous
        k.ledgerHeadHash k.keyEpoch k.reason
  hashReport := fun r => .report r.id
  keyPair := fun n => ⟨unaryId n, unaryId n⟩
  signDigest := fun _ privateKeyPem => privateKeyPem
  verifyDigestSignature := fun _ signature publicKeyPem => signature = publicKeyPem

theorem symbolic_collisionFree : symbolic.CollisionFree where
  payload := fun _ _ h => Digest.payload.inj h
  link := by
    rintro ⟨n, p, d⟩ ⟨n', p', d'⟩ h
    cases p <;> cases p' <;> simp_all [symbolic]
  checkpoint := by
    rintro ⟨_, _, _, p, _, _, _⟩ ⟨_, _, _, p', _, _, _⟩ h
    cases p <;> cases p' <;> simp_all [symbolic]

theorem symbolic_verifies : symbolic.Verifies := fun n d => by simp [symbolic]

theorem symbolic_isUuid (n : Nat) : symbolic.isUuid (unaryId n) = true := by simp [symbolic, unaryId]

/-! ## Calls -/

section

variable {H : Type}

def honestStore : Allowance (WitnessOp.Answer (H := H)) PutOutcome (WitnessState H) := fun _ _ x _ => x = .accepted

instance (l : Log (WitnessOp.Answer (H := H))) (o : WitnessOp H) (x : PutOutcome) (s : WitnessState H) :
    Decidable (honestStore l o x s) :=
  inferInstanceAs (Decidable (x = .accepted))

variable [DecidableEq H] (c : Primitives H) (checkpointInterval : Nat) (idFactory : Nat → String)
  (allowed : Allowance (WitnessOp.Answer (H := H)) PutOutcome (WitnessState H))

/-- One task runs to its end, with no other in between. -/
def Called (s : WitnessState H) (t : WitnessTask) (s' : WitnessState H) : Prop :=
  ∃ y l, (taskBody c checkpointInterval t).Ends (answers c idFactory) allowed [] s y l s'

variable {c checkpointInterval idFactory allowed}

theorem idle_of_run (hinj : Function.Injective idFactory) (hverifies : c.Verifies) (hhonest : Honest allowed)
    {tasks : List WitnessTask} {s : WitnessState H}
    (hrun : Run (Guarded (Called c checkpointInterval idFactory allowed) fun _ t => queued t = true) .empty tasks s) :
    Idle c idFactory s := by
  refine hrun.invariant ?_ idle_empty
  rintro s t s' h ⟨⟨y, l, hends⟩, ht⟩
  exact (meets_taskBody hhonest hinj hverifies ht h []).ends Undisturbed.refl (fun _ _ _ _ hallowed => hallowed) hends

variable (c checkpointInterval idFactory allowed) [∀ l o x s, Decidable (allowed l o x s)]

/-- One task, with what the store does with each of its operations. -/
def performed (s : WitnessState H) (call : WitnessTask × List PutOutcome) : Option (WitnessState H) :=
  ((taskBody c checkpointInterval call.1).alone (answers c idFactory) allowed call.2 [] s).map (·.2)

variable {c checkpointInterval idFactory allowed} in
theorem called_of_performed {s s' : WitnessState H} {call : WitnessTask × List PutOutcome}
    (h : performed c checkpointInterval idFactory allowed s call = some s') :
    Called c checkpointInterval idFactory allowed s call.1 s' := by
  obtain ⟨⟨y, s''⟩, halone, rfl⟩ := Option.map_eq_some_iff.mp h
  obtain ⟨l, hends⟩ := ends_of_alone halone
  exact ⟨y, l, hends⟩

theorem exists_run_of_check (calls : List (WitnessTask × List PutOutcome)) (P : WitnessState H → Bool)
    (h : (calls.foldlM (performed c checkpointInterval idFactory allowed) .empty).any P = true) :
    ∃ s, Run (Called c checkpointInterval idFactory allowed) .empty (calls.map (·.1)) s ∧ P s = true := by
  obtain ⟨s, hrun, hP⟩ := exists_run_of_takes _ calls .empty P h
  exact ⟨s, hrun.map (·.1) fun _ _ _ => called_of_performed, hP⟩

/-- The same with a guard that is checked before each task. -/
def performedIf (G : WitnessState H → WitnessTask → Prop) [∀ s t, Decidable (G s t)] (s : WitnessState H)
    (call : WitnessTask × List PutOutcome) : Option (WitnessState H) :=
  if G s call.1 then performed c checkpointInterval idFactory allowed s call else none

theorem exists_guarded_run_of_check (G : WitnessState H → WitnessTask → Prop) [∀ s t, Decidable (G s t)]
    (calls : List (WitnessTask × List PutOutcome)) (P : WitnessState H → Bool)
    (h : (calls.foldlM (performedIf c checkpointInterval idFactory allowed G) .empty).any P = true) :
    ∃ s, Run (Guarded (Called c checkpointInterval idFactory allowed) G) .empty (calls.map (·.1)) s ∧ P s = true := by
  obtain ⟨s, hrun, hP⟩ := exists_run_of_takes _ calls .empty P h
  refine ⟨s, hrun.map (·.1) fun s call s' hstep => ?_, hP⟩
  obtain ⟨hG, hperformed⟩ := Option.ite_none_right_eq_some.mp hstep
  exact ⟨called_of_performed hperformed, hG⟩

end

end NousCore.Witness
