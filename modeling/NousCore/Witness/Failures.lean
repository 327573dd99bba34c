import NousCore.Witness.Queued

/-!
# A store that rejects

* `Threaded`, `HeadOf` : the events form one chain, and a head speaks of its end; `Ready` : the stored head does;
* `meets_queuedTask` : then every queued task leaves the ledger ready, and `meets_reporting` : a verification stores
  no event, no checkpoint, and no head but a first one.
-/

namespace NousCore.Witness

open Async

variable {H : Type} (idFactory : Nat → String)

/-- The events are numbered from 1 on, each names the hash of the one before it, and their ids have been drawn. -/
structure Threaded (s : WitnessState H) : Prop where
  numbered : Numbered (·.sequence) 1 s.events.values
  linked : Chained (·.previousEventHash) (·.eventHash) none s.events.values
  drawn : ∀ k ∈ s.events.keys, ∃ n < s.issued, k = idFactory n

/-- The head speaks of the last event. -/
structure HeadOf (s : WitnessState H) (head : LedgerHead H) : Prop where
  lastSequence : head.lastSequence = s.events.values.length
  lastEventHash : head.lastEventHash = lastHash (·.eventHash) none s.events.values

structure Ready (s : WitnessState H) : Prop where
  threaded : Threaded idFactory s
  head : HeadOf s s.currentHead

/-- Two heads that speak of the same event. -/
def LedgerHead.Agrees (head head' : LedgerHead H) : Prop :=
  head'.lastSequence = head.lastSequence ∧ head'.lastEventHash = head.lastEventHash

variable {idFactory} {c : Primitives H} {s s' : WitnessState H} {head head' : LedgerHead H}

theorem HeadOf.congr (h : HeadOf s head) (hevents : s'.events = s.events) (hagrees : head.Agrees head') :
    HeadOf s' head' := by
  refine ⟨?_, ?_⟩
  · rw [hagrees.1, h.lastSequence, hevents]
  · rw [hagrees.2, h.lastEventHash, hevents]

theorem Threaded.congr (h : Threaded idFactory s) (hevents : s'.events = s.events) (hissued : s.issued ≤ s'.issued) :
    Threaded idFactory s' := by
  refine ⟨hevents ▸ h.numbered, hevents ▸ h.linked, fun k hk => ?_⟩
  rw [hevents] at hk
  obtain ⟨n, hn, rfl⟩ := h.drawn k hk
  exact ⟨n, Nat.lt_of_lt_of_le hn hissued, rfl⟩

theorem Ready.of_head (h : Threaded idFactory s) (hhead : s.head = some head) (hof : HeadOf s head) :
    Ready idFactory s := by
  refine ⟨h, ?_⟩
  rw [WitnessState.currentHead, hhead]
  exact hof

theorem Ready.steady (h : Ready idFactory s) (hsteady : Steady s s') : Ready idFactory s' := by
  have hthreaded := h.threaded.congr hsteady.events hsteady.issued
  rcases hsteady.head with heq | ⟨hblank, now, hnow⟩
  · refine ⟨hthreaded, ?_⟩
    rw [WitnessState.currentHead, heq]
    exact h.head.congr hsteady.events ⟨rfl, rfl⟩
  · refine Ready.of_head hthreaded hnow (h.head.congr hsteady.events ?_)
    -- a head without events belongs to a ledger without events
    have hzero : s.currentHead.lastSequence = 0 := by
      unfold WitnessState.currentHead
      cases hhead : s.head with
      | none => rfl
      | some head => exact hblank head hhead
    have hempty : s.events.values = [] := by
      rw [← List.length_eq_zero_iff, ← h.head.lastSequence, hzero]
    refine ⟨hzero.symm, ?_⟩
    rw [h.head.lastEventHash, hempty]
    rfl

/-! ## Operations that add no event -/

/-- The operation adds no event, and stores no head but one that agrees with `head`. -/
def Keeping (head : LedgerHead H) : WitnessOp H → Prop
  | .putEvent _ => False
  | .putHead head' => head.Agrees head'
  | _ => True

variable {o : WitnessOp H} {x : PutOutcome}

theorem answers_keeping (ho : Keeping head o) {r : o.Answer} (h : answers c idFactory o x s = some (r, s')) :
    s'.events = s.events ∧ s.issued ≤ s'.issued ∧
      (s'.head = s.head ∨ ∃ head', s'.head = some head' ∧ head.Agrees head') := by
  cases o with
  | putEvent => exact ho.elim
  | putHead head' =>
    obtain ⟨-, rfl⟩ := Prod.mk.inj (Option.some.inj h)
    cases x with
    | accepted => exact ⟨rfl, Nat.le_refl _, .inr ⟨head', rfl, ho⟩⟩
    | rejected => exact ⟨rfl, Nat.le_refl _, .inl rfl⟩
  | putCheckpoint | putKeyEpoch | putReport =>
    obtain ⟨-, rfl⟩ := Prod.mk.inj (Option.some.inj h)
    cases x <;> exact ⟨rfl, Nat.le_refl _, .inl rfl⟩
  | nextId =>
    cases h
    exact ⟨rfl, Nat.le_succ _, .inl rfl⟩
  | _ =>
    cases h
    exact ⟨rfl, Nat.le_refl _, .inl rfl⟩

theorem Ready.keeping (h : Ready idFactory s) (hof : HeadOf s head) (ho : Keeping head o)
    {r : o.Answer} (hanswers : answers c idFactory o x s = some (r, s')) :
    Ready idFactory s' ∧ HeadOf s' head := by
  obtain ⟨hevents, hissued, hhead⟩ := answers_keeping ho hanswers
  have hthreaded := h.threaded.congr hevents hissued
  refine ⟨?_, hof.congr hevents ⟨rfl, rfl⟩⟩
  rcases hhead with heq | ⟨head', hhead', hagrees⟩
  · refine ⟨hthreaded, ?_⟩
    rw [WitnessState.currentHead, heq]
    exact h.head.congr hevents ⟨rfl, rfl⟩
  · exact Ready.of_head hthreaded hhead' (hof.congr hevents hagrees)

/-! ## The functions that add no event -/

variable {checkpointInterval : Nat}

section Every

variable {now : Timestamp}

theorem every_ensureKeyEpoch {P : WitnessOp H → Prop} (hget : ∀ e, P (.getKeyEpoch e)) (hdraw : P .createKeyPair)
    (hput : ∀ r, P (.putKeyEpoch r)) {keyEpoch : Nat} : (ensureKeyEpoch keyEpoch now).Every P := by
  refine every_bind (every_perform (hget keyEpoch)) fun r => ?_
  cases r with
  | some existing => trivial
  | none =>
    refine every_bind (every_perform hdraw) fun keyPair => ?_
    exact every_bind (every_bind (every_perform (hput _)) every_unwrap) fun _ => trivial

theorem every_keeping_ensureKeyEpoch {keyEpoch : Nat} : (ensureKeyEpoch keyEpoch now).Every (Keeping head) :=
  every_ensureKeyEpoch (fun _ => trivial) trivial fun _ => trivial

theorem every_createCheckpointInternal (c : Primitives H) {reason : WitnessCheckpointReason} :
    (createCheckpointInternal c reason head now).Every (Keeping head) := by
  unfold createCheckpointInternal
  split
  · trivial
  · trivial
  refine every_bind (every_perform trivial) fun latestCheckpoint => ?_
  refine every_bind every_keeping_ensureKeyEpoch fun keyRecord => ?_
  refine every_bind (every_perform trivial) fun id => ?_
  refine every_bind (every_bind (every_bind (every_perform trivial) every_unwrap) fun _ => ?_) fun _ => trivial
  exact every_bind (every_perform ⟨rfl, rfl⟩) every_unwrap

theorem every_maybeIntervalCheckpoint (c : Primitives H) :
    (maybeIntervalCheckpoint c checkpointInterval head now).Every (Keeping head) := by
  unfold maybeIntervalCheckpoint
  split_ifs
  · trivial
  · trivial
  · exact every_bind (every_createCheckpointInternal c) fun _ => trivial

end Every

/-! ## Queued calls -/

section Queued

variable {α : Type} {allowed : Allowance (WitnessOp.Answer (H := H)) PutOutcome (WitnessState H)}
  {post : Log (WitnessOp.Answer (H := H)) → Except WitnessError α → WitnessState H → Prop}

/-- An event that the store has accepted is the last thing that happened. -/
def eventStored (l : Log (WitnessOp.Answer (H := H))) : Bool :=
  match l.getLast? with
  | some ⟨.putEvent _, .ok _⟩ => true
  | _ => false

/-- A queued call relies on what verifications do, and guarantees that the events stay one chain. -/
def rejectingContract (idFactory : Nat → String)
    (allowed : Allowance (WitnessOp.Answer (H := H)) PutOutcome (WitnessState H)) :
    Contract (WitnessOp.Answer (H := H)) PutOutcome (WitnessState H) :=
  ⟨allowed, Steady, fun s s' => Threaded idFactory s → Threaded idFactory s'⟩

/-- **Operations that add no event.** Whatever the store rejects, the ledger stays ready. -/
theorem meets_keeping {p : WitnessCall H α} (hp : p.Every (Keeping head)) (h : Ready idFactory s) (hof : HeadOf s head)
    (hpost : ∀ l y s, Ready idFactory s → HeadOf s head → post l y s) :
    ∀ l, p.Meets (answers c idFactory) (rejectingContract idFactory allowed) post l s := by
  induction p generalizing s with
  | pure | throw => exact fun l => hpost l _ s h hof
  | call o next ih =>
    intro l x r s' hanswers _
    obtain ⟨h', hof'⟩ := h.keeping hof hp.1 hanswers
    refine ⟨fun _ => h'.threaded, fun s'' hs'' => ?_⟩
    exact ih r (hp.2 r) (h'.steady hs'') (hof'.congr hs''.events ⟨rfl, rfl⟩) _

theorem meets_getLedgerHead_or_throw {f : LedgerHead H → WitnessCall H α} {now : Timestamp} (h : Ready idFactory s)
    (hthrow : ∀ l e s, Ready idFactory s → post l (.error e) s)
    (hf : ∀ l s head, Ready idFactory s → HeadOf s head →
      (f head).Meets (answers c idFactory) (rejectingContract idFactory allowed) post l s) :
    ∀ l, (getLedgerHead now >>= f).Meets (answers c idFactory) (rejectingContract idFactory allowed) post l s := by
  intro l x r s₁ hanswers _
  cases hanswers
  refine ⟨id, fun s₂ hs₂ => ?_⟩
  have h₂ := h.steady hs₂
  have hof := h.head
  unfold WitnessState.currentHead at hof
  cases hhead : s.head with
  | some head =>
    rw [hhead] at hof
    exact hf _ s₂ head h₂ (hof.congr hs₂.events ⟨rfl, rfl⟩)
  | none =>
    rw [hhead] at hof
    have hinitial : HeadOf s₂ (LedgerHead.initial now) := hof.congr hs₂.events ⟨rfl, rfl⟩
    intro x r s₃ hanswers _
    obtain ⟨h₃, hof₃⟩ := h₂.keeping (o := .putHead (LedgerHead.initial now)) hinitial ⟨rfl, rfl⟩ hanswers
    refine ⟨fun _ => h₃.threaded, fun s₄ hs₄ => ?_⟩
    have h₄ := h₃.steady hs₄
    cases r with
    | error e => exact hthrow _ e s₄ h₄
    | ok _ => exact hf _ s₄ _ h₄ (hof₃.congr hs₄.events ⟨rfl, rfl⟩)

/-- The store does not reject the head of an event that it has accepted. -/
def HeadFollows (allowed : Allowance (WitnessOp.Answer (H := H)) PutOutcome (WitnessState H)) : Prop :=
  ∀ l head x s, allowed l (.putHead head) x s → eventStored l = true → x = .accepted

theorem Threaded.append (h : Threaded idFactory s) (hof : HeadOf s head) (input : AppendLedgerEventInput)
    (hfresh : input.eventId ∉ s.events.keys) (hdrawn : ∃ n < s.issued, input.eventId = idFactory n) (now : Timestamp) :
    Threaded idFactory { s with events := s.events.set input.eventId (input.event c head now) } ∧
      HeadOf { s with events := s.events.set input.eventId (input.event c head now) }
        (head.afterEvent (input.event c head now) now) := by
  have hvalues := Record.values_set_of_not_mem (input.event c head now) hfresh
  have hkeys := Record.keys_set_of_not_mem (input.event c head now) hfresh
  refine ⟨⟨?_, ?_, ?_⟩, ⟨?_, ?_⟩⟩
  · rw [hvalues]
    refine numbered_append.mpr ⟨h.numbered, ?_, trivial⟩
    show head.lastSequence + 1 = _
    rw [hof.lastSequence]
    omega
  · rw [hvalues]
    exact chained_append.mpr ⟨h.linked, hof.lastEventHash, trivial⟩
  · rw [hkeys]
    intro k hk
    rcases List.mem_append.mp hk with hk | hk
    · exact h.drawn k hk
    · rw [List.mem_singleton.mp hk]
      exact hdrawn
  · rw [hvalues, List.length_append, ← hof.lastSequence]
    rfl
  · rw [hvalues, lastHash_append_singleton]
    rfl

theorem meets_appendEvent_or_throw (hinj : Function.Injective idFactory) (hfollows : HeadFollows allowed)
    {payload : EventPayload Detail} {now : Timestamp} (h : Ready idFactory s)
    (hof : HeadOf s head) :
    ∀ l, (appendEvent c checkpointInterval head payload now).Meets (answers c idFactory)
      (rejectingContract idFactory allowed) (fun _ _ s => Ready idFactory s) l s := by
  intro l x id s₁ hanswers _
  obtain ⟨h₁, hof₁⟩ := h.keeping (o := .nextId) hof trivial hanswers
  cases hanswers
  refine ⟨fun _ => h₁.threaded, fun s₂ hs₂ => ?_⟩
  have hfresh : idFactory s.issued ∉ s₂.events.keys := by
    rw [hs₂.events]
    intro hk
    obtain ⟨n, hn, he⟩ := h.threaded.drawn _ hk
    exact absurd (hinj he) (Nat.ne_of_gt hn)
  have hdrawn : ∃ n < s₂.issued, idFactory s.issued = idFactory n :=
    ⟨s.issued, Nat.lt_of_lt_of_le (Nat.lt_succ_self _) hs₂.issued, rfl⟩
  obtain ⟨hthreaded, hnext⟩ := (h₁.steady hs₂).threaded.append (c := c) (hof₁.congr hs₂.events ⟨rfl, rfl⟩)
    { payload with eventId := idFactory s.issued } hfresh hdrawn now
  -- the event is put, and unless it is rejected the head must follow
  intro x r s₃ hanswers _
  obtain ⟨rfl, rfl⟩ := Prod.mk.inj (Option.some.inj hanswers)
  cases x with
  | rejected => exact ⟨id, fun s₄ hs₄ => (h₁.steady hs₂).steady hs₄⟩
  | accepted =>
    refine ⟨fun _ => hthreaded, fun s₄ hs₄ => ?_⟩
    intro x r s₅ hanswers hallow
    obtain rfl := hfollows _ _ _ _ hallow (by simp [eventStored])
    cases hanswers
    have hthreaded₄ := hthreaded.congr hs₄.events hs₄.issued
    have hhead : HeadOf s₄ _ := hnext.congr hs₄.events ⟨rfl, rfl⟩
    have h₅ : Ready idFactory { s₄ with head := some _ } :=
      Ready.of_head ⟨hthreaded₄.1, hthreaded₄.2, hthreaded₄.3⟩ rfl ⟨hhead.1, hhead.2⟩
    refine ⟨fun _ => h₅.threaded, fun s₆ hs₆ => ?_⟩
    have hhead₆ := HeadOf.congr (s := { s₄ with head := _ }) ⟨hhead.1, hhead.2⟩ hs₆.events ⟨rfl, rfl⟩
    show (maybeIntervalCheckpoint c checkpointInterval (head.afterEvent _ now) now >>= fun _ => _).Meets _ _ _ _ s₆
    refine meets_bind.mpr (meets_keeping (every_maybeIntervalCheckpoint c) (h₅.steady hs₆) hhead₆ ?_ _)
    intro l y s h _
    cases y with
    | ok _ => exact h
    | error _ => exact h

theorem meets_map_of_meets {β : Type} {p : WitnessCall H β} {f : β → α} {Q : WitnessState H → Prop} {l}
    (h : p.Meets (answers c idFactory) (rejectingContract idFactory allowed) (fun _ _ s => Q s) l s) :
    (f <$> p).Meets (answers c idFactory) (rejectingContract idFactory allowed) (fun _ _ s => Q s) l s := by
  rw [map_eq_bind]
  refine meets_bind.mpr (h.mono fun l y s hs => ?_)
  cases y with
  | ok | error => exact hs

variable [DecidableEq H]

/-- **Queued calls.** Whatever the store rejects but the head of an event that it has accepted, a queued call that
starts from a ready ledger leaves it ready. -/
theorem meets_queuedTask (hinj : Function.Injective idFactory) (hfollows : HeadFollows allowed)
    {t : WitnessTask} (ht : queued t = true) (h : Ready idFactory s) :
    ∀ l, (taskBody c checkpointInterval t).Meets (answers c idFactory) (rejectingContract idFactory allowed)
      (fun _ _ s => Ready idFactory s) l s := by
  have happend : ∀ (payload : EventPayload Detail) (now : Timestamp) (s : WitnessState H), Ready idFactory s →
      ∀ l, (getLedgerHead now >>= fun head => appendEvent c checkpointInterval head payload now).Meets
        (answers c idFactory) (rejectingContract idFactory allowed) (fun _ _ s => Ready idFactory s) l s :=
    fun payload now s h => meets_getLedgerHead_or_throw h (fun _ _ _ h => h) fun l s head h hof =>
      meets_appendEvent_or_throw hinj hfollows h hof l
  intro l
  cases t with
  | verify request now => cases ht
  | appendAuthorization input now => exact meets_map_of_meets (happend _ now s h l)
  | appendInvariant input now => exact meets_map_of_meets (happend _ now s h l)
  | appendCompletion input now =>
    refine meets_map_of_meets ?_
    intro x r s₁ hanswers _
    cases hanswers
    refine ⟨id, fun s₂ hs₂ => ?_⟩
    cases s.events.get? input.authorizationRef with
    | none => exact h.steady hs₂
    | some _ => exact happend _ now s₂ (h.steady hs₂) _
  | createCheckpoint reason now =>
    refine meets_map_of_meets (meets_getLedgerHead_or_throw h (fun _ _ _ h => h) (fun l s head h hof => ?_) l)
    exact meets_keeping (every_createCheckpointInternal c) h hof (fun _ _ _ h _ => h) l
  | rotateKeyEpoch now =>
    refine meets_map_of_meets (meets_getLedgerHead_or_throw h (fun _ _ _ h => h) (fun l s head h hof => ?_) l)
    refine meets_keeping (every_bind every_keeping_ensureKeyEpoch fun _ => ?_) h hof (fun _ _ _ h _ => h) l
    refine every_bind (every_bind (every_perform ⟨rfl, rfl⟩) every_unwrap) fun _ => ?_
    split_ifs
    · refine every_bind (Every.mono (fun o ho => ?_) (every_createCheckpointInternal c)) fun _ => trivial
      cases o with
      | putHead => exact ho
      | putEvent => exact ho
      | _ => trivial
    · trivial

end Queued

/-! ## Verifications -/

section Verify

/-- The operation adds no event and no checkpoint, and stores no head but a first one. -/
def Reporting : WitnessOp H → Prop
  | .putEvent _ | .putCheckpoint _ => False
  | .putHead head => ∃ now, head = LedgerHead.initial now
  | _ => True

theorem every_getLedgerHead {now : Timestamp} : (getLedgerHead (H := H) now).Every Reporting := by
  refine every_bind (every_perform trivial) fun r => ?_
  cases r with
  | some head => trivial
  | none => exact every_bind (every_bind (every_perform ⟨now, rfl⟩) every_unwrap) fun _ => trivial

theorem every_issueAttestationReceipt (c : Primitives H) {subjectHash : H} {now : Timestamp} :
    (issueAttestationReceipt c subjectHash now).Every Reporting := by
  refine every_bind every_getLedgerHead fun head => ?_
  refine every_bind (every_ensureKeyEpoch (fun _ => trivial) trivial fun _ => trivial) fun keyRecord => ?_
  exact every_bind (every_perform trivial) fun _ => trivial

variable [DecidableEq H]

theorem every_verifyCheckpointChainFrom (c : Primitives H) {events : List (WitnessEvent H)} {now : Timestamp}
    {checkpoints : List (WitnessCheckpoint H)} {previous : Option (WitnessCheckpoint H)} :
    (verifyCheckpointChainFrom c events now previous checkpoints).Every Reporting := by
  induction checkpoints generalizing previous with
  | nil => trivial
  | cons k checkpoints ih =>
    refine every_bind (every_bind (every_perform trivial) fun r => ?_) fun _ => every_bind ih fun _ => trivial
    cases r <;> trivial

theorem every_verify (c : Primitives H) {request : WitnessVerificationRequest} {now : Timestamp} :
    (verify c request now).Every Reporting := by
  refine every_bind (every_perform trivial) fun events => ?_
  refine every_bind (every_perform trivial) fun checkpoints => ?_
  refine every_bind (every_verifyCheckpointChainFrom c) fun verification => ?_
  refine every_bind (every_perform trivial) fun id => ?_
  refine every_bind (every_issueAttestationReceipt c) fun receipt => ?_
  split_ifs
  · exact every_bind (every_bind (every_perform trivial) every_unwrap) fun _ => trivial
  · trivial

omit [DecidableEq H] in
theorem steady_reporting (ho : Reporting o) {r : o.Answer}
    (h : answers c idFactory o x s = some (r, s')) (hblank : ∀ head, o = .putHead head → s.Blank) : Steady s s' := by
  cases o with
  | putEvent | putCheckpoint => exact ho.elim
  | putHead head =>
    obtain ⟨-, rfl⟩ := Prod.mk.inj (Option.some.inj h)
    obtain ⟨now, rfl⟩ := ho
    cases x with
    | accepted => exact ⟨rfl, rfl, Nat.le_refl _, .inr ⟨hblank _ rfl, now, rfl⟩⟩
    | rejected => exact .refl s
  | putKeyEpoch | putReport =>
    obtain ⟨-, rfl⟩ := Prod.mk.inj (Option.some.inj h)
    cases x <;> exact ⟨rfl, rfl, Nat.le_refl _, .inl rfl⟩
  | nextId =>
    cases h
    exact ⟨rfl, rfl, Nat.le_succ _, .inl rfl⟩
  | _ =>
    cases h
    exact ⟨rfl, rfl, Nat.le_refl _, .inl rfl⟩

omit [DecidableEq H] in
/-- **Verifications.** They store nothing that the ledger is made of, but a first head. -/
theorem meets_reporting {α : Type} {allowed : Allowance (WitnessOp.Answer (H := H)) PutOutcome (WitnessState H)}
    {rely : WitnessState H → WitnessState H → Prop} (hblank : ∀ l head x s, allowed l (.putHead head) x s → s.Blank)
    {p : WitnessCall H α} (hp : p.Every Reporting) :
    ∀ l s, p.Meets (answers c idFactory) ⟨allowed, rely, Steady⟩ (fun _ _ _ => True) l s := by
  induction p with
  | pure | throw => exact fun _ _ => trivial
  | call o next ih =>
    intro l s x r s' hanswers hallow
    refine ⟨steady_reporting hp.1 hanswers fun head ho => ?_, fun s'' _ => ih r (hp.2 r) _ s''⟩
    subst ho
    exact hblank l head x s hallow

end Verify

end NousCore.Witness
