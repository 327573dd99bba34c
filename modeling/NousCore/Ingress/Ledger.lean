import NousCore.Ingress.Logs

/-!
# Whose claims the store holds

* `get?_pruneExpired`, `get?_commitDispatch`, `get?_releaseClaim` : what the operations of the store do to its records;
* `Ledger` : every record is that of one submission, which obtained its claim, and has committed it or left it open.
-/

namespace NousCore.Ingress

open Async NousCore.System

variable {options : IngressIdempotencyStoreOptions} {s s' : IngressState}

/-! ## The operations of the store -/

theorem get?_pruneExpired (s : IngressState) (key : String) : (s.pruneExpired options).dedup.get? key =
    (s.dedup.get? key).bind fun record => if s.expired options record then none else some record :=
  Record.get?_filterMap _ _ _

theorem get?_pruneExpired_eq_some {key : String} {record : DedupRecord} :
    (s.pruneExpired options).dedup.get? key = some record ↔ s.dedup.get? key = some record ∧ ¬s.expired options record := by
  rw [get?_pruneExpired, Option.bind_eq_some_iff]
  constructor
  · rintro ⟨record', hrecord, h⟩
    split_ifs at h with hexpired
    cases h
    exact ⟨hrecord, hexpired⟩
  · rintro ⟨hrecord, hexpired⟩
    exact ⟨record, hrecord, if_neg hexpired⟩

theorem reservations_pruneExpired {id key : String} (h : s.reservations.get? id = some key)
    (hkept : ∀ key' record, s.dedup.get? key' = some record → record.claim.reservationId = id →
      ¬s.expired options record) : (s.pruneExpired options).reservations.get? id = some key := by
  unfold IngressState.pruneExpired
  rw [Record.get?_filterMap, h, Option.bind_some, if_neg]
  rw [List.any_eq_true]
  rintro ⟨record, hmem, hrecord⟩
  obtain ⟨key', hkey'⟩ := Record.mem_values.mp hmem
  obtain ⟨hexpired, hid⟩ := of_decide_eq_true hrecord
  exact hkept key' record hkey' hid hexpired

/-- Every record of the reservation is at its key. -/
def ReservedAt (s : IngressState) (reservationId : String) : Prop :=
  ∀ key record, s.dedup.get? key = some record → record.claim.reservationId = reservationId →
    s.reservations.get? reservationId = some key

variable {reservationId dispatchRef evidenceRef : String}

theorem get?_commitDispatch (h : ReservedAt s reservationId)
    (key : String) : (s.commitDispatch reservationId dispatchRef evidenceRef).dedup.get? key =
      (s.dedup.get? key).map fun record =>
        if record.claim.reservationId = reservationId then { record with status := .committed dispatchRef evidenceRef }
        else record := by
  have hsame : ∀ key, (∀ record, s.dedup.get? key = some record → record.claim.reservationId ≠ reservationId) →
      s.dedup.get? key = (s.dedup.get? key).map fun record =>
        if record.claim.reservationId = reservationId then { record with status := .committed dispatchRef evidenceRef }
        else record := by
    intro key hne
    cases hrecord : s.dedup.get? key with
    | none => rfl
    | some record => rw [Option.map_some, if_neg (hne record hrecord)]
  unfold IngressState.commitDispatch
  split
  · rename_i hnone
    refine hsame key fun record hrecord hid => ?_
    rw [h key record hrecord hid] at hnone
    cases hnone
  · rename_i key' hkey'
    split
    · rename_i hmissing
      refine hsame key fun record hrecord hid => ?_
      obtain rfl : key = key' := Option.some.inj ((h key record hrecord hid).symm.trans hkey')
      rw [hrecord] at hmissing
      cases hmissing
    · rename_i existing hexisting
      split_ifs with hid
      · refine hsame key fun record hrecord hid' => ?_
        obtain rfl : key = key' := Option.some.inj ((h key record hrecord hid').symm.trans hkey')
        cases hrecord.symm.trans hexisting
        exact hid hid'
      · rw [Record.get?_set]
        split_ifs with hkey
        · rw [hkey, hexisting, Option.map_some, if_pos (not_not.mp hid)]
        · refine hsame key fun record hrecord hid' => hkey ?_
          exact Option.some.inj ((h key record hrecord hid').symm.trans hkey')

theorem commitDispatch_frame (s : IngressState) (reservationId dispatchRef evidenceRef : String) :
    let t := s.commitDispatch reservationId dispatchRef evidenceRef
    t.reservations = s.reservations ∧ t.nonces = s.nonces ∧ t.now = s.now ∧ t.made = s.made := by
  unfold IngressState.commitDispatch
  split
  · exact ⟨rfl, rfl, rfl, rfl⟩
  · split
    · exact ⟨rfl, rfl, rfl, rfl⟩
    · split_ifs <;> exact ⟨rfl, rfl, rfl, rfl⟩

theorem get?_releaseClaim (h : ReservedAt s reservationId)
    (hclaimed : ∀ key record, s.dedup.get? key = some record → record.claim.reservationId = reservationId →
      record.status = .claimed) (key : String) :
    (s.releaseClaim reservationId).dedup.get? key =
      (s.dedup.get? key).filter fun record => record.claim.reservationId ≠ reservationId := by
  have hsame : ∀ key, (∀ record, s.dedup.get? key = some record → record.claim.reservationId ≠ reservationId) →
      s.dedup.get? key = (s.dedup.get? key).filter fun record => record.claim.reservationId ≠ reservationId := by
    intro key hne
    cases hrecord : s.dedup.get? key with
    | none => rfl
    | some record => rw [Option.filter_some, if_pos (decide_eq_true (hne record hrecord))]
  unfold IngressState.releaseClaim
  split
  · rename_i hnone
    refine hsame key fun record hrecord hid => ?_
    rw [h key record hrecord hid] at hnone
    cases hnone
  · rename_i key' hkey'
    split
    · rename_i existing hexisting
      split_ifs with hthis
      · rw [Record.get?_erase]
        split_ifs with hkey
        · rw [hkey, hexisting, Option.filter_some, if_neg]
          simpa using hthis.1
        · refine hsame key fun record hrecord hid' => hkey ?_
          exact Option.some.inj ((h key record hrecord hid').symm.trans hkey')
      · refine hsame key fun record hrecord hid' => hthis ?_
        obtain rfl : key = key' := Option.some.inj ((h key record hrecord hid').symm.trans hkey')
        obtain rfl := Option.some.inj (hrecord.symm.trans hexisting)
        exact ⟨hid', hclaimed key record hrecord hid'⟩
    · rename_i hmissing
      refine hsame key fun record hrecord hid' => ?_
      obtain rfl : key = key' := Option.some.inj ((h key record hrecord hid').symm.trans hkey')
      rw [hrecord] at hmissing
      cases hmissing

theorem releaseClaim_frame (s : IngressState) (reservationId : String) :
    let t := s.releaseClaim reservationId
    (∀ id, id ≠ reservationId → t.reservations.get? id = s.reservations.get? id) ∧ t.nonces = s.nonces ∧
      t.now = s.now ∧ t.made = s.made := by
  unfold IngressState.releaseClaim
  split
  · exact ⟨fun _ _ => rfl, rfl, rfl, rfl⟩
  · refine ⟨fun id hid => ?_, rfl, rfl, rfl⟩
    rw [Record.get?_erase, if_neg hid]

/-- What a claim does: it prunes; it answers with the record of its key, or waits for this, or it is a replay, or it
stores a new claim. -/
inductive ClaimEffect (options : IngressIdempotencyStoreOptions) (envelope : IngressTriggerEnvelope)
    (reservationId runId : String) (s : IngressState) : ClaimAnswer → IngressState → Prop
  | waits {record : DedupRecord} : (s.pruneExpired options).dedup.get? (dedupKey envelope) = some record →
      record.status = .claimed → 0 < options.pendingClaimWaitMs → ClaimEffect options envelope reservationId runId s
        (.wait record (s.now + options.pendingClaimWaitMs)) (s.pruneExpired options)
  | duplicate {record : DedupRecord} : (s.pruneExpired options).dedup.get? (dedupKey envelope) = some record →
      ¬(record.status = .claimed ∧ 0 < options.pendingClaimWaitMs) →
      ClaimEffect options envelope reservationId runId s (.result (toDuplicateResult record)) (s.pruneExpired options)
  | replay : ClaimEffect options envelope reservationId runId s (.result .replay) (s.pruneExpired options)
  | claimed : (s.pruneExpired options).dedup.get? (dedupKey envelope) = none →
      (s.now - envelope.occurredAt.instant).natAbs ≤ options.replayWindowMs →
      (∀ record ∈ (s.pruneExpired options).noncesOf envelope.sourceId, record.nonce ≠ envelope.nonce) →
      ClaimEffect options envelope reservationId runId s (.result (.claimed ⟨reservationId, runId, s.now⟩))
        { s.pruneExpired options with
          dedup := (s.pruneExpired options).dedup.set (dedupKey envelope) ⟨⟨reservationId, runId, s.now⟩, .claimed⟩
          reservations := (s.pruneExpired options).reservations.set reservationId (dedupKey envelope)
          nonces := (s.pruneExpired options).nonces.set envelope.sourceId
            ((s.pruneExpired options).noncesOf envelope.sourceId ++ [⟨envelope.nonce, s.now⟩])
          made := reservationId :: s.made }

variable {envelope : IngressTriggerEnvelope}

theorem claimEffect {runId : String} {answer : ClaimAnswer}
    (h : s.claim options envelope reservationId runId = (answer, s')) :
    ClaimEffect options envelope reservationId runId s answer s' := by
  unfold IngressState.claim at h
  dsimp only at h
  split at h
  · rename_i record hrecord
    split_ifs at h with hwait
    · cases h
      exact .waits hrecord hwait.1 hwait.2
    · cases h
      exact .duplicate hrecord hwait
  · rename_i hnone
    split_ifs at h with hstale hnonce
    · cases h
      exact .replay
    · cases h
      exact .replay
    · cases h
      refine .claimed hnone (not_lt.mp hstale) fun record hmem hnonce' => hnonce ?_
      exact List.any_eq_true.mpr ⟨record, hmem, decide_eq_true hnonce'⟩

/-! ## The owners of the records -/

def Kept (l : IngressLog) (record : DedupRecord) : Prop :=
  claimOf l = some record.claim ∧ match record.status with
  | .claimed => isClosed l = false
  | .committed dispatchRef evidenceRef =>
    ⟨.commitDispatch record.claim.reservationId dispatchRef evidenceRef, ()⟩ ∈ l

theorem Kept.snoc {l : IngressLog} {record : DedupRecord} (h : Kept l record) {e : Sigma IngressOp.Answer}
    (he : closes e = false) : Kept (l ++ [e]) record := by
  refine ⟨claimOf_snoc_of_some h.1 e, ?_⟩
  have hstatus := h.2
  split
  · rename_i heq
    rw [heq] at hstatus
    rw [isClosed_snoc, hstatus, he]
    rfl
  · rename_i heq
    rw [heq] at hstatus
    exact List.mem_append_left _ hstatus

def Owned (threads : List IngressThread) (key : String) (record : DedupRecord) : Prop :=
  ∃ (i : Nat) (th : IngressThread) (envelope : IngressTriggerEnvelope), threads[i]? = some th ∧
    th.task = .parsed envelope ∧ dedupKey envelope = key ∧ Kept th.log record

structure Ledger (c : IngressConfig) : Prop where
  made : ∀ th ∈ c.threads, ∀ claim, claimOf th.log = some claim → claim.reservationId ∈ c.state.made
  unique : ∀ (i j : Nat) (th th' : IngressThread) (claim claim' : Claim), c.threads[i]? = some th →
    c.threads[j]? = some th' → claimOf th.log = some claim → claimOf th'.log = some claim' →
    claim.reservationId = claim'.reservationId → i = j
  owned : ∀ key record, c.state.dedup.get? key = some record → Owned c.threads key record
  reserved : ∀ key record, c.state.dedup.get? key = some record → record.status = .claimed →
    c.state.reservations.get? record.claim.reservationId = some key

theorem ledger_start (now : Int) : Ledger (start (IngressState.start now)) where
  made := by simp [start]
  unique := by simp [start]
  owned := by simp [start, IngressState.start]
  reserved := by simp [start, IngressState.start]

namespace Ledger

variable {c : IngressConfig} {i : Nat} {t : IngressPayload} {program : IngressCall IngressDispatchOutcome}
  {log : IngressLog} {claim : Claim}

theorem key_unique (h : Ledger c) {key key' : String} {record record' : DedupRecord}
    (hkey : c.state.dedup.get? key = some record) (hkey' : c.state.dedup.get? key' = some record')
    (hid : record.claim.reservationId = record'.claim.reservationId) : key = key' := by
  obtain ⟨i, th, envelope, hget, htask, rfl, hkept⟩ := h.owned key record hkey
  obtain ⟨j, th', envelope', hget', htask', rfl, hkept'⟩ := h.owned key' record' hkey'
  obtain rfl := h.unique i j th th' _ _ hget hget' hkept.1 hkept'.1 hid
  cases hget.symm.trans hget'
  rw [IngressPayload.parsed.inj (htask.symm.trans htask')]

variable {key : String} {record : DedupRecord}

theorem open_record (h : Ledger c) (hget : c.threads[i]? = some ⟨t, program, log⟩) (hclaim : claimOf log = some claim)
    (hclosed : isClosed log = false)
    (hkey : c.state.dedup.get? key = some record) (hid : record.claim.reservationId = claim.reservationId) :
    record = ⟨claim, .claimed⟩ ∧ c.state.reservations.get? claim.reservationId = some key := by
  obtain ⟨j, th, envelope, hget', htask, rfl, hkept⟩ := h.owned key record hkey
  obtain rfl := h.unique j i th _ _ _ hget' hget hkept.1 hclaim hid
  cases hget.symm.trans hget'
  obtain ⟨claim', status⟩ := record
  cases hclaim.symm.trans hkept.1
  cases status with
  | claimed => exact ⟨rfl, h.reserved _ _ hkey rfl⟩
  | committed dispatchRef evidenceRef => exact absurd hkept.2 (not_mem_of_not_closed hclosed rfl)

theorem reservedAt (h : Ledger c) (hget : c.threads[i]? = some ⟨t, program, log⟩) (hclaim : claimOf log = some claim)
    (hclosed : isClosed log = false) : ReservedAt c.state claim.reservationId :=
  fun _ _ hkey hid => (h.open_record hget hclaim hclosed hkey hid).2

variable {program' : IngressCall IngressDispatchOutcome} {e : Sigma IngressOp.Answer}

theorem log_of_turn (hget : c.threads[i]? = some ⟨t, program, log⟩) {j : Nat} {th : IngressThread}
    (h : (c.threads.set i ⟨t, program', log ++ [e]⟩)[j]? = some th) :
    (j = i ∧ th = ⟨t, program', log ++ [e]⟩) ∨ j ≠ i ∧ c.threads[j]? = some th := by
  have hlt := (List.getElem?_eq_some_iff.mp hget).1
  by_cases hij : i = j
  · subst hij
    rw [List.getElem?_set_self hlt] at h
    exact .inl ⟨rfl, (Option.some.inj h).symm⟩
  · rw [List.getElem?_set_ne hij] at h
    exact .inr ⟨fun he => hij he.symm, h⟩

/-- A turn that obtains no claim, or one with a new reservation. -/
structure NewClaim (log : IngressLog) (e : Sigma IngressOp.Answer) (made made' : List String) : Prop where
  subset : ∀ id ∈ made, id ∈ made'
  claim : ∀ claim, claimOf (log ++ [e]) = some claim → claimOf log = some claim ∨
    claim.reservationId ∉ made ∧ claim.reservationId ∈ made'

theorem NewClaim.of_none {made : List String} (he : claimed e = none) : NewClaim log e made made := by
  refine ⟨fun _ h => h, fun claim hclaim => .inl ?_⟩
  cases hlog : claimOf log with
  | none =>
    rw [claimOf_snoc_of_none hlog, he] at hclaim
    cases hclaim
  | some claim' => rwa [claimOf_snoc_of_some hlog] at hclaim

/-- **A turn.** What is left to show of a turn is that the records have their owners. -/
theorem turn (h : Ledger c) (hget : c.threads[i]? = some ⟨t, program, log⟩) (returned : List (Nat × Except Thrown _))
    (hnew : NewClaim log e c.state.made s'.made)
    (howned : ∀ key record, s'.dedup.get? key = some record →
      Owned (c.threads.set i ⟨t, program', log ++ [e]⟩) key record)
    (hreserved : ∀ key record, s'.dedup.get? key = some record → record.status = .claimed →
      s'.reservations.get? record.claim.reservationId = some key) :
    Ledger ⟨s', c.threads.set i ⟨t, program', log ++ [e]⟩, returned⟩ := by
  refine ⟨fun th hth claim hclaim => ?_, fun j k th th' claim claim' hj hk hclaim hclaim' hid => ?_, howned, hreserved⟩
  · rcases List.mem_or_eq_of_mem_set hth with hold | rfl
    · exact hnew.subset _ (h.made th hold claim hclaim)
    · rcases hnew.claim claim hclaim with hold | ⟨-, hmade⟩
      · exact hnew.subset _ (h.made _ (List.mem_of_getElem? hget) claim hold)
      · exact hmade
  · -- a reservation that is new is not that of another submission
    have hother : ∀ {m : Nat} {u : IngressThread} {claim claim' : Claim}, m ≠ i → c.threads[m]? = some u →
        claimOf u.log = some claim → claimOf (log ++ [e]) = some claim' →
        claim.reservationId ≠ claim'.reservationId := by
      intro m u claim claim' hm hu hclaim hclaim' hid
      rcases hnew.claim claim' hclaim' with hold | ⟨hnot, -⟩
      · exact hm (h.unique m i u _ claim claim' hu hget hclaim hold hid)
      · exact hnot (hid ▸ h.made u (List.mem_of_getElem? hu) claim hclaim)
    rcases log_of_turn hget hj with ⟨rfl, rfl⟩ | ⟨hji, hold⟩
    · rcases log_of_turn hget hk with ⟨rfl, -⟩ | ⟨hkj, hold'⟩
      · rfl
      · exact absurd hid.symm (hother hkj hold' hclaim' hclaim)
    · rcases log_of_turn hget hk with ⟨rfl, rfl⟩ | ⟨-, hold'⟩
      · exact absurd hid (hother hji hold hclaim hclaim')
      · exact h.unique j k th th' claim claim' hold hold' hclaim hclaim' hid

theorem owned_of_ne (hget : c.threads[i]? = some ⟨t, program, log⟩)
    (h : Owned c.threads key record) (hne : claimOf log ≠ some record.claim) :
    Owned (c.threads.set i ⟨t, program', log ++ [e]⟩) key record := by
  obtain ⟨j, th, envelope, hj, htask, hkey, hkept⟩ := h
  refine ⟨j, th, envelope, ?_, htask, hkey, hkept⟩
  rw [List.getElem?_set_ne, hj]
  rintro rfl
  cases hget.symm.trans hj
  exact hne hkept.1

theorem owned_of_quiet (hget : c.threads[i]? = some ⟨t, program, log⟩) (he : closes e = false)
    (h : Owned c.threads key record) :
    Owned (c.threads.set i ⟨t, program', log ++ [e]⟩) key record := by
  obtain ⟨j, th, envelope, hj, htask, hkey, hkept⟩ := h
  by_cases hij : i = j
  · subst hij
    cases hget.symm.trans hj
    refine ⟨i, ⟨t, program', log ++ [e]⟩, envelope, ?_, htask, hkey, hkept.snoc he⟩
    exact List.getElem?_set_self (List.getElem?_eq_some_iff.mp hget).1
  · exact ⟨j, th, envelope, by rw [List.getElem?_set_ne hij, hj], htask, hkey, hkept⟩

theorem turn_of_same (h : Ledger c) (hget : c.threads[i]? = some ⟨t, program, log⟩)
    (returned : List (Nat × Except Thrown _)) (he : closes e = false) (hclaim : claimed e = none)
    (hdedup : s'.dedup = c.state.dedup) (hreservations : s'.reservations = c.state.reservations)
    (hmade : s'.made = c.state.made) : Ledger ⟨s', c.threads.set i ⟨t, program', log ++ [e]⟩, returned⟩ := by
  refine h.turn hget returned ?_ (fun key record hkey => ?_) fun key record hkey hstatus => ?_
  · rw [hmade]
    exact .of_none hclaim
  · rw [hdedup] at hkey
    exact owned_of_quiet hget he (h.owned key record hkey)
  · rw [hdedup] at hkey
    rw [hreservations]
    exact h.reserved key record hkey hstatus

theorem turn_of_commit (h : Ledger c) {program : IngressCall IngressDispatchOutcome}
    (hget : c.threads[i]? = some ⟨t, program, log⟩) (returned : List (Nat × Except Thrown _))
    (hclaim : claimOf log = some claim) (hclosed : isClosed log = false)
    (he : e = ⟨.commitDispatch claim.reservationId dispatchRef evidenceRef, ()⟩) :
    Ledger ⟨c.state.commitDispatch claim.reservationId dispatchRef evidenceRef,
      c.threads.set i ⟨t, program', log ++ [e]⟩, returned⟩ := by
  obtain ⟨hreservations, -, -, hmade⟩ := commitDispatch_frame c.state claim.reservationId dispatchRef evidenceRef
  have hdedup := fun key => @get?_commitDispatch _ _ dispatchRef evidenceRef (h.reservedAt hget hclaim hclosed) key
  -- the records of the others are as they were
  have hother : ∀ key record, (c.state.commitDispatch claim.reservationId dispatchRef evidenceRef).dedup.get? key =
      some record → c.state.dedup.get? key = some record ∧ record.claim.reservationId ≠ claim.reservationId ∨
        record = ⟨claim, .committed dispatchRef evidenceRef⟩ ∧ c.state.dedup.get? key = some ⟨claim, .claimed⟩ := by
    intro key record hkey
    rw [hdedup, Option.map_eq_some_iff] at hkey
    obtain ⟨record', hrecord', hrecord⟩ := hkey
    split_ifs at hrecord with hid
    · obtain ⟨rfl, -⟩ := h.open_record hget hclaim hclosed hrecord' hid
      exact .inr ⟨hrecord.symm, hrecord'⟩
    · exact .inl ⟨hrecord ▸ hrecord', hrecord ▸ hid⟩
  refine h.turn hget returned ?_ (fun key record hkey => ?_) fun key record hkey hstatus => ?_
  · rw [hmade, he]
    exact .of_none rfl
  · rcases hother key record hkey with ⟨hold, hid⟩ | ⟨rfl, hold⟩
    · refine owned_of_ne hget (h.owned key record hold) fun hthis => hid ?_
      rw [Option.some.inj (hclaim.symm.trans hthis)]
    · obtain ⟨j, th, envelope, hj, htask, hkey', hkept⟩ := h.owned key _ hold
      obtain rfl := h.unique j i th _ _ _ hj hget hkept.1 hclaim rfl
      cases hget.symm.trans hj
      refine ⟨j, ⟨t, program', log ++ [e]⟩, envelope, ?_, htask, hkey', claimOf_snoc_of_some hclaim e, ?_⟩
      · exact List.getElem?_set_self (List.getElem?_eq_some_iff.mp hget).1
      · rw [he]
        exact List.mem_append_right _ (List.mem_singleton_self _)
  · rw [hreservations]
    rcases hother key record hkey with ⟨hold, -⟩ | ⟨rfl, -⟩
    · exact h.reserved key record hold hstatus
    · cases hstatus

theorem turn_of_release (h : Ledger c) {program : IngressCall IngressDispatchOutcome}
    (hget : c.threads[i]? = some ⟨t, program, log⟩) (returned : List (Nat × Except Thrown _))
    (hclaim : claimOf log = some claim) (hclosed : isClosed log = false) {reasonCode : String}
    (he : e = ⟨.releaseClaim claim.reservationId reasonCode, ()⟩) :
    Ledger ⟨c.state.releaseClaim claim.reservationId, c.threads.set i ⟨t, program', log ++ [e]⟩, returned⟩ := by
  obtain ⟨hreservations, -, -, hmade⟩ := releaseClaim_frame c.state claim.reservationId
  have hdedup := get?_releaseClaim (h.reservedAt hget hclaim hclosed) fun key record hkey hid => by
    rw [(h.open_record hget hclaim hclosed hkey hid).1]
  have hold : ∀ key record, (c.state.releaseClaim claim.reservationId).dedup.get? key = some record →
      c.state.dedup.get? key = some record ∧ record.claim.reservationId ≠ claim.reservationId := by
    intro key record hkey
    rw [hdedup, Option.filter_eq_some_iff] at hkey
    exact ⟨hkey.1, of_decide_eq_true hkey.2⟩
  refine h.turn hget returned ?_ (fun key record hkey => ?_) fun key record hkey hstatus => ?_
  · rw [hmade, he]
    exact .of_none rfl
  · obtain ⟨hkey', hid⟩ := hold key record hkey
    refine owned_of_ne hget (h.owned key record hkey') fun hthis => hid ?_
    rw [Option.some.inj (hclaim.symm.trans hthis)]
  · obtain ⟨hkey', hid⟩ := hold key record hkey
    rw [hreservations _ hid]
    exact h.reserved key record hkey' hstatus

theorem reserved_pruneExpired (h : Ledger c) {s : IngressState} (hdedup : s.dedup = c.state.dedup)
    (hreservations : s.reservations = c.state.reservations)
    (hkey : (s.pruneExpired options).dedup.get? key = some record) (hstatus : record.status = .claimed) :
    (s.pruneExpired options).reservations.get? record.claim.reservationId = some key := by
  obtain ⟨hkey, hexpired⟩ := get?_pruneExpired_eq_some.mp hkey
  rw [hdedup] at hkey
  refine reservations_pruneExpired ?_ fun key' record' hkey' hid => ?_
  · rw [hreservations]
    exact h.reserved key record hkey hstatus
  · rw [hdedup] at hkey'
    obtain rfl := h.key_unique hkey hkey' hid.symm
    cases hkey.symm.trans hkey'
    exact hexpired

theorem turn_of_claim (h : Ledger c) {env : IngressEnv} {answer : ClaimAnswer}
    (hget : c.threads[i]? = some ⟨.parsed envelope, program, log⟩) (returned : List (Nat × Except Thrown _))
    (hlog : log = []) (hnew : env.reservationId ∉ c.state.made)
    (hclaim : (c.state.after env.elapsed).claim options envelope env.reservationId env.runId = (answer, s')) :
    Ledger ⟨s', c.threads.set i ⟨.parsed envelope, program', log ++ [⟨.claim envelope, answer⟩]⟩, returned⟩ := by
  have hkeep : ∀ key record, ((c.state.after env.elapsed).pruneExpired options).dedup.get? key = some record →
      Owned (c.threads.set i ⟨.parsed envelope, program', log ++ [⟨.claim envelope, answer⟩]⟩) key record :=
    fun key record hkey => owned_of_quiet hget rfl (h.owned key record (get?_pruneExpired_eq_some.mp hkey).1)
  have hprune : ∀ key record, ((c.state.after env.elapsed).pruneExpired options).dedup.get? key = some record →
      record.status = .claimed →
      ((c.state.after env.elapsed).pruneExpired options).reservations.get? record.claim.reservationId = some key :=
    fun key record => h.reserved_pruneExpired (s := c.state.after env.elapsed) rfl rfl
  cases claimEffect hclaim with
  | waits _ _ _ => exact h.turn hget returned (.of_none rfl) hkeep hprune
  | @duplicate record _ _ =>
    refine h.turn hget returned (.of_none ?_) hkeep hprune
    unfold toDuplicateResult
    split <;> rfl
  | replay => exact h.turn hget returned (.of_none rfl) hkeep hprune
  | claimed hnone _ _ =>
    refine h.turn hget returned ⟨fun id hid => List.mem_cons_of_mem _ hid, fun claim hclaim => .inr ?_⟩
      (fun key record hkey => ?_) fun key record hkey hstatus => ?_
    · rw [hlog] at hclaim
      cases hclaim
      exact ⟨hnew, List.mem_cons_self⟩
    · rw [Record.get?_set] at hkey
      split_ifs at hkey with hthis
      · cases hkey
        refine ⟨i, _, envelope, List.getElem?_set_self (List.getElem?_eq_some_iff.mp hget).1, rfl, hthis.symm, ?_, ?_⟩
        · rw [hlog]
          rfl
        · rw [hlog]
          rfl
      · exact hkeep key record hkey
    · rw [Record.get?_set] at hkey ⊢
      split_ifs at hkey with hthis
      · cases hkey
        rw [if_pos rfl, hthis]
      · rw [if_neg, hprune key record hkey hstatus]
        -- the reservation of an old record was made before
        obtain ⟨j, th, envelope', hj, -, -, hkept⟩ := h.owned key record (get?_pruneExpired_eq_some.mp hkey).1
        intro hid
        exact hnew (hid ▸ h.made th (List.mem_of_getElem? hj) _ hkept.1)

end Ledger

/-! ## Runs -/

variable {gatewayOptions : IngressGatewayOptions} {c c' : IngressConfig} {ls : List (Label IngressPayload IngressEnv)}
  {now : Int}

abbrev Fresh : IngressConfig → Label IngressPayload IngressEnv → Prop := Allows (fun _ => True) fun _ => NewIds

theorem asks_of_run (hrun : Run (gateway gatewayOptions).Step (start (IngressState.start now)) ls c) :
    ∀ th ∈ c.threads, th.program.Obeys (AsksFor th.task) th.log :=
  obeys_of_run (fun payload => (tells_submit payload).obeys) (by simp [start]) hrun

theorem ends_of_run (hrun : Run (gateway gatewayOptions).Step (start (IngressState.start now)) ls c) :
    ∀ th ∈ c.threads, th.program.Traces Ends th.log := by
  have hbody : ∀ payload, ((gateway gatewayOptions).body payload).Traces Ends [] :=
    fun payload => (tells_submit payload).traces
  exact traces_of_run hbody hrun

theorem asks_of_turn {t : IngressPayload} {o : IngressOp} {next : o.Answer → IngressCall IngressDispatchOutcome}
    {log : IngressLog} (h : (Async.call o next).Obeys (AsksFor t) log) :
    ∃ envelope, t = .parsed envelope ∧ Asks envelope log o := by
  cases t with
  | malformed triggerId => exact h.1.elim
  | parsed envelope => exact ⟨envelope, rfl, h.1⟩

theorem Ledger.step {l : Label IngressPayload IngressEnv} (h : Ledger c)
    (hasks : ∀ th ∈ c.threads, th.program.Obeys (AsksFor th.task) th.log) (hfresh : Fresh c l)
    (hstep : (gateway gatewayOptions).Step c l c') : Ledger c' := by
  have hstepped := stepped_of_step hstep
  clear hstep
  cases hstepped with
  | begin t =>
    refine ⟨fun th hth claim hclaim => ?_, fun i j th th' claim claim' hi hj hclaim hclaim' => ?_, ?_, h.reserved⟩
    · rcases List.mem_append.mp hth with hold | hnew
      · exact h.made th hold claim hclaim
      · rw [List.mem_singleton.mp hnew] at hclaim
        cases hclaim
    · have hold : ∀ {k : Nat} {u : IngressThread} {claim : Claim}, claimOf u.log = some claim →
          (c.threads ++ [(gateway gatewayOptions).thread t])[k]? = some u → c.threads[k]? = some u := by
        intro k u claim hclaim hk
        by_cases hlt : k < c.threads.length
        · rwa [List.getElem?_append_left hlt] at hk
        · rw [List.getElem?_append_right (by omega)] at hk
          rw [List.mem_singleton.mp (List.mem_of_getElem? hk)] at hclaim
          cases hclaim
      exact h.unique i j th th' claim claim' (hold hclaim hi) (hold hclaim' hj) hclaim hclaim'
    · intro key record hkey
      obtain ⟨i, th, envelope, hi, hrest⟩ := h.owned key record hkey
      refine ⟨i, th, envelope, ?_, hrest⟩
      rw [List.getElem?_append_left (List.getElem?_eq_some_iff.mp hi).1, hi]
  | @turn i env t log o next r s' hget hblocked hanswers =>
    obtain ⟨envelope, rfl, hclosed, hasks⟩ := asks_of_turn (hasks _ (List.mem_of_getElem? hget))
    have hnew := hfresh _ hget
    show Ledger ⟨_, c.threads.set i ⟨_, next r, log ++ [⟨o, r⟩]⟩ ++ [], _⟩
    rw [List.append_nil]
    cases o with
    | claim envelope' =>
      obtain ⟨rfl, hlog⟩ := hasks
      exact h.turn_of_claim hget _ hlog hnew (Option.some.inj hanswers)
    | poll key waitUntil =>
      cases hanswers
      exact h.turn_of_same hget _ rfl rfl rfl rfl rfl
    | commitDispatch reservationId dispatchRef evidenceRef =>
      obtain ⟨claim, hclaim, rfl, -⟩ := hasks
      cases hanswers
      exact h.turn_of_commit hget _ hclaim hclosed rfl
    | releaseClaim reservationId reasonCode =>
      obtain ⟨claim, hclaim, rfl, -⟩ := hasks
      cases hanswers
      exact h.turn_of_release hget _ hclaim hclosed rfl
    | makeExecution =>
      cases hanswers
      exact h.turn_of_same hget _ rfl rfl rfl rfl rfl
    | _ =>
      cases hanswers
      exact h.turn_of_same hget _ rfl rfl rfl rfl rfl

/-- **The ledger.** In every interleaving every record of the store is that of the submission that obtained its
claim. -/
theorem ledger_of_run (hrun : Run (Guarded (gateway gatewayOptions).Step Fresh) (start (IngressState.start now)) ls c) :
    Ledger c := by
  induction hrun with
  | nil => exact ledger_start now
  | snoc hrun hstep ih => exact ih.step (asks_of_run hrun.forget_guard) hstep.2 hstep.1

end NousCore.Ingress
