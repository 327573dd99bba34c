import NousCore.Memory.Runtime

/-!
# What the calls of the runtime do

Each request is answered, or rejected with the state as it was: one rule for each (`meets_write`, `meets_read`, …). From
these, once for all that is shown of the runtime:

* `Idle` : a request that changes nothing but the audit;
* `meets_mutate` : a mutation ends in one of these ways.
-/

namespace NousCore.Memory

open Async

/-- A call of the runtime is not disturbed, and the ids that it makes are new. -/
abbrev calm : Contract LtmOp.Answer LtmEnv LtmState := .within NewIds

variable {runtime : LtmRuntime} {l : Log LtmOp.Answer} {s : LtmState}

/-! ## Requests -/

theorem meets_makeId {post : Log LtmOp.Answer → Except String String → LtmState → Prop}
    (h : ∀ id, Unused s id → post (l ++ [⟨.makeId, id⟩]) (.ok id) s) : makeId.Meets answers calm post l s := by
  refine meets_within_call fun x r s' hanswers hnew => ?_
  cases hanswers
  exact h _ hnew

theorem meets_now {post : Log LtmOp.Answer → Except String IsoTime → LtmState → Prop}
    (h : ∀ time, post (l ++ [⟨.now, time⟩]) (.ok time) s) : now.Meets answers calm post l s := by
  refine meets_within_call fun x r s' hanswers _ => ?_
  cases hanswers
  exact h _

section Requests

variable {message : String}

theorem meets_guard {request : MemoryMutationRequest}
    {post : Log LtmOp.Answer → Except String MutationDecision → LtmState → Prop}
    (h : ∀ answer, post (l ++ [⟨.guard request, answer⟩]) answer s) : (guard request).Meets answers calm post l s := by
  refine meets_within_call fun x r s' hanswers _ => ?_
  dsimp only [answers] at hanswers
  refine (meets_unwrap r).mpr ?_
  split at hanswers <;> obtain ⟨rfl, rfl⟩ := Prod.mk.inj (Option.some.inj hanswers) <;> exact h _

variable {id : String}

theorem meets_read
    {post : Log LtmOp.Answer → Except String (Option { e : MemoryEntry // e.id = id }) → LtmState → Prop}
    (hok : post (l ++ [⟨.read id, .ok (s.entries.get id)⟩]) (.ok (s.entries.get id)) s)
    (herr : ∀ message, post (l ++ [⟨.read id, .error message⟩]) (.error message) s) :
    (read id).Meets answers calm post l s := by
  refine meets_within_call fun x r s' hanswers _ => ?_
  dsimp only [answers] at hanswers
  refine (meets_unwrap r).mpr ?_
  split at hanswers <;> cases hanswers
  · exact herr _
  · exact hok

variable {post : Log LtmOp.Answer → Except String Unit → LtmState → Prop}

theorem meets_write {entry : MemoryEntry}
    (hok : ∀ parsed, parseEntryForWrite entry = .ok parsed →
      post (l ++ [⟨.write entry, .ok ()⟩]) (.ok ()) { s with entries := s.entries.put parsed })
    (herr : ∀ message, post (l ++ [⟨.write entry, .error message⟩]) (.error message) s) :
    (write entry).Meets answers calm post l s := by
  refine meets_within_call fun x r s' hanswers _ => ?_
  dsimp only [answers] at hanswers
  refine (meets_unwrap r).mpr ?_
  split at hanswers
  · cases hanswers
    exact herr _
  · cases hanswers
    exact herr _
  · rename_i parsed _ hparsed
    cases hanswers
    exact hok parsed hparsed

theorem meets_createTombstone {tombstone : MemoryTombstone}
    (hok : post (l ++ [⟨.createTombstone tombstone, .ok ()⟩]) (.ok ())
      { s with tombstones := s.tombstones.put tombstone })
    (herr : ∀ message, post (l ++ [⟨.createTombstone tombstone, .error message⟩]) (.error message) s) :
    (createTombstone tombstone).Meets answers calm post l s := by
  refine meets_within_call fun x r s' hanswers _ => ?_
  dsimp only [answers] at hanswers
  refine (meets_unwrap r).mpr ?_
  split at hanswers <;> cases hanswers
  · exact herr _
  · exact hok

theorem meets_appendAuditRecord {record : AppendAuditRecordInput}
    (hok : ∀ audit, post (l ++ [⟨.appendAuditRecord record, .ok ()⟩]) (.ok ()) { s with audit := audit })
    (herr : ∀ message, post (l ++ [⟨.appendAuditRecord record, .error message⟩]) (.error message) s) :
    (appendAuditRecord record).Meets answers calm post l s := by
  refine meets_within_call fun x r s' hanswers _ => ?_
  dsimp only [answers] at hanswers
  refine (meets_unwrap r).mpr ?_
  split at hanswers <;> cases hanswers
  · exact herr _
  · exact hok _

theorem meets_embed {text : String} {post : Log LtmOp.Answer → Except String Embedding → LtmState → Prop}
    (h : ∀ answer, post (l ++ [⟨.embed text, answer⟩]) answer s) : (embed text).Meets answers calm post l s := by
  refine meets_within_call fun x r s' hanswers _ => ?_
  dsimp only [answers] at hanswers
  refine (meets_unwrap r).mpr ?_
  split at hanswers <;> obtain ⟨rfl, rfl⟩ := Prod.mk.inj (Option.some.inj hanswers) <;> exact h _

theorem meets_upsert {record : VectorRecord}
    (hok : post (l ++ [⟨.upsert id record, .ok ()⟩]) (.ok ()) { s with index := s.index.set id record })
    (herr : ∀ message, post (l ++ [⟨.upsert id record, .error message⟩]) (.error message) s) :
    (upsert id record).Meets answers calm post l s := by
  refine meets_within_call fun x r s' hanswers _ => ?_
  dsimp only [answers] at hanswers
  refine (meets_unwrap r).mpr ?_
  split at hanswers <;> cases hanswers
  · exact herr _
  · exact hok

theorem meets_deleteVector
    (hok : post (l ++ [⟨.deleteVector id, .ok ()⟩]) (.ok ()) { s with index := s.index.erase id })
    (herr : ∀ message, post (l ++ [⟨.deleteVector id, .error message⟩]) (.error message) s) :
    (deleteVector id).Meets answers calm post l s := by
  refine meets_within_call fun x r s' hanswers _ => ?_
  dsimp only [answers] at hanswers
  refine (meets_unwrap r).mpr ?_
  split at hanswers <;> cases hanswers
  · exact herr _
  · exact hok

end Requests

/-! ## Requests that change nothing -/

/-- A request that changes nothing but the audit: it asks for something, or it is rejected. -/
def Idle : Sigma LtmOp.Answer → Prop
  | ⟨.write _, .ok _⟩ | ⟨.createTombstone _, .ok _⟩ | ⟨.upsert _ _, .ok _⟩ | ⟨.deleteVector _, .ok _⟩ => False
  | _ => True

def Idles (l : Log LtmOp.Answer) : Prop := ∀ e ∈ l, Idle e

theorem idles_nil : Idles [] := fun _ he => absurd he List.not_mem_nil

variable {l₁ : Log LtmOp.Answer}

theorem Idles.snoc {e : Sigma LtmOp.Answer} (h : Idles l₁) (he : Idle e) : Idles (l₁ ++ [e]) :=
  List.forall_mem_append.mpr ⟨h, fun _ he' => List.mem_singleton.mp he' ▸ he⟩

theorem idles_one {e : Sigma LtmOp.Answer} (he : Idle e) : Idles [e] := idles_nil.snoc he

variable {α : Type} {request : MemoryMutationRequest}

theorem meets_target {f : (id : String) → { e : MemoryEntry // e.id = id } → LtmCall α}
    {post : Log LtmOp.Answer → Except String α → LtmState → Prop}
    (hok : ∀ e l', request.targetEntryId = some e.id → s.entries.find? e.id = some e → Idles l' →
      (f e.id ⟨e, rfl⟩).Meets answers calm post (l ++ l') s)
    (herr : ∀ l' message, Idles l' → post (l ++ l') (.error message) s) :
    (requireTarget request >>= fun id => readEntryOrThrow id >>= f id).Meets answers calm post l s := by
  unfold requireTarget
  cases htarget : request.targetEntryId with
  | none => simpa using herr [] "MEM-TARGET-REQUIRED" idles_nil
  | some id =>
    unfold readEntryOrThrow
    rw [pure_bind', meets_bind, meets_bind]
    refine meets_read ?_ fun message => herr _ _ (idles_one trivial)
    cases hget : s.entries.get id with
    | none => exact herr _ _ (idles_one trivial)
    | some e =>
      obtain ⟨e, rfl⟩ := e
      exact hok e _ htarget (Collection.find?_of_get hget) (idles_one trivial)

theorem meets_candidate {f : MemoryWriteCandidate → LtmCall α}
    {post : Log LtmOp.Answer → Except String α → LtmState → Prop}
    (hok : ∀ candidate, (f candidate).Meets answers calm post l s) (herr : ∀ message, post l (.error message) s) :
    (requireCandidate request >>= f).Meets answers calm post l s := by
  unfold requireCandidate
  cases request.replacementCandidate with
  | none => exact herr _
  | some candidate => exact hok candidate

theorem meets_embedText {dimensions : Nat} {text : String}
    {post : Log LtmOp.Answer → Except String EmbedTextResult → LtmState → Prop}
    (h : ∀ l' y, Idles l' → post (l ++ l') y s) :
    (embedText runtime dimensions text).Meets answers calm post l s := by
  unfold embedText
  dsimp only
  split_ifs with hempty
  · rw [meets_throw]
    simpa using h [] (.error _) idles_nil
  · rw [meets_bind]
    refine meets_embed fun answer => ?_
    cases answer with
    | error message => exact h _ _ (idles_one trivial)
    | ok vector =>
      have hembed : Idles [(⟨.embed (normalizeText text), .ok vector⟩ : Sigma LtmOp.Answer)] := idles_one trivial
      dsimp only
      split_ifs with hdimensions
      · exact h _ _ hembed
      · rw [meets_bind]
        refine meets_makeId fun id _ => ?_
        rw [meets_bind]
        refine meets_now fun time => ?_
        rw [List.append_assoc, List.append_assoc]
        exact h _ _ ((hembed.snoc (e := ⟨.makeId, id⟩) trivial).snoc (e := ⟨.now, time⟩) trivial)

/-! ## Storing a candidate -/

/-- An entry that a candidate has become. -/
structure NewEntry (e : MemoryEntry) : Prop where
  status : e.lifecycleStatus = .active
  supersededBy : e.supersededBy = none
  patternRefs : e.patternRefs = none

/-- The entry is what the candidate becomes, under an id that is not in use. -/
structure Prepared (candidate : MemoryWriteCandidate) (projectId : Option String) (s : LtmState) (e : MemoryEntry) :
    Prop where
  new : NewEntry e
  unused : Unused s e.id
  scope : e.scope = candidate.scope
  project : e.projectId = resolveEntryProjectId candidate projectId

/-- The vector record says where the entry is placed. -/
def RecordOf (e : MemoryEntry) (record : VectorRecord) : Prop :=
  record.memoryType = e.type ∧ record.scope = e.scope ∧ record.projectId = e.projectId

section

variable (candidate : MemoryWriteCandidate) (projectId : Option String) (s : LtmState) (l : Log LtmOp.Answer)

/-- How the storing of a candidate ends. -/
inductive Persisted : Log LtmOp.Answer → Except String MemoryEntry → LtmState → Prop
  | refused {l₁ message} : Idles l₁ → Persisted (l ++ l₁) (.error message) s
  | stored {l₁ e} : Idles l₁ → Prepared candidate projectId s e → parseEntryForWrite e = .ok e →
      Persisted (l ++ l₁ ++ [⟨.write e, .ok ()⟩]) (.ok e) { s with entries := s.entries.put e }
  | indexed {l₁ e record} : Idles l₁ → Prepared candidate projectId s e → RecordOf e record →
      parseEntryForWrite e = .ok e →
      Persisted (l ++ l₁ ++ [⟨.upsert e.id record, .ok ()⟩] ++ [⟨.write e, .ok ()⟩]) (.ok e)
        { s with entries := s.entries.put e, index := s.index.set e.id record }
  /-- The entry was rejected, and its vector was removed. -/
  | undone {l₁ id record e message} : Idles l₁ → Unused s id → Persisted
      (l ++ l₁ ++ [⟨.upsert id record, .ok ()⟩] ++ [⟨.write e, .error message⟩] ++ [⟨.deleteVector id, .ok ()⟩])
      (.error message) { s with index := (s.index.set id record).erase id }
  /-- Its vector was not removed. -/
  | torn {l₁ id record e message message'} : Idles l₁ → Unused s id → Persisted
      (l ++ l₁ ++ [⟨.upsert id record, .ok ()⟩] ++ [⟨.write e, .error message⟩] ++ [⟨.deleteVector id, .error message'⟩])
      (.error message) { s with index := s.index.set id record }

end

theorem parseSupportedCandidate_eq {candidate validated : MemoryWriteCandidate}
    (h : parseSupportedCandidate candidate = .ok validated) : validated = candidate := by
  unfold parseSupportedCandidate at h
  split_ifs at h
  exact (Except.ok.inj h).symm

theorem meets_writePrepared {e : MemoryEntry} {post : Log LtmOp.Answer → Except String MemoryEntry → LtmState → Prop}
    (hok : ∀ parsed, parseEntryForWrite e = .ok parsed →
      post (l ++ [⟨.write e, .ok ()⟩]) (.ok e) { s with entries := s.entries.put parsed })
    (herr : runtime.vectorIndexing = none → ∀ message,
      post (l ++ [⟨.write e, .error message⟩]) (.error message) s)
    (hundone : runtime.vectorIndexing ≠ none → ∀ message,
      post (l ++ [⟨.write e, .error message⟩] ++ [⟨.deleteVector e.id, .ok ()⟩]) (.error message)
        { s with index := s.index.erase e.id } ∧
      ∀ message', post (l ++ [⟨.write e, .error message⟩] ++ [⟨.deleteVector e.id, .error message'⟩]) (.error message) s) :
    (writePrepared runtime e >>= fun _ => pure e).Meets answers calm post l s := by
  unfold writePrepared rollbackVectorIndex
  rw [meets_bind, meets_bind, meets_attempt]
  refine meets_write hok fun message => ?_
  cases hindexing : runtime.vectorIndexing with
  | none => exact herr hindexing message
  | some dimensions =>
    dsimp only
    rw [meets_bind, meets_bind, meets_attempt]
    have hdeleted := hundone (by rw [hindexing]; nofun) message
    exact meets_deleteVector hdeleted.1 hdeleted.2

theorem meets_persistCandidate {candidate : MemoryWriteCandidate} {projectId : Option String} {mutationId : String}
    {time : IsoTime} : (persistCandidate runtime candidate projectId mutationId time).Meets answers calm
      (Persisted candidate projectId s l) l s := by
  unfold persistCandidate
  rw [meets_bind, meets_unwrap]
  cases hparse : parseSupportedCandidate candidate with
  | error message => simpa using Persisted.refused (l := l) idles_nil
  | ok validated =>
    obtain rfl := parseSupportedCandidate_eq hparse
    dsimp only
    rw [meets_bind]
    refine meets_makeId fun id hid => ?_
    have hmade : Idles [⟨.makeId, id⟩] := idles_one trivial
    unfold prepareVectorIndexing
    cases hindexing : runtime.vectorIndexing with
    | none =>
      refine meets_writePrepared (fun parsed hparsed => ?_) (fun _ message => ?_) fun hne => absurd hindexing hne
      · obtain ⟨rfl, -⟩ := parse_of_no_refs rfl hparsed
        exact .stored hmade ⟨⟨rfl, rfl, rfl⟩, hid, rfl, rfl⟩ hparsed
      · rw [List.append_assoc]
        exact .refused (hmade.snoc trivial)
    | some dimensions =>
      dsimp only
      rw [meets_bind, meets_bind]
      refine meets_embedText fun l₁ y hl₁ => ?_
      rw [List.append_assoc]
      have hidles := List.forall_mem_append.mpr ⟨hmade, hl₁⟩
      cases y with
      | error message => exact .refused hidles
      | ok embedded =>
        dsimp only
        rw [meets_bind]
        refine meets_upsert (meets_writePrepared (fun parsed hparsed => ?_) (fun hnone => ?_) fun _ message =>
          ⟨.undone hidles hid, fun message' => .torn hidles hid⟩) fun message => ?_
        · obtain ⟨rfl, -⟩ := parse_of_no_refs rfl hparsed
          exact .indexed hidles ⟨⟨rfl, rfl, rfl⟩, hid, rfl, rfl⟩ ⟨rfl, rfl, rfl⟩ hparsed
        · cases hindexing.symm.trans hnone
        · rw [List.append_assoc]
          exact .refused (Idles.snoc hidles trivial)

/-! ## The actions -/

/-- A hard deletion is refused for the other mutability classes. -/
def Deletable (e : MemoryEntry) : Prop :=
  e.mutabilityClass ≠ .evidenceImmutable ∧ e.mutabilityClass ≠ .deletionTombstone

variable {mutationId : String} {time : IsoTime}

section

variable (runtime : LtmRuntime) (request : MemoryMutationRequest) (mutationId : String) (time : IsoTime) (s : LtmState)
  (l : Log LtmOp.Answer)

/-- How an action ends. -/
inductive Applied : Log LtmOp.Answer → Except String AppliedMutation → LtmState → Prop
  | refused {l₁ message} : Idles l₁ → Applied (l ++ l₁) (.error message) s
  | unpersisted {candidate projectId l₁ l' message t} : Idles l₁ →
      Persisted candidate projectId s (l ++ l₁) l' (.error message) t → Applied l' (.error message) t
  | created {candidate l' e a t} : request.action = .create → Persisted candidate request.projectId s l l' (.ok e) t →
      Applied l' (.ok a) t
  | superseded {candidate l₁ l' a t parsed} {previous e : MemoryEntry} : request.action = .supersede →
      request.targetEntryId = some previous.id → s.entries.find? previous.id = some previous →
      previous.lifecycleStatus = .active → Idles l₁ →
      Persisted candidate (request.projectId.or previous.projectId) s (l ++ l₁) l' (.ok e) t →
      parseEntryForWrite (superseded previous e.id mutationId time) = .ok parsed →
      Applied (l' ++ [⟨.write (superseded previous e.id mutationId time), .ok ()⟩]) (.ok a)
        { t with entries := t.entries.put parsed }
  /-- The replacement was stored, and then the superseded entry was rejected. -/
  | replaced {candidate projectId l₁ l' e e' message t} : Idles l₁ →
      Persisted candidate projectId s (l ++ l₁) l' (.ok e) t → Applied (l' ++ [⟨.write e', .error message⟩]) (.error message) t
  | rewritten {l₁ e' parsed a} {e : MemoryEntry} :
      request.action = .softDelete ∧ e' = deleted e none mutationId time ∨
        (request.action = .promoteGlobal ∨ request.action = .demoteProject) ∧ e' = moved e request mutationId time →
      request.targetEntryId = some e.id → s.entries.find? e.id = some e → Idles l₁ →
      parseEntryForWrite e' = .ok parsed →
      Applied (l ++ l₁ ++ [⟨.write e', .ok ()⟩]) (.ok a) { s with entries := s.entries.put parsed }
  | hardDeleted {l₁ parsed a} {e : MemoryEntry} {tombstone : MemoryTombstone} : request.action = .hardDelete →
      request.targetEntryId = some e.id → s.entries.find? e.id = some e → Deletable e →
      s.tombstones.find? tombstone.id = none → tombstone.targetContentHash = runtime.sha256 e.content → Idles l₁ →
      parseEntryForWrite (deleted e (some tombstone.id) mutationId time) = .ok parsed →
      Applied (l ++ l₁ ++ [⟨.createTombstone tombstone, .ok ()⟩] ++
          [⟨.write (deleted e (some tombstone.id) mutationId time), .ok ()⟩]) (.ok a)
        { s with tombstones := s.tombstones.put tombstone, entries := s.entries.put parsed }
  /-- The tombstone stays, when the entry is rejected. -/
  | entombed {l₁ e message} {tombstone : MemoryTombstone} : Idles l₁ → s.tombstones.find? tombstone.id = none →
      Applied (l ++ l₁ ++ [⟨.createTombstone tombstone, .ok ()⟩] ++ [⟨.write e, .error message⟩]) (.error message)
        { s with tombstones := s.tombstones.put tombstone }

end

theorem meets_create (haction : request.action = .create) : (create runtime request mutationId time).Meets answers calm
    (Applied runtime request mutationId time s l) l s := by
  unfold create
  refine meets_candidate (fun candidate => ?_) fun message => by simpa using Applied.refused (l := l) idles_nil
  rw [meets_bind]
  refine (meets_persistCandidate).mono fun l' y t h => ?_
  cases y with
  | error message => exact .unpersisted idles_nil (by simpa using h)
  | ok created => exact .created haction h

theorem meets_supersede (haction : request.action = .supersede) : (supersede runtime request mutationId time).Meets
    answers calm (Applied runtime request mutationId time s l) l s := by
  unfold supersede requireCandidate
  cases request.replacementCandidate with
  | none =>
    unfold requireTarget
    cases request.targetEntryId <;> simpa using Applied.refused (l := l) idles_nil
  | some candidate =>
    simp only [pure_bind']
    refine meets_target (fun previous l₁ htarget hprevious hl₁ => ?_) fun l₁ message hl₁ => .refused hl₁
    split_ifs with hmutability hactive
    · exact .refused hl₁
    · exact .refused hl₁
    · rw [meets_bind]
      refine (meets_persistCandidate).mono fun l₂ y t h => ?_
      cases y with
      | error message => exact .unpersisted hl₁ h
      | ok e =>
        dsimp only
        rw [meets_bind]
        exact meets_write (fun parsed hparsed => .superseded haction htarget hprevious (not_not.mp hactive) hl₁ h hparsed)
          fun message => .replaced hl₁ h

theorem meets_rewrite {f : MemoryEntry → MemoryEntry}
    (hf : ∀ e, request.action = .softDelete ∧ f e = deleted e none mutationId time ∨
      (request.action = .promoteGlobal ∨ request.action = .demoteProject) ∧ f e = moved e request mutationId time) :
    (requireTarget request >>= fun id => readEntryOrThrow id >>= fun existing => write (f existing.val) >>= fun _ =>
      pure ⟨some existing.val.id, none, false⟩).Meets answers calm (Applied runtime request mutationId time s l) l s := by
  refine meets_target (fun e l₁ htarget he hl₁ => ?_) fun l₁ message hl₁ => .refused hl₁
  rw [meets_bind]
  refine meets_write (fun parsed hparsed => .rewritten (hf e) htarget he hl₁ hparsed) fun message => ?_
  rw [List.append_assoc]
  exact .refused (hl₁.snoc trivial)

theorem meets_hardDelete (haction : request.action = .hardDelete) : (hardDelete runtime request mutationId time).Meets
    answers calm (Applied runtime request mutationId time s l) l s := by
  refine meets_target (fun e l₁ htarget he hl₁ => ?_) fun l₁ message hl₁ => .refused hl₁
  split_ifs with himmutable
  · exact .refused hl₁
  · rw [meets_bind]
    refine meets_makeId fun tombstoneId hunused => ?_
    have hl₂ := hl₁.snoc (e := ⟨.makeId, tombstoneId⟩) trivial
    rw [List.append_assoc]
    dsimp only
    rw [meets_bind]
    refine meets_createTombstone ?_ fun message => ?_
    · rw [meets_bind]
      exact meets_write (fun parsed hparsed => .hardDeleted haction htarget he (not_or.mp himmutable)
        hunused.tombstones rfl hl₂ hparsed) fun message => .entombed hl₂ hunused.tombstones
    · rw [List.append_assoc]
      exact .refused (hl₂.snoc trivial)

/-- **Every way in which an action can end.** -/
theorem meets_applyMutation : (applyMutation runtime request mutationId time).Meets answers calm
    (Applied runtime request mutationId time s l) l s := by
  unfold applyMutation
  cases haction : request.action with
  | create => exact meets_create haction
  | supersede => exact meets_supersede haction
  | softDelete => exact meets_rewrite fun e => .inl ⟨haction, rfl⟩
  | hardDelete => exact meets_hardDelete haction
  | promoteGlobal => exact meets_rewrite fun e => .inr ⟨.inl haction, rfl⟩
  | demoteProject => exact meets_rewrite fun e => .inr ⟨.inr haction, rfl⟩
  | compactStm => simpa using Applied.refused (l := l) idles_nil

/-! ## Requests to mutate -/

def IdOf (request : MemoryMutationRequest) (s : LtmState) (mutationId : String) : Prop :=
  request.id = some mutationId ∨ Unused s mutationId

/-- The call throws, or says that nothing was applied. -/
def NotApplied : Except String GovernedTypedLtmMutationResult → Prop
  | .ok r => r.applied = false
  | .error _ => True

section

variable (runtime : LtmRuntime) (request : MemoryMutationRequest) (mutationId : String) (time : IsoTime) (s : LtmState)
  (l : Log LtmOp.Answer)

/-- How a request ends that is put to the guard. -/
inductive Recorded : Log LtmOp.Answer → Except String GovernedTypedLtmMutationResult → LtmState → Prop
  | refused {l₁ y audit} : Idles l₁ → NotApplied y → Recorded (l ++ l₁) y { s with audit := audit }
  | applied {l₁ l' a r record audit} {t : LtmState} : Idles l₁ →
      Applied runtime request mutationId time s (l ++ l₁) l' (.ok a) t → r.applied = true →
      Recorded (l' ++ [⟨.appendAuditRecord record, .ok ()⟩]) (.ok r) { t with audit := audit }
  | failed {l₁ l' l₂ message y audit} {t : LtmState} : Idles l₁ →
      Applied runtime request mutationId time s (l ++ l₁) l' (.error message) t → Idles l₂ → NotApplied y →
      Recorded (l' ++ l₂) y { t with audit := audit }
  /-- The action was performed, and then its record was rejected. -/
  | unrecorded {l₁ l' l₂ a record message y audit} {t : LtmState} : Idles l₁ →
      Applied runtime request mutationId time s (l ++ l₁) l' (.ok a) t → NotApplied y →
      Recorded (l' ++ [⟨.appendAuditRecord record, .error message⟩] ++ l₂) y { t with audit := audit }

end

theorem meets_decideAndApply : (decideAndApply runtime request mutationId time).Meets answers calm
    (Recorded runtime { request with id := some mutationId, requestedAt := some time } mutationId time s l) l s := by
  unfold decideAndApply
  rw [meets_bind]
  refine meets_guard fun answer => ?_
  cases answer with
  | error message => exact .refused (idles_one trivial) trivial
  | ok decision =>
    have hguarded : Idles [⟨.guard { request with id := some mutationId, requestedAt := some time }, .ok decision⟩] :=
      idles_one trivial
    dsimp only
    split_ifs with hdenied
    · rw [meets_bind]
      refine meets_appendAuditRecord (fun audit => ?_) fun message => ?_
      · rw [List.append_assoc]
        exact .refused (hguarded.snoc trivial) rfl
      · rw [List.append_assoc]
        exact .refused (hguarded.snoc trivial) trivial
    · unfold applyAndRecord
      rw [meets_bind, meets_attempt, meets_bind]
      refine (meets_applyMutation).mono fun l' y t h => ?_
      cases y with
      | error message =>
        dsimp only
        rw [meets_bind]
        exact meets_appendAuditRecord (fun audit => .failed hguarded h (idles_one trivial) rfl) fun message' =>
          .failed hguarded h (idles_one trivial) trivial
      | ok applied =>
        dsimp only
        rw [meets_bind]
        refine meets_appendAuditRecord (fun audit => .applied hguarded h rfl) fun message => ?_
        dsimp only
        rw [meets_bind]
        exact meets_appendAuditRecord (fun audit => .unrecorded hguarded h rfl) fun message' =>
          .unrecorded hguarded h trivial

/-- The request that is put to the guard, with the id of its mutation. -/
structure Completes (request : MemoryMutationRequest) (projectId : Option String) (s : LtmState)
    (request' : MemoryMutationRequest) (mutationId : String) : Prop where
  id : IdOf request s mutationId
  action : request'.action = request.action
  target : request'.targetEntryId = request.targetEntryId
  project : ∀ project, request.projectId.or projectId = some project → request'.projectId = some project

theorem meets_normalizeRequest {post : Log LtmOp.Answer → Except String MemoryMutationRequest → LtmState → Prop}
    (hok : ∀ l₁ projectId, Idles l₁ → (request.projectId.isSome = true → projectId = request.projectId) →
      post (l ++ l₁) (.ok { request with projectId := projectId }) s)
    (herr : ∀ l' message, post l' (.error message) s) :
    (normalizeRequest request).Meets answers calm post l s := by
  unfold normalizeRequest
  split
  · rename_i hnone _
    rw [meets_bind]
    refine meets_read (hok _ _ (idles_one trivial) fun hsome => ?_) fun message => herr _ _
    rw [hnone] at hsome
    cases hsome
  · simpa using hok [] request.projectId idles_nil fun _ => rfl

/-- **Every way in which a mutation can end.** -/
theorem meets_mutate {projectId : Option String}
    {post : Log LtmOp.Answer → Except String GovernedTypedLtmMutationResult → LtmState → Prop}
    (h : ∀ l₁ request' mutationId time l' y t, Idles l₁ → Completes request projectId s request' mutationId →
      Recorded runtime request' mutationId time s (l ++ l₁) l' y t → post l' y t)
    (herr : ∀ l' message, post l' (.error message) s) :
    (mutate runtime request projectId).Meets answers calm post l s := by
  unfold mutate
  rw [meets_bind]
  refine meets_normalizeRequest (fun l₁ project hl₁ hsome => ?_) herr
  have hproject : ∀ project', request.projectId.or projectId = some project' → project = some project' := by
    intro project' hproject'
    rw [hsome (hproject' ▸ rfl), hproject']
  have hdecided : ∀ (l₁ : Log LtmOp.Answer) request' mutationId time, Idles l₁ →
      Completes request projectId s request' mutationId →
      (decideAndApply runtime request' mutationId time).Meets answers calm post (l ++ l₁) s :=
    fun l₁ request' mutationId time hl₁ hcompletes => (meets_decideAndApply).mono fun l' y t =>
      h l₁ { request' with id := some mutationId, requestedAt := some time } mutationId time l' y t hl₁
        ⟨hcompletes.id, hcompletes.action, hcompletes.target, hcompletes.project⟩
  have hnow : ∀ (l₁ : Log LtmOp.Answer) request' mutationId, Idles l₁ →
      Completes request projectId s request' mutationId →
      (now >>= fun time => decideAndApply runtime request' mutationId time).Meets answers calm post (l ++ l₁) s := by
    intro l₁ request' mutationId hl₁ hcompletes
    rw [meets_bind]
    refine meets_now fun time => ?_
    rw [List.append_assoc]
    exact hdecided _ request' mutationId time (hl₁.snoc (e := ⟨.now, time⟩) trivial) hcompletes
  dsimp only
  split
  · rename_i id hid
    rw [pure_bind']
    split
    · exact hdecided l₁ _ id _ hl₁ ⟨.inl hid, rfl, rfl, hproject⟩
    · exact hnow l₁ _ id hl₁ ⟨.inl hid, rfl, rfl, hproject⟩
  · rw [meets_bind]
    refine meets_makeId fun id hunused => ?_
    rw [List.append_assoc]
    have hl₂ := hl₁.snoc (e := ⟨.makeId, id⟩) trivial
    dsimp only
    split
    · exact hdecided _ _ id _ hl₂ ⟨.inr hunused, rfl, rfl, hproject⟩
    · exact hnow _ _ id hl₂ ⟨.inr hunused, rfl, rfl, hproject⟩

end NousCore.Memory
