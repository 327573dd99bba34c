import NousCore.Memory.Rules

/-!
# Mutations that fail

* `Trail`, `trail` : what a log says has been written, and whether something was rejected after that;
* `unchanged_of_not_applied` : a mutation that is not applied changes nothing when nothing was rejected too late, and
  only then.
-/

namespace NousCore.Memory

open Async

variable {runtime : LtmRuntime} {l : Log LtmOp.Answer} {s s₀ : LtmState}

/-! ## Trails -/

inductive Trail where
  | untouched
  /-- The vector of an entry is in the index. -/
  | indexed
  /-- The entry was rejected, and its vector is to be removed. -/
  | undoing
  | written
  /-- A request was rejected after a write. -/
  | torn

def rejects : (o : LtmOp) → o.Answer → Bool
  | .guard _, .error _ | .read _, .error _ | .write _, .error _ | .createTombstone _, .error _
  | .appendAuditRecord _, .error _ | .embed _, .error _ | .upsert _ _, .error _ | .deleteVector _, .error _ => true
  | _, _ => false

def Trail.next : Trail → Sigma LtmOp.Answer → Trail
  | .untouched, ⟨.upsert _ _, .ok _⟩ => .indexed
  | .untouched, ⟨.write _, .ok _⟩ => .written
  | .untouched, ⟨.createTombstone _, .ok _⟩ => .written
  | .indexed, ⟨.write _, .ok _⟩ => .written
  | .indexed, ⟨.write _, .error _⟩ => .undoing
  | .undoing, ⟨.deleteVector _, .ok _⟩ => .untouched
  | .undoing, ⟨.deleteVector _, .error _⟩ => .torn
  | .written, ⟨o, r⟩ => if rejects o r then .torn else .written
  | t, _ => t

def trail (l : Log LtmOp.Answer) : Trail := l.foldl Trail.next .untouched

/-- No request is rejected once something has been written, but an entry whose vector is then removed. -/
def NothingRejectedLate (l : Log LtmOp.Answer) : Prop := trail l ≠ .torn

theorem trail_append (l l' : Log LtmOp.Answer) : trail (l ++ l') = l'.foldl Trail.next (trail l) := List.foldl_append

theorem trail_snoc (l : Log LtmOp.Answer) (e : Sigma LtmOp.Answer) : trail (l ++ [e]) = (trail l).next e := by
  rw [trail_append, List.foldl_cons, List.foldl_nil]

variable {l₁ : Log LtmOp.Answer}

theorem trail_of_idles (hl : trail l = .untouched) (h : Idles l₁) : trail (l ++ l₁) = .untouched := by
  rw [trail_append, hl]
  clear hl
  induction l₁ with
  | nil => rfl
  | cons e l₁ ih =>
    have hnext : Trail.next .untouched e = .untouched := by
      obtain ⟨o, r⟩ := e
      have hidle := h _ List.mem_cons_self
      cases o with
      | write | createTombstone | upsert | deleteVector =>
        cases r with
        | ok _ => exact hidle.elim
        | error _ => rfl
      | _ => rfl
    rw [List.foldl_cons, hnext]
    exact ih fun e he => h e (List.mem_cons_of_mem _ he)

theorem trail_of_torn (hl : trail l = .torn) : trail (l ++ l₁) = .torn := by
  rw [trail_append, hl]
  clear hl
  induction l₁ with
  | nil => rfl
  | cons e l₁ ih => exact ih

/-! ## What a write leaves -/

/-- The entries, the tombstones and the vector index are the same. -/
structure SameMemory (s t : LtmState) : Prop where
  entries : t.entries = s.entries
  tombstones : t.tombstones = s.tombstones
  index : ∀ id, t.index.get? id = s.index.get? id

theorem SameMemory.refl (s : LtmState) : SameMemory s s := ⟨rfl, rfl, fun _ => rfl⟩

/-- An entry, a tombstone or a vector was added. -/
inductive Grown (s t : LtmState) : Prop
  | entry (id : String) : s.entries.find? id = none → t.entries.find? id ≠ none → Grown s t
  | tombstone (id : String) : s.tombstones.find? id = none → t.tombstones.find? id ≠ none → Grown s t
  | vector (id : String) : s.index.get? id = none → t.index.get? id ≠ none → Grown s t

/-- Something was added, or an entry was changed under the id of the mutation. -/
def Altered (mutationId : String) (s t : LtmState) : Prop :=
  Grown s t ∨ ∃ id e, t.entries.find? id = some e ∧ e.lastMutationId = some mutationId

/-- No entry was changed under the id of the mutation. -/
def NewMutation (mutationId : String) (s : LtmState) : Prop :=
  ∀ id e, s.entries.find? id = some e → e.lastMutationId ≠ some mutationId

variable {t : LtmState}

theorem Grown.not_same {s : LtmState} (h : Grown s t) : ¬SameMemory s t := by
  intro hsame
  cases h with
  | entry id hnone hsome => exact hsome (by rw [hsame.entries, hnone])
  | tombstone id hnone hsome => exact hsome (by rw [hsame.tombstones, hnone])
  | vector id hnone hsome => exact hsome (by rw [hsame.index, hnone])

theorem Altered.not_same {mutationId : String} {s : LtmState} (h : Altered mutationId s t)
    (hnew : NewMutation mutationId s) : ¬SameMemory s t := by
  rcases h with h | ⟨id, e, he, hmutation⟩
  · exact h.not_same
  · intro hsame
    rw [hsame.entries] at he
    exact hnew id e he hmutation

theorem Grown.put {s : LtmState} (h : Grown s t) (e : MemoryEntry) :
    Grown s { t with entries := t.entries.put e } := by
  cases h with
  | entry id hnone hsome =>
    refine .entry id hnone ?_
    rw [Collection.find?_put]
    split_ifs
    · nofun
    · exact hsome
  | tombstone id hnone hsome => exact .tombstone id hnone hsome
  | vector id hnone hsome => exact .vector id hnone hsome

theorem Altered.audit {mutationId : String} {s : LtmState} (h : Altered mutationId s t)
    (audit : List MemoryMutationAuditRecord) : Altered mutationId s { t with audit := audit } := by
  rcases h with h | h
  · refine .inl ?_
    cases h with
    | entry id hnone hsome => exact .entry id hnone hsome
    | tombstone id hnone hsome => exact .tombstone id hnone hsome
    | vector id hnone hsome => exact .vector id hnone hsome
  · exact .inr h

/-- What a call has done: one that returns has written, one that throws has left nothing, or was rejected too late. -/
def Accounts {α : Type} (changed : LtmState → Prop) (s₀ : LtmState) :
    Log LtmOp.Answer → Except String α → LtmState → Prop
  | l, .ok _, s => trail l = .written ∧ changed s
  | l, .error _, s => trail l = .untouched ∧ SameMemory s₀ s ∨ trail l = .torn ∧ changed s

/-! ## The actions -/

variable {l' : Log LtmOp.Answer} {request : MemoryMutationRequest} {mutationId : String} {time : IsoTime}

theorem Persisted.accounts {candidate : MemoryWriteCandidate} {projectId : Option String}
    {y : Except String MemoryEntry} (h : Persisted candidate projectId s l l' y t) (hl : trail l = .untouched) :
    Accounts (Grown s) s l' y t := by
  have hgrown : ∀ {e : MemoryEntry}, Prepared candidate projectId s e → (s.entries.put e).find? e.id ≠ none := by
    intro e _
    rw [Collection.find?_put_self]
    nofun
  cases h with
  | refused hl₁ => exact .inl ⟨trail_of_idles hl hl₁, .refl s⟩
  | stored hl₁ he _ => exact ⟨by rw [trail_snoc, trail_of_idles hl hl₁]; rfl, .entry _ he.unused.entries (hgrown he)⟩
  | indexed hl₁ he _ _ =>
    exact ⟨by rw [trail_snoc, trail_snoc, trail_of_idles hl hl₁]; rfl, .entry _ he.unused.entries (hgrown he)⟩
  | undone hl₁ hid =>
    refine .inl ⟨by rw [trail_snoc, trail_snoc, trail_snoc, trail_of_idles hl hl₁]; rfl, rfl, rfl, fun key => ?_⟩
    rw [Record.get?_erase, Record.get?_set]
    split_ifs with hthis
    · rw [hthis, hid.index]
    · rfl
  | torn hl₁ hid =>
    refine .inr ⟨by rw [trail_snoc, trail_snoc, trail_snoc, trail_of_idles hl hl₁]; rfl, .vector _ hid.index ?_⟩
    rw [Record.get?_set, if_pos rfl]
    nofun

theorem Applied.accounts {y : Except String AppliedMutation} (h : Applied runtime request mutationId time s l l' y t)
    (hl : trail l = .untouched) : Accounts (Altered mutationId s) s l' y t := by
  -- the tombstone stays, whatever becomes of the entry
  have hgrown : ∀ {tombstone : MemoryTombstone}, s.tombstones.find? tombstone.id = none →
      Grown s { s with tombstones := s.tombstones.put tombstone } := by
    intro tombstone hnew
    refine .tombstone tombstone.id hnew ?_
    rw [Collection.find?_put_self]
    nofun
  cases h with
  | refused hl₁ => exact .inl ⟨trail_of_idles hl hl₁, .refl s⟩
  | unpersisted hl₁ h => exact (h.accounts (trail_of_idles hl hl₁)).imp_right fun h => ⟨h.1, .inl h.2⟩
  | created _ h => exact ⟨(h.accounts hl).1, .inl (h.accounts hl).2⟩
  | superseded _ _ _ _ hl₁ h _ =>
    obtain ⟨hwritten, hgrown⟩ := h.accounts (trail_of_idles hl hl₁)
    exact ⟨by rw [trail_snoc, hwritten]; rfl, .inl (hgrown.put _)⟩
  | replaced hl₁ h =>
    obtain ⟨hwritten, hgrown⟩ := h.accounts (trail_of_idles hl hl₁)
    exact .inr ⟨by rw [trail_snoc, hwritten]; rfl, .inl hgrown⟩
  | rewritten he' _ _ hl₁ hparsed =>
    obtain ⟨refs, rfl⟩ := parseEntryForWrite_spec hparsed
    refine ⟨by rw [trail_snoc, trail_of_idles hl hl₁]; rfl, .inr ⟨_, _, Collection.find?_put_self _ _, ?_⟩⟩
    rcases he' with ⟨-, rfl⟩ | ⟨-, rfl⟩ <;> rfl
  | hardDeleted _ _ _ _ hnew _ hl₁ _ =>
    exact ⟨by rw [trail_snoc, trail_snoc, trail_of_idles hl hl₁]; rfl, .inl ((hgrown hnew).put _)⟩
  | entombed hl₁ hnew =>
    exact .inr ⟨by rw [trail_snoc, trail_snoc, trail_of_idles hl hl₁]; rfl, .inl (hgrown hnew)⟩

/-! ## The mutation -/

/-- A mutation that is not applied has left nothing, or was rejected too late. -/
def Reports (mutationId : String) (s : LtmState) (l : Log LtmOp.Answer)
    (y : Except String GovernedTypedLtmMutationResult) (s' : LtmState) : Prop :=
  ∀ r, y = .ok r → r.applied = false →
    trail l = .untouched ∧ SameMemory s s' ∨ trail l = .torn ∧ Altered mutationId s s'

theorem Recorded.reports {y : Except String GovernedTypedLtmMutationResult}
    (h : Recorded runtime request mutationId time s l l' y t) (hl : trail l = .untouched) :
    Reports mutationId s l' y t := by
  rintro r rfl hfalse
  cases h with
  | refused hl₁ _ => exact .inl ⟨trail_of_idles hl hl₁, rfl, rfl, fun _ => rfl⟩
  | applied _ _ happlied => cases hfalse.symm.trans happlied
  | failed hl₁ h hl₂ _ =>
    rcases h.accounts (trail_of_idles hl hl₁) with ⟨huntouched, hsame⟩ | ⟨htorn, haltered⟩
    · exact .inl ⟨trail_of_idles huntouched hl₂, hsame.entries, hsame.tombstones, hsame.index⟩
    · exact .inr ⟨trail_of_torn htorn, haltered.audit _⟩
  | unrecorded hl₁ h _ =>
    obtain ⟨hwritten, haltered⟩ := h.accounts (trail_of_idles hl hl₁)
    exact .inr ⟨trail_of_torn (by rw [trail_snoc, hwritten]; rfl), haltered.audit _⟩

theorem reports_mutate {projectId : Option String} (hl : trail l = .untouched) :
    (mutate runtime request projectId).Meets answers calm
      (fun l y s' => y.isOk = true → ∃ mutationId, IdOf request s mutationId ∧ Reports mutationId s l y s') l s :=
  meets_mutate (fun _ _ mutationId _ _ _ _ hl₁ hcompletes h _ =>
    ⟨mutationId, hcompletes.id, h.reports (trail_of_idles hl hl₁)⟩) fun _ _ => nofun

/-- **A mutation that reports failure.** When a mutation is not applied, the memory is the same if no request was
rejected too late; and only then, unless the request came with the id of a mutation that an entry already bears. -/
theorem unchanged_of_not_applied {projectId : Option String} {r : GovernedTypedLtmMutationResult} {t : LtmState}
    (hends : (mutate runtime request projectId).Ends answers NewIds [] s (.ok r) l t) (happlied : r.applied = false) :
    (NothingRejectedLate l → SameMemory s t) ∧
      ((∀ id, request.id = some id → NewMutation id s) → SameMemory s t → NothingRejectedLate l) := by
  obtain ⟨mutationId, hid, hreports⟩ := (reports_mutate (s := s) rfl).of_within hends rfl
  rcases hreports r rfl happlied with ⟨huntouched, hsame⟩ | ⟨htorn, haltered⟩
  · refine ⟨fun _ => hsame, fun _ _ => ?_⟩
    unfold NothingRejectedLate
    rw [huntouched]
    nofun
  · refine ⟨fun h => absurd htorn h, fun hnew hsame => ?_⟩
    refine absurd hsame (haltered.not_same ?_)
    rcases hid with hid | hid
    · exact hnew mutationId hid
    · exact hid.mutations

/-! ## One soft deletion -/

def timeOne : IsoTime := ⟨"2026-03-06T20:30:00.000Z", 1772829000000⟩

def factOne : MemoryWriteCandidate where
  content := "User prefers concise responses"
  type := .fact
  scope := .project
  projectId := some "00000000-0000-4000-8000-00000000000a"
  traceId := "00000000-0000-4000-8000-00000000000b"
  sentiment := none
  mutabilityClass := none
  context := none
  action := none
  outcome := none
  reason := none
  tags := []

/-- The fact is stored, and not indexed. -/
def storedOne : LtmState :=
  { LtmState.empty with
    entries := Collection.empty.put (candidateToEntry factOne factOne.projectId timeOne
      "00000000-0000-4000-8000-000000000001" "00000000-0000-4000-8000-000000000002") }

def requestOne (action : MemoryMutationAction) (id targetEntryId : String) : MemoryMutationRequest where
  id := some id
  action := action
  actor := .principal
  projectId := factOne.projectId
  targetEntryId := some targetEntryId
  replacementCandidate := none
  reason := ⟨"requested", by decide⟩
  traceId := none
  evidenceRefs := []
  requestedAt := some timeOne

def envOne (rejected : Option String) (id : String) : LtmEnv where
  rejected := rejected
  id := id
  now := timeOne
  decision := ⟨true, some "approved", some "MEM-APPROVED"⟩
  vector := []

def withoutIndex : LtmRuntime := ⟨none, id⟩

theorem missingTarget_unchanged :
    ∃ r l t, (mutate withoutIndex (requestOne .softDelete "00000000-0000-4000-8000-000000000003"
        "00000000-0000-4000-8000-000000000004") none).Ends answers NewIds [] storedOne (.ok r) l t ∧ r.applied = false ∧
      (NothingRejectedLate l → SameMemory storedOne t) ∧
      ((∀ id, (requestOne .softDelete "00000000-0000-4000-8000-000000000003"
        "00000000-0000-4000-8000-000000000004").id = some id → NewMutation id storedOne) →
          SameMemory storedOne t → NothingRejectedLate l) := by
  obtain ⟨r, l, t, hends, hy⟩ := (mutate withoutIndex (requestOne .softDelete "00000000-0000-4000-8000-000000000003"
    "00000000-0000-4000-8000-000000000004") none).exists_ends_of_check answers NewIds (List.replicate 3 (envOne none ""))
      storedOne (fun r _ => !r.applied) (by decide +kernel)
  have happlied : r.applied = false := (Bool.not_eq_true' r.applied).mp hy
  exact ⟨r, l, t, hends, happlied, unchanged_of_not_applied hends happlied⟩

/-- The entry is deleted, and then the audit record is rejected. -/
theorem rejectedAudit_changed :
    ∃ r l t, (mutate withoutIndex (requestOne .softDelete "00000000-0000-4000-8000-000000000003"
        "00000000-0000-4000-8000-000000000002") none).Ends answers NewIds [] storedOne (.ok r) l t ∧ r.applied = false ∧
      ¬SameMemory storedOne t := by
  obtain ⟨r, l, t, hends, hy⟩ := (mutate withoutIndex (requestOne .softDelete "00000000-0000-4000-8000-000000000003"
    "00000000-0000-4000-8000-000000000002") none).exists_ends_of_check answers NewIds
      [envOne none "", envOne none "", envOne none "", envOne (some "audit store unavailable") "", envOne none ""]
      storedOne (fun r t => !r.applied && t.entries.find? "00000000-0000-4000-8000-000000000002" ≠
        storedOne.entries.find? "00000000-0000-4000-8000-000000000002") (by decide +kernel)
  obtain ⟨hresult, hchanged⟩ := (Bool.and_eq_true _ _).mp hy
  refine ⟨r, l, t, hends, (Bool.not_eq_true' r.applied).mp hresult, fun hsame => of_decide_eq_true hchanged ?_⟩
  rw [hsame.entries]

end NousCore.Memory
