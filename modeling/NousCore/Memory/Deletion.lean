import NousCore.Memory.Failures

/-!
# Hard deletion

* `Framed`, `Rewritten`, `Effect` : what a mutation can do to the entries that are stored;
* `effect_mutate` : a mutation does nothing else;
* `CleanTarget` : what is deleted has not been hard-deleted before, and what is hard-deleted has no more than its content.
-/

namespace NousCore.Memory

open Async

variable {runtime : LtmRuntime} {l : Log LtmOp.Answer} {s t u : LtmState} {id : String}

/-! ## What a mutation does to an entry -/

/-- Apart from the entry of `target`, what was stored is stored still, and no vector of a stored entry was touched. -/
structure Framed (target : Option String) (s t : LtmState) : Prop where
  entries : ∀ key e, some key ≠ target → s.entries.find? key = some e → t.entries.find? key = some e
  tombstones : ∀ key tombstone, s.tombstones.find? key = some tombstone → t.tombstones.find? key = some tombstone
  index : ∀ key e, s.entries.find? key = some e → t.index.get? key = s.index.get? key

theorem Framed.refl (target : Option String) (s : LtmState) : Framed target s s :=
  ⟨fun _ _ _ h => h, fun _ _ h => h, fun _ _ _ => rfl⟩

variable {target : Option String}

theorem Framed.audit (h : Framed target s t) (audit : List MemoryMutationAuditRecord) :
    Framed target s { t with audit := audit } := ⟨h.entries, h.tombstones, h.index⟩

variable {e : MemoryEntry}

theorem Framed.put_new (h : Framed none s t) (hnew : s.entries.find? e.id = none) :
    Framed none s { t with entries := t.entries.put e } := by
  refine ⟨fun key e' hkey he' => ?_, h.tombstones, h.index⟩
  rw [Collection.find?_put, if_neg]
  · exact h.entries key e' hkey he'
  · rintro rfl
    rw [hnew] at he'
    cases he'

theorem Framed.put_target (h : Framed none s t) :
    Framed (some e.id) s { t with entries := t.entries.put e } := by
  refine ⟨fun key e' hkey he' => ?_, h.tombstones, h.index⟩
  rw [Collection.find?_put, if_neg fun heq => hkey (congrArg some heq)]
  exact h.entries key e' (by nofun) he'

theorem Framed.index_new {index : Record String VectorRecord} {new : String} (h : Framed none s t)
    (hnew : s.entries.find? new = none) (hindex : ∀ key, key ≠ new → index.get? key = t.index.get? key) :
    Framed none s { t with index := index } := by
  refine ⟨h.entries, h.tombstones, fun key e he => ?_⟩
  rw [hindex key, h.index key e he]
  rintro rfl
  rw [hnew] at he
  cases he

theorem Framed.tombstone {tombstone : MemoryTombstone} (hnew : s.tombstones.find? tombstone.id = none) :
    Framed none s { s with tombstones := s.tombstones.put tombstone } := by
  refine ⟨fun _ _ _ h => h, fun key tombstone' hkey => ?_, fun _ _ _ => rfl⟩
  rw [Collection.find?_put, if_neg]
  · exact hkey
  · rintro rfl
    rw [hnew] at hkey
    cases hkey

inductive Rewritten (runtime : LtmRuntime) : MemoryMutationAction → MemoryEntry → MemoryEntry → LtmState → Prop
  | superseded {e e' : MemoryEntry} {t : LtmState} : e.lifecycleStatus = .active → e'.lifecycleStatus = .superseded →
      Rewritten runtime .supersede e e' t
  | softDeleted {e e' : MemoryEntry} {t : LtmState} : e'.lifecycleStatus = .softDeleted →
      Rewritten runtime .softDelete e e' t
  | hardDeleted {e : MemoryEntry} {t : LtmState} (tombstoneId mutationId : String) (now : IsoTime)
      (refs : Option PatternRefs) : Deletable e →
      (∃ tombstone, t.tombstones.find? tombstoneId = some tombstone ∧
        tombstone.targetContentHash = runtime.sha256 e.content) →
      Rewritten runtime .hardDelete e { deleted e (some tombstoneId) mutationId now with patternRefs := refs } t
  | moved {action : MemoryMutationAction} {e : MemoryEntry} {t : LtmState} (request : MemoryMutationRequest)
      (mutationId : String) (now : IsoTime) (refs : Option PatternRefs) :
      action = .promoteGlobal ∨ action = .demoteProject →
      Rewritten runtime action e { moved e request mutationId now with patternRefs := refs } t

/-- What a mutation can do: nothing to what is stored, or one thing to its target. -/
inductive Effect (runtime : LtmRuntime) (action : MemoryMutationAction) (target : Option String) (s t : LtmState) : Prop
  | framed : Framed none s t → Effect runtime action target s t
  | rewritten {key : String} {e e' : MemoryEntry} : target = some key → s.entries.find? key = some e →
      t.entries.find? key = some e' → Framed target s t → Rewritten runtime action e e' t →
      Effect runtime action target s t

variable {action : MemoryMutationAction}

theorem Rewritten.audit {e' : MemoryEntry} (h : Rewritten runtime action e e' t)
    (audit : List MemoryMutationAuditRecord) : Rewritten runtime action e e' { t with audit := audit } := by
  cases h with
  | superseded hactive hsuperseded => exact .superseded hactive hsuperseded
  | softDeleted hdeleted => exact .softDeleted hdeleted
  | hardDeleted tombstoneId mutationId now refs hdeletable htombstone =>
    exact .hardDeleted tombstoneId mutationId now refs hdeletable htombstone
  | moved request mutationId now refs haction => exact .moved request mutationId now refs haction

theorem Effect.audit (h : Effect runtime action target s t)
    (audit : List MemoryMutationAuditRecord) : Effect runtime action target s { t with audit := audit } := by
  cases h with
  | framed h => exact .framed (h.audit audit)
  | rewritten htarget he he' hframed hrewritten =>
    exact .rewritten htarget he he' (hframed.audit audit) (hrewritten.audit audit)

/-! ## The actions -/

section Actions

variable {request : MemoryMutationRequest} {mutationId : String} {time : IsoTime} {l' : Log LtmOp.Answer}

theorem Persisted.framed {candidate : MemoryWriteCandidate} {projectId : Option String}
    {y : Except String MemoryEntry} (h : Persisted candidate projectId s l l' y t) : Framed none s t := by
  have hindexed : ∀ {new record}, s.entries.find? new = none →
      Framed none s { s with index := s.index.set new record } := fun hnew =>
    (Framed.refl none s).index_new hnew fun key hkey => (Record.get?_set _ _ _ _).trans (if_neg hkey)
  cases h with
  | refused _ => exact .refl none s
  | stored _ he _ => exact (Framed.refl none s).put_new he.unused.entries
  | indexed _ he _ _ => exact (hindexed he.unused.entries).put_new he.unused.entries
  | undone _ hid =>
    exact (hindexed hid.entries).index_new hid.entries fun key hkey => (Record.get?_erase _ _ _).trans (if_neg hkey)
  | torn _ hid => exact hindexed hid.entries

theorem Framed.effect {e' parsed : MemoryEntry} (h : Framed none s t) (hparsed : parseEntryForWrite e' = .ok parsed)
    (htarget : target = some e'.id) (he : s.entries.find? e'.id = some e)
    (hrewritten : ∀ refs entries, Rewritten runtime action e { e' with patternRefs := refs }
      { t with entries := entries }) : Effect runtime action target s { t with entries := t.entries.put parsed } := by
  obtain ⟨refs, rfl⟩ := parseEntryForWrite_spec hparsed
  refine .rewritten htarget he (Collection.find?_put_self _ _) ?_ (hrewritten refs _)
  rw [htarget]
  exact h.put_target (e := { e' with patternRefs := refs })

theorem Applied.effect {y : Except String AppliedMutation} (h : Applied runtime request mutationId time s l l' y t) :
    Effect runtime request.action request.targetEntryId s t := by
  cases h with
  | refused _ => exact .framed (.refl _ s)
  | unpersisted _ h => exact .framed h.framed
  | created _ h => exact .framed h.framed
  | superseded haction htarget hprevious hactive _ h hparsed =>
    exact h.framed.effect hparsed htarget hprevious fun refs entries => haction ▸ .superseded hactive rfl
  | replaced _ h => exact .framed h.framed
  | rewritten he' htarget he _ hparsed =>
    rcases he' with ⟨haction, rfl⟩ | ⟨haction, rfl⟩
    · exact (Framed.refl none s).effect hparsed htarget he fun refs entries => haction ▸ .softDeleted rfl
    · exact (Framed.refl none s).effect hparsed htarget he fun refs entries => .moved request mutationId time refs haction
  | hardDeleted haction htarget he hdeletable hnew hhash _ hparsed =>
    refine (Framed.tombstone hnew).effect hparsed htarget he fun refs entries => ?_
    rw [haction]
    exact .hardDeleted _ mutationId time refs hdeletable ⟨_, Collection.find?_put_self _ _, hhash⟩
  | entombed _ hnew => exact .framed (.tombstone hnew)

theorem Recorded.effect {y : Except String GovernedTypedLtmMutationResult}
    (h : Recorded runtime request mutationId time s l l' y t) :
    Effect runtime request.action request.targetEntryId s t := by
  cases h with
  | refused _ _ => exact .framed ((Framed.refl none s).audit _)
  | applied _ h _ => exact h.effect.audit _
  | failed _ h _ _ => exact h.effect.audit _
  | unrecorded _ h _ => exact h.effect.audit _

theorem effect_mutate {projectId : Option String} : (mutate runtime request projectId).Meets answers calm
    (fun _ _ t => Effect runtime request.action request.targetEntryId s t) l s :=
  meets_mutate (fun _ _ _ _ _ _ _ _ hcompletes h => hcompletes.action ▸ hcompletes.target ▸ h.effect) fun _ _ =>
    .framed (.refl none s)

end Actions

/-! ## Final deletions -/

/-- None of the stored fields carries anything. -/
structure Erased (e : MemoryEntry) : Prop where
  content : e.content = "[hard-deleted]"
  context : isNonEmpty e.context = false
  action : isNonEmpty e.action = false
  outcome : isNonEmpty e.outcome = false
  reason : isNonEmpty e.reason = false
  embedding : e.embedding = none

/-- The entry is hard-deleted, its tombstone has the hash of `content`, and neither the entry nor the vector index has
anything of it. -/
structure Final (runtime : LtmRuntime) (id content : String) (s : LtmState) : Prop where
  entry : ∃ e tombstoneId tombstone, s.entries.find? id = some e ∧ e.lifecycleStatus = .hardDeleted ∧ Erased e ∧
    e.tombstoneId = some tombstoneId ∧ s.tombstones.find? tombstoneId = some tombstone ∧
      tombstone.targetContentHash = runtime.sha256 content
  index : s.index.get? id = none

/-- Nothing but the content of the entry carries anything. -/
structure OnlyContent (e : MemoryEntry) : Prop where
  context : isNonEmpty e.context = false
  action : isNonEmpty e.action = false
  outcome : isNonEmpty e.outcome = false
  reason : isNonEmpty e.reason = false
  embedding : e.embedding = none

instance (e : MemoryEntry) : Decidable (OnlyContent e) :=
  decidable_of_iff (isNonEmpty e.context = false ∧ isNonEmpty e.action = false ∧ isNonEmpty e.outcome = false ∧
    isNonEmpty e.reason = false ∧ e.embedding = none)
    ⟨fun ⟨h₁, h₂, h₃, h₄, h₅⟩ => ⟨h₁, h₂, h₃, h₄, h₅⟩, fun h => ⟨h.1, h.2, h.3, h.4, h.5⟩⟩

/-- What is asked to be done to an entry of the store: no deletion of an entry that has been hard-deleted, and no hard
deletion of an entry with more than its content. -/
def CleanDeletion (s : LtmState) (action : MemoryMutationAction) (e : MemoryEntry) : Prop :=
  match action with
  | .softDelete => e.lifecycleStatus ≠ .hardDeleted
  | .hardDelete => Deletable e → e.lifecycleStatus ≠ .hardDeleted ∧ OnlyContent e ∧ s.index.get? e.id = none
  | _ => True

instance (s : LtmState) (action : MemoryMutationAction) (e : MemoryEntry) : Decidable (CleanDeletion s action e) := by
  unfold CleanDeletion Deletable
  split <;> infer_instance

def CleanTarget (s : LtmState) (request : MemoryMutationRequest × Option String) : Prop :=
  ∀ target e, request.1.targetEntryId = some target → s.entries.find? target = some e →
    CleanDeletion s request.1.action e

def Mutates (runtime : LtmRuntime) (s : LtmState) (request : MemoryMutationRequest × Option String) (t : LtmState) :
    Prop :=
  ∃ y l, (mutate runtime request.1 request.2).Ends answers NewIds [] s y l t

theorem Mutates.effect {request : MemoryMutationRequest × Option String} (h : Mutates runtime s request t) :
    Effect runtime request.1.action request.1.targetEntryId s t := by
  obtain ⟨y, l, hends⟩ := h
  exact effect_mutate.of_within hends

variable {content : String}

theorem Final.framed (h : Final runtime id content s) (hframed : Framed target s t)
    (htarget : some id ≠ target) : Final runtime id content t := by
  obtain ⟨⟨e, tombstoneId, tombstone, he, hstatus, herased, hid, htombstone, hhash⟩, hindex⟩ := h
  refine ⟨⟨e, tombstoneId, tombstone, hframed.entries id e htarget he, hstatus, herased, hid,
    hframed.tombstones _ _ htombstone, hhash⟩, ?_⟩
  rw [hframed.index id e he, hindex]

theorem Final.step {request : MemoryMutationRequest × Option String} (h : Final runtime id content s)
    (hmutates : Mutates runtime s request t) (hclean : CleanTarget s request) : Final runtime id content t := by
  cases hmutates.effect with
  | framed hframed => exact h.framed hframed (by nofun)
  | @rewritten key e e' htarget he he' hframed hrewritten =>
    by_cases hkey : key = id
    · subst hkey
      have hclean := hclean key e htarget he
      obtain ⟨⟨e₁, tombstoneId, tombstone, he₁, hstatus, herased, hid, htombstone, hhash⟩, hindex⟩ := h
      obtain rfl : e = e₁ := Option.some.inj (he.symm.trans he₁)
      generalize request.1.action = action at hclean hrewritten
      cases hrewritten with
      | superseded hactive _ =>
        rw [hstatus] at hactive
        cases hactive
      | softDeleted _ => exact absurd hstatus hclean
      | hardDeleted _ _ _ _ hdeletable _ => exact absurd hstatus (hclean hdeletable).1
      | moved request' mutationId now refs _ =>
        refine ⟨⟨_, tombstoneId, tombstone, he', hstatus, ?_, hid, hframed.tombstones _ _ htombstone, hhash⟩, ?_⟩
        · exact ⟨herased.content, herased.context, herased.action, herased.outcome, herased.reason, herased.embedding⟩
        · rw [hframed.index key e he, hindex]
    · refine h.framed hframed fun heq => hkey ?_
      rw [htarget] at heq
      exact (Option.some.inj heq).symm

theorem final_of_hardDeleted {request : MemoryMutationRequest × Option String} {e₀ e₁ : MemoryEntry}
    (hmutates : Mutates runtime s request t) (hclean : CleanTarget s request) (he₀ : s.entries.find? id = some e₀)
    (hbefore : e₀.lifecycleStatus ≠ .hardDeleted) (he₁ : t.entries.find? id = some e₁)
    (hafter : e₁.lifecycleStatus = .hardDeleted) : Final runtime id e₀.content t := by
  have hchanged : t.entries.find? id ≠ some e₀ := fun hsame => by
    obtain rfl : e₁ = e₀ := Option.some.inj (he₁.symm.trans hsame)
    exact hbefore hafter
  cases hmutates.effect with
  | framed hframed => exact absurd (hframed.entries id e₀ (by nofun) he₀) hchanged
  | @rewritten key e e' htarget he he' hframed hrewritten =>
    by_cases hkey : key = id
    · subst hkey
      have hclean := hclean key e htarget he
      obtain rfl : e₀ = e := Option.some.inj (he₀.symm.trans he)
      obtain rfl : e₁ = e' := Option.some.inj (he₁.symm.trans he')
      generalize request.1.action = action at hclean hrewritten
      cases hrewritten with
      | superseded _ hsuperseded =>
        rw [hsuperseded] at hafter
        cases hafter
      | softDeleted hdeleted =>
        rw [hdeleted] at hafter
        cases hafter
      | hardDeleted tombstoneId mutationId now refs hdeletable htombstone =>
        obtain ⟨tombstone, htombstone, hhash⟩ := htombstone
        obtain ⟨-, honly, hindex⟩ := hclean hdeletable
        refine ⟨⟨_, tombstoneId, tombstone, he', hafter, ?_, rfl, htombstone, hhash⟩, ?_⟩
        · exact ⟨rfl, honly.context, honly.action, honly.outcome, honly.reason, honly.embedding⟩
        · rw [hframed.index key e₀ he₀, ← hindex, s.entries.keyed key e₀ he₀]
      | moved _ _ _ _ _ => exact absurd hafter hbefore
    · refine absurd (hframed.entries id e₀ (fun heq => hkey ?_) he₀) hchanged
      rw [htarget] at heq
      exact (Option.some.inj heq).symm

/-- **Hard deletion.** A step of a run in which every deletion is clean has hard-deleted an entry: after every further
step the entry is hard-deleted, its tombstone has the hash of the content before the deletion, and nothing else is left
of it. -/
theorem final_of_run {request : MemoryMutationRequest × Option String}
    {requests : List (MemoryMutationRequest × Option String)} {e₀ e₁ : MemoryEntry}
    (he₀ : s.entries.find? id = some e₀) (hbefore : e₀.lifecycleStatus ≠ .hardDeleted)
    (hstep : Guarded (Mutates runtime) CleanTarget s request t) (he₁ : t.entries.find? id = some e₁)
    (hafter : e₁.lifecycleStatus = .hardDeleted)
    (hrun : Run (Guarded (Mutates runtime) CleanTarget) t requests u) : Final runtime id e₀.content u := by
  refine hrun.invariant (fun t₁ request₁ t₂ hfinal hstep₁ => hfinal.step hstep₁.1 hstep₁.2) ?_
  exact final_of_hardDeleted hstep.1 hstep.2 he₀ hbefore he₁ hafter

/-! ## One hard deletion -/

/-- SHA-256 on the content of the fact and on what takes its place. -/
def hashingOne : LtmRuntime where
  vectorIndexing := none
  sha256 := fun content =>
    if content = "[hard-deleted]" then "709f8a3757c4d8c24187c1f68fe42c0fd2618367161a83e3c3ffc1eb13cf19dd"
    else "9d905f5164e702fb57efdf9a4851fc42848a22cdb1e2929e9465445e53bfcb97"

def hardDeleteThen (action : MemoryMutationAction) : Option (LtmState × LtmState) := do
  let env := envOne none "00000000-0000-4000-8000-000000000005"
  let hardDelete := requestOne .hardDelete "00000000-0000-4000-8000-000000000003" "00000000-0000-4000-8000-000000000002"
  let next := requestOne action "00000000-0000-4000-8000-000000000004" "00000000-0000-4000-8000-000000000002"
  let (_, t) ← (mutate hashingOne hardDelete none).alone answers NewIds (List.replicate 6 env) [] storedOne
  let (_, u) ← (mutate hashingOne next none).alone answers NewIds (List.replicate 4 env) [] t
  return (t, u)

theorem mutates_of_hardDeleteThen (h : hardDeleteThen action = some (t, u)) :
    Mutates hashingOne storedOne (requestOne .hardDelete "00000000-0000-4000-8000-000000000003"
      "00000000-0000-4000-8000-000000000002", none) t ∧
    Mutates hashingOne t (requestOne action "00000000-0000-4000-8000-000000000004"
      "00000000-0000-4000-8000-000000000002", none) u := by
  unfold hardDeleteThen at h
  obtain ⟨⟨y, t'⟩, hfirst, h⟩ := Option.bind_eq_some_iff.mp h
  obtain ⟨⟨y', u'⟩, hsecond, h⟩ := Option.bind_eq_some_iff.mp h
  cases h
  obtain ⟨l, hends⟩ := ends_of_alone hfirst
  obtain ⟨l', hends'⟩ := ends_of_alone hsecond
  exact ⟨⟨y, l, hends⟩, ⟨y', l', hends'⟩⟩

def statusOne (s : LtmState) : Option MemoryLifecycleStatus :=
  (s.entries.find? "00000000-0000-4000-8000-000000000002").map (·.lifecycleStatus)

theorem hardDeleteThenPromote_final :
    ∃ t requests u, statusOne t = some .hardDeleted ∧ requests.length = 1 ∧
      Run (Guarded (Mutates hashingOne) CleanTarget) t requests u ∧
      Final hashingOne "00000000-0000-4000-8000-000000000002" "User prefers concise responses" u := by
  have hends : (hardDeleteThen .promoteGlobal).any (fun end_ => statusOne end_.1 = some .hardDeleted) = true := by
    decide +kernel
  obtain ⟨⟨t, u⟩, hend, hstatus⟩ := (Option.any_eq_true _ _).mp hends
  obtain ⟨hfirst, hsecond⟩ := mutates_of_hardDeleteThen hend
  have hstatus : statusOne t = some .hardDeleted := of_decide_eq_true hstatus
  obtain ⟨e₁, he₁, hafter⟩ := Option.map_eq_some_iff.mp hstatus
  have hrun : Run (Guarded (Mutates hashingOne) CleanTarget) t
      [(requestOne .promoteGlobal "00000000-0000-4000-8000-000000000004" "00000000-0000-4000-8000-000000000002", none)]
      u := .cons ⟨hsecond, fun _ _ _ _ => trivial⟩ .nil
  have he₀ : storedOne.entries.find? "00000000-0000-4000-8000-000000000002" = some (candidateToEntry factOne
      factOne.projectId timeOne "00000000-0000-4000-8000-000000000001" "00000000-0000-4000-8000-000000000002") := by
    decide +kernel
  refine ⟨t, _, u, hstatus, rfl, hrun, final_of_run he₀ (by decide) ⟨hfirst, ?_⟩ he₁ hafter hrun⟩
  intro target e htarget he
  cases htarget
  cases he₀.symm.trans he
  decide +kernel

/-- The fact, with its vector. -/
def indexedOne : LtmState :=
  let e := candidateToEntry factOne factOne.projectId timeOne "00000000-0000-4000-8000-000000000001"
    "00000000-0000-4000-8000-000000000002"
  { storedOne with
    entries := Collection.empty.put { e with embedding := some [1, 0] }
    index := Record.empty.set e.id
      { vector := [1, 0]
        memoryType := .fact
        scope := .project
        projectId := e.projectId
        traceId := e.traceId
        tokenEstimate := 8
        inputHash := hashingOne.sha256 e.content
        generatedAt := timeOne } }

/-- After a hard deletion, a soft deletion takes the status and the tombstone away; and the vector of an entry that is
hard-deleted stays. -/
theorem hardDeletions_not_final :
    (∃ t u, Mutates hashingOne storedOne (requestOne .hardDelete "00000000-0000-4000-8000-000000000003"
        "00000000-0000-4000-8000-000000000002", none) t ∧ statusOne t = some .hardDeleted ∧
      Mutates hashingOne t (requestOne .softDelete "00000000-0000-4000-8000-000000000004"
        "00000000-0000-4000-8000-000000000002", none) u ∧
      ¬Final hashingOne "00000000-0000-4000-8000-000000000002" "User prefers concise responses" u) ∧
    ∃ t, Mutates hashingOne indexedOne (requestOne .hardDelete "00000000-0000-4000-8000-000000000003"
        "00000000-0000-4000-8000-000000000002", none) t ∧ statusOne t = some .hardDeleted ∧
      ¬Final hashingOne "00000000-0000-4000-8000-000000000002" "User prefers concise responses" t := by
  constructor
  · have hends : (hardDeleteThen .softDelete).any (fun end_ => statusOne end_.1 = some .hardDeleted &&
        statusOne end_.2 ≠ some .hardDeleted) = true := by decide +kernel
    obtain ⟨⟨t, u⟩, hend, hstatus⟩ := (Option.any_eq_true _ _).mp hends
    obtain ⟨hbefore, hafter⟩ := (Bool.and_eq_true _ _).mp hstatus
    obtain ⟨hfirst, hsecond⟩ := mutates_of_hardDeleteThen hend
    refine ⟨t, u, hfirst, of_decide_eq_true hbefore, hsecond, fun hfinal => of_decide_eq_true hafter ?_⟩
    obtain ⟨e, _, _, he, hstatus, -⟩ := hfinal.entry
    unfold statusOne
    rw [he, Option.map_some, hstatus]
  · have hends : ((mutate hashingOne (requestOne .hardDelete "00000000-0000-4000-8000-000000000003"
        "00000000-0000-4000-8000-000000000002") none).alone answers NewIds
          (List.replicate 6 (envOne none "00000000-0000-4000-8000-000000000005")) [] indexedOne).any (fun end_ =>
            statusOne end_.2 = some .hardDeleted &&
              (end_.2.index.get? "00000000-0000-4000-8000-000000000002").isSome) = true := by decide +kernel
    obtain ⟨⟨y, t⟩, halone, hy⟩ := (Option.any_eq_true _ _).mp hends
    obtain ⟨hstatus, hindex⟩ := (Bool.and_eq_true _ _).mp hy
    obtain ⟨l, hends⟩ := ends_of_alone halone
    refine ⟨t, ⟨y, l, hends⟩, of_decide_eq_true hstatus, fun hfinal => ?_⟩
    rw [hfinal.index] at hindex
    cases hindex

/-! ## What mutations leave as it is -/

/-- What was stored is stored still, and no more active than it was; it is as it was unless it was a target, and so is
its vector. A tombstone stays as it is. -/
structure Lasts (targets : List (Option String)) (s t : LtmState) : Prop where
  entries : ∀ key e, s.entries.find? key = some e → ∃ e', t.entries.find? key = some e' ∧
    (e'.lifecycleStatus = .active → e.lifecycleStatus = .active) ∧
    (some key ∉ targets → e' = e ∧ t.index.get? key = s.index.get? key)
  tombstones : ∀ key tombstone, s.tombstones.find? key = some tombstone → t.tombstones.find? key = some tombstone

theorem Rewritten.active {e' : MemoryEntry} (h : Rewritten runtime action e e' t) (hactive : e'.lifecycleStatus = .active) :
    e.lifecycleStatus = .active := by
  cases h with
  | superseded hbefore _ => exact hbefore
  | softDeleted hdeleted =>
    rw [hdeleted] at hactive
    cases hactive
  | hardDeleted _ _ _ _ _ _ => cases hactive
  | moved _ _ _ _ _ => exact hactive

theorem Effect.lasts (h : Effect runtime action target s t) : Lasts [target] s t := by
  have hframed : ∀ target', Framed target' s t → ∀ key e, some key ≠ target' → s.entries.find? key = some e →
      ∃ e', t.entries.find? key = some e' ∧ (e'.lifecycleStatus = .active → e.lifecycleStatus = .active) ∧
        (some key ∉ [target] → e' = e ∧ t.index.get? key = s.index.get? key) := fun target' hframed key e hkey he =>
    ⟨e, hframed.entries key e hkey he, id, fun _ => ⟨rfl, hframed.index key e he⟩⟩
  cases h with
  | framed h => exact ⟨fun key e he => hframed none h key e (by nofun) he, h.tombstones⟩
  | @rewritten key e e' htarget he he' h hrewritten =>
    refine ⟨fun key' e₁ he₁ => ?_, h.tombstones⟩
    by_cases hkey : some key' = target
    · obtain rfl : key' = key := Option.some.inj (hkey.trans htarget)
      obtain rfl : e = e₁ := Option.some.inj (he.symm.trans he₁)
      exact ⟨e', he', hrewritten.active, fun hnot => absurd (List.mem_singleton.mpr hkey) hnot⟩
    · exact hframed target h key' e₁ hkey he₁

theorem Lasts.trans {u : LtmState} {targets targets' : List (Option String)} (h : Lasts targets s t)
    (h' : Lasts targets' t u) : Lasts (targets ++ targets') s u := by
  refine ⟨fun key e he => ?_, fun key tombstone hkey => h'.tombstones key _ (h.tombstones key _ hkey)⟩
  obtain ⟨e', he', hactive, hsame⟩ := h.entries key e he
  obtain ⟨e'', he'', hactive', hsame'⟩ := h'.entries key e' he'
  refine ⟨e'', he'', hactive ∘ hactive', fun hnot => ?_⟩
  obtain ⟨rfl, hindex⟩ := hsame fun hmem => hnot (List.mem_append_left _ hmem)
  obtain ⟨rfl, hindex'⟩ := hsame' fun hmem => hnot (List.mem_append_right _ hmem)
  exact ⟨rfl, hindex'.trans hindex⟩

/-- **Nothing else changes.** In every run of mutations, whether they are applied or fail, no entry and no tombstone is
lost, no entry becomes active again, and what no mutation names stays as it is. -/
theorem lasts_of_run {requests : List (MemoryMutationRequest × Option String)}
    (hrun : Run (Mutates runtime) s requests t) : Lasts (requests.map (·.1.targetEntryId)) s t := by
  induction hrun with
  | nil => exact ⟨fun key e he => ⟨e, he, id, fun _ => ⟨rfl, rfl⟩⟩, fun _ _ h => h⟩
  | snoc _ hstep ih =>
    rw [List.map_append]
    exact ih.trans hstep.effect.lasts

theorem hardDeleteThenPromote_lasts : ∃ requests u, requests.length = 2 ∧ Run (Mutates hashingOne) storedOne requests u ∧
    Lasts (requests.map (·.1.targetEntryId)) storedOne u := by
  obtain ⟨⟨t, u⟩, hend⟩ := Option.isSome_iff_exists.mp (show (hardDeleteThen .promoteGlobal).isSome from by decide +kernel)
  obtain ⟨hfirst, hsecond⟩ := mutates_of_hardDeleteThen hend
  have hrun := Run.cons hfirst (.cons hsecond .nil)
  exact ⟨_, u, rfl, hrun, lasts_of_run hrun⟩

end NousCore.Memory
