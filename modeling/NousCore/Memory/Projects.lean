import NousCore.Memory.Failures

/-!
# Mutations and projects

* `BelongsTo` : an entry of a project, or of the global scope;
* `confined_iff` : a mutation stays in its project exactly when its target belongs there.
-/

namespace NousCore.Memory

open Async

variable {runtime : LtmRuntime} {l : Log LtmOp.Answer} {s t s₀ : LtmState} {project : String}

/-! ## Entries and projects -/

def BelongsTo (project : String) (e : MemoryEntry) : Prop := e.scope = .global ∨ e.projectId = some project

instance (project : String) (e : MemoryEntry) : Decidable (BelongsTo project e) := inferInstanceAs (Decidable (_ ∨ _))

def writtenBy : Sigma LtmOp.Answer → Option MemoryEntry
  | ⟨.write e, .ok _⟩ => some e
  | _ => none

/-- The entries that were created, changed or placed anew. -/
def writesOf (l : Log LtmOp.Answer) : List MemoryEntry := l.filterMap writtenBy

/-- Every entry that was written belongs to the project or to the global scope, before and after. -/
def Confined (project : String) (s : LtmState) (l : Log LtmOp.Answer) (t : LtmState) : Prop :=
  ∀ e ∈ writesOf l, (∀ before, s.entries.find? e.id = some before → BelongsTo project before) ∧
    ∀ after, t.entries.find? e.id = some after → BelongsTo project after

/-- The entry that a mutation is about; a creation has none. -/
def targetOf (request : MemoryMutationRequest) : Option String :=
  if request.action = .create then none else request.targetEntryId

theorem writesOf_append (l l' : Log LtmOp.Answer) : writesOf (l ++ l') = writesOf l ++ writesOf l' :=
  List.filterMap_append

theorem writesOf_snoc (l : Log LtmOp.Answer) (e : Sigma LtmOp.Answer) :
    writesOf (l ++ [e]) = writesOf l ++ (writtenBy e).toList := by
  rw [writesOf_append]
  unfold writesOf
  cases h : writtenBy e <;> simp [h]

theorem writesOf_of_idles {l₁ : Log LtmOp.Answer} (h : Idles l₁) : writesOf (l ++ l₁) = writesOf l := by
  have hnone : writesOf l₁ = [] := List.filterMap_eq_nil_iff.mpr fun ⟨o, r⟩ he => by
    have hidle := h _ he
    cases o with
    | write entry =>
      cases r with
      | ok _ => exact hidle.elim
      | error _ => rfl
    | _ => rfl
  rw [writesOf_append, hnone, List.append_nil]

/-! ## Where the actions write -/

/-- The entries that were written are new ones of the project, or the target. -/
structure Placed (project : String) (target : Option String) (s : LtmState) (l : Log LtmOp.Answer) (t : LtmState) :
    Prop where
  writes : ∀ e ∈ writesOf l, target = some e.id ∨
    s.entries.find? e.id = none ∧ ∀ after, t.entries.find? e.id = some after → BelongsTo project after
  target : ∀ id, target = some id → (∃ e ∈ writesOf l, e.id = id) ∧ ∃ before, s.entries.find? id = some before ∧
    (BelongsTo project before → ∀ after, t.entries.find? id = some after → BelongsTo project after)

/-- What a call has done that has returned. -/
def OnOk {α : Type} (post : Log LtmOp.Answer → α → LtmState → Prop) :
    Log LtmOp.Answer → Except String α → LtmState → Prop
  | l, .ok a, s => post l a s
  | _, .error _, _ => True

theorem Placed.confined {target : Option String} (h : Placed project target s l t) :
    Confined project s l t ↔ ∀ id e, target = some id → s.entries.find? id = some e → BelongsTo project e := by
  constructor
  · intro hconfined id e htarget he
    obtain ⟨⟨e', he', rfl⟩, -⟩ := h.target id htarget
    exact (hconfined e' he').1 e he
  · intro htarget e he
    rcases h.writes e he with hid | ⟨hnone, hafter⟩
    · refine ⟨fun before hbefore => htarget e.id before hid hbefore, ?_⟩
      obtain ⟨-, before, hbefore, hkeeps⟩ := h.target e.id hid
      exact hkeeps (htarget e.id before hid hbefore)
    · refine ⟨fun before hbefore => ?_, hafter⟩
      rw [hnone] at hbefore
      cases hbefore

/-! ## The actions -/

section Actions

variable {request : MemoryMutationRequest} {mutationId : String} {time : IsoTime} {l' : Log LtmOp.Answer}
  {e : MemoryEntry}

theorem Persisted.wrote {candidate : MemoryWriteCandidate}
    (h : Persisted candidate (some project) s l l' (.ok e) t) :
    writesOf l' = writesOf l ++ [e] ∧ s.entries.find? e.id = none ∧ t.entries = s.entries.put e ∧ BelongsTo project e := by
  have hbelongs : Prepared candidate (some project) s e → BelongsTo project e := by
    intro he
    have hproject := he.project
    unfold resolveEntryProjectId at hproject
    cases hscope : candidate.scope with
    | global => exact .inl (he.scope.trans hscope)
    | project =>
      rw [hscope] at hproject
      exact .inr hproject
  cases h with
  | stored hl₁ he _ =>
    refine ⟨?_, he.unused.entries, rfl, hbelongs he⟩
    rw [writesOf_snoc, writesOf_of_idles hl₁]
    rfl
  | indexed hl₁ he _ _ =>
    refine ⟨?_, he.unused.entries, rfl, hbelongs he⟩
    rw [writesOf_snoc, writesOf_snoc, writesOf_of_idles hl₁]
    exact congrArg (· ++ _) (List.append_nil _)

theorem placed_of_write {existing parsed : MemoryEntry} (hl : writesOf l = [e])
    (hexisting : s.entries.find? existing.id = some existing) (hid : e.id = existing.id)
    (hkeeps : BelongsTo project existing → BelongsTo project e) (hparsed : parseEntryForWrite e = .ok parsed)
    {entries : EntryCollection} (ht : t.entries = entries.put parsed) : Placed project (some existing.id) s l t := by
  obtain ⟨refs, rfl⟩ := parseEntryForWrite_spec hparsed
  rw [← hid] at hexisting ⊢
  refine ⟨fun e' he' => .inl ?_, fun id hid => ?_⟩
  · rw [hl, List.mem_singleton] at he'
    rw [he']
  · cases hid
    refine ⟨⟨e, by rw [hl]; exact List.mem_singleton_self e, rfl⟩, existing, hexisting, fun hbelongs after hafter => ?_⟩
    rw [ht] at hafter
    have hsame := (Collection.find?_put_self entries { e with patternRefs := refs }).symm.trans hafter
    exact Option.some.inj hsame ▸ hkeeps hbelongs

/-- **Every action writes new entries of its project, and its target.** -/
theorem placed_of_applied {a : AppliedMutation} (h : Applied runtime request mutationId time s l l' (.ok a) t)
    (hwrites : writesOf l = []) (hproject : request.projectId = some project) :
    Placed project (targetOf request) s l' t := by
  unfold targetOf
  cases h with
  | created haction h =>
    rw [hproject] at h
    obtain ⟨hl', hnew, hentries, hbelongs⟩ := h.wrote
    rw [if_pos haction]
    refine ⟨fun e he => .inr ?_, nofun⟩
    rw [hl', hwrites, List.nil_append, List.mem_singleton] at he
    subst he
    refine ⟨hnew, fun after hafter => ?_⟩
    rw [hentries, Collection.find?_put_self] at hafter
    exact Option.some.inj hafter ▸ hbelongs
  | @superseded _ _ l₂ _ t parsed previous e haction htarget hprevious hactive hl₁ h hparsed =>
    rw [hproject] at h
    obtain ⟨hl', hnew, hentries, hbelongs⟩ := h.wrote
    rw [writesOf_of_idles hl₁, hwrites, List.nil_append] at hl'
    rw [if_neg (by rw [haction]; nofun), htarget]
    obtain ⟨refs, rfl⟩ := parseEntryForWrite_spec hparsed
    have hl : writesOf (l₂ ++ [⟨.write (superseded previous e.id mutationId time), .ok ()⟩]) =
        [e, superseded previous e.id mutationId time] := by
      rw [writesOf_snoc, hl']
      rfl
    have hne : e.id ≠ previous.id := by
      intro heq
      rw [heq, hprevious] at hnew
      cases hnew
    refine ⟨fun e' he' => ?_, fun id hid => ?_⟩
    · rw [hl, List.mem_cons, List.mem_singleton] at he'
      rcases he' with rfl | rfl
      · refine .inr ⟨hnew, fun after hafter => ?_⟩
        rw [Collection.find?_put, hentries] at hafter
        have hsame := (if_neg hne).symm.trans hafter
        rw [Collection.find?_put_self] at hsame
        exact Option.some.inj hsame ▸ hbelongs
      · exact .inl rfl
    · cases hid
      refine ⟨⟨superseded previous e.id mutationId time, ?_, rfl⟩, previous, hprevious, fun hprevious after hafter => ?_⟩
      · rw [hl]
        exact List.mem_cons_of_mem _ (List.mem_singleton_self _)
      · have hsame := (Collection.find?_put_self t.entries
          { superseded previous e.id mutationId time with patternRefs := refs }).symm.trans hafter
        exact Option.some.inj hsame ▸ hprevious
  | rewritten he' htarget he hl₁ hparsed =>
    have hl : ∀ e', writesOf (l ++ _ ++ [⟨.write e', .ok ()⟩]) = [e'] := fun e' => by
      rw [writesOf_snoc, writesOf_of_idles hl₁, hwrites]
      rfl
    rcases he' with ⟨haction, rfl⟩ | ⟨haction, rfl⟩
    · rw [if_neg (by rw [haction]; nofun), htarget]
      exact placed_of_write (hl _) he rfl id hparsed rfl
    · rw [if_neg (by rcases haction with haction | haction <;> rw [haction] <;> nofun), htarget]
      refine placed_of_write (hl _) he rfl (fun _ => ?_) hparsed rfl
      unfold moved
      by_cases hpromoted : request.action = .promoteGlobal
      · exact .inl (by simp [hpromoted])
      · exact .inr (by simp [hpromoted, hproject])
  | hardDeleted haction htarget he _ _ _ hl₁ hparsed =>
    rw [if_neg (by rw [haction]; nofun), htarget]
    refine placed_of_write (e := deleted _ _ mutationId time) ?_ he rfl id hparsed rfl
    rw [writesOf_snoc, writesOf_snoc, writesOf_of_idles hl₁, hwrites]
    rfl

/-! ## The mutation -/

theorem Placed.audit {target : Option String} {record : AppendAuditRecordInput} {audit : List MemoryMutationAuditRecord}
    (h : Placed project target s l t) :
    Placed project target s (l ++ [⟨.appendAuditRecord record, .ok ()⟩]) { t with audit := audit } := by
  have hwrites : writesOf (l ++ [⟨.appendAuditRecord record, .ok ()⟩]) = writesOf l := by
    rw [writesOf_snoc]
    exact List.append_nil _
  exact ⟨by rw [hwrites]; exact h.writes, by rw [hwrites]; exact h.target⟩

/-- Where a mutation that is applied has written. -/
def PlacedIfApplied (project : String) (target : Option String) (s : LtmState) :
    Log LtmOp.Answer → Except String GovernedTypedLtmMutationResult → LtmState → Prop :=
  OnOk fun l r t => r.applied = true → Placed project target s l t

theorem placed_mutate {projectId : Option String} (hproject : request.projectId.or projectId = some project) :
    (mutate runtime request projectId).Meets answers calm (PlacedIfApplied project (targetOf request) s) [] s := by
  refine meets_mutate (fun l₁ request' mutationId time l' y t hl₁ hcompletes h => ?_) fun l' message => trivial
  cases y with
  | error message => trivial
  | ok r =>
    intro happlied
    cases h with
    | refused _ hnot | failed _ _ _ hnot | unrecorded _ _ hnot => cases hnot.symm.trans happlied
    | applied hl₂ h _ =>
      have hplaced := placed_of_applied h ((writesOf_of_idles hl₂).trans (writesOf_of_idles hl₁))
        (hcompletes.project project hproject)
      rw [show targetOf request = targetOf request' by unfold targetOf; rw [hcompletes.action, hcompletes.target]]
      exact hplaced.audit

end Actions

/-- **Mutations and projects.** A mutation that is submitted with a project, and applied, writes entries of that
project and of the global scope only, before and after, exactly when its target is one of them; a creation has no
target. -/
theorem confined_iff {request : MemoryMutationRequest} {projectId : Option String} {r : GovernedTypedLtmMutationResult}
    (hproject : request.projectId.or projectId = some project)
    (hends : (mutate runtime request projectId).Ends answers NewIds [] s (.ok r) l t) (happlied : r.applied = true) :
    Confined project s l t ↔
      ∀ id e, targetOf request = some id → s.entries.find? id = some e → BelongsTo project e :=
  ((placed_mutate hproject).of_within hends happlied).confined

/-! ## Two mutations of one fact -/

def otherProject : String := "00000000-0000-4000-8000-00000000000c"

/-- The fact is deleted by its own project. -/
theorem softDelete_confined :
    ∃ r l t, (mutate withoutIndex (requestOne .softDelete "00000000-0000-4000-8000-000000000003"
        "00000000-0000-4000-8000-000000000002") none).Ends answers NewIds [] storedOne (.ok r) l t ∧ r.applied = true ∧
      Confined "00000000-0000-4000-8000-00000000000a" storedOne l t := by
  obtain ⟨r, l, t, hends, hy⟩ := (mutate withoutIndex (requestOne .softDelete "00000000-0000-4000-8000-000000000003"
    "00000000-0000-4000-8000-000000000002") none).exists_ends_of_check answers NewIds (List.replicate 4 (envOne none ""))
      storedOne (fun r _ => r.applied) (by decide +kernel)
  have hproject : (requestOne .softDelete "00000000-0000-4000-8000-000000000003"
      "00000000-0000-4000-8000-000000000002").projectId.or none = some "00000000-0000-4000-8000-00000000000a" := rfl
  refine ⟨r, l, t, hends, hy, (confined_iff hproject hends hy).mpr ?_⟩
  intro id e htarget he
  cases htarget
  have hfact : storedOne.entries.find? "00000000-0000-4000-8000-000000000002" = some (candidateToEntry factOne
      factOne.projectId timeOne "00000000-0000-4000-8000-000000000001" "00000000-0000-4000-8000-000000000002") := by
    decide +kernel
  exact Option.some.inj (hfact.symm.trans he) ▸ .inr rfl

/-- Another project moves the fact to itself. -/
def demoteToOther : MemoryMutationRequest :=
  { requestOne .demoteProject "00000000-0000-4000-8000-000000000003" "00000000-0000-4000-8000-000000000002" with
    projectId := some otherProject }

theorem demoteToOther_not_confined :
    ∃ r l t, (mutate withoutIndex demoteToOther none).Ends answers NewIds [] storedOne (.ok r) l t ∧ r.applied = true ∧
      ¬Confined otherProject storedOne l t := by
  obtain ⟨r, l, t, hends, hy⟩ := (mutate withoutIndex demoteToOther none).exists_ends_of_check answers NewIds
    (List.replicate 4 (envOne none "")) storedOne (fun r _ => r.applied) (by decide +kernel)
  refine ⟨r, l, t, hends, hy, fun hconfined => ?_⟩
  have hproject : demoteToOther.projectId.or none = some otherProject := rfl
  have hplaced := (placed_mutate hproject).of_within hends hy
  have hbelongs := hplaced.confined.mp hconfined "00000000-0000-4000-8000-000000000002"
    (candidateToEntry factOne factOne.projectId timeOne "00000000-0000-4000-8000-000000000001"
      "00000000-0000-4000-8000-000000000002") rfl (by decide +kernel)
  exact absurd hbelongs (by decide +kernel)

end NousCore.Memory
