import Mathlib.Logic.Relation
import NousCore.Memory.Deletion

/-!
# The changes of a mutation

* `Change` : one request of the runtime that changes the state, with what it relies on;
* `changes_mutate` : a mutation makes such changes, one after the other, and no others.
-/

namespace NousCore.Memory

open Async Relation

variable {runtime : LtmRuntime} {l : Log LtmOp.Answer} {s t u : LtmState}

/-! ## One change -/

/-- The vector record of an entry, if it has one, says where the entry is placed. -/
def IndexedAs (s : LtmState) (e : MemoryEntry) : Prop :=
  ∀ record, s.index.get? e.id = some record →
    record.memoryType = e.type ∧ record.scope = e.scope ∧ record.projectId = e.projectId

/-- What a mutation makes of its target. -/
inductive Mutated : MemoryEntry → MemoryEntry → Prop
  | superseded {e : MemoryEntry} (replacementId mutationId : String) (now : IsoTime) : e.lifecycleStatus = .active →
      Mutated e (superseded e replacementId mutationId now)
  | deleted {e : MemoryEntry} (tombstoneId : Option String) (mutationId : String) (now : IsoTime) :
      Mutated e (deleted e tombstoneId mutationId now)
  | moved {e : MemoryEntry} (request : MemoryMutationRequest) (mutationId : String) (now : IsoTime) :
      Mutated e (moved e request mutationId now)

inductive Change (s : LtmState) : LtmState → Prop
  | audit (audit : List MemoryMutationAuditRecord) : Change s { s with audit := audit }
  | tombstone (tombstone : MemoryTombstone) : s.tombstones.find? tombstone.id = none →
      Change s { s with tombstones := s.tombstones.put tombstone }
  | indexed (id : String) (record : VectorRecord) : s.entries.find? id = none →
      Change s { s with index := s.index.set id record }
  | unindexed (id : String) : s.entries.find? id = none → Change s { s with index := s.index.erase id }
  | created (e : MemoryEntry) : s.entries.find? e.id = none → e.type ≠ .distilledPattern → NewEntry e →
      IndexedAs s e → parseEntryForWrite e = .ok e → Change s { s with entries := s.entries.put e }
  | mutated (e e' parsed : MemoryEntry) : s.entries.find? e.id = some e → Mutated e e' →
      parseEntryForWrite e' = .ok parsed → Change s { s with entries := s.entries.put parsed }

abbrev Changes := ReflTransGen Change

/-! ## The changes of each action -/

section Actions

variable {request : MemoryMutationRequest} {mutationId : String} {time : IsoTime} {l' : Log LtmOp.Answer}

theorem Persisted.changes {candidate : MemoryWriteCandidate} {projectId : Option String}
    {y : Except String MemoryEntry} (h : Persisted candidate projectId s l l' y t) : Changes s t := by
  cases h with
  | refused _ => exact .refl
  | stored _ he hparsed =>
    refine .single (.created _ he.unused.entries (parse_of_no_refs he.new.patternRefs hparsed).2 he.new ?_ hparsed)
    intro record hrecord
    cases he.unused.index.symm.trans hrecord
  | @indexed _ e record _ he hrecord hparsed =>
    refine (ReflTransGen.single (.indexed e.id record he.unused.entries)).tail
      (.created (s := { s with index := s.index.set e.id record }) e he.unused.entries
        (parse_of_no_refs he.new.patternRefs hparsed).2 he.new ?_ hparsed)
    intro record' hrecord'
    have hset := (Record.get?_set _ _ _ _).symm.trans hrecord'
    rw [if_pos rfl] at hset
    cases hset
    exact hrecord
  | @undone _ id record _ _ _ hid =>
    exact (ReflTransGen.single (.indexed id record hid.entries)).tail
      (.unindexed (s := { s with index := s.index.set id record }) id hid.entries)
  | torn _ hid => exact .single (.indexed _ _ hid.entries)

theorem Applied.changes {y : Except String AppliedMutation} (h : Applied runtime request mutationId time s l l' y t) :
    Changes s t := by
  cases h with
  | refused _ => exact .refl
  | unpersisted _ h => exact h.changes
  | created _ h => exact h.changes
  | superseded _ _ hprevious hactive _ h hparsed =>
    -- the target is still stored when the replacement is
    exact h.changes.tail (.mutated _ _ _ (h.framed.entries _ _ nofun hprevious) (.superseded _ _ _ hactive) hparsed)
  | replaced _ h => exact h.changes
  | rewritten he' _ he _ hparsed =>
    rcases he' with ⟨-, rfl⟩ | ⟨-, rfl⟩
    · exact .single (.mutated _ _ _ he (.deleted none mutationId time) hparsed)
    · exact .single (.mutated _ _ _ he (.moved request mutationId time) hparsed)
  | @hardDeleted _ _ _ _ tombstone _ _ he _ hnew _ _ hparsed =>
    exact (ReflTransGen.single (.tombstone _ hnew)).tail (.mutated
      (s := { s with tombstones := s.tombstones.put tombstone }) _ _ _ he (.deleted _ mutationId time) hparsed)
  | entombed _ hnew => exact .single (.tombstone _ hnew)

theorem Recorded.changes {y : Except String GovernedTypedLtmMutationResult}
    (h : Recorded runtime request mutationId time s l l' y t) : Changes s t := by
  cases h with
  | refused _ _ => exact .single (.audit _)
  | applied _ h _ => exact h.changes.tail (.audit _)
  | failed _ h _ _ => exact h.changes.tail (.audit _)
  | unrecorded _ h _ => exact h.changes.tail (.audit _)

theorem changes_mutate {projectId : Option String} :
    (mutate runtime request projectId).Meets answers calm (fun _ _ t => Changes s t) l s :=
  meets_mutate (fun _ _ _ _ _ _ _ _ _ h => h.changes) fun _ _ => .refl

end Actions

theorem Mutates.changes {request : MemoryMutationRequest × Option String} (h : Mutates runtime s request t) :
    Changes s t := by
  obtain ⟨y, l, hends⟩ := h
  exact changes_mutate.of_within hends

end NousCore.Memory
