import NousCore.Witness.Chain

/-!
# The ledger of an honest store

* `Intact.append`, `Intact.checkpoint` : the two records that a queued call adds;
* `Idle` : the ledger between two queued calls.
-/

namespace NousCore.Witness

open Async

variable {H : Type} (c : Primitives H) (idFactory : Nat → String)

def WitnessCheckpoint.Spans (events : List (WitnessEvent H)) (k : WitnessCheckpoint H) : Prop :=
  1 ≤ k.startEventSequence ∧ k.startEventSequence ≤ k.endEventSequence ∧
    (events[k.endEventSequence - 1]?).map (·.eventHash) = some k.ledgerHeadHash

section

variable (s : WitnessState H)

/-- The signature of the checkpoint is valid under the stored key of its epoch. -/
def WitnessCheckpoint.Signed (k : WitnessCheckpoint H) : Prop :=
  ∃ r, s.keyEpochs.get? k.keyEpoch = some r ∧
    c.verifyDigestSignature k.checkpointHash k.signature r.publicKeyPem = true

/-- The stored documents are as the service writes them. -/
structure Intact : Prop where
  numbered : Numbered (·.sequence) 1 s.events.values
  linked : EventsLinked c none s.events.values
  eventIds : ∀ k ∈ s.events.keys, ∃ n < s.issued, k = idFactory n
  namedIds : ∀ e ∈ s.events.values, ∃ n, e.id = idFactory n
  checkpointsNumbered : Numbered (·.checkpointSequence) 1 s.checkpoints.values
  checkpointsLinked : CheckpointsLinked c none s.checkpoints.values
  checkpointIds : ∀ k ∈ s.checkpoints.keys, ∃ n < s.issued, k = idFactory n
  spans : ∀ k ∈ s.checkpoints.values, k.Spans s.events.values
  ordered : s.checkpoints.values.Pairwise fun a b => a.endEventSequence ≤ b.startEventSequence
  signed : ∀ k ∈ s.checkpoints.values, k.Signed c s
  keyPairs : ∀ e r, s.keyEpochs.get? e = some r → ∃ n, r.toKeyPair = c.keyPair n

/-- The head speaks of the last event and of the last checkpoint. -/
structure InSync (head : LedgerHead H) : Prop where
  lastSequence : head.lastSequence = s.events.values.length
  lastEventHash : head.lastEventHash = lastHash (·.eventHash) none s.events.values
  lastCheckpointSequence : head.lastCheckpointSequence = s.checkpoints.values.length
  lastCheckpointHash : head.lastCheckpointHash = lastHash (·.checkpointHash) none s.checkpoints.values

def WitnessState.currentHead : LedgerHead H := s.head.getD (LedgerHead.initial "")

/-- The ledger between two queued calls. -/
structure Idle : Prop where
  intact : Intact c idFactory s
  inSync : InSync s s.currentHead

end

variable {c idFactory} {s s' s'' : WitnessState H}

theorem intact_empty : Intact c idFactory (.empty : WitnessState H) where
  numbered := trivial
  linked := ⟨trivial, by simp [WitnessState.empty, Record.empty, Record.values]⟩
  eventIds := by simp [WitnessState.empty, Record.empty, Record.keys]
  namedIds := by simp [WitnessState.empty, Record.empty, Record.values]
  checkpointsNumbered := trivial
  checkpointsLinked := ⟨trivial, by simp [WitnessState.empty, Record.empty, Record.values]⟩
  checkpointIds := by simp [WitnessState.empty, Record.empty, Record.keys]
  spans := by simp [WitnessState.empty, Record.empty, Record.values]
  ordered := by simp [WitnessState.empty, Record.empty, Record.values]
  signed := by simp [WitnessState.empty, Record.empty, Record.values]
  keyPairs := by simp [WitnessState.empty]

theorem idle_empty : Idle c idFactory (.empty : WitnessState H) := ⟨intact_empty, ⟨rfl, rfl, rfl, rfl⟩⟩

/-! ## Reading an intact ledger -/

theorem insertionSort_of_numbered {α : Type} {seq : α → Nat} {l : List α} {n : Nat} (h : Numbered seq n l) :
    l.insertionSort (fun a b => seq a ≤ seq b) = l := h.pairwise.insertionSort_eq

theorem Intact.listEvents (h : Intact c idFactory s) : s.listEvents = s.events.values :=
  insertionSort_of_numbered h.numbered

theorem Intact.listCheckpoints (h : Intact c idFactory s) : s.listCheckpoints = s.checkpoints.values :=
  insertionSort_of_numbered h.checkpointsNumbered

variable {events : List (WitnessEvent H)} {k : WitnessCheckpoint H}

theorem WitnessCheckpoint.Spans.end_le (h : k.Spans events) : k.endEventSequence ≤ events.length := by
  obtain ⟨hstart, hend, hget⟩ := h
  obtain ⟨e, he, -⟩ := Option.map_eq_some_iff.mp hget
  have hlt := (List.getElem?_eq_some_iff.mp he).1
  omega

theorem WitnessCheckpoint.Spans.mono {events' : List (WitnessEvent H)}
    (h : k.Spans events) (hpre : events <+: events') : k.Spans events' := by
  obtain ⟨hstart, hend, hget⟩ := h
  obtain ⟨e, he, hhash⟩ := Option.map_eq_some_iff.mp hget
  obtain ⟨more, rfl⟩ := hpre
  refine ⟨hstart, hend, ?_⟩
  rw [List.getElem?_append_left (List.getElem?_eq_some_iff.mp he).1, he, Option.map_some, hhash]

/-! ## What the calls do to the store -/

/-- No event is recorded in the stored head. -/
def WitnessState.Blank (s : WitnessState H) : Prop := ∀ head ∈ s.head, head.lastSequence = 0

instance (s : WitnessState H) : Decidable s.Blank :=
  inferInstanceAs (Decidable (∀ head ∈ s.head, head.lastSequence = 0))

variable (c idFactory)

/-- The events and checkpoints are the same; a head without events may have been replaced by a first head. -/
structure Steady (s s' : WitnessState H) : Prop where
  events : s'.events = s.events
  checkpoints : s'.checkpoints = s.checkpoints
  issued : s.issued ≤ s'.issued
  head : s'.head = s.head ∨ s.Blank ∧ ∃ now, s'.head = some (LedgerHead.initial now)

/-- What a verification does: it may store a first head, a first key of an epoch, and a report. -/
structure Undisturbed (s s' : WitnessState H) : Prop extends Steady s s' where
  keys : ∀ e r, s.keyEpochs.get? e = some r → s'.keyEpochs.get? e = some r
  keyPairs : ∀ e r, s'.keyEpochs.get? e = some r → s.keyEpochs.get? e = some r ∨ ∃ n, r.toKeyPair = c.keyPair n

/-- What a queued call does: it adds events and checkpoints. -/
structure Extended (s s' : WitnessState H) : Prop where
  events : s.events.values <+: s'.events.values
  checkpoints : s.checkpoints.values <+: s'.checkpoints.values
  intact : Intact c idFactory s → Intact c idFactory s'

variable {c idFactory}

theorem Steady.refl (s : WitnessState H) : Steady s s := ⟨rfl, rfl, Nat.le_refl _, .inl rfl⟩

theorem Steady.trans (h : Steady s s') (h' : Steady s' s'') : Steady s s'' where
  events := h'.events.trans h.events
  checkpoints := h'.checkpoints.trans h.checkpoints
  issued := h.issued.trans h'.issued
  head := by
    rcases h.head, h'.head with ⟨heq | ⟨hblank, now, hnow⟩, heq' | ⟨hblank', hinitial⟩⟩
    · exact .inl (heq'.trans heq)
    · refine .inr ⟨?_, hinitial⟩
      unfold WitnessState.Blank at hblank' ⊢
      rwa [heq] at hblank'
    · exact .inr ⟨hblank, now, heq'.trans hnow⟩
    · exact .inr ⟨hblank, hinitial⟩

theorem Undisturbed.refl (s : WitnessState H) : Undisturbed c s s :=
  ⟨.refl s, fun _ _ h => h, fun _ _ h => .inl h⟩

theorem Undisturbed.trans (h : Undisturbed c s s') (h' : Undisturbed c s' s'') : Undisturbed c s s'' :=
  ⟨h.toSteady.trans h'.toSteady, fun e r hr => h'.keys e r (h.keys e r hr),
    fun e r hr => (h'.keyPairs e r hr).elim (h.keyPairs e r) .inr⟩

theorem Extended.refl (s : WitnessState H) : Extended c idFactory s s :=
  ⟨List.prefix_refl _, List.prefix_refl _, id⟩

theorem Extended.trans (h : Extended c idFactory s s') (h' : Extended c idFactory s' s'') :
    Extended c idFactory s s'' :=
  ⟨h.events.trans h'.events, h.checkpoints.trans h'.checkpoints, fun hi => h'.intact (h.intact hi)⟩

theorem Intact.undisturbed (h : Intact c idFactory s) (hu : Undisturbed c s s') : Intact c idFactory s' where
  numbered := hu.events ▸ h.numbered
  linked := hu.events ▸ h.linked
  eventIds := by
    intro k hk
    obtain ⟨n, hn, rfl⟩ := h.eventIds k (hu.events ▸ hk)
    exact ⟨n, Nat.lt_of_lt_of_le hn hu.issued, rfl⟩
  namedIds := hu.events ▸ h.namedIds
  checkpointsNumbered := hu.checkpoints ▸ h.checkpointsNumbered
  checkpointsLinked := hu.checkpoints ▸ h.checkpointsLinked
  checkpointIds := by
    intro k hk
    obtain ⟨n, hn, rfl⟩ := h.checkpointIds k (hu.checkpoints ▸ hk)
    exact ⟨n, Nat.lt_of_lt_of_le hn hu.issued, rfl⟩
  spans := by
    rw [hu.events, hu.checkpoints]
    exact h.spans
  ordered := hu.checkpoints ▸ h.ordered
  signed := by
    rw [hu.checkpoints]
    intro k hk
    obtain ⟨r, hr, hvalid⟩ := h.signed k hk
    exact ⟨r, hu.keys _ _ hr, hvalid⟩
  keyPairs := fun e r hr => (hu.keyPairs e r hr).elim (h.keyPairs e r) id

theorem Steady.extended (h : Steady s s') (hi : Intact c idFactory s → Intact c idFactory s') :
    Extended c idFactory s s' :=
  ⟨h.events ▸ List.prefix_refl _, h.checkpoints ▸ List.prefix_refl _, hi⟩

theorem Undisturbed.extended (h : Undisturbed c s s') : Extended c idFactory s s' :=
  h.toSteady.extended fun hi => hi.undisturbed h

theorem InSync.steady {head : LedgerHead H} (h : InSync s head) (hu : Steady s s') : InSync s' head := by
  obtain ⟨h₁, h₂, h₃, h₄⟩ := h
  exact ⟨hu.events ▸ h₁, hu.events ▸ h₂, hu.checkpoints ▸ h₃, hu.checkpoints ▸ h₄⟩

theorem Intact.no_checkpoint (h : Intact c idFactory s) (hempty : s.events.values = []) :
    s.checkpoints.values = [] := by
  refine List.eq_nil_iff_forall_not_mem.mpr fun k hk => ?_
  have hspans := h.spans k hk
  have hle := hspans.end_le
  rw [hempty, List.length_nil] at hle
  have := hspans.1
  have := hspans.2.1
  omega

theorem Intact.inSync_initial (h : Intact c idFactory s) (hempty : s.events.values = []) (now : Timestamp) :
    InSync s (LedgerHead.initial now) := by
  have hnone := h.no_checkpoint hempty
  refine ⟨?_, ?_, ?_, ?_⟩
  · rw [hempty]
    rfl
  · rw [hempty]
    rfl
  · rw [hnone]
    rfl
  · rw [hnone]
    rfl

theorem Idle.steady (h : Idle c idFactory s) (hu : Steady s s') (hi : Intact c idFactory s') : Idle c idFactory s' := by
  refine ⟨hi, ?_⟩
  rcases hu.head with heq | ⟨hblank, now, hnow⟩
  · rw [WitnessState.currentHead, heq]
    exact h.inSync.steady hu
  · have hlast : s.currentHead.lastSequence = 0 := by
      unfold WitnessState.currentHead
      cases hhead : s.head with
      | none => rfl
      | some head => exact hblank head hhead
    have hempty : s.events.values = [] := by
      rw [← List.length_eq_zero_iff, ← h.inSync.lastSequence, hlast]
    rw [WitnessState.currentHead, hnow]
    exact (h.intact.inSync_initial hempty now).steady hu

theorem Idle.undisturbed (h : Idle c idFactory s) (hu : Undisturbed c s s') : Idle c idFactory s' :=
  h.steady hu.toSteady (h.intact.undisturbed hu)

/-! ## The records that a queued call adds -/

section Adding

/-- An id that has been drawn and names no record. -/
structure Unused (idFactory : Nat → String) (s : WitnessState H) (id : String) : Prop where
  drawn : ∃ n < s.issued, id = idFactory n
  event : id ∉ s.events.keys
  checkpoint : id ∉ s.checkpoints.keys

theorem Unused.steady {id : String} (h : Unused idFactory s id) (hu : Steady s s') : Unused idFactory s' id := by
  obtain ⟨⟨n, hn, hid⟩, hevent, hcheckpoint⟩ := h
  exact ⟨⟨n, Nat.lt_of_lt_of_le hn hu.issued, hid⟩, hu.events ▸ hevent, hu.checkpoints ▸ hcheckpoint⟩

theorem Intact.unused (h : Intact c idFactory s) (hinj : Function.Injective idFactory) :
    Unused idFactory { s with issued := s.issued + 1 } (idFactory s.issued) := by
  refine ⟨⟨s.issued, Nat.lt_succ_self _, rfl⟩, fun hk => ?_, fun hk => ?_⟩
  · obtain ⟨n, hn, he⟩ := h.eventIds _ hk
    exact absurd (hinj he) (Nat.ne_of_gt hn)
  · obtain ⟨n, hn, he⟩ := h.checkpointIds _ hk
    exact absurd (hinj he) (Nat.ne_of_gt hn)

variable {head : LedgerHead H} (input : AppendLedgerEventInput) (now : Timestamp)

def LedgerHead.afterEvent (head : LedgerHead H) (event : WitnessEvent H) (now : Timestamp) : LedgerHead H :=
  { head with lastSequence := event.sequence, lastEventHash := some event.eventHash, updatedAt := now }

theorem event_hashed : (input.event c head now).Hashed c := ⟨rfl, rfl⟩

theorem Intact.append (h : Intact c idFactory s) (hsync : InSync s head)
    (hunused : Unused idFactory s input.eventId) :
    Intact c idFactory { s with events := s.events.set input.eventId (input.event c head now) } ∧
      InSync { s with events := s.events.set input.eventId (input.event c head now) }
        (head.afterEvent (input.event c head now) now) := by
  have hvalues := Record.values_set_of_not_mem (input.event c head now) hunused.event
  have hkeys := Record.keys_set_of_not_mem (input.event c head now) hunused.event
  have hpre : s.events.values <+: (s.events.set input.eventId (input.event c head now)).values :=
    hvalues ▸ List.prefix_append _ _
  refine ⟨{ h with numbered := ?_, linked := ?_, eventIds := ?_, namedIds := ?_, spans := ?_ },
    ⟨?_, ?_, hsync.3, hsync.4⟩⟩
  · rw [hvalues]
    refine numbered_append.mpr ⟨h.numbered, ?_, trivial⟩
    show head.lastSequence + 1 = _
    rw [hsync.lastSequence]
    omega
  · rw [hvalues]
    refine ⟨chained_append.mpr ⟨h.linked.1, hsync.lastEventHash, trivial⟩, fun e he => ?_⟩
    rcases List.mem_append.mp he with he | he
    · exact h.linked.2 e he
    · rw [List.mem_singleton.mp he]
      exact event_hashed input now
  · rw [hkeys]
    intro k hk
    rcases List.mem_append.mp hk with hk | hk
    · exact h.eventIds k hk
    · rw [List.mem_singleton.mp hk]
      exact hunused.drawn
  · rw [hvalues]
    intro e he
    rcases List.mem_append.mp he with he | he
    · exact h.namedIds e he
    · rw [List.mem_singleton.mp he]
      obtain ⟨n, -, hn⟩ := hunused.drawn
      exact ⟨n, hn⟩
  · exact fun k hk => (h.spans k hk).mono hpre
  · rw [hvalues, List.length_append, ← hsync.lastSequence]
    rfl
  · rw [hvalues, lastHash_append_singleton]
    rfl

def LedgerHead.afterCheckpoint (head : LedgerHead H) (checkpoint : WitnessCheckpoint H) (now : Timestamp) :
    LedgerHead H :=
  { head with
    lastCheckpointSequence := checkpoint.checkpointSequence
    lastCheckpointHash := some checkpoint.checkpointHash
    updatedAt := now }

theorem Intact.checkpoint (h : Intact c idFactory s) (hsync : InSync s head) {headHash : H}
    (hhash : head.lastEventHash = some headHash) {reason : WitnessCheckpointReason}
    (hbody : k.toCheckpointBody = checkpointBody reason head headHash s.checkpoints.values.getLast?)
    (hhashed : k.Hashed c) (hunused : Unused idFactory s k.id)
    (hsigned : k.Signed c s) :
    Intact c idFactory { s with checkpoints := s.checkpoints.set k.id k } ∧
      InSync { s with checkpoints := s.checkpoints.set k.id k } (head.afterCheckpoint k now) := by
  have hvalues := Record.values_set_of_not_mem k hunused.checkpoint
  have hkeys := Record.keys_set_of_not_mem k hunused.checkpoint
  have hbody' : k.checkpointSequence = head.lastCheckpointSequence + 1 ∧ k.endEventSequence = head.lastSequence ∧
      k.previousCheckpointHash = s.checkpoints.values.getLast?.map (·.checkpointHash) ∧
      k.ledgerHeadHash = headHash := by
    rw [hbody]
    exact ⟨rfl, rfl, rfl, rfl⟩
  obtain ⟨hsequence, hend, hprevious, hledger⟩ := hbody'
  -- the ledger has a last event, and its hash is the one that the head names
  have hlast : (s.events.values.getLast?).map (·.eventHash) = some headHash := by
    rw [← hhash, hsync.lastEventHash]
    simp [lastHash]
  have hpos : 1 ≤ head.lastSequence := by
    rw [hsync.lastSequence, Nat.one_le_iff_ne_zero, ne_eq, List.length_eq_zero_iff]
    intro hempty
    rw [hempty] at hlast
    cases hlast
  have hspans : k.Spans s.events.values := by
    have hstart : 1 ≤ k.startEventSequence ∧ k.startEventSequence ≤ head.lastSequence := by
      rw [hbody]
      unfold checkpointBody
      cases s.checkpoints.values.getLast? with
      | none => exact ⟨Nat.le_refl _, hpos⟩
      | some latest =>
        dsimp only
        omega
    refine ⟨hstart.1, hend ▸ hstart.2, ?_⟩
    rw [hend, hledger, hsync.lastSequence, ← List.getLast?_eq_getElem?]
    exact hlast
  have hafter : ∀ a ∈ s.checkpoints.values, a.endEventSequence ≤ k.startEventSequence := by
    intro a ha
    obtain ⟨init, latest, hsplit⟩ := List.eq_nil_or_concat s.checkpoints.values |>.resolve_left
      (List.ne_nil_of_mem ha)
    have hlatest : a.endEventSequence ≤ latest.endEventSequence := by
      have hordered := h.ordered
      rw [hsplit, List.concat_eq_append, List.pairwise_append] at hordered
      rw [hsplit, List.concat_eq_append, List.mem_append] at ha
      rcases ha with ha | ha
      · have hle := hordered.2.2 a ha latest (List.mem_singleton_self _)
        have hspan := (h.spans latest (by rw [hsplit]; simp)).2.1
        omega
      · rw [List.mem_singleton.mp ha]
    have hle := (h.spans latest (by rw [hsplit]; simp)).end_le
    rw [← hsync.lastSequence] at hle
    rw [hbody, hsplit, List.concat_eq_append, List.getLast?_concat]
    show _ ≤ min _ _
    omega
  refine ⟨{ h with
    checkpointsNumbered := ?_, checkpointsLinked := ?_, checkpointIds := ?_, spans := ?_, ordered := ?_,
    signed := ?_ }, ⟨hsync.1, hsync.2, ?_, ?_⟩⟩
  · rw [hvalues]
    refine numbered_append.mpr ⟨h.checkpointsNumbered, ?_, trivial⟩
    show k.checkpointSequence = _
    rw [hsequence, hsync.lastCheckpointSequence]
    omega
  · rw [hvalues]
    refine ⟨chained_append.mpr ⟨h.checkpointsLinked.1, ?_, trivial⟩, fun e he => ?_⟩
    · show k.previousCheckpointHash = _
      rw [hprevious]
      simp [lastHash]
    · rcases List.mem_append.mp he with he | he
      · exact h.checkpointsLinked.2 e he
      · rw [List.mem_singleton.mp he]
        exact hhashed
  · rw [hkeys]
    intro j hj
    rcases List.mem_append.mp hj with hj | hj
    · exact h.checkpointIds j hj
    · rw [List.mem_singleton.mp hj]
      exact hunused.drawn
  · rw [hvalues]
    intro j hj
    rcases List.mem_append.mp hj with hj | hj
    · exact h.spans j hj
    · rw [List.mem_singleton.mp hj]
      exact hspans
  · rw [hvalues, List.pairwise_append]
    refine ⟨h.ordered, List.pairwise_singleton _ _, fun a ha b hb => ?_⟩
    rw [List.mem_singleton.mp hb]
    exact hafter a ha
  · rw [hvalues]
    intro j hj
    rcases List.mem_append.mp hj with hj | hj
    · exact h.signed j hj
    · rw [List.mem_singleton.mp hj]
      exact hsigned
  · rw [hvalues, List.length_append, ← hsync.lastCheckpointSequence]
    exact hsequence
  · rw [hvalues, lastHash_append_singleton]
    rfl

end Adding

end NousCore.Witness
