import NousCore.Backlog.Queue

/-!
# An execution releases its slot

* `ExecuteOutcome.Recordable` : what is thrown has a text that is not empty;
* `ReleasesSlot`, `releasesSlot_iff` : the executions after which the entry is no longer active.
-/

namespace NousCore.Backlog

open Async

variable {config : BacklogQueueConfig} {key : String} {outcome : ExecuteOutcome}

/-! ## What an execution records -/

/-- What is thrown has a text, and one that `z.string().min(1)` accepts. -/
def ExecuteOutcome.Recordable : ExecuteOutcome → Prop
  | .thrown (.error message) => message ≠ ""
  | .thrown (.other text) => ∃ t, text = some t ∧ t ≠ ""
  | .result _ | .malformed => True

/-- The status of an entry after its execution; none is put if what was thrown cannot be recorded. -/
def ExecuteOutcome.recorded : ExecuteOutcome → Option BacklogEntryStatus
  | .result (.suspended _ _) => some .suspended
  | .result (.error _) | .malformed => some .failed
  | .result _ => some .completed
  | .thrown value => (BacklogError.thrown value).text.toOption.bind fun text => if text = "" then none else some .failed

theorem recorded_thrown (value : ThrownValue) : (ExecuteOutcome.thrown value).recorded =
    (BacklogError.thrown value).text.toOption.bind fun text => if text = "" then none else some .failed := rfl

theorem recordable_iff : outcome.Recordable ↔ ∃ status, outcome.recorded = some status := by
  cases outcome with
  | malformed => exact ⟨fun _ => ⟨_, rfl⟩, fun _ => trivial⟩
  | result result => cases result <;> exact ⟨fun _ => ⟨_, rfl⟩, fun _ => trivial⟩
  | thrown value =>
    cases value with
    | error message =>
      by_cases h : message = ""
      · simp [ExecuteOutcome.Recordable, ExecuteOutcome.recorded, BacklogError.text, Except.toOption, h]
      · simp [ExecuteOutcome.Recordable, ExecuteOutcome.recorded, BacklogError.text, Except.toOption, h]
    | other text =>
      cases text with
      | none => simp [ExecuteOutcome.Recordable, ExecuteOutcome.recorded, BacklogError.text, Except.toOption]
      | some text =>
        by_cases h : text = ""
        · simp [ExecuteOutcome.Recordable, ExecuteOutcome.recorded, BacklogError.text, Except.toOption, h]
        · simp [ExecuteOutcome.Recordable, ExecuteOutcome.recorded, BacklogError.text, Except.toOption, h]

theorem recorded_ne_active {status : BacklogEntryStatus} (h : outcome.recorded = some status) :
    status = .completed ∨ status = .failed ∨ status = .suspended := by
  unfold ExecuteOutcome.recorded at h
  split at h
  · exact .inr (.inr (Option.some.inj h).symm)
  · exact .inr (.inl (Option.some.inj h).symm)
  · exact .inr (.inl (Option.some.inj h).symm)
  · exact .inl (Option.some.inj h).symm
  · obtain ⟨text, -, htext⟩ := Option.bind_eq_some_iff.mp h
    exact .inr (.inl (Option.some.inj (Option.ite_none_left_eq_some.mp htext).2).symm)

/-! ## The stored entry -/

def putStatus (key : String) : (Sigma BacklogOp.Answer) → Option BacklogEntryStatus
  | ⟨.put e, _⟩ => if e.key = key then some e.status else none
  | _ => none

def putStatuses (key : String) (l : Log BacklogOp.Answer) : List BacklogEntryStatus := l.filterMap (putStatus key)

/-- What is true of the stored entry, and what has been put into it. -/
structure Holds (key : String) (P : Option BacklogEntry → Prop) (puts : List BacklogEntryStatus)
    (l : Log BacklogOp.Answer) (s : BacklogState) : Prop where
  stored : P (s.collection.find? key)
  puts : putStatuses key l = puts

def Is (status : BacklogEntryStatus) (stored : Option BacklogEntry) : Prop := ∃ e, stored = some e ∧ e.status = status

def AtMost (status : BacklogEntryStatus) (stored : Option BacklogEntry) : Prop := ∀ e, stored = some e → e.status = status

/-- The execution ends in this way, and the other calls leave the stored entry as it is. -/
def undisturbed (key : String) (outcome : ExecuteOutcome) : Contract BacklogOp.Answer BacklogEnv BacklogState where
  allowed := fun _ _ env _ => env.outcome = outcome
  rely := fun s t => t.collection.find? key = s.collection.find? key
  guar := fun _ _ => True

/-- The operations that leave the collection as it is. -/
def Quiet : BacklogOp → Prop
  | .put _ | .delete _ => False
  | _ => True

variable {env : BacklogEnv} {t : BacklogState}

theorem collection_of_quiet {o : BacklogOp} {s : BacklogState} {r : o.Answer} (ho : Quiet o)
    (h : answers o env s = some (r, t)) : t.collection = s.collection := by
  cases o with
  | put e => exact ho.elim
  | delete id => exact ho.elim
  | awaitReady | awaitIdle =>
    unfold answers at h
    dsimp only at h
    split_ifs at h
    cases h
    rfl
  | leavePromotion idle =>
    cases h
    cases idle <;> rfl
  | finishExecution idle =>
    cases h
    cases idle <;> rfl
  | _ =>
    cases h
    rfl

theorem putStatus_of_quiet {o : BacklogOp} {r : o.Answer} (ho : Quiet o) : putStatus key ⟨o, r⟩ = none := by
  cases o with
  | put e => exact ho.elim
  | _ => rfl

section Rules

variable {α : Type} {o : BacklogOp} {next : o.Answer → BacklogCall α} {l : Log BacklogOp.Answer} {s : BacklogState}
  {post : Log BacklogOp.Answer → Except BacklogError α → BacklogState → Prop} {P : Option BacklogEntry → Prop}
  {puts : List BacklogEntryStatus}

theorem Holds.rely (h : Holds key P puts l s)
    (hrely : t.collection.find? key = s.collection.find? key) : Holds key P puts l t :=
  ⟨by rw [hrely]; exact h.stored, h.puts⟩

theorem Holds.quiet {r : o.Answer} (h : Holds key P puts l s) (ho : Quiet o)
    (hanswers : answers o env s = some (r, t)) : Holds key P puts (l ++ [⟨o, r⟩]) t where
  stored := by rw [collection_of_quiet ho hanswers]; exact h.stored
  puts := by
    rw [putStatuses, List.filterMap_append, List.filterMap_cons, putStatus_of_quiet ho]
    exact (List.append_nil _).trans h.puts

theorem meets_quiet (h : Holds key P puts l s) (ho : Quiet o)
    (hnext : ∀ env r t l' t', answers o env s = some (r, t) → env.outcome = outcome → Holds key P puts l' t' →
      (next r).Meets answers (undisturbed key outcome) post l' t') :
    (.call o next : BacklogCall α).Meets answers (undisturbed key outcome) post l s :=
  fun env r t hanswers hallowed =>
    ⟨trivial, fun t' hrely => hnext env r t _ t' hanswers hallowed ((h.quiet ho hanswers).rely hrely)⟩

end Rules

/-! ## The transition at the end of an execution -/

/-- The texts of a patch are absent or not empty. -/
def BacklogPatch.Accepted (patch : BacklogPatch) : Prop :=
  patch.lastErrorCode ≠ some (some "") ∧ patch.lastErrorMessage ≠ some (some "")

theorem parseText_isOk_iff {field : Option (Option String)} {existing : Option Text} :
    (∃ text, parseText field existing = .ok text) ↔ field ≠ some (some "") := by
  unfold parseText
  match field with
  | none => simp
  | some none => simp
  | some (some text) =>
    by_cases h : text = ""
    · simp [h]
    · simp [h]

theorem patched_isOk_iff {existing : BacklogEntry} {patch : BacklogPatch} {status : BacklogEntryStatus} :
    (∃ updated, existing.patched patch status = .ok updated) ↔ patch.Accepted := by
  unfold BacklogPatch.Accepted
  rw [← @parseText_isOk_iff _ existing.lastErrorCode, ← @parseText_isOk_iff _ existing.lastErrorMessage]
  unfold BacklogEntry.patched
  constructor
  · rintro ⟨updated, h⟩
    split at h
    · rename_i code message hcode hmessage
      exact ⟨⟨code, hcode⟩, ⟨message, hmessage⟩⟩
    · cases h
  · rintro ⟨⟨code, hcode⟩, ⟨message, hmessage⟩⟩
    rw [hcode, hmessage]
    exact ⟨_, rfl⟩

section Transition

variable {l : Log BacklogOp.Answer} {s : BacklogState} {status next : BacklogEntryStatus}
  {puts : List BacklogEntryStatus} {patch : BacklogPatch}

section

variable (h : Holds key (Is status) puts l s)

include h

theorem get_of_holds {r : Option {e : BacklogEntry // e.key = key}}
    (hanswers : answers (.get key) env s = some (r, t)) : ∃ existing, r = some existing := by
  obtain ⟨rfl, -⟩ := Prod.mk.inj (Option.some.inj hanswers)
  obtain ⟨e, he, -⟩ := h.stored
  cases hget : s.collection.get key with
  | none => rw [Collection.get_eq_none hget] at he; cases he
  | some existing => exact ⟨existing, rfl⟩

theorem Holds.put {updated : BacklogEntry} {r : Unit} (hkey : updated.key = key)
    (hanswers : answers (.put updated) env s = some (r, t)) :
    Holds key (Is updated.status) (puts ++ [updated.status]) (l ++ [⟨.put updated, r⟩]) t := by
  obtain ⟨-, rfl⟩ := Prod.mk.inj (Option.some.inj hanswers)
  refine ⟨⟨updated, ?_, rfl⟩, ?_⟩
  · rw [← hkey]
    exact Collection.find?_put_self _ _
  · have hput : putStatus key ⟨.put updated, r⟩ = some updated.status := if_pos hkey
    rw [putStatuses, List.filterMap_append, List.filterMap_cons, hput]
    exact congrArg (· ++ [updated.status]) h.puts

theorem meets_transition (hpatch : patch.Accepted) :
    (transition key next patch).Meets answers (undisturbed key outcome)
      (fun l' y t => (∃ e, y = .ok e) ∧ Holds key (Is next) (puts ++ [next]) l' t) l s := by
  refine meets_quiet h trivial fun env r t l' t' hanswers _ h' => ?_
  obtain ⟨existing, rfl⟩ := get_of_holds h hanswers
  obtain ⟨updated, hupdated⟩ := (@patched_isOk_iff existing.val _ next).mpr hpatch
  obtain ⟨hkey, rfl⟩ := patched_spec hupdated
  show (unwrap (existing.val.patched patch updated.status) >>= _).Meets _ _ _ _ _
  rw [hupdated]
  exact fun env r t hanswers _ => ⟨trivial, fun t' hrely =>
    ⟨⟨_, rfl⟩, (h'.put (hkey.trans existing.property) hanswers).rely hrely⟩⟩

theorem meets_transition_refused (hpatch : ¬patch.Accepted) :
    (transition key next patch).Meets answers (undisturbed key outcome)
      (fun l' y t => (∃ e, y = .error e) ∧ Holds key (Is status) puts l' t) l s := by
  refine meets_quiet h trivial fun env r t l' t' hanswers _ h' => ?_
  obtain ⟨existing, rfl⟩ := get_of_holds h hanswers
  show (unwrap (existing.val.patched patch next) >>= _).Meets _ _ _ _ _
  cases hpatched : existing.val.patched patch next with
  | ok updated => exact absurd (patched_isOk_iff.mp ⟨updated, hpatched⟩) hpatch
  | error e => exact ⟨⟨e, rfl⟩, h'⟩

end

end Transition

/-! ## The two halves of an execution -/

section Halves

variable {entry : BacklogEntry} {l : Log BacklogOp.Answer} {s : BacklogState} {status : BacklogEntryStatus}

section

variable (h : Holds entry.key (Is status) [] l s)

include h

theorem meets_record {next : BacklogEntryStatus} {patch : BacklogPatch}
    (hpatch : patch.Accepted) :
    (transition entry.key next patch >>= fun _ => pure () : BacklogCall Unit).Meets answers
      (undisturbed entry.key outcome) (fun l' y t => y = .ok () ∧ Holds entry.key (Is next) [next] l' t) l s := by
  refine meets_bind.mpr ((meets_transition h hpatch).mono ?_)
  rintro l' y t ⟨⟨e, rfl⟩, h'⟩
  exact ⟨rfl, h'⟩

theorem meets_settleEntry :
    (settleEntry entry outcome).Meets answers (undisturbed entry.key outcome)
      (fun l' y t => match outcome with
        | .result _ => y = .ok () ∧ ∃ st, outcome.recorded = some st ∧ Holds entry.key (Is st) [st] l' t
        | .malformed => y = .error .invalidEntry ∧ Holds entry.key (Is status) [] l' t
        | .thrown value => y = .error (.thrown value) ∧ Holds entry.key (Is status) [] l' t) l s := by
  cases outcome with
  | malformed => exact ⟨rfl, h⟩
  | thrown value => exact ⟨rfl, h⟩
  | result result =>
    have hcode : ∀ text : Text, (some (some text.val) : Option (Option String)) ≠ some (some "") := fun text heq =>
      text.property (Option.some.inj (Option.some.inj heq))
    cases result with
    | suspended reason detail =>
      exact (meets_record h ⟨by simp, hcode reason⟩).mono fun l' y t h' => ⟨h'.1, _, rfl, h'.2⟩
    | error reason =>
      refine meets_quiet h trivial fun env completedAt t l' t' _ _ h' => ?_
      exact (meets_record h' ⟨by simp, hcode reason⟩).mono fun l' y t h' => ⟨h'.1, _, rfl, h'.2⟩
    | _ =>
      refine meets_quiet h trivial fun env completedAt t l' t' _ _ h' => ?_
      exact (meets_record h' ⟨by simp, by simp⟩).mono fun l' y t h' => ⟨h'.1, _, rfl, h'.2⟩

theorem meets_failEntry {e : BacklogError} :
    (failEntry entry e).Meets answers (undisturbed entry.key outcome)
      (fun l' _ t => (∀ text, e.text = .ok text → text ≠ "" → Holds entry.key (Is .failed) [.failed] l' t) ∧
        ((∀ text, e.text = .ok text → text = "") → Holds entry.key (Is status) [] l' t)) l s := by
  refine meets_quiet h trivial fun env completedAt t l' t' _ _ h' => ?_
  cases htext : e.text with
  | error e' => exact ⟨nofun, fun _ => h'⟩
  | ok text =>
    show (transition _ _ _ >>= _).Meets _ _ _ _ _
    by_cases hempty : text = ""
    · refine meets_bind.mpr ((meets_transition_refused h' fun haccepted => haccepted.2 ?_).mono ?_)
      · rw [hempty]
      · rintro l'' y t'' ⟨⟨e', rfl⟩, h''⟩
        exact ⟨fun text' heq hne => absurd hempty (Except.ok.inj heq ▸ hne), fun _ => h''⟩
    · refine (meets_record h' ⟨by simp, by simpa using hempty⟩).mono fun l'' y t'' h'' => ?_
      exact ⟨fun _ _ _ => h''.2, fun hall => absurd (hall text rfl) hempty⟩

/-- **The two blocks together.** The entry gets the status that its outcome has, or stays as it is. -/
theorem meets_runEntry :
    (runEntry entry).Meets answers (undisturbed entry.key outcome)
      (fun l' _ t => Holds entry.key (Is (outcome.recorded.getD status)) outcome.recorded.toList l' t) l s := by
  refine meets_quiet h trivial fun env _ t₁ l₁ s₁ _ _ h₁ => ?_
  refine meets_quiet h₁ trivial fun env out t₂ l₂ s₂ hanswers houtcome h₂ => ?_
  obtain rfl : out = outcome := by
    obtain ⟨hout, -⟩ := Prod.mk.inj (Option.some.inj hanswers)
    exact hout.symm.trans houtcome
  show ((settleEntry entry out).attempt >>= _).Meets _ _ _ _ _
  refine meets_bind.mpr (meets_attempt.mpr ((meets_settleEntry h₂).mono fun l₃ y s₃ h₃ => ?_))
  cases out with
  | result result =>
    obtain ⟨rfl, st, hst, h₃⟩ := h₃
    rw [hst]
    exact h₃
  | malformed =>
    obtain ⟨rfl, h₃⟩ := h₃
    exact (meets_failEntry h₃).mono fun l' _ t h' => h'.1 _ rfl (by decide)
  | thrown value =>
    obtain ⟨rfl, h₃⟩ := h₃
    refine (meets_failEntry h₃).mono fun l' _ t ⟨hrecorded, hlost⟩ => ?_
    cases htext : (BacklogError.thrown value).text with
    | error e =>
      rw [recorded_thrown, htext]
      exact hlost fun text heq => nomatch htext.symm.trans heq
    | ok text =>
      rw [recorded_thrown, htext]
      show Holds _ (Is ((if text = "" then none else some _).getD _)) (if text = "" then none else some _).toList _ _
      by_cases hempty : text = ""
      · rw [if_pos hempty]
        exact hlost fun text' heq => Except.ok.inj (htext.symm.trans heq) ▸ hempty
      · rw [if_neg hempty]
        exact hrecorded text htext hempty

end

theorem meets_prune {P : Option BacklogEntry → Prop} {puts : List BacklogEntryStatus} {before : IsoTime} :
    ∀ {entries : List BacklogEntry} {l : Log BacklogOp.Answer} {s : BacklogState}, Holds key P puts l s →
      (∀ e ∈ entries, e.key = key → P none) →
      (forEach entries fun e =>
        if e.completedAt.any fun completedAt => completedAt.text < before.text then delete e.key else return ()).Meets
          answers (undisturbed key outcome) (fun l' _ t => Holds key P puts l' t) l s
  | [], l, s, h, _ => h
  | e :: entries, l, s, h, hnone => by
    have hrest : ∀ e' ∈ entries, e'.key = key → P none := fun e' he' => hnone e' (List.mem_cons_of_mem _ he')
    show ((if _ then delete e.key else return ()) >>= _).Meets _ _ _ _ _
    split_ifs with hold
    · intro env r t hanswers _
      refine ⟨trivial, fun t' hrely => meets_prune (Holds.rely ?_ hrely) hrest⟩
      cases hanswers
      refine ⟨?_, ?_⟩
      · rw [Collection.find?_delete]
        split_ifs with hkey
        · exact hnone e List.mem_cons_self hkey.symm
        · exact h.stored
      · rw [putStatuses, List.filterMap_append]
        exact (List.append_nil _).trans h.puts
    · exact meets_prune h hrest

theorem Holds.of_listed {P : Option BacklogEntry → Prop} {puts : List BacklogEntryStatus}
    {r : List BacklogEntry} {e : BacklogEntry} (h : Holds key P puts l s)
    (hanswers : answers (.listByStatus status) env s = some (r, t)) (he : e ∈ r) (hkey : e.key = key) :
    P (some e) ∧ e.status = status := by
  cases hanswers
  obtain ⟨hmem, hstatus⟩ := List.mem_filter.mp ((List.mem_insertionSort _).mp he)
  have hfind := Collection.mem_all.mp hmem
  rw [hkey] at hfind
  exact ⟨hfind ▸ h.stored, of_decide_eq_true hstatus⟩

/-- **The `finally` block.** What holds of the stored entry stays, if it holds of an absent one or of none that is
pruned. -/
theorem meets_finishEntry {P : Option BacklogEntry → Prop} {puts : List BacklogEntryStatus}
    (h : Holds entry.key P puts l s)
    (hnone : ∀ e : BacklogEntry, P (some e) → e.status = .completed ∨ e.status = .failed → P none) :
    (finishEntry config).Meets answers (undisturbed entry.key outcome)
      (fun l' _ t => Holds entry.key P puts l' t) l s := by
  refine meets_quiet h trivial fun env time t l₁ s₁ _ _ h₁ => ?_
  show (pruneRetained _ >>= _).Meets _ _ _ _ _
  refine meets_bind.mpr (@Meets.mono _ _ _ _ _ _ _ _ (fun l' _ t => Holds entry.key P puts l' t) _ _ _ ?_ _ ?_)
  · rintro l' y t h'
    cases y with
    | error e => exact h'
    | ok _ => exact meets_quiet h' trivial fun _ _ _ _ _ _ _ h'' => meets_quiet h'' trivial fun _ _ _ _ _ _ _ h => h
  · refine meets_quiet h₁ trivial fun env completed t l₂ s₂ hcompleted _ h₂ => ?_
    refine meets_quiet h₂ trivial fun env failed t l₃ s₃ hfailed _ h₃ => meets_prune h₃ fun e he hkey => ?_
    rcases List.mem_append.mp he with he | he
    · obtain ⟨hP, hstatus⟩ := h₁.of_listed hcompleted he hkey
      exact hnone e hP (.inl hstatus)
    · obtain ⟨hP, hstatus⟩ := h₂.of_listed hfailed he hkey
      exact hnone e hP (.inr hstatus)

end Halves

/-! ## Released -/

def BacklogEntryStatus.terminal : BacklogEntryStatus → Prop
  | .completed | .failed => True
  | _ => False

/-- The stored status, if the entry has not been pruned. -/
def Released (key : String) (s : BacklogState) : Prop :=
  ∀ e, s.collection.find? key = some e → e.status = .completed ∨ e.status = .failed ∨ e.status = .suspended

/-- What has reached a terminal status is put with no other one. -/
def NeverMoved (key : String) (l : Log BacklogOp.Answer) : Prop :=
  (putStatuses key l).Pairwise fun earlier later => earlier.terminal → later = earlier

/-- **The slot is released.** From every state that stores the entry as active, whatever the other calls do to the
other entries in between, the execution that ends in `outcome` leaves the entry completed, failed or suspended. -/
def ReleasesSlot (config : BacklogQueueConfig) (entry : BacklogEntry) (outcome : ExecuteOutcome) : Prop :=
  ∀ s : BacklogState, Is .active (s.collection.find? entry.key) →
    (execute config entry).Meets answers (undisturbed entry.key outcome)
      (fun l _ t => Released entry.key t ∧ NeverMoved entry.key l) [] s

variable {entry : BacklogEntry}

theorem meets_execute {P : Option BacklogEntry → Prop} {puts : List BacklogEntryStatus} {s : BacklogState}
    (hactive : Is .active (s.collection.find? entry.key))
    (hrun : ∀ l t, Holds entry.key (Is (outcome.recorded.getD .active)) outcome.recorded.toList l t →
      Holds entry.key P puts l t)
    (hnone : ∀ e : BacklogEntry, P (some e) → e.status = .completed ∨ e.status = .failed → P none) :
    (execute config entry).Meets answers (undisturbed entry.key outcome)
      (fun l _ t => Holds entry.key P puts l t) [] s := by
  refine meets_bind.mpr (meets_attempt.mpr ((meets_runEntry ⟨hactive, rfl⟩).mono fun l y t h => ?_))
  refine meets_bind.mpr ((meets_finishEntry (hrun l t h) hnone).mono fun l' z t' h' => ?_)
  cases z with
  | error e => exact h'
  | ok _ => exact (meets_unwrap y).mpr h'

theorem exists_ends_execute (config : BacklogQueueConfig) (entry : BacklogEntry) (outcome : ExecuteOutcome)
    {s : BacklogState} (hready : s.ready = true) :
    ∃ y l t, (execute config entry).Ends answers (fun _ _ env _ => env.outcome = outcome) [] s y l t := by
  refine exists_ends_of_every (I := fun s => s.ready = true) ?_ (every_execute entry) [] hready
  intro l o s ho hs
  cases o with
  | awaitReady => exact ho.elim
  | awaitIdle waiter => exact ho.elim
  | initialized => exact ho.elim
  | leavePromotion idle => exact ho.elim
  | finishExecution idle =>
    refine ⟨⟨⟨"", 0⟩, outcome⟩, (), s.resolveIdle idle, rfl, rfl, ?_⟩
    cases idle <;> exact hs
  | _ => exact ⟨⟨⟨"", 0⟩, outcome⟩, _, _, rfl, rfl, hs⟩

theorem not_releasesSlot (config : BacklogQueueConfig) (entry : BacklogEntry) {outcome : ExecuteOutcome}
    (h : outcome.recorded = none) : ¬ReleasesSlot config entry outcome := by
  intro hreleases
  obtain ⟨stored, hkey, hstored⟩ : ∃ e : BacklogEntry, e.key = entry.key ∧ e.status = .active :=
    ⟨{ entry with status := .active }, rfl, rfl⟩
  -- nothing but the entry is stored
  obtain ⟨s, hcollection, hready⟩ : ∃ s : BacklogState, s.collection = Collection.empty.put stored ∧ s.ready = true :=
    ⟨⟨Collection.empty.put stored, true, false, [], 0, []⟩, rfl, rfl⟩
  have hactive : Is .active (s.collection.find? entry.key) := by
    rw [hcollection, ← hkey]
    exact ⟨stored, Collection.find?_put_self _ stored, hstored⟩
  obtain ⟨y, l, t, hends⟩ := exists_ends_execute config entry outcome hready
  have hreleased := ((hreleases s hactive).ends (fun _ => rfl) (fun _ _ _ _ hallowed => hallowed) hends).1
  have hkept : (execute config entry).Meets answers (undisturbed entry.key outcome)
      (fun l _ t => Holds entry.key (Is .active) [] l t) [] s := by
    refine meets_execute hactive (fun l t hrun => ?_) ?_
    · rw [h] at hrun
      exact hrun
    · rintro e ⟨e', heq, hstatus⟩ hterminal
      cases heq
      rcases hterminal with hterminal | hterminal <;> exact absurd (hstatus.symm.trans hterminal) nofun
  obtain ⟨e, he, hstatus⟩ := (hkept.ends (fun _ => rfl) (fun _ _ _ _ hallowed => hallowed) hends).stored
  have hreached := hreleased e he
  rw [hstatus] at hreached
  exact absurd hreached (by decide)

/-- **When the slot is released**: exactly when what was thrown, if anything was, has a text that is not empty. -/
theorem releasesSlot_iff (config : BacklogQueueConfig) (entry : BacklogEntry) (outcome : ExecuteOutcome) :
    ReleasesSlot config entry outcome ↔ outcome.Recordable := by
  rw [recordable_iff]
  constructor
  · intro hreleases
    refine Option.isSome_iff_exists.mp (Option.isSome_iff_ne_none.mpr fun hnone => ?_)
    exact not_releasesSlot config entry hnone hreleases
  · rintro ⟨status, hrecorded⟩ s hactive
    refine (@meets_execute _ _ _ (AtMost status) [status] _ hactive (fun l t hrun => ?_) ?_).mono ?_
    · rw [hrecorded] at hrun
      refine ⟨fun e he => ?_, hrun.puts⟩
      obtain ⟨e', he', hstatus⟩ := hrun.stored
      exact Option.some.inj (he.symm.trans he') ▸ hstatus
    · exact fun _ _ _ e heq => absurd heq (Option.some_ne_none e).symm
    · intro l y t h
      refine ⟨fun e he => ?_, ?_⟩
      · rw [h.stored e he]
        exact recorded_ne_active hrecorded
      · rw [NeverMoved, h.puts]
        exact List.pairwise_singleton _ _

def sampleEntry : BacklogEntry where
  id := ⟨"entry", by decide⟩
  status := .active
  priority := .normal
  priorityRank := 1
  acceptedAt := ⟨"2024-01-01T00:00:00.000Z", 1704067200000⟩
  promotedAt := some ⟨"2024-01-01T00:00:00.000Z", 1704067200000⟩
  completedAt := none
  queueDepthAtAcceptance := 0
  resultStatus := none
  lastErrorCode := none
  lastErrorMessage := none
  suspensionDetail := none

/-- `throw new Error()`: the empty message is refused by the schema of the entry, and the entry stays active. -/
theorem empty_message_keeps_slot : ¬ReleasesSlot ⟨1, by decide, 604800000⟩ sampleEntry (.thrown (.error "")) :=
  not_releasesSlot _ _ rfl

end NousCore.Backlog
