import NousCore.Vault.Listing

/-!
# What is left after a purge

* `PurgeKept` : until the purge returns no call begins that puts entries or backups;
* `purge_complete` : no entry is left, none is left in a backup, and none comes back.
-/

namespace NousCore.Vault

open Async NousCore.System

variable {cipher : Cipher} {appId : String} {c c' c₁ : VaultConfig} {ls ls' : List (Label VaultRequest VaultEnv)}

/-! ## Calls that put nothing -/

def VaultRequest.clears : VaultRequest → Bool
  | .store _ | .backup _ | .restore _ => false
  | _ => true

def VaultOp.puts : VaultOp → Bool
  | .putEntry _ | .putBackup _ => true
  | _ => false

/-- Until the purge returns no call begins that puts entries or backups. -/
def PurgeKept (appId : String) (c : VaultConfig) (label : Label VaultRequest VaultEnv) : Prop :=
  ListingKept appId c label ∧ match label with
    | .begin request => request.clears = true
    | .turn _ _ => True

instance (appId : String) (c : VaultConfig) (label : Label VaultRequest VaultEnv) :
    Decidable (PurgeKept appId c label) :=
  match label with
  | .begin request => inferInstanceAs (Decidable (ListingKept appId c (.begin request) ∧ request.clears = true))
  | .turn i env => inferInstanceAs (Decidable (ListingKept appId c (.turn i env) ∧ True))

theorem every_getEntry (vaultKey : String) : (getEntry vaultKey).Every (VaultOp.puts · = false) := by
  refine every_bind (every_perform rfl) fun entry => ?_
  cases entry with
  | none => trivial
  | some entry => exact every_bind (every_unwrap _) fun _ => trivial

theorem every_removeNamespaceKey (appId key : String) : (removeNamespaceKey appId key).Every (VaultOp.puts · = false) :=
  ⟨rfl, fun _ => ⟨rfl, fun _ => trivial⟩⟩

theorem every_purgeKeys (appId : String) (keys : List String) (n : Nat) :
    (purgeKeys appId keys n).Every (VaultOp.puts · = false) := by
  induction keys generalizing n with
  | nil => trivial
  | cons key keys ih =>
    refine every_bind (every_getEntry _) fun entry => ?_
    cases entry with
    | none => exact ih n
    | some entry => exact every_bind (every_perform rfl) fun _ => ih (n + 1)

theorem every_of_clears (cipher : Cipher) (appId : String) {request : VaultRequest} (h : request.clears = true) :
    (VaultCall.run cipher ⟨appId, request⟩).Every (VaultOp.puts · = false) := by
  cases request with
  | store | backup | restore => cases h
  | getMetadata key =>
    refine every_bind (every_getEntry _) fun entry => ?_
    cases entry with
    | none => trivial
    | some entry => exact every_bind (every_unwrap _) fun _ => trivial
  | revoke request =>
    refine every_bind (every_getEntry _) fun entry => ?_
    cases entry with
    | none => exact every_unwrap _
    | some entry =>
      exact every_bind (every_perform rfl) fun _ => every_bind (every_removeNamespaceKey _ _) fun _ => every_unwrap _
  | discardBackup backupRef =>
    refine ⟨rfl, fun record => ?_⟩
    cases record with
    | none => trivial
    | some record =>
      show (if record.appId ≠ appId then _ else _ : VaultM VaultResult).Every _
      split_ifs
      · trivial
      · exact ⟨rfl, fun _ => trivial⟩
  | purgeNamespace =>
    refine every_bind ⟨rfl, fun _ => trivial⟩ fun record => every_bind (every_purgeKeys _ _ _) fun _ => ?_
    exact ⟨rfl, fun _ => ⟨rfl, fun _ => trivial⟩⟩
  | resolveForInjection key =>
    refine every_bind (every_getEntry _) fun entry => ?_
    cases entry with
    | none => trivial
    | some entry => exact every_bind (every_unwrap _) fun _ => every_bind (every_unwrap _) fun _ => trivial

/-! ## The purge among calls that put nothing -/

/-- Entries and backups may be deleted, and none is put. -/
structure Shrinks (s s' : VaultState) : Prop where
  entries : ∀ k e, s'.entries.find? k = some e → s.entries.find? k = some e
  backups : ∀ k record, s'.backups.find? k = some record → s.backups.find? k = some record

theorem Shrinks.refl (s : VaultState) : Shrinks s s := ⟨fun _ _ h => h, fun _ _ h => h⟩

variable {s s' : VaultState}

theorem Shrinks.trans {s'' : VaultState} (h : Shrinks s s') (h' : Shrinks s' s'') : Shrinks s s'' :=
  ⟨fun k e he => h.entries k e (h'.entries k e he), fun k record hr => h.backups k record (h'.backups k record hr)⟩

variable {o : VaultOp}

theorem shrinks_of_answers {env : VaultEnv} {r : o.Answer} (ho : o.puts = false)
    (hanswers : vaultAnswers o env s = some (r, s')) : Shrinks s s' := by
  cases o with
  | putEntry | putBackup => cases ho
  | now | randomHex | randomIv | getEntry | getNamespace | getBackup | putNamespace =>
    cases hanswers
    exact ⟨fun _ _ h => h, fun _ _ h => h⟩
  | deleteEntry vaultKey =>
    cases hanswers
    refine ⟨fun k e he => ?_, fun _ _ h => h⟩
    rw [Collection.find?_delete] at he
    split_ifs at he
    exact he
  | deleteBackup backupRef =>
    cases hanswers
    refine ⟨fun _ _ h => h, fun k record hr => ?_⟩
    rw [Collection.find?_delete] at hr
    split_ifs at hr
    exact hr

def shrinking : Contract VaultOp.Answer VaultEnv VaultState := ⟨fun _ _ _ _ => True, Shrinks, fun _ _ => True⟩

def NoEntries (s : VaultState) : Prop := ∀ k, s.entries.find? k = none

theorem NoEntries.shrinks (h : NoEntries s) (hs : Shrinks s s') : NoEntries s' := by
  intro k
  rw [Option.eq_none_iff_forall_ne_some]
  intro e he
  have hold := hs.entries k e he
  rw [h k] at hold
  cases hold

variable {α : Type} {l : VaultLog}

variable {post : VaultLog → Except VaultError α → VaultState → Prop}

theorem meets_shrinking_call {next : o.Answer → VaultM α}
    (h : ∀ env r s' s'', vaultAnswers o env s = some (r, s') → Shrinks s' s'' →
      (next r).Meets vaultAnswers shrinking post (l ++ [⟨o, r⟩]) s'') :
    (call o next : VaultM α).Meets vaultAnswers shrinking post l s :=
  fun env r s' hanswers _ => ⟨trivial, fun s'' hrely => h env r s' s'' hanswers hrely⟩

theorem meets_shrinking_getEntry {vaultKey : String} {f : Option CredentialVaultEntry → VaultM α}
    (hvalid : ∀ k e, s.entries.find? k = some e → e.Valid)
    (h : ∀ l s', Shrinks s s' → (f (s.entries.find? vaultKey)).Meets vaultAnswers shrinking post l s') :
    (getEntry vaultKey >>= f).Meets vaultAnswers shrinking post l s := by
  refine meets_shrinking_call fun env r s₁ s₂ hanswers hshrinks => ?_
  cases hanswers
  have hnext := h (l ++ [⟨VaultOp.getEntry vaultKey, s.entries.find? vaultKey⟩]) s₂ hshrinks
  cases he : s.entries.find? vaultKey with
  | none =>
    rw [he] at hnext
    exact hnext
  | some e =>
    rw [he] at hnext
    show ((some <$> unwrap e.parse) >>= f).Meets _ _ _ _ _
    rw [(hvalid _ _ he).parse]
    exact hnext

/-- Every entry is one of the listed keys, and is one that the schema accepts. -/
structure Covered (appId : String) (keys : List String) (s : VaultState) : Prop where
  keys : ∀ k e, s.entries.find? k = some e → ∃ key ∈ keys, k = buildVaultKey appId key
  valid : ∀ k e, s.entries.find? k = some e → e.Valid

variable {keys : List String}

theorem Covered.shrinks (h : Covered appId keys s) (hs : Shrinks s s') : Covered appId keys s' :=
  ⟨fun k e he => h.keys k e (hs.entries k e he), fun k e he => h.valid k e (hs.entries k e he)⟩

theorem Covered.tail {key : String} (h : Covered appId (key :: keys) s)
    (hnone : s.entries.find? (buildVaultKey appId key) = none) : Covered appId keys s := by
  refine ⟨fun k e he => ?_, h.valid⟩
  obtain ⟨key', hkey', rfl⟩ := h.keys k e he
  rcases List.mem_cons.mp hkey' with rfl | hkey'
  · rw [hnone] at he
    cases he
  · exact ⟨key', hkey', rfl⟩

theorem Covered.nil (h : Covered appId [] s) : NoEntries s := by
  intro k
  rw [Option.eq_none_iff_forall_ne_some]
  intro e he
  obtain ⟨key, hkey, -⟩ := h.keys k e he
  cases hkey

variable {n : Nat}

theorem meets_purgeKeys_shrinking {f : Nat → VaultM α} (hs : Covered appId keys s)
    (h : ∀ m l s', NoEntries s' → (f m).Meets vaultAnswers shrinking post l s') :
    (purgeKeys appId keys n >>= f).Meets vaultAnswers shrinking post l s := by
  induction keys generalizing n l s with
  | nil => exact h n l s hs.nil
  | cons key keys ih =>
    unfold purgeKeys
    rw [bind_assoc']
    refine meets_shrinking_getEntry hs.valid fun l s₂ hshrinks => ?_
    cases he : s.entries.find? (buildVaultKey appId key) with
    | none => exact ih ((hs.tail he).shrinks hshrinks)
    | some e =>
      refine meets_shrinking_call fun env' r s₃ s₄ hanswers hshrinks' => ?_
      have hdeleted := shrinks_of_answers rfl hanswers
      cases hanswers
      refine ih ((((hs.shrinks hshrinks).shrinks hdeleted).tail ?_).shrinks hshrinks')
      rw [Collection.find?_delete, if_pos rfl]

/-- **The purge** deletes what is listed when it has read the list, and what is deleted by others stays so. -/
theorem meets_purge {r : Option CredentialNamespaceRecord}
    (hs : Covered appId (Option.getD r ⟨appId, []⟩).keys s) :
    (purgeKeys appId (Option.getD r ⟨appId, []⟩).keys 0 >>= fun purgedCount => do
      perform (VaultOp.putNamespace ⟨appId, []⟩)
      let purgedAt ← perform VaultOp.now
      pure (.purged appId purgedCount purgedAt.val) : VaultM VaultResult).Meets vaultAnswers shrinking
        (fun _ _ => NoEntries) l s := by
  refine meets_purgeKeys_shrinking hs fun m l s' hnone => ?_
  refine meets_shrinking_call fun env r s₁ s₂ hanswers hshrinks => ?_
  cases hanswers
  have hput : NoEntries { s' with namespaces := s'.namespaces.put ⟨appId, []⟩ } := hnone
  have hnone' : NoEntries s₂ := hput.shrinks hshrinks
  refine meets_shrinking_call fun env r s₁ s₂ hanswers hshrinks => ?_
  cases hanswers
  exact hnone'.shrinks hshrinks

/-! ## Until the purge returns -/

def NoneSaved (s : VaultState) : Prop := ∀ k record, s.backups.find? k = some record → record.entry = none

/-- The purge, the call of number `n`, has not begun to read, or deletes what is left. -/
def PurgeGoesOn (appId : String) (n : Nat) (c : VaultConfig) : Prop :=
  ∃ p l, c.threads[n]? = some ⟨.purgeNamespace, p, l⟩ ∧
    (p = purgeNamespace appId ∨
      ∀ s, Shrinks c.state s → p.Meets vaultAnswers shrinking (fun _ _ => NoEntries) l s)

/-- What holds until the purge returns. -/
structure Purging (appId : String) (n : Nat) (c : VaultConfig) : Prop where
  held : Held appId c
  clears : ∀ th ∈ c.threads, th.program.Every (VaultOp.puts · = false)
  pending : ∀ th ∈ c.threads, pendingKeys th.log = []
  saved : NoneSaved c.state
  purge : PurgeGoesOn appId n c

theorem covered_listed (h : Held appId c) (hpending : ∀ th ∈ c.threads, pendingKeys th.log = []) :
    Covered appId (c.state.listed appId) c.state := by
  refine ⟨fun k e he => ?_, fun k e he => (h.orderly.entries k e he).1⟩
  obtain rfl : e.vaultKey = k := c.state.entries.keyed _ _ he
  have hkey := (h.orderly.entries _ e he).2
  have hstored : Stored c.state appId e.userKey := by
    unfold Stored
    rw [← hkey, he]
    rfl
  rcases h.listed e.userKey hstored with hlisted | ⟨th, hth, hmem⟩
  · exact ⟨e.userKey, hlisted, hkey⟩
  · rw [hpending th hth] at hmem
    cases hmem

theorem pendingKeys_append_of_not_puts {r : o.Answer} (ho : o.puts = false)
    (hl : pendingKeys l = []) : pendingKeys (l ++ [⟨o, r⟩]) = [] := by
  unfold pendingKeys at hl ⊢
  rw [List.any_append]
  cases hlists : l.any lists with
  | true => rfl
  | false =>
    rw [hlists] at hl
    have hput : keysPut [⟨o, r⟩] = [] := by
      cases o with
      | putEntry => cases ho
      | _ => rfl
    rw [keysPut_append, hput]
    split_ifs
    · rfl
    · rw [List.append_nil]
      exact hl

theorem purgeGoesOn_of_other (h : PurgeGoesOn appId n c) (hshrinks : Shrinks c.state c'.state)
    (hthread : ∀ th, c.threads[n]? = some th → c'.threads[n]? = some th) : PurgeGoesOn appId n c' := by
  obtain ⟨p, l, hget, hp⟩ := h
  exact ⟨p, l, hthread _ hget, hp.imp id fun hmeets s hs => hmeets s (hshrinks.trans hs)⟩

variable {label : Label VaultRequest VaultEnv}

theorem purging_of_step (h : Purging appId n c)
    (hstep : Guarded (vaultSystem cipher appId).Step (PurgeKept appId) c label c') : Purging appId n c' := by
  obtain ⟨hstep, hlisting, hbegin⟩ := hstep
  have hheld := held_of_step h.held ⟨hstep, hlisting⟩
  have hstepped := stepped_of_step hstep
  clear hstep hlisting
  cases hstepped with
  | begin request =>
    refine ⟨hheld, fun th hth => ?_, fun th hth => ?_, h.saved, ?_⟩
    · rcases List.mem_append.mp hth with hth | hth
      · exact h.clears th hth
      · obtain rfl := List.mem_singleton.mp hth
        exact every_of_clears cipher appId hbegin
    · rcases List.mem_append.mp hth with hth | hth
      · exact h.pending th hth
      · obtain rfl := List.mem_singleton.mp hth
        rfl
    · refine purgeGoesOn_of_other h.purge (Shrinks.refl _) fun th hget => ?_
      rw [List.getElem?_append_left (List.getElem?_eq_some_iff.mp hget).1, hget]
  | @turn i env request log o next r s' hget hblocked hanswers =>
    have hmem := List.mem_of_getElem? hget
    have ho : o.puts = false := (h.clears _ hmem).1
    have hshrinks : Shrinks c.state s' := shrinks_of_answers ho hanswers
    refine ⟨hheld, fun th hth => ?_, fun th hth => ?_, fun k record hrecord => ?_, ?_⟩
    · obtain ⟨j, hj⟩ := List.mem_iff_getElem?.mp hth
      rcases getElem?_set_append hget hj with ⟨rfl, rfl⟩ | ⟨-, hold⟩ | ⟨-, hnew⟩
      · exact (h.clears _ hmem).2 r
      · exact h.clears th (List.mem_of_getElem? hold)
      · cases hnew
    · obtain ⟨j, hj⟩ := List.mem_iff_getElem?.mp hth
      rcases getElem?_set_append hget hj with ⟨rfl, rfl⟩ | ⟨-, hold⟩ | ⟨-, hnew⟩
      · exact pendingKeys_append_of_not_puts ho (h.pending _ hmem)
      · exact h.pending th (List.mem_of_getElem? hold)
      · cases hnew
    · exact h.saved k record (hshrinks.backups k record hrecord)
    · by_cases hin : i = n
      · obtain rfl := hin
        obtain ⟨p, l, hget', hp⟩ := h.purge
        obtain ⟨rfl, rfl, rfl⟩ := Thread.mk.inj (Option.some.inj (hget.symm.trans hget'))
        refine ⟨_, _, getElem?_self hget, .inr fun s hs => ?_⟩
        rcases hp with hp | hmeets
        · -- the purge reads the list, which has the key of every entry
          obtain ⟨rfl, hnext⟩ := Async.call.inj hp
          obtain rfl := eq_of_heq hnext
          cases hanswers
          have hcovered := covered_listed h.held h.pending
          have hkeys : (c.state.namespaceRecord appId).keys = c.state.listed appId := by rw [namespaceRecord_eq]
          rw [← hkeys] at hcovered
          exact meets_purge (hcovered.shrinks hs)
        · exact (hmeets c.state (Shrinks.refl _) env r s' hanswers trivial).2 s hs
      · exact purgeGoesOn_of_other h.purge hshrinks fun th hget' => getElem?_of_ne (Ne.symm hin) hget'

theorem purging_begin (h : Held appId c) (hquiet : Quiet c) (hsaved : NoneSaved c.state)
    (hstep : Guarded (vaultSystem cipher appId).Step (PurgeKept appId) c (.begin .purgeNamespace) c') :
    Purging appId c.threads.length c' := by
  have hheld := held_of_step h ⟨hstep.1, hstep.2.1⟩
  have hended : ∀ th ∈ c.threads, ∃ y, th.program.outcome = some y := fun th hth =>
    Option.isSome_iff_exists.mp (hquiet th hth)
  cases hstep.1
  refine ⟨hheld, fun th hth => ?_, fun th hth => ?_, hsaved, _, _, List.getElem?_concat_length, .inl rfl⟩
  · rcases List.mem_append.mp hth with hth | hth
    · obtain ⟨y, hy⟩ := hended th hth
      cases hp : th.program with
      | pure | throw => trivial
      | call o next =>
        rw [hp] at hy
        cases hy
    · obtain rfl := List.mem_singleton.mp hth
      have hclears : VaultRequest.purgeNamespace.clears = true := rfl
      exact every_of_clears cipher appId hclears
  · rcases List.mem_append.mp hth with hth | hth
    · obtain ⟨y, hy⟩ := hended th hth
      exact (h.follows th hth).of_outcome hy
    · obtain rfl := List.mem_singleton.mp hth
      rfl

theorem Purging.noEntries (h : Purging appId n c)
    (hreturned : ∀ th ∈ c.threads[n]?, th.program.outcome.isSome = true) : NoEntries c.state := by
  obtain ⟨p, l, hget, hp⟩ := h.purge
  obtain ⟨y, hy⟩ := Option.isSome_iff_exists.mp (hreturned _ hget)
  rcases hp with rfl | hmeets
  · cases hy
  · obtain ⟨y', -, hnone⟩ := meets_of_outcome (hmeets c.state (Shrinks.refl _)) fun hnone => by
      rw [show p.outcome = some y from hy] at hnone
      cases hnone
    exact hnone

/-! ## Afterwards -/

/-- A call to store the entry has put it, which began after the first `n` calls. -/
def StoredSince (n : Nat) (c : VaultConfig) (e : CredentialVaultEntry) : Prop :=
  ∃ i th, n ≤ i ∧ c.threads[i]? = some th ∧ th.task.isStore = true ∧ e ∈ th.log.filterMap entryPut

def InVault (s : VaultState) (e : CredentialVaultEntry) : Prop :=
  (∃ k, s.entries.find? k = some e) ∨ ∃ k record, s.backups.find? k = some record ∧ record.entry = some e

/-- What holds after the purge, with the calls that had begun by then. -/
structure Later (n : Nat) (appId : String) (c : VaultConfig) : Prop where
  length : n ≤ c.threads.length
  old : ∀ i th, i < n → c.threads[i]? = some th → th.program.Every (VaultOp.puts · = false)
  follows : ∀ th ∈ c.threads, th.program.Follows (AsksNext appId th.task) AsksLast th.log
  read : ∀ i th, n ≤ i → c.threads[i]? = some th → ∀ e ∈ th.log.flatMap entriesRead, StoredSince n c e
  stored : ∀ e, InVault c.state e → StoredSince n c e

theorem storedSince_of_step
    (hstepped : (vaultSystem cipher appId).Stepped c label c') {e : CredentialVaultEntry} (h : StoredSince n c e) :
    StoredSince n c' e := by
  obtain ⟨i, th, hi, hget, hstore, hput⟩ := h
  obtain ⟨th', hget', htask, hlog⟩ := hstepped.log hget
  exact ⟨i, th', hi, hget', by rw [htask, hstore], (hlog.filterMap _).subset hput⟩

theorem inVault_of_answers {env : VaultEnv} {r : o.Answer} {e : CredentialVaultEntry}
    (hanswers : vaultAnswers o env s = some (r, s')) (h : InVault s' e) :
    InVault s e ∨ o = .putEntry e ∨ ∃ record, o = .putBackup record ∧ record.entry = some e := by
  cases hputs : o.puts with
  | false =>
    have hshrinks := shrinks_of_answers hputs hanswers
    exact .inl (h.imp (fun ⟨k, hk⟩ => ⟨k, hshrinks.entries k e hk⟩)
      fun ⟨k, record, hk, he⟩ => ⟨k, record, hshrinks.backups k record hk, he⟩)
  | true =>
    cases o with
    | putEntry entry =>
      cases hanswers
      rcases h with ⟨k, hk⟩ | hbackup
      · rw [Collection.find?_put] at hk
        split_ifs at hk
        · exact .inr (.inl (by rw [Option.some.inj hk]))
        · exact .inl (.inl ⟨k, hk⟩)
      · exact .inl (.inr hbackup)
    | putBackup record =>
      cases hanswers
      rcases h with hentry | ⟨k, record', hk, he⟩
      · exact .inl (.inl hentry)
      · rw [Collection.find?_put] at hk
        split_ifs at hk
        · cases hk
          exact .inr (.inr ⟨_, rfl, he⟩)
        · exact .inl (.inr ⟨k, record', hk, he⟩)
    | _ => cases hputs

theorem later_of_step (h : Later n appId c)
    (hstep : (vaultSystem cipher appId).Step c label c') : Later n appId c' := by
  have hfollows := follows_of_step (vaultSystem cipher appId) (follows_run cipher appId) h.follows hstep
  have hstepped := stepped_of_step hstep
  have hsince : ∀ e, StoredSince n c e → StoredSince n c' e := fun e => storedSince_of_step hstepped
  clear hstep
  cases hstepped with
  | begin request =>
    have hold : ∀ i th, (c.threads ++ [(vaultSystem cipher appId).thread request])[i]? = some th →
        c.threads[i]? = some th ∨ c.threads.length ≤ i ∧ th = (vaultSystem cipher appId).thread request := by
      intro i th hget
      by_cases hi : i < c.threads.length
      · rw [List.getElem?_append_left hi] at hget
        exact .inl hget
      · rw [List.getElem?_append_right (by omega)] at hget
        exact .inr ⟨by omega, List.mem_singleton.mp (List.mem_of_getElem? hget)⟩
    refine ⟨?_, fun i th hi hget => ?_, hfollows, fun i th hi hget e he => ?_, fun e he => hsince e (h.stored e he)⟩
    · rw [List.length_append]
      have hlength := h.length
      omega
    · rcases hold i th hget with hget | ⟨hle, -⟩
      · exact h.old i th hi hget
      · have hlength := h.length
        omega
    · rcases hold i th hget with hget | ⟨-, rfl⟩
      · exact hsince e (h.read i th hi hget e he)
      · cases he
  | @turn i env request log o next r s' hget hblocked hanswers =>
    have hmem := List.mem_of_getElem? hget
    have hnext : AsksNext appId request log o := (h.follows _ hmem).1
    refine ⟨?_, fun j th hj hget' => ?_, hfollows, fun j th hj hget' e he => ?_, fun e he => ?_⟩
    · have hlength := h.length
      rw [List.length_append, List.length_set]
      omega
    · rcases getElem?_set_append hget hget' with ⟨rfl, rfl⟩ | ⟨-, hold⟩ | ⟨-, hnew⟩
      · exact (h.old _ _ hj hget).2 r
      · exact h.old j th hj hold
      · cases hnew
    · rcases getElem?_set_append hget hget' with ⟨rfl, rfl⟩ | ⟨-, hold⟩ | ⟨-, hnew⟩
      · rw [List.flatMap_append, List.mem_append, List.flatMap_singleton] at he
        rcases he with he | he
        · exact hsince e (h.read _ _ hj hget e he)
        · exact hsince e (h.stored e (mem_entriesRead hanswers he))
      · exact hsince e (h.read j th hj hold e he)
      · cases hnew
    · rcases inVault_of_answers hanswers he with he | rfl | ⟨record, rfl, hentry⟩
      · exact hsince e (h.stored e he)
      · by_cases hi : i < n
        · cases (h.old i _ hi hget).1
        · rcases hnext.2 with ⟨hstore, -⟩ | hread
          · refine ⟨i, _, Nat.le_of_not_lt hi, getElem?_self hget, hstore, ?_⟩
            rw [List.filterMap_append]
            exact List.mem_append_right _ (List.mem_singleton.mpr rfl)
          · exact hsince e (h.read i _ (Nat.le_of_not_lt hi) hget e hread)
      · by_cases hi : i < n
        · cases (h.old i _ hi hget).1
        · exact hsince e (h.read i _ (Nat.le_of_not_lt hi) hget e (hnext e hentry))

/-- Nothing is left in the vault, and whatever is in it later has been stored since. -/
structure PurgeComplete (cipher : Cipher) (appId : String) (c : VaultConfig) : Prop where
  nothing : ∀ e, ¬InVault c.state e
  since : ∀ ls c', Run (vaultSystem cipher appId).Step c ls c' → ∀ e, InVault c'.state e →
    StoredSince c.threads.length c' e

/-- **The purge is complete.** As long as no record that is written leaves out a key whose entry is stored: every entry
is listed when no call is in progress, and a purge that begins then, when no backup holds an entry, leaves nothing of
which any credential could come back, if no call to store, back up or restore begins before it has returned. -/
theorem purge_complete (cipher : Cipher) (appId : String) {ls : List (Label VaultRequest VaultEnv)} {c : VaultConfig}
    (hrun : Run (Guarded (vaultSystem cipher appId).Step (ListingKept appId)) (start .empty) ls c) (hquiet : Quiet c) :
    Indexed appId c.state ∧ (NoneSaved c.state → ∀ ls' c₂,
      Run (Guarded (vaultSystem cipher appId).Step (PurgeKept appId)) c (.begin .purgeNamespace :: ls') c₂ →
      (∀ th ∈ c₂.threads[c.threads.length]?, th.program.outcome.isSome = true) →
      PurgeComplete cipher appId c₂) := by
  have hheld := held_of_run (held_start appId) hrun
  refine ⟨hheld.indexed hquiet, fun hsaved ls' c₂ hrun' hreturned => ?_⟩
  obtain ⟨c₁, hbegin, hrun'⟩ := hrun'.uncons
  have hpurging : Purging appId c.threads.length c₂ :=
    hrun'.invariant (fun _ _ _ hc hstep => purging_of_step hc hstep) (purging_begin hheld hquiet hsaved hbegin)
  have hnothing : ∀ e, ¬InVault c₂.state e := by
    rintro e (⟨k, hk⟩ | ⟨k, record, hk, he⟩)
    · rw [hpurging.noEntries hreturned k] at hk
      cases hk
    · rw [hpurging.saved k record hk] at he
      cases he
  refine ⟨hnothing, fun ls₃ c₃ hlater => ?_⟩
  have hstart : Later c₂.threads.length appId c₂ := by
    refine ⟨Nat.le_refl _, fun i th _ hget => hpurging.clears th (List.mem_of_getElem? hget), hpurging.held.follows,
      fun i th hi hget => ?_, fun e he => absurd he (hnothing e)⟩
    have hlt := (List.getElem?_eq_some_iff.mp hget).1
    omega
  exact (hlater.invariant (fun _ _ _ hc hstep => later_of_step hc hstep) hstart).stored

/-! ## Runs -/

instance (c : VaultConfig) : Decidable (Quiet c) :=
  inferInstanceAs (Decidable (∀ th ∈ c.threads, th.program.outcome.isSome = true))

theorem noneSaved_of_all (h : ∀ record ∈ s.backups.all, record.entry = none) : NoneSaved s := by
  intro k record hrecord
  obtain rfl := s.backups.keyed _ _ hrecord
  exact h record (Collection.mem_all.mpr hrecord)

def storeRequest (key : String) : VaultRequest := .store ⟨key, "value", .apiKey, "host", .header, "name", none⟩

def turns (i n : Nat) : List (Label VaultRequest VaultEnv) := List.replicate n (.turn i someEnv)

/-- A credential is stored, and purged when the call has returned. -/
theorem purge_complete_after_store : ∃ c c₂ : VaultConfig, c.state.entries.all.length = 1 ∧ Indexed "crm" c.state ∧
    PurgeComplete plainCipher "crm" c₂ := by
  have hcheck : ((Label.begin (storeRequest "key") :: turns 0 5).foldlM
      ((vaultSystem plainCipher "crm").checkedStep (ListingKept "crm")) (start .empty)).any (fun c =>
      decide (Quiet c) && decide (∀ record ∈ c.state.backups.all, record.entry = none) &&
        decide (c.state.entries.all.length = 1) &&
        ((Label.begin .purgeNamespace :: turns 1 5).foldlM
          ((vaultSystem plainCipher "crm").checkedStep (PurgeKept "crm")) c).any fun c₂ =>
            decide (∀ th ∈ c₂.threads[c.threads.length]?, th.program.outcome.isSome = true)) = true := by
    decide +kernel
  obtain ⟨c, hc, hcheck⟩ := (Option.any_eq_true _ _).mp hcheck
  simp only [Bool.and_eq_true, decide_eq_true_eq] at hcheck
  obtain ⟨⟨⟨hquiet, hsaved⟩, hone⟩, hcheck⟩ := hcheck
  obtain ⟨c₂, hc₂, hcheck⟩ := (Option.any_eq_true _ _).mp hcheck
  obtain ⟨hindexed, hpurge⟩ := purge_complete plainCipher "crm" (run_of_checkedStep _ hc) hquiet
  exact ⟨c, c₂, hone, hindexed, hpurge (noneSaved_of_all hsaved) _ c₂ (run_of_checkedStep _ hc₂)
    (of_decide_eq_true hcheck)⟩

/-- Every step may be taken. -/
def Unguarded (_ : VaultConfig) (_ : Label VaultRequest VaultEnv) : Prop := True

instance (c : VaultConfig) (label : Label VaultRequest VaultEnv) : Decidable (Unguarded c label) := .isTrue trivial

/-- Two calls that overlap leave a credential that is not listed; and a backup that was made before a purge brings the
credential back. -/
theorem not_listed_and_restored :
    (∃ ls c, Run (vaultSystem plainCipher "crm").Step (start .empty) ls c ∧ Quiet c ∧ ¬Indexed "crm" c.state) ∧
    ∃ ls c c₁ c₂, Run (vaultSystem plainCipher "crm").Step (start .empty) ls c ∧ Quiet c ∧
      Run (vaultSystem plainCipher "crm").Step c (.begin .purgeNamespace :: turns 2 5) c₁ ∧ Quiet c₁ ∧
      Run (vaultSystem plainCipher "crm").Step c₁
        (.begin (.restore (backupRefOf "crm" "key" someEnv.now.val.text someEnv.hex.val)) :: turns 3 4) c₂ ∧
      Quiet c₂ ∧ c₁.state.entries.all.length = 0 ∧ c₂.state.entries.all = c.state.entries.all := by
  constructor
  · have hcheck : ((Label.begin (storeRequest "key") :: .begin (storeRequest "other") :: turns 0 4 ++ turns 1 5 ++
        turns 0 1).foldlM ((vaultSystem plainCipher "crm").checkedStep Unguarded) (start .empty)).any (fun c =>
        decide (Quiet c ∧ ¬∀ e ∈ c.state.entries.all, e.userKey ∈ c.state.listed "crm")) = true := by
      decide +kernel
    obtain ⟨c, hc, hcheck⟩ := (Option.any_eq_true _ _).mp hcheck
    obtain ⟨hquiet, hlisted⟩ := of_decide_eq_true hcheck
    exact ⟨_, c, (run_of_checkedStep _ hc).forget_guard, hquiet, hlisted⟩
  · have hcheck : ((Label.begin (storeRequest "key") :: turns 0 5 ++ .begin (.backup "key") :: turns 1 5).foldlM
        ((vaultSystem plainCipher "crm").checkedStep Unguarded) (start .empty)).any (fun c => decide (Quiet c) &&
        ((Label.begin .purgeNamespace :: turns 2 5).foldlM
          ((vaultSystem plainCipher "crm").checkedStep Unguarded) c).any fun c₁ => decide (Quiet c₁) &&
          ((.begin (.restore (backupRefOf "crm" "key" someEnv.now.val.text someEnv.hex.val)) :: turns 3 4).foldlM
            ((vaultSystem plainCipher "crm").checkedStep Unguarded) c₁).any fun c₂ =>
            decide (Quiet c₂ ∧ c₁.state.entries.all.length = 0 ∧ c₂.state.entries.all = c.state.entries.all)) =
        true := by
      decide +kernel
    obtain ⟨c, hc, hcheck⟩ := (Option.any_eq_true _ _).mp hcheck
    obtain ⟨hquiet, hcheck⟩ := Bool.and_eq_true_iff.mp hcheck
    obtain ⟨c₁, hc₁, hcheck⟩ := (Option.any_eq_true _ _).mp hcheck
    obtain ⟨hquiet₁, hcheck⟩ := Bool.and_eq_true_iff.mp hcheck
    obtain ⟨c₂, hc₂, hcheck⟩ := (Option.any_eq_true _ _).mp hcheck
    obtain ⟨hquiet₂, hnone, hsame⟩ := of_decide_eq_true hcheck
    exact ⟨_, c, c₁, c₂, (run_of_checkedStep _ hc).forget_guard, of_decide_eq_true hquiet,
      (run_of_checkedStep _ hc₁).forget_guard, of_decide_eq_true hquiet₁, (run_of_checkedStep _ hc₂).forget_guard,
      hquiet₂, hnone, hsame⟩

end NousCore.Vault
