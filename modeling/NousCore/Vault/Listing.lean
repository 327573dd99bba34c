import NousCore.Vault.Calls
import NousCore.Lib.Follows

/-!
# The keys that are listed for an app

Calls of one app may overlap. An entry that is put is listed by the same call, with a record that it has read before.

* `vaultSystem` : the calls of an app, on one vault;
* `Held` : the invariant, `held_of_run`; `Held.indexed` : when no call is in progress, every entry is listed.
-/

namespace NousCore.Vault

open Async NousCore.System

def vaultSystem (cipher : Cipher) (appId : String) :
    System VaultRequest VaultOp.Answer VaultEnv VaultState VaultError VaultResult where
  body request := VaultCall.run cipher ⟨appId, request⟩
  answers := vaultAnswers
  spawned _ := []
  exclusive _ := false

abbrev VaultConfig := Config VaultRequest VaultOp.Answer VaultState VaultError VaultResult

abbrev VaultLog := Log VaultOp.Answer

/-! ## Logs -/

def entryPut : Sigma VaultOp.Answer → Option CredentialVaultEntry
  | ⟨.putEntry entry, _⟩ => some entry
  | _ => none

def lists : Sigma VaultOp.Answer → Bool
  | ⟨.putNamespace _, _⟩ => true
  | _ => false

def entriesRead : Sigma VaultOp.Answer → List CredentialVaultEntry
  | ⟨.getEntry _, entry⟩ => Option.toList entry
  | ⟨.getBackup _, record⟩ => (Option.bind record (·.entry)).toList
  | _ => []

def recordsRead : Sigma VaultOp.Answer → List CredentialNamespaceRecord
  | ⟨.getNamespace _, record⟩ => Option.toList record
  | _ => []

def keysPut (l : VaultLog) : List String := (l.filterMap entryPut).map (·.userKey)

/-- The keys whose entries the call has put, and has still to list. -/
def pendingKeys (l : VaultLog) : List String := if l.any lists then [] else keysPut l

/-- An entry of the app, under its own key. -/
def Addressed (appId : String) (e : CredentialVaultEntry) : Prop :=
  e.Valid ∧ e.vaultKey = buildVaultKey appId e.userKey

def VaultRequest.isStore : VaultRequest → Bool
  | .store _ => true
  | _ => false

/-- What a call may ask for after a log. -/
def AsksNext (appId : String) (request : VaultRequest) (l : VaultLog) : VaultOp → Prop
  | .putEntry entry => l.any lists = false ∧
      (request.isStore = true ∧ Addressed appId entry ∨ entry ∈ l.flatMap entriesRead)
  | .getNamespace name => name = appId
  | .putNamespace record => (∀ key ∈ keysPut l, key ∈ record.keys) ∧
      ((∀ r ∈ l.flatMap recordsRead, r.appId = appId ∧ r.keys.Nodup) → record.appId = appId ∧ record.keys.Nodup)
  | .putBackup record => ∀ entry ∈ record.entry, entry ∈ l.flatMap entriesRead
  | _ => True

/-- A call that has ended has listed what it has put. -/
def AsksLast (l : VaultLog) (_ : Except VaultError VaultResult) : Prop := pendingKeys l = []

variable {key : String}

section Follows

variable {appId : String} {request : VaultRequest} {α : Type} {post : VaultLog → Except VaultError α → Prop}
  {l : VaultLog}

theorem follows_getEntry {vaultKey : String} {f : Option CredentialVaultEntry → VaultM α}
    (hf : ∀ entry, (∀ e ∈ entry, e.Valid) →
      (f entry).Follows (AsksNext appId request) post (l ++ [⟨.getEntry vaultKey, entry⟩]))
    (herror : ∀ entry e, post (l ++ [⟨.getEntry vaultKey, entry⟩]) (.error e)) :
    (getEntry vaultKey >>= f).Follows (AsksNext appId request) post l := by
  refine ⟨trivial, fun entry => ?_⟩
  cases entry with
  | none => exact hf none (by simp)
  | some entry =>
    show ((some <$> unwrap entry.parse) >>= f).Follows _ _ _
    cases hparse : entry.parse with
    | error e => exact herror (some entry) e
    | ok entry' =>
      obtain ⟨rfl, hvalid⟩ := parseTexts_eq_ok hparse
      exact hf (some entry') fun e he => Option.some.inj he ▸ hvalid

theorem keysPut_append (l l' : VaultLog) : keysPut (l ++ l') = keysPut l ++ keysPut l' := by
  unfold keysPut
  rw [List.filterMap_append, List.map_append]

theorem pendingKeys_of_lists {l : VaultLog} (h : l.any lists = true) : pendingKeys l = [] := if_pos h

theorem pendingKeys_of_keysPut {l : VaultLog} (h : keysPut l = []) : pendingKeys l = [] := by
  unfold pendingKeys
  rw [h]
  split_ifs <;> rfl

theorem follows_addNamespaceKey {f : Unit → VaultM α} (hput : ∀ k ∈ keysPut l, k = key)
    (hf : ∀ l', l'.any lists = true → (f ()).Follows (AsksNext appId request) post l') :
    (addNamespaceKey appId key >>= f).Follows (AsksNext appId request) post l := by
  refine ⟨rfl, fun record => ⟨⟨fun k hk => ?_, fun hread => ?_⟩, fun r => hf _ ?_⟩⟩
  · rw [keysPut_append, List.mem_append] at hk
    rcases hk with hk | hk
    · obtain rfl := hput k hk
      unfold CredentialNamespaceRecord.add
      split_ifs with hmem
      · exact hmem
      · simp
    · cases hk
  · have hrecord : (Option.getD record ⟨appId, []⟩).appId = appId ∧ (Option.getD record ⟨appId, []⟩).keys.Nodup := by
      cases record with
      | none => exact ⟨rfl, List.nodup_nil⟩
      | some record => exact hread record (by simp [recordsRead])
    exact ⟨(appId_add _ _).trans hrecord.1, nodup_add hrecord.2 key⟩
  · simp [lists]

theorem follows_removeNamespaceKey {f : Unit → VaultM α} (hput : keysPut l = [])
    (hf : ∀ l', l'.any lists = true → (f ()).Follows (AsksNext appId request) post l') :
    (removeNamespaceKey appId key >>= f).Follows (AsksNext appId request) post l := by
  refine ⟨rfl, fun record => ⟨⟨fun k hk => ?_, fun hread => ⟨rfl, ?_⟩⟩, fun r => hf _ ?_⟩⟩
  · rw [keysPut_append, hput] at hk
    cases hk
  · cases record with
    | none => exact List.nodup_nil
    | some record => exact (hread record (by simp [recordsRead])).2.filter _
  · simp [lists]

theorem follows_purgeKeys {keys : List String} {n : Nat} {f : Nat → VaultM α} (hput : keysPut l = [])
    (hf : ∀ m l', keysPut l' = [] → (f m).Follows (AsksNext appId request) post l')
    (herror : ∀ l' e, keysPut l' = [] → post l' (.error e)) :
    (purgeKeys appId keys n >>= f).Follows (AsksNext appId request) post l := by
  induction keys generalizing n l with
  | nil => exact hf n l hput
  | cons key keys ih =>
    unfold purgeKeys
    rw [bind_assoc']
    refine follows_getEntry (fun entry _ => ?_) fun entry e => herror _ e ?_
    · cases entry with
      | none => exact ih (by rw [keysPut_append, hput]; rfl)
      | some entry => exact ⟨trivial, fun r => ih (by rw [keysPut_append, keysPut_append, hput]; rfl)⟩
    · rw [keysPut_append, hput]
      rfl

end Follows

/-! ## Calls -/

theorem follows_restoreBackup {appId backupRef : String} {request : VaultRequest} {record : CredentialBackupRecord}
    {l : VaultLog} (hl : keysPut l = [] ∧ l.any lists = false) :
    (restoreBackup appId record).Follows (AsksNext appId request) AsksLast
      (l ++ [⟨.getBackup backupRef, some record⟩]) := by
  unfold restoreBackup
  split
  · rename_i entry hentry
    refine ⟨⟨by simp [hl.2, lists], .inr ?_⟩, fun r => ?_⟩
    · rw [List.flatMap_append, List.mem_append]
      exact .inr (by simp [entriesRead, hentry])
    · refine follows_addNamespaceKey (fun k hk => ?_) fun l' hl' => ?_
      · rw [keysPut_append, keysPut_append, hl.1] at hk
        exact List.mem_singleton.mp hk
      · exact follows_map_unwrap.mpr (pendingKeys_of_lists hl')
  · refine ⟨trivial, fun r => follows_removeNamespaceKey ?_ fun l' hl' => pendingKeys_of_lists hl'⟩
    rw [keysPut_append, keysPut_append, hl.1]
    rfl

theorem follows_run (cipher : Cipher) (appId : String) (request : VaultRequest) :
    (VaultCall.run cipher ⟨appId, request⟩).Follows (AsksNext appId request) AsksLast [] := by
  cases request with
  | store request =>
    refine ⟨trivial, fun now => ⟨trivial, fun iv => ?_⟩⟩
    show (unwrap (newEntry cipher appId request now.val iv.val).parse >>= _).Follows _ _ _
    rw [follows_bind, follows_unwrap]
    cases hparse : (newEntry cipher appId request now.val iv.val).parse with
    | error e => exact pendingKeys_of_keysPut rfl
    | ok entry =>
      obtain ⟨rfl, hvalid⟩ := parseTexts_eq_ok hparse
      refine ⟨⟨rfl, .inl ⟨rfl, hvalid, rfl⟩⟩, fun r => follows_addNamespaceKey (fun k hk => ?_) fun l' hl' => ?_⟩
      · exact List.mem_singleton.mp hk
      · exact follows_map_unwrap.mpr (pendingKeys_of_lists hl')
  | getMetadata key =>
    refine follows_getEntry (fun entry _ => ?_) fun entry e => pendingKeys_of_keysPut rfl
    cases entry with
    | none => exact pendingKeys_of_keysPut rfl
    | some entry => exact follows_map_unwrap.mpr (pendingKeys_of_keysPut rfl)
  | revoke request =>
    refine follows_getEntry (fun entry _ => ?_) fun entry e => pendingKeys_of_keysPut rfl
    cases entry with
    | none => exact follows_unwrap.mpr (pendingKeys_of_keysPut rfl)
    | some entry =>
      exact ⟨trivial, fun r => follows_removeNamespaceKey rfl fun l' hl' =>
        follows_unwrap.mpr (pendingKeys_of_lists hl')⟩
  | backup key =>
    refine ⟨trivial, fun now => ⟨trivial, fun suffix => ?_⟩⟩
    refine follows_getEntry (fun entry _ => ⟨trivial, fun createdAt => ⟨fun e he => ?_, fun r => ?_⟩⟩)
      fun entry e => pendingKeys_of_keysPut rfl
    · obtain rfl : entry = some e := he
      simp [entriesRead]
    · cases entry with
      | none => exact pendingKeys_of_keysPut rfl
      | some entry => exact follows_map_unwrap.mpr (pendingKeys_of_keysPut rfl)
  | restore backupRef =>
    refine ⟨trivial, fun record => ?_⟩
    cases record with
    | none => exact pendingKeys_of_keysPut rfl
    | some record => exact follows_ite (pendingKeys_of_keysPut rfl) (follows_restoreBackup ⟨rfl, rfl⟩)
  | discardBackup backupRef =>
    refine ⟨trivial, fun record => ?_⟩
    cases record with
    | none => exact pendingKeys_of_keysPut rfl
    | some record => exact follows_ite (pendingKeys_of_keysPut rfl) ⟨trivial, fun r => pendingKeys_of_keysPut rfl⟩
  | purgeNamespace =>
    refine ⟨rfl, fun record => follows_purgeKeys rfl (fun n l' hl' => ?_) fun l' e hl' => pendingKeys_of_keysPut hl'⟩
    refine ⟨⟨fun k hk => ?_, fun _ => ⟨rfl, List.nodup_nil⟩⟩, fun r => ⟨trivial, fun now => ?_⟩⟩
    · rw [hl'] at hk
      cases hk
    · exact pendingKeys_of_lists (by simp [lists])
  | resolveForInjection key =>
    refine follows_getEntry (fun entry _ => ?_) fun entry e => pendingKeys_of_keysPut rfl
    cases entry with
    | none => exact pendingKeys_of_keysPut rfl
    | some entry =>
      rw [follows_bind, follows_unwrap]
      cases toMetadata entry with
      | error e => exact pendingKeys_of_keysPut rfl
      | ok metadata => exact follows_map_unwrap.mpr (pendingKeys_of_keysPut rfl)

/-! ## The invariant -/

structure Orderly (appId : String) (s : VaultState) : Prop where
  entries : ∀ k e, s.entries.find? k = some e → Addressed appId e
  backups : ∀ k record e, s.backups.find? k = some record → record.entry = some e → Addressed appId e
  nodup : ∀ record, s.namespaces.find? appId = some record → record.keys.Nodup

/-- A call has read nothing but what an orderly vault holds. -/
structure ReadOrderly (appId : String) (l : VaultLog) : Prop where
  entries : ∀ e ∈ l.flatMap entriesRead, Addressed appId e
  records : ∀ r ∈ l.flatMap recordsRead, r.appId = appId ∧ r.keys.Nodup

def Stored (s : VaultState) (appId key : String) : Prop := (s.entries.find? (buildVaultKey appId key)).isSome = true

instance (s : VaultState) (appId key : String) : Decidable (Stored s appId key) :=
  inferInstanceAs (Decidable ((s.entries.find? (buildVaultKey appId key)).isSome = true))

/-- The record that a call is about to write. -/
def recordWritten : VaultM VaultResult → Option CredentialNamespaceRecord
  | .call (.putNamespace record) _ => some record
  | _ => none

/-- A record that is written leaves out no key that is listed and whose entry is stored, unless a call in progress has
put the entry and has still to list it. -/
def ListingKept (appId : String) (c : VaultConfig) : Label VaultRequest VaultEnv → Prop
  | .begin _ => True
  | .turn i _ => ∀ th ∈ c.threads[i]?, ∀ record ∈ recordWritten th.program, ∀ key ∈ c.state.listed appId,
      key ∈ record.keys ∨ ¬Stored c.state appId key ∨ ∃ th' ∈ c.threads, key ∈ pendingKeys th'.log

instance (appId : String) (c : VaultConfig) (l : Label VaultRequest VaultEnv) : Decidable (ListingKept appId c l) :=
  match l with
  | .begin _ => .isTrue trivial
  | .turn i _ => inferInstanceAs (Decidable (∀ th ∈ c.threads[i]?, ∀ record ∈ recordWritten th.program,
      ∀ key ∈ c.state.listed appId,
        key ∈ record.keys ∨ ¬Stored c.state appId key ∨ ∃ th' ∈ c.threads, key ∈ pendingKeys th'.log))

structure Held (appId : String) (c : VaultConfig) : Prop where
  orderly : Orderly appId c.state
  follows : ∀ th ∈ c.threads, th.program.Follows (AsksNext appId th.task) AsksLast th.log
  read : ∀ th ∈ c.threads, ReadOrderly appId th.log
  listed : ∀ key, Stored c.state appId key → key ∈ c.state.listed appId ∨ ∃ th ∈ c.threads, key ∈ pendingKeys th.log

section Turn

variable {appId : String} {request : VaultRequest} {l : VaultLog} {o : VaultOp} {env : VaultEnv} {s s' : VaultState}
  {r : o.Answer}

theorem orderly_turn (hs : Orderly appId s) (hl : ReadOrderly appId l) (hnext : AsksNext appId request l o)
    (hanswers : vaultAnswers o env s = some (r, s')) : Orderly appId s' := by
  cases o with
  | now | randomHex | randomIv | getEntry | getNamespace | getBackup =>
    cases hanswers
    exact hs
  | putEntry entry =>
    cases hanswers
    have hentry : Addressed appId entry := hnext.2.elim (·.2) (hl.entries entry)
    refine ⟨fun k e he => ?_, hs.backups, hs.nodup⟩
    rw [Collection.find?_put] at he
    split_ifs at he
    · exact Option.some.inj he ▸ hentry
    · exact hs.entries k e he
  | deleteEntry vaultKey =>
    cases hanswers
    refine ⟨fun k e he => ?_, hs.backups, hs.nodup⟩
    rw [Collection.find?_delete] at he
    split_ifs at he
    exact hs.entries k e he
  | putNamespace record =>
    cases hanswers
    refine ⟨hs.entries, hs.backups, fun record' h => ?_⟩
    rw [Collection.find?_put, if_pos (hnext.2 hl.records).1.symm] at h
    exact Option.some.inj h ▸ (hnext.2 hl.records).2
  | putBackup record =>
    cases hanswers
    refine ⟨hs.entries, fun k record' e h he => ?_, hs.nodup⟩
    rw [Collection.find?_put] at h
    split_ifs at h
    · cases h
      exact hl.entries e (hnext e he)
    · exact hs.backups k record' e h he
  | deleteBackup backupRef =>
    cases hanswers
    refine ⟨hs.entries, fun k record' e h he => ?_, hs.nodup⟩
    rw [Collection.find?_delete] at h
    split_ifs at h
    exact hs.backups k record' e h he

theorem mem_entriesRead {e : CredentialVaultEntry} (hanswers : vaultAnswers o env s = some (r, s'))
    (he : e ∈ entriesRead ⟨o, r⟩) : (∃ k, s.entries.find? k = some e) ∨
      ∃ k record, s.backups.find? k = some record ∧ record.entry = some e := by
  cases o with
  | getEntry vaultKey =>
    cases hanswers
    exact .inl ⟨vaultKey, Option.mem_toList.mp he⟩
  | getBackup backupRef =>
    cases hanswers
    obtain ⟨record, hrecord, hentry⟩ := Option.bind_eq_some_iff.mp (Option.mem_toList.mp he)
    exact .inr ⟨backupRef, record, hrecord, hentry⟩
  | now | randomHex | randomIv | getNamespace | putEntry | deleteEntry | putNamespace | putBackup | deleteBackup =>
    cases he

theorem readOrderly_turn (hs : Orderly appId s) (hl : ReadOrderly appId l) (hnext : AsksNext appId request l o)
    (hanswers : vaultAnswers o env s = some (r, s')) : ReadOrderly appId (l ++ [⟨o, r⟩]) := by
  refine ⟨fun e he => ?_, fun record hrecord => ?_⟩
  · rw [List.flatMap_append, List.mem_append] at he
    rcases he with he | he
    · exact hl.entries e he
    · rw [List.flatMap_singleton] at he
      rcases mem_entriesRead hanswers he with ⟨k, hk⟩ | ⟨k, backup, hk, hentry⟩
      · exact hs.entries k e hk
      · exact hs.backups k backup e hk hentry
  · rw [List.flatMap_append, List.mem_append] at hrecord
    rcases hrecord with hrecord | hrecord
    · exact hl.records record hrecord
    · rw [List.flatMap_singleton] at hrecord
      cases o with
      | getNamespace name =>
        cases hanswers
        obtain rfl : name = appId := hnext
        have hfind := Option.mem_toList.mp hrecord
        exact ⟨s.namespaces.keyed _ _ hfind, hs.nodup record hfind⟩
      | now | randomHex | randomIv | getEntry | getBackup | putEntry | deleteEntry | putNamespace | putBackup
      | deleteBackup => cases hrecord

/-- An operation other than the writing of a record leaves the list, and what is still to be listed. -/
theorem pendingKeys_append {e : Sigma VaultOp.Answer} (he : lists e = false)
    (h : key ∈ pendingKeys l) : key ∈ pendingKeys (l ++ [e]) := by
  unfold pendingKeys at h ⊢
  split_ifs at h with hlists
  · cases h
  · rw [if_neg (by simp [hlists, he]), keysPut_append]
    exact List.mem_append_left _ h

theorem listed_turn (hl : ReadOrderly appId l) (hnext : AsksNext appId request l o)
    (hanswers : vaultAnswers o env s = some (r, s')) (hstored : Stored s' appId key) :
    key ∈ pendingKeys (l ++ [⟨o, r⟩]) ∨
      Stored s appId key ∧ (lists ⟨o, r⟩ = false ∧ s'.listed appId = s.listed appId ∨
        ∃ record, o = .putNamespace record ∧ s'.listed appId = record.keys ∧ ∀ k ∈ pendingKeys l, k ∈ record.keys) := by
  cases o with
  | now | randomHex | randomIv | getEntry | getNamespace | getBackup =>
    cases hanswers
    exact .inr ⟨hstored, .inl ⟨rfl, rfl⟩⟩
  | putEntry entry =>
    cases hanswers
    have hentry : Addressed appId entry := hnext.2.elim (·.2) (hl.entries entry)
    unfold Stored at hstored
    rw [Collection.find?_put] at hstored
    split_ifs at hstored with hkey
    · left
      rw [hentry.2] at hkey
      obtain rfl := buildVaultKey_inj hkey
      unfold pendingKeys
      rw [if_neg (by simp [hnext.1, lists]), keysPut_append]
      exact List.mem_append_right _ (List.mem_singleton.mpr rfl)
    · exact .inr ⟨hstored, .inl ⟨rfl, rfl⟩⟩
  | deleteEntry vaultKey =>
    cases hanswers
    unfold Stored at hstored
    rw [Collection.find?_delete] at hstored
    split_ifs at hstored
    · cases hstored
    · exact .inr ⟨hstored, .inl ⟨rfl, rfl⟩⟩
  | putNamespace record =>
    cases hanswers
    refine .inr ⟨hstored, .inr ⟨record, rfl, ?_, fun k hk => hnext.1 k ?_⟩⟩
    · rw [listed_put, if_pos (hnext.2 hl.records).1.symm]
    · unfold pendingKeys at hk
      split_ifs at hk
      · cases hk
      · exact hk
  | putBackup | deleteBackup =>
    cases hanswers
    exact .inr ⟨hstored, .inl ⟨rfl, rfl⟩⟩

end Turn

/-! ## Runs -/

variable {cipher : Cipher} {appId : String} {c c' : VaultConfig} {ls : List (Label VaultRequest VaultEnv)}

/-- Every call in progress has come to its end. -/
def Quiet (c : VaultConfig) : Prop := ∀ th ∈ c.threads, th.program.outcome.isSome = true

def Indexed (appId : String) (s : VaultState) : Prop := ∀ e ∈ s.entries.all, e.userKey ∈ s.listed appId

theorem held_start (appId : String) : Held appId (start .empty) where
  orderly := ⟨fun _ _ h => (by cases h), fun _ _ _ h => (by cases h), fun _ h => (by cases h)⟩
  follows := by simp [start]
  read := by simp [start]
  listed := fun _ h => by cases h

theorem held_of_step {label : Label VaultRequest VaultEnv} (h : Held appId c)
    (hstep : Guarded (vaultSystem cipher appId).Step (ListingKept appId) c label c') : Held appId c' := by
  obtain ⟨hstep, hkept⟩ := hstep
  have hfollows := follows_of_step (vaultSystem cipher appId) (follows_run cipher appId) h.follows hstep
  have hstepped := stepped_of_step hstep
  clear hstep
  cases hstepped with
  | begin request =>
    refine ⟨h.orderly, hfollows, fun th hth => ?_, fun key hkey => ?_⟩
    · rcases List.mem_append.mp hth with hth | hth
      · exact h.read th hth
      · obtain rfl := List.mem_singleton.mp hth
        exact ⟨by simp [System.thread], by simp [System.thread]⟩
    · rcases h.listed key hkey with hlisted | ⟨th, hth, hpending⟩
      · exact .inl hlisted
      · exact .inr ⟨th, List.mem_append_left _ hth, hpending⟩
  | @turn i env request log o next r s' hget hblocked hanswers =>
    have hread := h.read _ (List.mem_of_getElem? hget)
    have hnext : AsksNext appId request log o := (h.follows _ (List.mem_of_getElem? hget)).1
    refine ⟨orderly_turn h.orderly hread hnext hanswers, hfollows, fun th hth => ?_, fun key hkey => ?_⟩
    · obtain ⟨j, hj⟩ := List.mem_iff_getElem?.mp hth
      rcases getElem?_set_append hget hj with ⟨rfl, rfl⟩ | ⟨-, hold⟩ | ⟨-, hnew⟩
      · exact readOrderly_turn h.orderly hread hnext hanswers
      · exact h.read th (List.mem_of_getElem? hold)
      · cases hnew
    -- a key that another call has still to list, or that this one has and does not list
    have hother : ∀ th ∈ c.threads, key ∈ pendingKeys th.log → lists ⟨o, r⟩ = false ∨ key ∉ pendingKeys log →
        ∃ th ∈ c.threads.set i ⟨request, next r, log ++ [⟨o, r⟩]⟩ ++ (((vaultSystem cipher appId).spawned o).map
          (vaultSystem cipher appId).thread), key ∈ pendingKeys th.log := by
      intro th hth hpending hor
      obtain ⟨j, hj⟩ := List.mem_iff_getElem?.mp hth
      by_cases hji : j = i
      · obtain rfl := hji
        cases hj.symm.trans hget
        exact ⟨_, List.mem_of_getElem? (getElem?_self hget),
          pendingKeys_append (hor.resolve_right (not_not_intro hpending)) hpending⟩
      · exact ⟨th, List.mem_of_getElem? (getElem?_of_ne hji hj), hpending⟩
    rcases listed_turn hread hnext hanswers hkey with hpending | ⟨hstored, ⟨hlists, hsame⟩ | ⟨record, rfl, hrecord, hadds⟩⟩
    · exact .inr ⟨_, List.mem_of_getElem? (getElem?_self hget), hpending⟩
    · rw [hsame]
      rcases h.listed key hstored with hlisted | ⟨th, hth, hpending⟩
      · exact .inl hlisted
      · exact .inr (hother th hth hpending (.inl hlists))
    · rw [hrecord]
      by_cases hlog : key ∈ pendingKeys log
      · exact .inl (hadds key hlog)
      · rcases h.listed key hstored with hlisted | ⟨th, hth, hpending⟩
        · rcases hkept _ hget record rfl key hlisted with hmem | hnot | ⟨th, hth, hpending⟩
          · exact .inl hmem
          · exact absurd hstored hnot
          · exact .inr (hother th hth hpending (.inr hlog))
        · exact .inr (hother th hth hpending (.inr hlog))

theorem held_of_run {c₀ : VaultConfig} (h : Held appId c₀)
    (hrun : Run (Guarded (vaultSystem cipher appId).Step (ListingKept appId)) c₀ ls c) : Held appId c :=
  hrun.invariant (fun _ _ _ hc hstep => held_of_step hc hstep) h

theorem Held.indexed (h : Held appId c) (hquiet : Quiet c) : Indexed appId c.state := by
  intro e he
  have hfind := Collection.mem_all.mp he
  have hstored : Stored c.state appId e.userKey := by
    unfold Stored
    rw [← (h.orderly.entries _ _ hfind).2, hfind]
    rfl
  rcases h.listed e.userKey hstored with hlisted | ⟨th, hth, hpending⟩
  · exact hlisted
  · obtain ⟨y, hy⟩ := Option.isSome_iff_exists.mp (hquiet th hth)
    have hlast : pendingKeys th.log = [] := (h.follows th hth).of_outcome hy
    rw [hlast] at hpending
    cases hpending

end NousCore.Vault
