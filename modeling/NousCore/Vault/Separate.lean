import NousCore.Vault.Calls
import NousCore.Lib.Isolation
import Mathlib.Data.Set.Function

/-!
# A shelf for each app

What the vault is for: every app has a shelf of its own, with a credential under each key, and with its backups. A call
sees and changes the shelf of its app only.

* `Shelf`, `Shelf.Answers`, `Shelf.after` : a shelf, what it answers to a request, and what is left on it;
* `Kept` : what the stores hold of the shelves;
* `Kept.putListed`, `Kept.deleteListed`, `Kept.putBackup`, `Kept.deleteBackup`, `Kept.purge` : what the writes of the
  calls do to the shelves.
-/

namespace NousCore.Vault

open Async

/-! ## Shelves -/

/-- What is shown of a credential, and its value. -/
structure Credential where
  metadata : CredentialMetadata
  value : String

structure Shelf where
  credentials : String → Option Credential
  /-- Of each backup the key, and what was under it. -/
  backups : String → Option (String × Option Credential)

def Shelf.empty : Shelf := ⟨fun _ => none, fun _ => none⟩

def Shelf.put (shelf : Shelf) (key : String) (c : Option Credential) : Shelf :=
  { shelf with credentials := Function.update shelf.credentials key c }

structure Describes (appId : String) (request : CredentialStoreRequest) (m : CredentialMetadata) : Prop where
  appId : m.appId = appId
  userKey : m.userKey = request.key
  credentialType : m.credentialType = request.credentialType
  targetHost : m.targetHost = request.targetHost
  injectionLocation : m.injectionLocation = request.injectionLocation
  injectionKey : m.injectionKey = request.injectionKey
  expiresAt : m.expiresAt = request.expiresAt
  createdAt : m.createdAt = m.updatedAt

inductive Shelf.Answers (appId : String) (shelf : Shelf) : VaultRequest → Except VaultError VaultResult → Prop
  | stored {request : CredentialStoreRequest} {m : CredentialMetadata} : Describes appId request m →
      Answers appId shelf (.store request) (.ok (.stored m.credentialRef m))
  | refused {request : CredentialStoreRequest} {paths : List String} : ¬(appId ≠ "" ∧ request.Accepted) →
      Answers appId shelf (.store request) (.error (.invalid paths))
  | metadata {key : String} :
      Answers appId shelf (.getMetadata key) (.ok (.metadata ((shelf.credentials key).map (·.metadata))))
  | resolved {key : String} : Answers appId shelf (.resolveForInjection key)
      (.ok (.resolved ((shelf.credentials key).map fun c => (c.metadata, c.value))))
  | notRevoked {request : CredentialRevokeRequest} : shelf.credentials request.key = none →
      Answers appId shelf (.revoke request)
        (parseRevokeResult false none (some (request.reason.getD "credential_not_found")))
  | revoked {request : CredentialRevokeRequest} {c : Credential} : shelf.credentials request.key = some c →
      Answers appId shelf (.revoke request) (parseRevokeResult true (some c.metadata.credentialRef) request.reason)
  | backedUp {key backupRef : String} : Answers appId shelf (.backup key)
      (.ok (.backedUp backupRef (shelf.credentials key).isSome ((shelf.credentials key).map (·.metadata))))
  | notRestored {backupRef : String} : shelf.backups backupRef = none →
      Answers appId shelf (.restore backupRef) (.ok (.restored false none))
  | restored {backupRef key : String} {saved : Option Credential} : shelf.backups backupRef = some (key, saved) →
      Answers appId shelf (.restore backupRef) (.ok (.restored true (saved.map (·.metadata))))
  | discarded {backupRef : String} :
      Answers appId shelf (.discardBackup backupRef) (.ok (.discarded (shelf.backups backupRef).isSome))
  | purged {keys : List String} {purgedAt : IsoTime} : keys.Nodup →
      (∀ key, key ∈ keys ↔ (shelf.credentials key).isSome = true) →
      Answers appId shelf .purgeNamespace (.ok (.purged appId keys.length purgedAt))

def Shelf.after (shelf : Shelf) : VaultRequest → Except VaultError VaultResult → Shelf
  | .store request, .ok (.stored _ m) => shelf.put request.key (some ⟨m, request.value⟩)
  | .revoke request, _ => shelf.put request.key none
  | .backup key, .ok (.backedUp backupRef _ _) =>
    { shelf with backups := Function.update shelf.backups backupRef (some (key, shelf.credentials key)) }
  | .restore backupRef, _ =>
    match shelf.backups backupRef with
    | some (key, saved) => shelf.put key saved
    | none => shelf
  | .discardBackup backupRef, _ => { shelf with backups := Function.update shelf.backups backupRef none }
  | .purgeNamespace, _ => { shelf with credentials := fun _ => none }
  | _, _ => shelf

/-- The calls are answered one after the other, each from the shelf of its app, and change no other. -/
def AnswersInTurn : (String → Shelf) → List (VaultCall × Except VaultError VaultResult) → Prop
  | _, [] => True
  | shelves, (⟨appId, request⟩, y) :: rest => (shelves appId).Answers appId request y ∧
      AnswersInTurn (Function.update shelves appId ((shelves appId).after request y)) rest

/-! ## Addresses -/

structure AppCredentialKey where
  appId : String
  userKey : String
  appId_ne : appId ≠ ""
  userKey_ne : userKey ≠ ""

def AppCredentialKey.vaultKey (a : AppCredentialKey) : String := buildVaultKey a.appId a.userKey

/-- The address is one of those given. -/
def Named (A : Set AppCredentialKey) (appId key : String) : Prop := ∃ a ∈ A, a.appId = appId ∧ a.userKey = key

def VaultRequest.key? : VaultRequest → Option String
  | .store request => some request.key
  | .getMetadata key => some key
  | .revoke request => some request.key
  | .backup key => some key
  | .resolveForInjection key => some key
  | .restore _ | .discardBackup _ | .purgeNamespace => none

def VaultCall.Over (A : Set AppCredentialKey) (call : VaultCall) : Prop :=
  ∀ key ∈ call.request.key?, Named A call.appId key

/-- **Apps do not mix.** However calls that name these addresses only follow one another on an empty vault, each is
answered from the shelf of its own app. -/
def Separate (cipher : Cipher) (A : Set AppCredentialKey) : Prop :=
  ∀ (calls : List (VaultCall × List VaultEnv)) ys s', (∀ call ∈ calls, call.1.Over A) →
    inTurn vaultAnswers (VaultCall.run cipher) calls .empty = some (ys, s') → AnswersInTurn (fun _ => .empty) ys

/-! ## What the stores hold -/

structure Represents (cipher : Cipher) (a : AppCredentialKey) (e : CredentialVaultEntry) (c : Credential) : Prop where
  userKey : e.userKey = a.userKey
  vaultKey : e.vaultKey = a.vaultKey
  metadata : e.toCredentialMetadata = c.metadata
  value : cipher.decrypt e.encrypted = some c.value

structure Saved (cipher : Cipher) (A : Set AppCredentialKey) (shelves : String → Shelf) (backupRef : String)
    (record : CredentialBackupRecord) : Prop where
  ref : ∃ (now : Timestamp) (suffix : TextOfLength 8),
    backupRef = backupRefOf record.appId record.userKey now.val.text suffix.val
  saved : ∃ a ∈ A, a.appId = record.appId ∧ a.userKey = record.userKey ∧
    ∃ saved, (shelves a.appId).backups backupRef = some (a.userKey, saved) ∧
      Option.Rel (Represents cipher a) record.entry saved

structure Kept (cipher : Cipher) (A : Set AppCredentialKey) (shelves : String → Shelf) (s : VaultState) : Prop where
  valid : StoredValid s
  entries : ∀ a ∈ A, Option.Rel (Represents cipher a) (s.entries.find? a.vaultKey)
    ((shelves a.appId).credentials a.userKey)
  listed : ∀ appId key, ((shelves appId).credentials key).isSome = true → key ∈ s.listed appId
  named : ∀ appId, ∀ key ∈ s.listed appId, Named A appId key
  nodup : ∀ appId, (s.listed appId).Nodup
  saved : ∀ backupRef record, s.backups.find? backupRef = some record → Saved cipher A shelves backupRef record
  backups : ∀ appId backupRef, ((shelves appId).backups backupRef).isSome = true →
    ∃ record, s.backups.find? backupRef = some record ∧ record.appId = appId

theorem kept_empty (cipher : Cipher) (A : Set AppCredentialKey) : Kept cipher A (fun _ => .empty) .empty where
  valid := ⟨fun _ _ h => (by cases h), fun _ _ _ h => (by cases h)⟩
  entries := fun _ _ => .none
  listed := fun _ _ h => by cases h
  named := fun _ _ h => by cases h
  nodup := fun _ => List.nodup_nil
  saved := fun _ _ h => by cases h
  backups := fun _ _ h => by cases h

theorem listed_putListed (s : VaultState) (appId : String) (e : CredentialVaultEntry) (key appId' : String) :
    (s.putListed appId e key).listed appId' =
      if appId' = appId then (CredentialNamespaceRecord.add ⟨appId, s.listed appId⟩ key).keys
      else s.listed appId' := by
  unfold VaultState.putListed
  rw [namespaceRecord_eq, listed_put { s with entries := s.entries.put e }, appId_add]
  rfl

theorem listed_deleteListed (s : VaultState) (appId key appId' : String) :
    (s.deleteListed appId key).listed appId' =
      if appId' = appId then (s.listed appId).filter (· ≠ key) else s.listed appId' := by
  unfold VaultState.deleteListed
  rw [namespaceRecord_eq, listed_put { s with entries := s.entries.delete _ }]
  rfl

theorem credentials_update_put (shelves : String → Shelf) (appId key : String) (c : Option Credential)
    (appId' key' : String) :
    (Function.update shelves appId ((shelves appId).put key c) appId').credentials key' =
      if appId' = appId ∧ key' = key then c else (shelves appId').credentials key' := by
  by_cases happ : appId' = appId
  · obtain rfl := happ
    rw [Function.update_self]
    by_cases hkey : key' = key
    · obtain rfl := hkey
      simp [Shelf.put]
    · simp [Shelf.put, hkey]
  · rw [Function.update_of_ne happ, if_neg fun h => happ h.1]

theorem backups_update_put (shelves : String → Shelf) (appId key : String) (c : Option Credential) (appId' : String) :
    (Function.update shelves appId ((shelves appId).put key c) appId').backups = (shelves appId').backups := by
  by_cases happ : appId' = appId
  · obtain rfl := happ
    rw [Function.update_self]
    rfl
  · rw [Function.update_of_ne happ]

/-! ## Addresses that do not mix -/

variable {cipher : Cipher} {A : Set AppCredentialKey} {shelves : String → Shelf} {s : VaultState}

variable {a b : AppCredentialKey}

theorem vaultKey_ne (hinj : Set.InjOn AppCredentialKey.vaultKey A) (ha : a ∈ A) (hb : b ∈ A)
    (h : ¬(b.appId = a.appId ∧ b.userKey = a.userKey)) : b.vaultKey ≠ a.vaultKey := by
  intro heq
  obtain rfl := hinj hb ha heq
  exact h ⟨rfl, rfl⟩

theorem StoredValid.putListed (h : StoredValid s) {e : CredentialVaultEntry} (hvalid : e.Valid) (appId key : String) :
    StoredValid (s.putListed appId e key) := by
  refine ⟨fun k e' he' => ?_, h.backups⟩
  have hput : (s.entries.put e).find? k = some e' := he'
  rw [Collection.find?_put] at hput
  split_ifs at hput
  · rwa [← Option.some.inj hput]
  · exact h.entries k e' hput

variable {appId key : String}

namespace Kept

theorem saved_update (h : Kept cipher A shelves s) {shelves' : String → Shelf}
    (hbackups : ∀ appId, (shelves' appId).backups = (shelves appId).backups) (backupRef : String)
    (record : CredentialBackupRecord) (hrecord : s.backups.find? backupRef = some record) :
    Saved cipher A shelves' backupRef record := by
  obtain ⟨href, a, ha, happ, hkey, saved, hsaved, hrel⟩ := h.saved backupRef record hrecord
  exact ⟨href, a, ha, happ, hkey, saved, by rw [hbackups, hsaved], hrel⟩

theorem putListed (h : Kept cipher A shelves s) (hinj : Set.InjOn AppCredentialKey.vaultKey A)
    (ha : a ∈ A) {e : CredentialVaultEntry} {c : Credential} (hvalid : e.Valid) (he : Represents cipher a e c) :
    Kept cipher A (Function.update shelves a.appId ((shelves a.appId).put a.userKey (some c)))
      (s.putListed a.appId e a.userKey) where
  valid := h.valid.putListed hvalid _ _
  entries := fun b hb => by
    show Option.Rel _ ((s.entries.put e).find? b.vaultKey) _
    rw [credentials_update_put, Collection.find?_put, he.vaultKey]
    by_cases hba : b.appId = a.appId ∧ b.userKey = a.userKey
    · obtain rfl : b = a := by
        obtain ⟨appId, userKey, _, _⟩ := a
        obtain ⟨appId', userKey', _, _⟩ := b
        obtain ⟨rfl, rfl⟩ := hba
        rfl
      rw [if_pos rfl, if_pos hba]
      exact .some he
    · rw [if_neg (vaultKey_ne hinj ha hb hba), if_neg hba]
      exact h.entries b hb
  listed := fun appId key hkey => by
    rw [credentials_update_put] at hkey
    rw [listed_putListed]
    split_ifs at hkey with hak
    · obtain ⟨rfl, rfl⟩ := hak
      rw [if_pos rfl]
      exact mem_add.mpr (Or.inl rfl)
    · have hlisted := h.listed appId key hkey
      split_ifs with happ
      · obtain rfl := happ
        exact mem_add.mpr (Or.inr hlisted)
      · exact hlisted
  named := fun appId key hkey => by
    rw [listed_putListed] at hkey
    split_ifs at hkey with happ
    · obtain rfl := happ
      rcases mem_add.mp hkey with rfl | hkey
      · exact ⟨a, ha, rfl, rfl⟩
      · exact h.named _ _ hkey
    · exact h.named _ _ hkey
  nodup := fun appId => by
    rw [listed_putListed]
    split_ifs with happ
    · exact nodup_add (happ ▸ h.nodup _) _
    · exact h.nodup appId
  saved := h.saved_update (backups_update_put _ _ _ _)
  backups := fun appId backupRef hbackup => by
    rw [backups_update_put] at hbackup
    exact h.backups appId backupRef hbackup

theorem deleteListed (h : Kept cipher A shelves s) (hinj : Set.InjOn AppCredentialKey.vaultKey A)
    (ha : a ∈ A) : Kept cipher A (Function.update shelves a.appId ((shelves a.appId).put a.userKey none))
      (s.deleteListed a.appId a.userKey) where
  valid := ⟨(h.valid.delete a.vaultKey).entries, h.valid.backups⟩
  entries := fun b hb => by
    show Option.Rel _ ((s.entries.delete a.vaultKey).find? b.vaultKey) _
    rw [credentials_update_put, Collection.find?_delete]
    by_cases hba : b.appId = a.appId ∧ b.userKey = a.userKey
    · rw [if_pos (by rw [AppCredentialKey.vaultKey, hba.1, hba.2]; rfl), if_pos hba]
      exact .none
    · rw [if_neg (vaultKey_ne hinj ha hb hba), if_neg hba]
      exact h.entries b hb
  listed := fun appId key hkey => by
    rw [credentials_update_put] at hkey
    split_ifs at hkey with hak
    · cases hkey
    · have hlisted := h.listed appId key hkey
      rw [listed_deleteListed]
      split_ifs with happ
      · obtain rfl := happ
        exact List.mem_filter.mpr ⟨hlisted, decide_eq_true fun hk => hak ⟨rfl, hk⟩⟩
      · exact hlisted
  named := fun appId key hkey => by
    rw [listed_deleteListed] at hkey
    split_ifs at hkey with happ
    · obtain rfl := happ
      exact h.named _ _ (List.mem_of_mem_filter hkey)
    · exact h.named _ _ hkey
  nodup := fun appId => by
    rw [listed_deleteListed]
    split_ifs with happ
    · exact (h.nodup _).filter _
    · exact h.nodup appId
  saved := h.saved_update (backups_update_put _ _ _ _)
  backups := fun appId backupRef hbackup => by
    rw [backups_update_put] at hbackup
    exact h.backups appId backupRef hbackup

theorem put_self (h : Kept cipher A shelves s) :
    Kept cipher A (Function.update shelves appId ((shelves appId).put key ((shelves appId).credentials key))) s := by
  have hput : (shelves appId).put key ((shelves appId).credentials key) = shelves appId := by
    unfold Shelf.put
    rw [Function.update_eq_self]
  rwa [hput, Function.update_eq_self]

end Kept

/-! ## Backups -/

theorem toList_backupRefOf (appId key now suffix : String) : (backupRefOf appId key now suffix).toList =
    "backup:".toList ++ (buildVaultKey appId key).toList ++ ":".toList ++ now.toList ++ ":".toList ++ suffix.toList := by
  simp only [backupRefOf, buildVaultKey, String.toList_append, List.append_assoc]
  rfl

theorem buildVaultKey_of_backupRefOf {appId' key' : String} {now now' : Timestamp}
    {suffix suffix' : TextOfLength 8}
    (h : backupRefOf appId key now.val.text suffix.val = backupRefOf appId' key' now'.val.text suffix'.val) :
    buildVaultKey appId key = buildVaultKey appId' key' := by
  have hlists := congrArg String.toList h
  rw [toList_backupRefOf, toList_backupRefOf] at hlists
  have hsuffix : suffix.val.toList.length = suffix'.val.toList.length := by
    rw [String.length_toList, String.length_toList, suffix.property, suffix'.property]
  have hnow : now.val.text.toList.length = now'.val.text.toList.length := by
    rw [String.length_toList, String.length_toList, now.property, now'.property]
  obtain ⟨hlists, -⟩ := List.append_inj' hlists hsuffix
  obtain ⟨hlists, -⟩ := List.append_inj' hlists rfl
  obtain ⟨hlists, -⟩ := List.append_inj' hlists hnow
  obtain ⟨hlists, -⟩ := List.append_inj' hlists rfl
  exact String.toList_inj.mp (List.append_cancel_left hlists)

theorem credentials_update_backups (shelves : String → Shelf) (appId : String)
    (backups : String → Option (String × Option Credential)) (appId' : String) :
    (Function.update shelves appId { shelves appId with backups := backups } appId').credentials =
      (shelves appId').credentials := by
  by_cases happ : appId' = appId
  · obtain rfl := happ
    rw [Function.update_self]
  · rw [Function.update_of_ne happ]

theorem backups_update_backups (shelves : String → Shelf) (appId backupRef : String)
    (b : Option (String × Option Credential)) (appId' backupRef' : String) :
    (Function.update shelves appId
      { shelves appId with backups := Function.update (shelves appId).backups backupRef b } appId').backups backupRef' =
      if appId' = appId ∧ backupRef' = backupRef then b else (shelves appId').backups backupRef' := by
  by_cases happ : appId' = appId
  · obtain rfl := happ
    rw [Function.update_self]
    by_cases href : backupRef' = backupRef
    · obtain rfl := href
      rw [if_pos ⟨rfl, rfl⟩]
      exact Function.update_self _ _ _
    · rw [if_neg fun h => href h.2]
      exact Function.update_of_ne href _ _
  · rw [Function.update_of_ne happ, if_neg fun h => happ h.1]

variable {backupRef : String}

namespace Kept

theorem putBackup (h : Kept cipher A shelves s) (hinj : Set.InjOn AppCredentialKey.vaultKey A)
    (ha : a ∈ A) (now : Timestamp) (suffix : TextOfLength 8) (createdAt : IsoTime) :
    Kept cipher A (Function.update shelves a.appId { shelves a.appId with
        backups := Function.update (shelves a.appId).backups (backupRefOf a.appId a.userKey now.val.text suffix.val)
          (some (a.userKey, (shelves a.appId).credentials a.userKey)) })
      { s with backups := s.backups.put ⟨backupRefOf a.appId a.userKey now.val.text suffix.val, a.appId, a.userKey,
        s.entries.find? a.vaultKey, createdAt⟩ } where
  valid := by
    refine ⟨h.valid.entries, fun k record e hrecord he => ?_⟩
    rw [Collection.find?_put] at hrecord
    split_ifs at hrecord
    · cases hrecord
      exact h.valid.entries _ _ he
    · exact h.valid.backups k record e hrecord he
  entries := fun b hb => by
    rw [credentials_update_backups]
    exact h.entries b hb
  listed := fun appId key hkey => by
    rw [credentials_update_backups] at hkey
    exact h.listed appId key hkey
  named := h.named
  nodup := h.nodup
  saved := fun backupRef record hrecord => by
    rw [Collection.find?_put] at hrecord
    split_ifs at hrecord with href
    · cases hrecord
      refine ⟨⟨now, suffix, href⟩, a, ha, rfl, rfl, (shelves a.appId).credentials a.userKey, ?_, h.entries a ha⟩
      rw [backups_update_backups, if_pos ⟨rfl, href⟩]
    · obtain ⟨href', b, hb, happ, hkey, saved, hsaved, hrel⟩ := h.saved backupRef record hrecord
      refine ⟨href', b, hb, happ, hkey, saved, ?_, hrel⟩
      rw [backups_update_backups, if_neg fun hsame => href hsame.2, hsaved]
  backups := fun appId backupRef hbackup => by
    rw [backups_update_backups] at hbackup
    rw [Collection.find?_put]
    split_ifs at hbackup with hsame
    · exact ⟨_, if_pos hsame.2, hsame.1.symm⟩
    · obtain ⟨record, hrecord, rfl⟩ := h.backups appId backupRef hbackup
      by_cases href : backupRef = backupRefOf a.appId a.userKey now.val.text suffix.val
      · -- the reference of another app would be that of another address with the same vault key
        obtain ⟨⟨now', suffix', href'⟩, b, hb, happ, hkey, -⟩ := h.saved backupRef record hrecord
        have hjoin := buildVaultKey_of_backupRefOf (href'.symm.trans href)
        rw [← happ, ← hkey] at hjoin
        obtain rfl := hinj hb ha hjoin
        exact absurd ⟨happ.symm, href⟩ hsame
      · exact ⟨record, by rw [if_neg href, hrecord], rfl⟩

theorem deleteBackup (h : Kept cipher A shelves s) {record : CredentialBackupRecord}
    (hrecord : s.backups.find? backupRef = some record) :
    Kept cipher A (Function.update shelves record.appId { shelves record.appId with
        backups := Function.update (shelves record.appId).backups backupRef none })
      { s with backups := s.backups.delete backupRef } where
  valid := by
    refine ⟨h.valid.entries, fun k record e hrecord he => ?_⟩
    rw [Collection.find?_delete] at hrecord
    split_ifs at hrecord
    exact h.valid.backups k record e hrecord he
  entries := fun b hb => by
    rw [credentials_update_backups]
    exact h.entries b hb
  listed := fun appId key hkey => by
    rw [credentials_update_backups] at hkey
    exact h.listed appId key hkey
  named := h.named
  nodup := h.nodup
  saved := fun backupRef' record' hrecord' => by
    rw [Collection.find?_delete] at hrecord'
    split_ifs at hrecord' with href
    obtain ⟨href', b, hb, happ, hkey, saved, hsaved, hrel⟩ := h.saved backupRef' record' hrecord'
    refine ⟨href', b, hb, happ, hkey, saved, ?_, hrel⟩
    rw [backups_update_backups, if_neg fun hsame => href hsame.2, hsaved]
  backups := fun appId backupRef' hbackup => by
    rw [backups_update_backups] at hbackup
    split_ifs at hbackup with hsame
    · cases hbackup
    · obtain ⟨record', hrecord', rfl⟩ := h.backups appId backupRef' hbackup
      refine ⟨record', ?_, rfl⟩
      rw [Collection.find?_delete, if_neg, hrecord']
      rintro rfl
      cases hrecord.symm.trans hrecord'
      exact hsame ⟨rfl, rfl⟩

theorem discard_none (h : Kept cipher A shelves s) (hnone : (shelves appId).backups backupRef = none) :
    Kept cipher A (Function.update shelves appId { shelves appId with
      backups := Function.update (shelves appId).backups backupRef none }) s := by
  have hself : ({ shelves appId with backups := Function.update (shelves appId).backups backupRef none } : Shelf) =
      shelves appId := by
    rw [← hnone, Function.update_eq_self]
  rwa [hself, Function.update_eq_self]

/-! ## The purge -/

theorem isSome_entry (h : Kept cipher A shelves s) (ha : a ∈ A) :
    (s.entries.find? a.vaultKey).isSome = ((shelves a.appId).credentials a.userKey).isSome := by
  have hrel := h.entries a ha
  generalize s.entries.find? a.vaultKey = x at hrel ⊢
  generalize (shelves a.appId).credentials a.userKey = y at hrel ⊢
  cases hrel <;> rfl

theorem mem_storedKeys (h : Kept cipher A shelves s) :
    key ∈ storedKeys appId s.entries (s.listed appId) ↔ ((shelves appId).credentials key).isSome = true := by
  unfold storedKeys
  rw [List.mem_filter]
  constructor
  · rintro ⟨hkey, hstored⟩
    obtain ⟨a, ha, rfl, rfl⟩ := h.named appId key hkey
    rwa [← h.isSome_entry ha]
  · intro hkey
    have hlisted := h.listed appId key hkey
    obtain ⟨a, ha, rfl, rfl⟩ := h.named appId key hlisted
    exact ⟨hlisted, by rw [← hkey, ← h.isSome_entry ha]; rfl⟩

theorem purge (h : Kept cipher A shelves s) (hinj : Set.InjOn AppCredentialKey.vaultKey A)
    {entries' : Collection CredentialVaultEntry.vaultKey} (hpurged : Purged appId (s.listed appId) s.entries entries') :
    Kept cipher A (Function.update shelves appId { shelves appId with credentials := fun _ => none })
      { s with entries := entries', namespaces := s.namespaces.put ⟨appId, []⟩ } := by
  have hlisted' : ∀ appId', VaultState.listed { s with entries := entries', namespaces := s.namespaces.put ⟨appId, []⟩ }
      appId' = if appId' = appId then [] else s.listed appId' := listed_put { s with entries := entries' } ⟨appId, []⟩
  have hbackups : ∀ appId', (Function.update shelves appId { shelves appId with credentials := fun _ => none }
      appId').backups = (shelves appId').backups := by
    intro appId'
    by_cases happ : appId' = appId
    · obtain rfl := happ
      rw [Function.update_self]
    · rw [Function.update_of_ne happ]
  refine ⟨⟨fun k e he => ?_, h.valid.backups⟩, fun b hb => ?_, fun appId' key hkey => ?_, fun appId' key hkey => ?_,
    fun appId' => ?_, h.saved_update hbackups, fun appId' backupRef hbackup => ?_⟩
  · by_cases hk : ∀ key ∈ s.listed appId, k ≠ buildVaultKey appId key
    · exact h.valid.entries k e (hpurged.kept k hk ▸ he)
    · push Not at hk
      obtain ⟨key, hkey, rfl⟩ := hk
      have hdeleted := hpurged.deleted key hkey
      have he' : entries'.find? (buildVaultKey appId key) = some e := he
      rw [hdeleted] at he'
      cases he'
  · by_cases happ : b.appId = appId
    · obtain rfl := happ
      rw [Function.update_self]
      have hnone : entries'.find? b.vaultKey = none := by
        by_cases hkey : b.userKey ∈ s.listed b.appId
        · exact hpurged.deleted _ hkey
        · rw [hpurged.kept b.vaultKey fun key hkey' heq => hkey (buildVaultKey_inj heq ▸ hkey')]
          rw [← Option.not_isSome_iff_eq_none, h.isSome_entry hb]
          exact fun hsome => hkey (h.listed _ _ hsome)
      rw [hnone]
      exact .none
    · rw [Function.update_of_ne happ, hpurged.kept b.vaultKey]
      · exact h.entries b hb
      · intro key hkey heq
        obtain ⟨a, ha, rfl, rfl⟩ := h.named appId key hkey
        obtain rfl := hinj hb ha heq
        exact happ rfl
  · by_cases happ : appId' = appId
    · obtain rfl := happ
      rw [Function.update_self] at hkey
      cases hkey
    · rw [Function.update_of_ne happ] at hkey
      rw [hlisted', if_neg happ]
      exact h.listed appId' key hkey
  · rw [hlisted'] at hkey
    split_ifs at hkey
    · cases hkey
    · exact h.named appId' key hkey
  · rw [hlisted']
    split_ifs
    · exact List.nodup_nil
    · exact h.nodup appId'
  · rw [hbackups] at hbackup
    exact h.backups appId' backupRef hbackup

end Kept

/-! ## Calls -/

theorem map_metadata {x : Option CredentialVaultEntry} {y : Option Credential}
    (h : Option.Rel (Represents cipher a) x y) : x.map (·.toCredentialMetadata) = y.map (·.metadata) := by
  cases h with
  | some h => exact congrArg some h.metadata
  | none => rfl

variable {shelf : Shelf} {y : Except VaultError VaultResult}

theorem Shelf.after_restore_none
    (h : shelf.backups backupRef = none) : shelf.after (.restore backupRef) y = shelf := by
  simp only [Shelf.after, h]

theorem Shelf.after_restore_some {saved : Option Credential} (h : shelf.backups backupRef = some (key, saved)) :
    shelf.after (.restore backupRef) y = shelf.put key saved := by
  simp only [Shelf.after, h]

variable {request : CredentialStoreRequest}

theorem represents_newEntry (hkey : a.userKey = request.key)
    (now : IsoTime) (iv : String) : Represents cipher a (newEntry cipher a.appId request now iv)
      ⟨(newEntry cipher a.appId request now iv).toCredentialMetadata, request.value⟩ where
  userKey := hkey.symm
  vaultKey := by rw [AppCredentialKey.vaultKey, hkey]; rfl
  metadata := rfl
  value := cipher.decrypt_encrypt iv request.value

theorem describes_newEntry (now : IsoTime) (iv : String) :
    Describes appId request (newEntry cipher appId request now iv).toCredentialMetadata :=
  ⟨rfl, rfl, rfl, rfl, rfl, rfl, rfl, rfl⟩

def Answered (cipher : Cipher) (A : Set AppCredentialKey) (shelves : String → Shelf) (c : VaultCall)
    (y : Except VaultError VaultResult) (t : VaultState) : Prop :=
  (shelves c.appId).Answers c.appId c.request y ∧
    Kept cipher A (Function.update shelves c.appId ((shelves c.appId).after c.request y)) t

/-- **One call.** The call is answered from the shelf of its app, and changes no other. -/
theorem answers_and_keeps (hinj : Set.InjOn AppCredentialKey.vaultKey A) {c : VaultCall} (hover : c.Over A)
    (h : Kept cipher A shelves s) :
    (c.run cipher).Meets vaultAnswers .alone (fun _ => Answered cipher A shelves c) [] s := by
  have hunchanged : Kept cipher A (Function.update shelves c.appId (shelves c.appId)) s := by
    rwa [Function.update_eq_self]
  obtain ⟨appId, request⟩ := c
  cases request with
  | store request =>
    obtain ⟨a, ha, rfl, hkey⟩ := hover request.key rfl
    refine meets_store (fun hrefused paths => ⟨.refused hrefused, hunchanged⟩) fun now iv hvalid => ?_
    refine ⟨.stored (describes_newEntry now iv), ?_⟩
    have hkept := h.putListed hinj ha hvalid (represents_newEntry hkey now iv)
    rwa [hkey] at hkept
  | getMetadata key =>
    obtain ⟨a, ha, rfl, rfl⟩ := hover key rfl
    refine meets_getMetadata h.valid ⟨?_, hunchanged⟩
    rw [show buildVaultKey a.appId a.userKey = a.vaultKey from rfl, map_metadata (h.entries a ha)]
    exact .metadata
  | revoke request =>
    obtain ⟨a, ha, rfl, hkey⟩ := hover request.key rfl
    refine meets_revoke h.valid (fun hnone => ?_) fun e he => ?_
    · have hcredential : (shelves a.appId).credentials request.key = none := by
        rw [← hkey, ← Option.not_isSome_iff_eq_none, ← h.isSome_entry ha, AppCredentialKey.vaultKey, hkey, hnone]
        simp
      refine ⟨.notRevoked hcredential, ?_⟩
      have hkept : Kept cipher A (Function.update shelves a.appId ((shelves a.appId).put request.key
        ((shelves a.appId).credentials request.key))) s := h.put_self
      rwa [hcredential] at hkept
    · have hrel := h.entries a ha
      rw [AppCredentialKey.vaultKey, hkey, he] at hrel
      generalize hcredential : (shelves a.appId).credentials request.key = credential at hrel
      cases hrel with
      | some hrel =>
        have hkept := h.deleteListed hinj ha
        rw [hkey] at hkept
        refine ⟨?_, hkept⟩
        have href : e.credentialRef = _ := congrArg CredentialMetadata.credentialRef hrel.metadata
        rw [href]
        exact .revoked hcredential
  | backup key =>
    obtain ⟨a, ha, rfl, rfl⟩ := hover key rfl
    refine meets_backup h.valid fun now suffix createdAt => ⟨?_, h.putBackup hinj ha now suffix createdAt⟩
    rw [show buildVaultKey a.appId a.userKey = a.vaultKey from rfl, map_metadata (h.entries a ha), h.isSome_entry ha]
    exact .backedUp
  | restore backupRef =>
    refine meets_restore h.valid (fun hnone => ?_) (fun record e hrecord happ he => ?_) fun record hrecord happ he => ?_
    · have hbackup : (shelves appId).backups backupRef = none := by
        rw [← Option.not_isSome_iff_eq_none]
        intro hsome
        obtain ⟨record, hrecord, happ⟩ := h.backups appId backupRef hsome
        exact hnone record hrecord happ
      refine ⟨.notRestored hbackup, ?_⟩
      rwa [Shelf.after_restore_none hbackup]
    · obtain ⟨-, a, ha, happ', hkey, saved, hsaved, hrel⟩ := h.saved backupRef record hrecord
      obtain rfl : a.appId = appId := happ'.trans happ
      rw [he] at hrel
      cases hrel with
      | some hrel =>
        rename_i credential
        refine ⟨?_, ?_⟩
        · rw [hrel.metadata]
          exact .restored hsaved
        · rw [Shelf.after_restore_some hsaved, hrel.userKey]
          exact h.putListed hinj ha (h.valid.backups _ _ _ hrecord he) hrel
    · obtain ⟨-, a, ha, happ', hkey, saved, hsaved, hrel⟩ := h.saved backupRef record hrecord
      obtain rfl : a.appId = appId := happ'.trans happ
      rw [he] at hrel
      cases hrel
      refine ⟨.restored hsaved, ?_⟩
      rw [Shelf.after_restore_some hsaved, ← hkey]
      exact h.deleteListed hinj ha
  | discardBackup backupRef =>
    refine meets_discardBackup (fun hnone => ?_) fun record hrecord happ => ?_
    · have hbackup : (shelves appId).backups backupRef = none := by
        rw [← Option.not_isSome_iff_eq_none]
        intro hsome
        obtain ⟨record, hrecord, happ⟩ := h.backups appId backupRef hsome
        exact hnone record hrecord happ
      refine ⟨?_, h.discard_none hbackup⟩
      have hdiscarded : (shelves appId).Answers appId (.discardBackup backupRef) _ := .discarded
      rwa [hbackup] at hdiscarded
    · obtain rfl := happ
      obtain ⟨-, a, ha, happ', hkey, saved, hsaved, hrel⟩ := h.saved backupRef record hrecord
      refine ⟨?_, h.deleteBackup hrecord⟩
      have hdiscarded : (shelves record.appId).Answers record.appId (.discardBackup backupRef) _ := .discarded
      rw [happ'] at hsaved
      rwa [hsaved] at hdiscarded
  | purgeNamespace =>
    refine meets_purgeNamespace h.valid (h.nodup appId) fun entries' purgedAt hpurged => ⟨?_, h.purge hinj hpurged⟩
    exact .purged ((h.nodup appId).filter _) fun key => h.mem_storedKeys
  | resolveForInjection key =>
    obtain ⟨a, ha, rfl, rfl⟩ := hover key rfl
    have hrel := h.entries a ha
    have hresolved : (shelves a.appId).Answers a.appId (.resolveForInjection a.userKey) _ := .resolved
    generalize hcredential : (shelves a.appId).credentials a.userKey = credential at hrel hresolved
    refine meets_resolveForInjection h.valid (fun hnone => ⟨?_, hunchanged⟩) fun e he => ⟨?_, hunchanged⟩
    · rw [show s.entries.find? a.vaultKey = none from hnone] at hrel
      cases hrel
      exact hresolved
    · rw [show s.entries.find? a.vaultKey = some e from he] at hrel
      cases hrel with
      | some hrel =>
        rw [decrypt, hrel.value, hrel.metadata]
        exact hresolved

theorem answersInTurn_of_inTurn (hinj : Set.InjOn AppCredentialKey.vaultKey A) {calls : List (VaultCall × List VaultEnv)}
    {ys : List (VaultCall × Except VaultError VaultResult)} {s' : VaultState} (hover : ∀ c ∈ calls, c.1.Over A)
    (h : Kept cipher A shelves s) (hrun : inTurn vaultAnswers (VaultCall.run cipher) calls s = some (ys, s')) :
    AnswersInTurn shelves ys := by
  induction calls generalizing shelves s ys with
  | nil =>
    cases hrun
    trivial
  | cons c calls ih =>
    obtain ⟨c, script⟩ := c
    obtain ⟨⟨y, s₁⟩, hcall, hrun⟩ := Option.bind_eq_some_iff.mp hrun
    obtain ⟨⟨ys', s₂⟩, hrest, hrun⟩ := Option.bind_eq_some_iff.mp hrun
    cases hrun
    obtain ⟨hc, hover⟩ := List.forall_mem_cons.mp hover
    obtain ⟨l', hends⟩ := ends_of_alone hcall
    obtain ⟨hanswers, hkept⟩ := (answers_and_keeps hinj hc h).of_alone hends
    exact ⟨hanswers, ih hover hkept hrest⟩

/-! ## Two addresses with one vault key -/

theorem exists_answer (o : VaultOp) (s : VaultState) : ∃ env r s', vaultAnswers o env s = some (r, s') := by
  cases o <;> exact ⟨someEnv, _, _, rfl⟩

theorem answers_getMetadata (h : shelf.Answers appId (.getMetadata key) y) :
    y = .ok (.metadata ((shelf.credentials key).map (·.metadata))) := by
  cases h
  rfl

theorem not_separate (ha : a ∈ A) (hb : b ∈ A) (hne : a ≠ b) (hkey : a.vaultKey = b.vaultKey) :
    ¬Separate cipher A := by
  intro hseparate
  let request : CredentialStoreRequest := ⟨a.userKey, "value", .apiKey, "host", .header, "name", none⟩
  have haccepted : request.Accepted := by
    intro field hfield
    simp only [CredentialStoreRequest.texts, List.mem_cons, List.not_mem_nil, or_false] at hfield
    rcases hfield with rfl | rfl | rfl | rfl
    · exact a.userKey_ne
    all_goals simp [request]
  obtain ⟨script, y, s, hstore⟩ := exists_freely exists_answer (VaultCall.run cipher ⟨a.appId, .store request⟩) .empty
  obtain ⟨l, hends⟩ := ends_of_alone hstore
  have hmeets : (Vault.store cipher a.appId request).Meets vaultAnswers .alone (fun _ y t => ∃ e : CredentialVaultEntry,
      y = .ok (.stored e.credentialRef e.toCredentialMetadata) ∧ e.Valid ∧ e.vaultKey = a.vaultKey ∧
      t = VaultState.empty.putListed a.appId e a.userKey) [] .empty :=
    meets_store (fun hrefused => absurd ⟨a.appId_ne, haccepted⟩ hrefused) fun now iv hvalid => ⟨_, rfl, hvalid, rfl, rfl⟩
  have hstored := hmeets.of_alone hends
  obtain ⟨e, rfl, hvalid, hevault, rfl⟩ := hstored
  obtain ⟨script', y', s', hmetadata⟩ := exists_freely exists_answer
    (VaultCall.run cipher ⟨b.appId, .getMetadata b.userKey⟩) (VaultState.empty.putListed a.appId e a.userKey)
  obtain ⟨l', hends'⟩ := ends_of_alone hmetadata
  have hvalid' := (kept_empty cipher A).valid.putListed hvalid a.appId a.userKey
  have hshown := (meets_getMetadata (P := fun y _ => y = _) hvalid' rfl).of_alone hends'
  have hfound : (VaultState.empty.putListed a.appId e a.userKey).entries.find? b.vaultKey = some e := by
    rw [← hkey, ← hevault]
    exact Collection.find?_put_self _ _
  rw [show buildVaultKey b.appId b.userKey = b.vaultKey from rfl, hfound] at hshown
  have hrun : inTurn vaultAnswers (VaultCall.run cipher)
      [(⟨a.appId, .store request⟩, script), (⟨b.appId, .getMetadata b.userKey⟩, script')] .empty =
      some ([(⟨a.appId, .store request⟩, .ok (.stored e.credentialRef e.toCredentialMetadata)), (⟨b.appId, .getMetadata b.userKey⟩, y')], s') := by
    rw [inTurn, hstore]
    dsimp only [Option.bind_eq_bind, Option.bind_some]
    rw [inTurn, hmetadata]
    rfl
  have hover : ∀ c ∈ [((⟨a.appId, .store request⟩ : VaultCall), script), (⟨b.appId, .getMetadata b.userKey⟩, script')],
      c.1.Over A := by
    intro c hc
    simp only [List.mem_cons, List.not_mem_nil, or_false] at hc
    rcases hc with rfl | rfl
    · rintro key ⟨⟩
      exact ⟨a, ha, rfl, rfl⟩
    · rintro key ⟨⟩
      exact ⟨b, hb, rfl, rfl⟩
  obtain ⟨-, hanswers, -⟩ := hseparate _ _ _ hover hrun
  have hnone := answers_getMetadata hanswers
  have hcredential := credentials_update_put (fun _ => .empty) a.appId a.userKey (some ⟨e.toCredentialMetadata, "value"⟩)
    b.appId b.userKey
  rw [if_neg] at hcredential
  · rw [hshown] at hnone
    have hsome := (VaultResult.metadata.inj (Except.ok.inj hnone)).trans (congrArg (Option.map (·.metadata)) hcredential)
    cases hsome
  · rintro ⟨happ, huser⟩
    obtain ⟨appId, userKey, _, _⟩ := a
    obtain ⟨appId', userKey', _, _⟩ := b
    exact hne (by obtain rfl := happ; obtain rfl := huser; rfl)

/-- **Apps do not mix** exactly when no two of their addresses have one vault key. -/
theorem separate_iff (cipher : Cipher) (A : Set AppCredentialKey) :
    Separate cipher A ↔ Set.InjOn AppCredentialKey.vaultKey A := by
  constructor
  · intro h a ha b hb hkey
    by_contra hne
    exact not_separate ha hb hne hkey h
  · exact fun hinj calls ys s' hover hrun => answersInTurn_of_inTurn hinj hover (kept_empty cipher A) hrun

def crmToken : AppCredentialKey := ⟨"crm", "eu:token", by simp, by simp⟩

def crmEuToken : AppCredentialKey := ⟨"crm:eu", "token", by simp, by simp⟩

theorem crm_not_separate : ¬Separate plainCipher {crmToken, crmEuToken} := by
  refine not_separate (Set.mem_insert _ _) (Set.mem_insert_of_mem _ rfl) ?_ (by decide)
  intro h
  have happ : "crm" = "crm:eu" := congrArg AppCredentialKey.appId h
  simp at happ

end NousCore.Vault
