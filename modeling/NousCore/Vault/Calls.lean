import NousCore.Vault.Service

/-!
# What the calls of the vault do

* `CredentialVaultEntry.Valid`, `StoredValid` : entries that the schema accepts, and vaults that hold no others;
* `meets_store`, …, `meets_purgeNamespace` : one rule for each call, that runs alone.
-/

namespace NousCore.Vault

open Async

/-! ## Schemas -/

def CredentialVaultEntry.Valid (e : CredentialVaultEntry) : Prop := ∀ field ∈ e.texts, field.2 ≠ ""

def CredentialStoreRequest.Accepted (request : CredentialStoreRequest) : Prop := ∀ field ∈ request.texts, field.2 ≠ ""

variable {fields : List (String × String)}

theorem parseTexts_of_ne {α : Type} (record : α) (h : ∀ field ∈ fields, field.2 ≠ "") :
    parseTexts fields record = .ok record := if_pos (emptyFields_eq_nil.mpr h)

theorem parseTexts_eq_ok {α : Type} {record record' : α}
    (h : parseTexts fields record = .ok record') : record' = record ∧ ∀ field ∈ fields, field.2 ≠ "" := by
  unfold parseTexts at h
  split_ifs at h with hfields
  exact ⟨(Except.ok.inj h).symm, emptyFields_eq_nil.mp hfields⟩

theorem parseTexts_eq_error {α : Type} {record : α} {e : VaultError}
    (h : parseTexts fields record = .error e) :
    (∃ paths, e = .invalid paths) ∧ ¬∀ field ∈ fields, field.2 ≠ "" := by
  unfold parseTexts at h
  split_ifs at h with hfields
  exact ⟨⟨_, (Except.error.inj h).symm⟩, fun hne => hfields (emptyFields_eq_nil.mpr hne)⟩

namespace CredentialVaultEntry

variable {e : CredentialVaultEntry}

theorem Valid.parse (h : e.Valid) : e.parse = .ok e := parseTexts_of_ne e h

theorem Valid.toMetadata (h : e.Valid) : Vault.toMetadata e = .ok e.toCredentialMetadata :=
  parseTexts_of_ne _ fun field hfield => h field (List.mem_append_left _ hfield)

end CredentialVaultEntry

theorem length_buildVaultKey (appId key : String) : (buildVaultKey appId key).length = appId.length + 1 + key.length :=
  (String.length_append _ _).trans (congrArg (· + key.length) (String.length_append _ _))

theorem length_credentialRefOf (vaultKey : String) : (credentialRefOf vaultKey).length = 11 + vaultKey.length :=
  String.length_append _ _

variable {request : CredentialStoreRequest}

theorem valid_newEntry {cipher : Cipher} {appId : String} {now : IsoTime} {iv : String}
    (happ : appId ≠ "") (hrequest : request.Accepted) (hiv : iv ≠ "") :
    (newEntry cipher appId request now iv).Valid := by
  have hkey : request.key ≠ "" := hrequest ("key", request.key) (by simp [CredentialStoreRequest.texts])
  have hvalue : request.value ≠ "" := hrequest ("value", request.value) (by simp [CredentialStoreRequest.texts])
  have hhost : request.targetHost ≠ "" := hrequest ("target_host", _) (by simp [CredentialStoreRequest.texts])
  have hinjection : request.injectionKey ≠ "" := hrequest ("injection_key", _) (by simp [CredentialStoreRequest.texts])
  have hvault : buildVaultKey appId request.key ≠ "" := by
    intro h
    have hlength := congrArg String.length h
    simp [length_buildVaultKey] at hlength
  have href : credentialRefOf (buildVaultKey appId request.key) ≠ "" := by
    intro h
    have hlength := congrArg String.length h
    simp [length_credentialRefOf] at hlength
  intro field hfield
  simp only [CredentialVaultEntry.texts, CredentialMetadata.texts, newEntry, List.mem_append, List.mem_cons,
    List.not_mem_nil, or_false] at hfield
  rcases hfield with (rfl | rfl | rfl | rfl | rfl) | rfl | rfl | rfl | rfl
  · exact happ
  · exact hkey
  · exact href
  · exact hhost
  · exact hinjection
  · exact hvault
  · exact cipher.ciphertext_ne _ _ hvalue
  · rw [cipher.iv_encrypt]
    exact hiv
  · exact cipher.authTag_ne _ _

theorem TextOfLength.ne {n : Nat} (text : TextOfLength (n + 1)) : text.val ≠ "" := by
  intro h
  have hlength := text.property
  rw [h] at hlength
  simp at hlength

/-! ## Calls that run alone -/

/-- The vault holds entries only that the schema accepts. -/
structure StoredValid (s : VaultState) : Prop where
  entries : ∀ k e, s.entries.find? k = some e → e.Valid
  backups : ∀ k record e, s.backups.find? k = some record → record.entry = some e → e.Valid

def VaultState.listed (s : VaultState) (appId : String) : List String :=
  ((s.namespaces.find? appId).map (·.keys)).getD []

def VaultState.namespaceRecord (s : VaultState) (appId : String) : CredentialNamespaceRecord :=
  (s.namespaces.find? appId).getD ⟨appId, []⟩

/-! ## Namespace records -/

theorem listed_put (s : VaultState) (record : CredentialNamespaceRecord) (appId : String) :
    VaultState.listed { s with namespaces := s.namespaces.put record } appId =
      if appId = record.appId then record.keys else s.listed appId := by
  unfold VaultState.listed
  rw [Collection.find?_put]
  split_ifs <;> rfl

theorem namespaceRecord_eq (s : VaultState) (appId : String) : s.namespaceRecord appId = ⟨appId, s.listed appId⟩ := by
  unfold VaultState.namespaceRecord VaultState.listed
  cases h : s.namespaces.find? appId with
  | none => rfl
  | some record =>
    obtain rfl : record.appId = appId := s.namespaces.keyed _ _ h
    rfl

theorem mem_add {record : CredentialNamespaceRecord} {key key' : String} :
    key' ∈ (record.add key).keys ↔ key' = key ∨ key' ∈ record.keys := by
  unfold CredentialNamespaceRecord.add
  split_ifs with h
  · exact ⟨Or.inr, fun h' => h'.elim (fun heq => heq ▸ h) id⟩
  · rw [List.mem_append, List.mem_singleton, or_comm]

theorem nodup_add {record : CredentialNamespaceRecord} (h : record.keys.Nodup) (key : String) :
    (record.add key).keys.Nodup := by
  unfold CredentialNamespaceRecord.add
  split_ifs with hkey
  · exact h
  · rw [List.nodup_append]
    refine ⟨h, List.nodup_singleton key, fun k hk k' hk' => ?_⟩
    obtain rfl := List.mem_singleton.mp hk'
    exact fun heq => hkey (heq ▸ hk)

theorem appId_add (record : CredentialNamespaceRecord) (key : String) : (record.add key).appId = record.appId := by
  unfold CredentialNamespaceRecord.add
  split_ifs <;> rfl

/-! ## One operation after the other -/

section Meets

variable {cipher : Cipher} {appId : String} {α : Type} {l : Log VaultOp.Answer} {s : VaultState}
  {P : Except VaultError α → VaultState → Prop}

theorem meets_getEntry (hs : StoredValid s) {vaultKey : String} {f : Option CredentialVaultEntry → VaultM α}
    (h : ∀ l, (f (s.entries.find? vaultKey)).Meets vaultAnswers .alone (fun _ => P) l s) :
    (getEntry vaultKey >>= f).Meets vaultAnswers .alone (fun _ => P) l s := by
  refine meets_alone_call fun env r s' hanswers => ?_
  cases hanswers
  cases he : s.entries.find? vaultKey with
  | none =>
    have h' := h (l ++ [⟨VaultOp.getEntry vaultKey, none⟩])
    rw [he] at h'
    exact h'
  | some e =>
    have h' := h (l ++ [⟨VaultOp.getEntry vaultKey, some e⟩])
    rw [he] at h'
    show ((some <$> unwrap e.parse) >>= f).Meets _ _ _ _ _
    rw [(hs.entries _ _ he).parse]
    exact h'

theorem meets_addNamespaceKey {key : String} {f : Unit → VaultM α}
    (h : ∀ l, (f ()).Meets vaultAnswers .alone (fun _ => P) l
      { s with namespaces := s.namespaces.put ((s.namespaceRecord appId).add key) }) :
    (addNamespaceKey appId key >>= f).Meets vaultAnswers .alone (fun _ => P) l s := by
  refine meets_alone_call fun env r s₁ hanswers => ?_
  cases hanswers
  refine meets_alone_call fun env r s₂ hanswers => ?_
  cases hanswers
  exact h _

theorem meets_removeNamespaceKey {key : String} {f : Unit → VaultM α}
    (h : ∀ l, (f ()).Meets vaultAnswers .alone (fun _ => P) l
      { s with namespaces := s.namespaces.put ⟨appId, (s.namespaceRecord appId).keys.filter (· ≠ key)⟩ }) :
    (removeNamespaceKey appId key >>= f).Meets vaultAnswers .alone (fun _ => P) l s := by
  refine meets_alone_call fun env r s₁ hanswers => ?_
  cases hanswers
  refine meets_alone_call fun env r s₂ hanswers => ?_
  cases hanswers
  exact h _

theorem meets_ite {c : Prop} [Decidable c] {p q : VaultM α} (hp : c → p.Meets vaultAnswers .alone (fun _ => P) l s)
    (hq : ¬c → q.Meets vaultAnswers .alone (fun _ => P) l s) :
    (if c then p else q).Meets vaultAnswers .alone (fun _ => P) l s := by
  split_ifs with h
  · exact hp h
  · exact hq h

end Meets

section Calls

variable {cipher : Cipher} {appId : String} {l : Log VaultOp.Answer} {s : VaultState}
  {P : Except VaultError VaultResult → VaultState → Prop}

def VaultState.putListed (s : VaultState) (appId : String) (entry : CredentialVaultEntry) (key : String) : VaultState :=
  { s with
    entries := s.entries.put entry
    namespaces := s.namespaces.put ((s.namespaceRecord appId).add key) }

def VaultState.deleteListed (s : VaultState) (appId key : String) : VaultState :=
  { s with
    entries := s.entries.delete (buildVaultKey appId key)
    namespaces := s.namespaces.put ⟨appId, (s.namespaceRecord appId).keys.filter (· ≠ key)⟩ }

theorem meets_store (hrefused : ¬(appId ≠ "" ∧ request.Accepted) → ∀ paths, P (.error (.invalid paths)) s)
    (hstored : ∀ now iv, (newEntry cipher appId request now iv).Valid →
      P (.ok (.stored (newEntry cipher appId request now iv).credentialRef
        (newEntry cipher appId request now iv).toCredentialMetadata))
        (s.putListed appId (newEntry cipher appId request now iv) request.key)) :
    (store cipher appId request).Meets vaultAnswers .alone (fun _ => P) l s := by
  refine meets_alone_call fun env now s₁ hanswers => ?_
  cases hanswers
  refine meets_alone_call fun env' iv s₁ hanswers => ?_
  cases hanswers
  show (unwrap (newEntry cipher appId request env.now.val env'.iv.val).parse >>= _).Meets _ _ _ _ _
  rw [meets_bind, meets_unwrap]
  cases hparse : (newEntry cipher appId request env.now.val env'.iv.val).parse with
  | error e =>
    obtain ⟨⟨paths, rfl⟩, hempty⟩ := parseTexts_eq_error hparse
    exact hrefused (fun h => hempty (valid_newEntry h.1 h.2 (TextOfLength.ne _))) paths
  | ok entry =>
    obtain ⟨rfl, hvalid⟩ := parseTexts_eq_ok hparse
    refine meets_alone_call fun env'' r s₁ hanswers => ?_
    cases hanswers
    refine meets_addNamespaceKey fun l => ?_
    rw [CredentialVaultEntry.Valid.toMetadata hvalid]
    exact hstored _ _ hvalid

variable {key : String}

theorem meets_getMetadata (hs : StoredValid s)
    (h : P (.ok (.metadata ((s.entries.find? (buildVaultKey appId key)).map (·.toCredentialMetadata)))) s) :
    (getMetadata appId key).Meets vaultAnswers .alone (fun _ => P) l s := by
  refine meets_getEntry hs fun l => ?_
  cases he : s.entries.find? (buildVaultKey appId key) with
  | none =>
    rw [he] at h
    exact h
  | some e =>
    rw [he] at h
    dsimp only
    rw [(hs.entries _ _ he).toMetadata]
    exact h

theorem meets_revoke (hs : StoredValid s) {request : CredentialRevokeRequest}
    (hnone : s.entries.find? (buildVaultKey appId request.key) = none →
      P (parseRevokeResult false none (some (request.reason.getD "credential_not_found"))) s)
    (hsome : ∀ e, s.entries.find? (buildVaultKey appId request.key) = some e →
      P (parseRevokeResult true (some e.credentialRef) request.reason) (s.deleteListed appId request.key)) :
    (revoke appId request).Meets vaultAnswers .alone (fun _ => P) l s := by
  refine meets_getEntry hs fun l => ?_
  cases he : s.entries.find? (buildVaultKey appId request.key) with
  | none => exact (meets_unwrap _).mpr (hnone he)
  | some e =>
    refine meets_alone_call fun env r s₁ hanswers => ?_
    cases hanswers
    refine meets_removeNamespaceKey fun l => ?_
    exact (meets_unwrap _).mpr (hsome e he)

theorem meets_backup (hs : StoredValid s)
    (h : ∀ (now : Timestamp) (suffix : TextOfLength 8) createdAt,
      P (.ok (.backedUp (backupRefOf appId key now.val.text suffix.val)
        (s.entries.find? (buildVaultKey appId key)).isSome
        ((s.entries.find? (buildVaultKey appId key)).map (·.toCredentialMetadata))))
        { s with backups := s.backups.put ⟨backupRefOf appId key now.val.text suffix.val, appId, key,
          s.entries.find? (buildVaultKey appId key), createdAt⟩ }) :
    (backup appId key).Meets vaultAnswers .alone (fun _ => P) l s := by
  refine meets_alone_call fun env now s₁ hanswers => ?_
  cases hanswers
  refine meets_alone_call fun env' suffix s₁ hanswers => ?_
  cases hanswers
  refine meets_getEntry hs fun l => ?_
  refine meets_alone_call fun env'' createdAt s₁ hanswers => ?_
  cases hanswers
  refine meets_alone_call fun env''' r s₂ hanswers => ?_
  cases hanswers
  have h' := h env.now env'.hex env''.now.val
  cases he : s.entries.find? (buildVaultKey appId key) with
  | none =>
    rw [he] at h'
    exact h'
  | some e =>
    rw [he] at h'
    dsimp only
    rw [(hs.entries _ _ he).toMetadata]
    exact h'

theorem meets_restore (hs : StoredValid s) {backupRef : String}
    (hnone : (∀ record, s.backups.find? backupRef = some record → record.appId ≠ appId) →
      P (.ok (.restored false none)) s)
    (hput : ∀ record e, s.backups.find? backupRef = some record → record.appId = appId → record.entry = some e →
      P (.ok (.restored true (some e.toCredentialMetadata))) (s.putListed appId e e.userKey))
    (hdelete : ∀ record, s.backups.find? backupRef = some record → record.appId = appId → record.entry = none →
      P (.ok (.restored true none)) (s.deleteListed appId record.userKey)) :
    (restore appId backupRef).Meets vaultAnswers .alone (fun _ => P) l s := by
  refine meets_alone_call fun env r s₁ hanswers => ?_
  cases hanswers
  cases hrecord : s.backups.find? backupRef with
  | none => exact hnone fun record h => by rw [hrecord] at h; cases h
  | some record =>
    refine meets_ite (fun happ => ?_) fun happ => ?_
    · refine hnone fun record' h => ?_
      obtain rfl : record = record' := by rw [hrecord] at h; exact Option.some.inj h
      exact happ
    · have happ' : record.appId = appId := not_not.mp happ
      unfold restoreBackup
      split
      · rename_i e he
        refine meets_alone_call fun env r s₁ hanswers => ?_
        cases hanswers
        refine meets_addNamespaceKey fun l => ?_
        rw [(hs.backups _ _ _ hrecord he).toMetadata]
        exact hput record e hrecord happ' he
      · rename_i he
        refine meets_alone_call fun env r s₁ hanswers => ?_
        cases hanswers
        refine meets_removeNamespaceKey fun l => ?_
        exact hdelete record hrecord happ' he

theorem meets_discardBackup {backupRef : String}
    (hnone : (∀ record, s.backups.find? backupRef = some record → record.appId ≠ appId) →
      P (.ok (.discarded false)) s)
    (hsome : ∀ record, s.backups.find? backupRef = some record → record.appId = appId →
      P (.ok (.discarded true)) { s with backups := s.backups.delete backupRef }) :
    (discardBackup appId backupRef).Meets vaultAnswers .alone (fun _ => P) l s := by
  refine meets_alone_call fun env r s₁ hanswers => ?_
  cases hanswers
  cases hrecord : s.backups.find? backupRef with
  | none => exact hnone fun record h => by rw [hrecord] at h; cases h
  | some record =>
    refine meets_ite (fun happ => ?_) fun happ => ?_
    · refine hnone fun record' h => ?_
      obtain rfl : record = record' := by rw [hrecord] at h; exact Option.some.inj h
      exact happ
    · refine meets_alone_call fun env r s₁ hanswers => ?_
      cases hanswers
      exact hsome record hrecord (not_not.mp happ)

theorem meets_resolveForInjection (hs : StoredValid s)
    (hnone : s.entries.find? (buildVaultKey appId key) = none → P (.ok (.resolved none)) s)
    (hsome : ∀ e, s.entries.find? (buildVaultKey appId key) = some e →
      P ((decrypt cipher e).map fun value => .resolved (some (e.toCredentialMetadata, value))) s) :
    (resolveForInjection cipher appId key).Meets vaultAnswers .alone (fun _ => P) l s := by
  refine meets_getEntry hs fun l => ?_
  cases he : s.entries.find? (buildVaultKey appId key) with
  | none => exact hnone he
  | some e =>
    have h := hsome e he
    dsimp only
    rw [(hs.entries _ _ he).toMetadata]
    rw [meets_bind, meets_unwrap]
    cases hvalue : decrypt cipher e <;> rw [hvalue] at h <;> exact h

end Calls

/-! ## The purge -/

theorem buildVaultKey_inj {appId key key' : String} (h : buildVaultKey appId key = buildVaultKey appId key') :
    key = key' := by
  rw [← String.toList_inj] at h ⊢
  have hlists : (buildVaultKey appId key).toList = (appId ++ ":").toList ++ key.toList := String.toList_append
  have hlists' : (buildVaultKey appId key').toList = (appId ++ ":").toList ++ key'.toList := String.toList_append
  rw [hlists, hlists'] at h
  exact List.append_cancel_left h

/-- Of the entries, those under no key of the list are left. -/
structure Purged (appId : String) (keys : List String)
    (entries entries' : Collection CredentialVaultEntry.vaultKey) : Prop where
  deleted : ∀ key ∈ keys, entries'.find? (buildVaultKey appId key) = none
  kept : ∀ k, (∀ key ∈ keys, k ≠ buildVaultKey appId key) → entries'.find? k = entries.find? k

def storedKeys (appId : String) (entries : Collection CredentialVaultEntry.vaultKey) (keys : List String) : List String :=
  keys.filter fun key => (entries.find? (buildVaultKey appId key)).isSome

theorem StoredValid.delete {s : VaultState} (hs : StoredValid s) (k : String) :
    StoredValid { s with entries := s.entries.delete k } where
  entries := fun j e he => by
    rw [Collection.find?_delete] at he
    split_ifs at he
    exact hs.entries j e he
  backups := hs.backups

theorem storedKeys_delete {appId key : String} {keys : List String} (h : key ∉ keys)
    (entries : Collection CredentialVaultEntry.vaultKey) :
    storedKeys appId (entries.delete (buildVaultKey appId key)) keys = storedKeys appId entries keys := by
  refine List.filter_congr fun key' hkey' => ?_
  rw [Collection.find?_delete, if_neg]
  intro heq
  exact h (buildVaultKey_inj heq ▸ hkey')

/-- **The loop of a purge** deletes the entries of the keys, and counts them. -/
theorem meets_purgeKeys {appId : String} {α : Type} {P : Except VaultError α → VaultState → Prop}
    {keys : List String} (hnodup : keys.Nodup) {n : Nat} {f : Nat → VaultM α} {l : Log VaultOp.Answer} {s : VaultState}
    (hs : StoredValid s)
    (h : ∀ l entries', Purged appId keys s.entries entries' →
      (f (n + (storedKeys appId s.entries keys).length)).Meets vaultAnswers .alone (fun _ => P) l
        { s with entries := entries' }) :
    (purgeKeys appId keys n >>= f).Meets vaultAnswers .alone (fun _ => P) l s := by
  induction keys generalizing n l s with
  | nil => exact h l s.entries ⟨by simp, fun _ _ => rfl⟩
  | cons key keys ih =>
    obtain ⟨hkey, hnodup⟩ := List.nodup_cons.mp hnodup
    have hother : ∀ key' ∈ keys, buildVaultKey appId key ≠ buildVaultKey appId key' := by
      intro key' hkey' heq
      obtain rfl := buildVaultKey_inj heq
      exact hkey hkey'
    unfold purgeKeys
    rw [bind_assoc']
    refine meets_getEntry hs fun l => ?_
    cases he : s.entries.find? (buildVaultKey appId key) with
    | none =>
      refine ih hnodup hs fun l entries' hpurged => ?_
      have hstored : storedKeys appId s.entries (key :: keys) = storedKeys appId s.entries keys := by
        unfold storedKeys
        rw [List.filter_cons_of_neg (by simp [he])]
      rw [hstored] at h
      refine h l entries' ⟨List.forall_mem_cons.mpr ⟨?_, hpurged.deleted⟩, fun k hk => ?_⟩
      · rw [hpurged.kept _ hother, he]
      · exact hpurged.kept k fun key' hkey' => hk key' (List.mem_cons_of_mem _ hkey')
    | some e =>
      refine meets_alone_call fun env r s₁ hanswers => ?_
      cases hanswers
      refine ih hnodup (hs.delete _) fun l entries' hpurged => ?_
      have hstored : storedKeys appId s.entries (key :: keys) = key :: storedKeys appId s.entries keys := by
        unfold storedKeys
        rw [List.filter_cons_of_pos (by simp [he])]
      rw [storedKeys_delete hkey]
      rw [hstored, List.length_cons, ← Nat.add_assoc, Nat.add_right_comm] at h
      refine h l entries' ⟨List.forall_mem_cons.mpr ⟨?_, hpurged.deleted⟩, fun k hk => ?_⟩
      · rw [hpurged.kept _ hother, Collection.find?_delete, if_pos rfl]
      · rw [hpurged.kept k fun key' hkey' => hk key' (List.mem_cons_of_mem _ hkey'), Collection.find?_delete,
          if_neg (hk key List.mem_cons_self)]

theorem meets_purgeNamespace {appId : String} {P : Except VaultError VaultResult → VaultState → Prop}
    {l : Log VaultOp.Answer} {s : VaultState} (hs : StoredValid s) (hnodup : (s.listed appId).Nodup)
    (h : ∀ entries' purgedAt, Purged appId (s.listed appId) s.entries entries' →
      P (.ok (.purged appId (storedKeys appId s.entries (s.listed appId)).length purgedAt))
        { s with entries := entries', namespaces := s.namespaces.put ⟨appId, []⟩ }) :
    (purgeNamespace appId).Meets vaultAnswers .alone (fun _ => P) l s := by
  refine meets_alone_call fun env r s₁ hanswers => ?_
  cases hanswers
  have hkeys : ((s.namespaces.find? appId).getD ⟨appId, []⟩).keys = s.listed appId := by
    unfold VaultState.listed
    cases s.namespaces.find? appId <;> rfl
  show (purgeKeys appId ((s.namespaces.find? appId).getD ⟨appId, []⟩).keys 0 >>= _).Meets _ _ _ _ _
  rw [hkeys]
  refine meets_purgeKeys hnodup hs fun l entries' hpurged => ?_
  refine meets_alone_call fun env r s₁ hanswers => ?_
  cases hanswers
  refine meets_alone_call fun env r s₁ hanswers => ?_
  cases hanswers
  rw [Nat.zero_add]
  exact h entries' _ hpurged

end NousCore.Vault
