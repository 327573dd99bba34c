import NousCore.Lib.Async
import NousCore.Lib.Calendar
import NousCore.Lib.Collection
import NousCore.Lib.Json

/-!
# Credentials of apps, and the vault service

* `CredentialVaultEntry.parse`, `CredentialMetadata.parse` : what the schemas check.

The calls of `CredentialVaultService`, each asking for one operation of the stores after the other:

* `store`, `getMetadata`, `revoke`, `backup`, `restore`, `discardBackup`, `purgeNamespace`, `resolveForInjection`;
* `VaultCall.run` : the call of a request.
-/

namespace NousCore.Vault

inductive CredentialType where
  | apiKey
  | bearerToken
  | basicAuth
  | oauth2
  | custom
  deriving DecidableEq

inductive CredentialInjectionLocation where
  | header
  | query
  | body
  deriving DecidableEq

structure CredentialMetadata where
  appId : String
  userKey : String
  credentialRef : String
  credentialType : CredentialType
  targetHost : String
  injectionLocation : CredentialInjectionLocation
  injectionKey : String
  expiresAt : Option IsoTime
  createdAt : IsoTime
  updatedAt : IsoTime
  deriving DecidableEq

structure CredentialVaultEntry extends CredentialMetadata where
  vaultKey : String
  encryptedValue : String
  iv : String
  authTag : String
  deriving DecidableEq

structure CredentialStoreRequest where
  key : String
  value : String
  credentialType : CredentialType
  targetHost : String
  injectionLocation : CredentialInjectionLocation
  injectionKey : String
  expiresAt : Option IsoTime

structure CredentialRevokeRequest where
  key : String
  reason : Option String

/-! ## Schemas -/

inductive VaultError where
  /-- The fields of a record that must not be empty and are. -/
  | invalid (paths : List String)
  /-- The value of an entry does not come from the cipher. -/
  | unauthenticated

/-- A record whose texts must not be empty. -/
def parseTexts {α : Type} (fields : List (String × String)) (record : α) : Except VaultError α :=
  if emptyFields fields = [] then .ok record else .error (.invalid (emptyFields fields))

def CredentialMetadata.texts (m : CredentialMetadata) : List (String × String) :=
  [("app_id", m.appId), ("user_key", m.userKey), ("credential_ref", m.credentialRef), ("target_host", m.targetHost),
    ("injection_key", m.injectionKey)]

def CredentialVaultEntry.texts (e : CredentialVaultEntry) : List (String × String) :=
  e.toCredentialMetadata.texts ++ [("vault_key", e.vaultKey), ("encrypted_value", e.encryptedValue), ("iv", e.iv),
    ("auth_tag", e.authTag)]

def CredentialMetadata.parse (m : CredentialMetadata) : Except VaultError CredentialMetadata := parseTexts m.texts m

def CredentialVaultEntry.parse (e : CredentialVaultEntry) : Except VaultError CredentialVaultEntry :=
  parseTexts e.texts e

def CredentialStoreRequest.texts (request : CredentialStoreRequest) : List (String × String) :=
  [("key", request.key), ("value", request.value), ("target_host", request.targetHost),
    ("injection_key", request.injectionKey)]

/-! ## Encryption -/

structure Encrypted where
  ciphertext : String
  iv : String
  authTag : String

/-- Authenticated encryption under the key of the vault, with the texts in base64. -/
structure Cipher where
  encrypt (iv value : String) : Encrypted
  decrypt (sealed : Encrypted) : Option String
  decrypt_encrypt : ∀ iv value, decrypt (encrypt iv value) = some value
  iv_encrypt : ∀ iv value, (encrypt iv value).iv = iv
  ciphertext_ne : ∀ iv value, value ≠ "" → (encrypt iv value).ciphertext ≠ ""
  authTag_ne : ∀ iv value, (encrypt iv value).authTag ≠ ""

/-- A cipher that leaves the value as it is. -/
def plainCipher : Cipher where
  encrypt iv value := ⟨value, iv, "tag"⟩
  decrypt sealed := some sealed.ciphertext
  decrypt_encrypt := fun _ _ => rfl
  iv_encrypt := fun _ _ => rfl
  ciphertext_ne := fun _ _ h => h
  authTag_ne := fun _ _ => by simp

def CredentialVaultEntry.encrypted (e : CredentialVaultEntry) : Encrypted := ⟨e.encryptedValue, e.iv, e.authTag⟩

/-! ## Stores -/

structure CredentialNamespaceRecord where
  appId : String
  keys : List String

structure CredentialBackupRecord where
  backupRef : String
  appId : String
  userKey : String
  entry : Option CredentialVaultEntry
  createdAt : IsoTime

structure VaultState where
  entries : Collection CredentialVaultEntry.vaultKey
  namespaces : Collection CredentialNamespaceRecord.appId
  backups : Collection CredentialBackupRecord.backupRef

def VaultState.empty : VaultState := ⟨.empty, .empty, .empty⟩

/-- A text of a given length: four random bytes in hexadecimal, twelve in base64, a time of the clock. -/
abbrev TextOfLength (n : Nat) := { text : String // text.length = n }

abbrev Timestamp := { time : IsoTime // time.text.length = 24 }

inductive VaultOp where
  | now
  | randomHex
  | randomIv
  | putEntry (entry : CredentialVaultEntry)
  | getEntry (vaultKey : String)
  | deleteEntry (vaultKey : String)
  | getNamespace (appId : String)
  | putNamespace (record : CredentialNamespaceRecord)
  | putBackup (record : CredentialBackupRecord)
  | getBackup (backupRef : String)
  | deleteBackup (backupRef : String)

@[reducible] def VaultOp.Answer : VaultOp → Type
  | .now => Timestamp
  | .randomHex => TextOfLength 8
  | .randomIv => TextOfLength 16
  | .getEntry _ => Option CredentialVaultEntry
  | .getNamespace _ => Option CredentialNamespaceRecord
  | .getBackup _ => Option CredentialBackupRecord
  | _ => Unit

structure VaultEnv where
  now : Timestamp
  hex : TextOfLength 8
  iv : TextOfLength 16

def someEnv : VaultEnv := ⟨⟨toISOString 0, by decide⟩, ⟨"00000000", by decide⟩, ⟨"AAAAAAAAAAAAAAAA", by decide⟩⟩

def vaultAnswers : Answers VaultOp.Answer VaultEnv VaultState
  | .now, env, s => some (env.now, s)
  | .randomHex, env, s => some (env.hex, s)
  | .randomIv, env, s => some (env.iv, s)
  | .putEntry entry, _, s => some ((), { s with entries := s.entries.put entry })
  | .getEntry vaultKey, _, s => some (s.entries.find? vaultKey, s)
  | .deleteEntry vaultKey, _, s => some ((), { s with entries := s.entries.delete vaultKey })
  | .getNamespace appId, _, s => some (s.namespaces.find? appId, s)
  | .putNamespace record, _, s => some ((), { s with namespaces := s.namespaces.put record })
  | .putBackup record, _, s => some ((), { s with backups := s.backups.put record })
  | .getBackup backupRef, _, s => some (s.backups.find? backupRef, s)
  | .deleteBackup backupRef, _, s => some ((), { s with backups := s.backups.delete backupRef })


/-! ## The vault service -/

open Async

abbrev VaultM (α : Type) := Async VaultOp.Answer VaultError α

inductive VaultResult where
  | stored (credentialRef : String) (metadata : CredentialMetadata)
  | metadata (metadata : Option CredentialMetadata)
  | revoked (revoked : Bool) (credentialRef reason : Option String)
  | backedUp (backupRef : String) (existed : Bool) (metadata : Option CredentialMetadata)
  | restored (restored : Bool) (metadata : Option CredentialMetadata)
  | discarded (discarded : Bool)
  | purged (appId : String) (purgedCount : Nat) (purgedAt : IsoTime)
  | resolved (credential : Option (CredentialMetadata × String))

def buildVaultKey (appId key : String) : String := s!"{appId}:{key}"

def credentialRefOf (vaultKey : String) : String := s!"credential:{vaultKey}"

def backupRefOf (appId key now suffix : String) : String := s!"backup:{appId}:{key}:{now}:{suffix}"

def toMetadata (entry : CredentialVaultEntry) : Except VaultError CredentialMetadata :=
  entry.toCredentialMetadata.parse

/-! ## Stores -/

def getEntry (vaultKey : String) : VaultM (Option CredentialVaultEntry) := do
  match ← perform (VaultOp.getEntry vaultKey) with
  | some entry => some <$> unwrap entry.parse
  | none => pure none

def getNamespace (appId : String) : VaultM CredentialNamespaceRecord := do
  let record ← perform (VaultOp.getNamespace appId)
  pure (record.getD ⟨appId, []⟩)

def CredentialNamespaceRecord.add (record : CredentialNamespaceRecord) (key : String) : CredentialNamespaceRecord :=
  if key ∈ record.keys then record else { record with keys := record.keys ++ [key] }

def addNamespaceKey (appId key : String) : VaultM Unit := do
  let record ← getNamespace appId
  perform (VaultOp.putNamespace (record.add key))

def removeNamespaceKey (appId key : String) : VaultM Unit := do
  let record ← getNamespace appId
  perform (VaultOp.putNamespace ⟨appId, record.keys.filter (· ≠ key)⟩)

/-! ## Calls -/

def newEntry (cipher : Cipher) (appId : String) (request : CredentialStoreRequest) (now : IsoTime) (iv : String) :
    CredentialVaultEntry :=
  let vaultKey := buildVaultKey appId request.key
  let encrypted := cipher.encrypt iv request.value
  { appId := appId
    userKey := request.key
    credentialRef := credentialRefOf vaultKey
    credentialType := request.credentialType
    targetHost := request.targetHost
    injectionLocation := request.injectionLocation
    injectionKey := request.injectionKey
    expiresAt := request.expiresAt
    createdAt := now
    updatedAt := now
    vaultKey := vaultKey
    encryptedValue := encrypted.ciphertext
    iv := encrypted.iv
    authTag := encrypted.authTag }

def store (cipher : Cipher) (appId : String) (request : CredentialStoreRequest) : VaultM VaultResult := do
  let now ← perform VaultOp.now
  let iv ← perform VaultOp.randomIv
  let entry ← unwrap (newEntry cipher appId request now.val iv.val).parse
  perform (VaultOp.putEntry entry)
  addNamespaceKey appId request.key
  let metadata ← unwrap (toMetadata entry)
  pure (.stored entry.credentialRef metadata)

def getMetadata (appId key : String) : VaultM VaultResult := do
  match ← getEntry (buildVaultKey appId key) with
  | some entry => (.metadata ∘ some) <$> unwrap (toMetadata entry)
  | none => pure (.metadata none)

/-- A reason, where there is one, must not be empty. -/
def parseRevokeResult (revoked : Bool) (credentialRef reason : Option String) : Except VaultError VaultResult :=
  parseTexts (reason.toList.map fun text => ("reason", text)) (.revoked revoked credentialRef reason)

def revoke (appId : String) (request : CredentialRevokeRequest) : VaultM VaultResult := do
  let vaultKey := buildVaultKey appId request.key
  match ← getEntry vaultKey with
  | none => unwrap (parseRevokeResult false none (some (request.reason.getD "credential_not_found")))
  | some entry =>
    perform (VaultOp.deleteEntry vaultKey)
    removeNamespaceKey appId request.key
    unwrap (parseRevokeResult true (some entry.credentialRef) request.reason)

def backup (appId key : String) : VaultM VaultResult := do
  let now ← perform VaultOp.now
  let suffix ← perform VaultOp.randomHex
  let backupRef := backupRefOf appId key now.val.text suffix.val
  let entry ← getEntry (buildVaultKey appId key)
  let createdAt ← perform VaultOp.now
  perform (VaultOp.putBackup ⟨backupRef, appId, key, entry, createdAt.val⟩)
  match entry with
  | some entry => (.backedUp backupRef true ∘ some) <$> unwrap (toMetadata entry)
  | none => pure (.backedUp backupRef false none)

def restoreBackup (appId : String) (backup : CredentialBackupRecord) : VaultM VaultResult :=
  match backup.entry with
  | some entry => do
    perform (VaultOp.putEntry entry)
    addNamespaceKey appId entry.userKey
    (.restored true ∘ some) <$> unwrap (toMetadata entry)
  | none => do
    perform (VaultOp.deleteEntry (buildVaultKey appId backup.userKey))
    removeNamespaceKey appId backup.userKey
    pure (.restored true none)

def restore (appId backupRef : String) : VaultM VaultResult := do
  match ← perform (VaultOp.getBackup backupRef) with
  | none => pure (.restored false none)
  | some backup => if backup.appId ≠ appId then pure (.restored false none) else restoreBackup appId backup

def discardBackup (appId backupRef : String) : VaultM VaultResult := do
  match ← perform (VaultOp.getBackup backupRef) with
  | none => pure (.discarded false)
  | some backup =>
    if backup.appId ≠ appId then pure (.discarded false)
    else do
      perform (VaultOp.deleteBackup backupRef)
      pure (.discarded true)

/-- The entries of the listed keys, deleted one after the other and counted. -/
def purgeKeys (appId : String) : List String → Nat → VaultM Nat
  | [], purgedCount => pure purgedCount
  | key :: keys, purgedCount => do
    match ← getEntry (buildVaultKey appId key) with
    | none => purgeKeys appId keys purgedCount
    | some _ =>
      perform (VaultOp.deleteEntry (buildVaultKey appId key))
      purgeKeys appId keys (purgedCount + 1)

def purgeNamespace (appId : String) : VaultM VaultResult := do
  let record ← getNamespace appId
  let purgedCount ← purgeKeys appId record.keys 0
  perform (VaultOp.putNamespace ⟨appId, []⟩)
  let purgedAt ← perform VaultOp.now
  pure (.purged appId purgedCount purgedAt.val)

def decrypt (cipher : Cipher) (entry : CredentialVaultEntry) : Except VaultError String :=
  match cipher.decrypt entry.encrypted with
  | some value => .ok value
  | none => .error .unauthenticated

def resolveForInjection (cipher : Cipher) (appId key : String) : VaultM VaultResult := do
  match ← getEntry (buildVaultKey appId key) with
  | none => pure (.resolved none)
  | some entry => do
    let metadata ← unwrap (toMetadata entry)
    let secretValue ← unwrap (decrypt cipher entry)
    pure (.resolved (some (metadata, secretValue)))

inductive VaultRequest where
  | store (request : CredentialStoreRequest)
  | getMetadata (key : String)
  | revoke (request : CredentialRevokeRequest)
  | backup (key : String)
  | restore (backupRef : String)
  | discardBackup (backupRef : String)
  | purgeNamespace
  | resolveForInjection (key : String)

structure VaultCall where
  appId : String
  request : VaultRequest

def VaultCall.run (cipher : Cipher) (call : VaultCall) : VaultM VaultResult :=
  match call.request with
  | .store request => Vault.store cipher call.appId request
  | .getMetadata key => Vault.getMetadata call.appId key
  | .revoke request => Vault.revoke call.appId request
  | .backup key => Vault.backup call.appId key
  | .restore backupRef => Vault.restore call.appId backupRef
  | .discardBackup backupRef => Vault.discardBackup call.appId backupRef
  | .purgeNamespace => Vault.purgeNamespace call.appId
  | .resolveForInjection key => Vault.resolveForInjection cipher call.appId key

end NousCore.Vault
