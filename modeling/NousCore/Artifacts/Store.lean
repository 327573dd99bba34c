import NousCore.Lib.Collection
import NousCore.Lib.Sorting
import NousCore.Lib.System

/-!
# Artifacts and their documents

* `ArtifactCodec`, `encodeArtifactData`, `decodeArtifactData` : content and the bytes that are stored;
* `listVersions`, `nextVersion` : the versions of an artifact of a project, and the one that comes next;
* `store`, `commitPreparedVersion`, `retrieve`, `delete` : the calls.
-/

namespace NousCore.Artifacts

/-! ## Content -/

abbrev Bytes := List UInt8

inductive ArtifactContentEncoding where
  | binary | utf8 | base64
  deriving DecidableEq

inductive ArtifactContent (Text : Type) where
  | bytes (data : Bytes)
  | text (data : Text)
  deriving DecidableEq

/-- What `Buffer` and `createHash` do. -/
structure ArtifactCodec (Text Digest : Type) where
  utf8Bytes : Text → Bytes
  utf8Text : Bytes → Text
  base64Bytes : Text → Bytes
  base64Text : Bytes → Text
  sha256 : Bytes → Digest

section Codec

variable {Text Digest : Type} (codec : ArtifactCodec Text Digest)

/-- The bytes of the content; the payload holds them in base64. -/
def encodeArtifactData : ArtifactContent Text → ArtifactContentEncoding → Bytes
  | .bytes data, _ => data
  | .text data, .base64 => codec.base64Bytes data
  | .text data, _ => codec.utf8Bytes data

def decodeArtifactData (bytes : Bytes) : ArtifactContentEncoding → ArtifactContent Text
  | .binary => .bytes bytes
  | .base64 => .text (codec.base64Text bytes)
  | .utf8 => .text (codec.utf8Text bytes)

def computeIntegrityRef (data : ArtifactContent Text) (contentEncoding : ArtifactContentEncoding) : Digest :=
  codec.sha256 (encodeArtifactData codec data contentEncoding)

end Codec

/-! ## Documents -/

abbrev ProjectId := List Char

abbrev ArtifactId := List Char

structure ArtifactLineage where
  workflowRunId : Option String
  workflowDefinitionId : Option String
  workflowNodeDefinitionId : Option String
  dispatchLineageId : Option String
  checkpointId : Option String
  triggerId : Option String
  evidenceRefs : List String
  deriving DecidableEq

inductive ArtifactWriteState where
  | prepared | committed
  deriving DecidableEq

def manifestDocumentId (artifactId : ArtifactId) (version : Nat) : List Char :=
  artifactId ++ ':' :: 'v' :: Nat.toDigits 10 version

def buildArtifactRef (artifactId : ArtifactId) (version : Nat) : List Char :=
  "artifact://".toList ++ artifactId ++ "/v".toList ++ Nat.toDigits 10 version

structure ArtifactVersionRecord (Digest : Type) where
  artifactId : ArtifactId
  version : Nat
  artifactRef : List Char
  projectId : ProjectId
  name : String
  mimeType : String
  sizeBytes : Nat
  integrityRef : Digest
  writeState : ArtifactWriteState
  lineage : Option ArtifactLineage
  tags : List String
  createdAt : String
  committedAt : Option String
  updatedAt : String

structure ArtifactPayloadDocument where
  artifactId : ArtifactId
  projectId : ProjectId
  version : Nat
  contentEncoding : ArtifactContentEncoding
  data : Bytes

def ArtifactVersionRecord.documentId {Digest : Type} (record : ArtifactVersionRecord Digest) : List Char :=
  manifestDocumentId record.artifactId record.version

def ArtifactPayloadDocument.documentId (payload : ArtifactPayloadDocument) : List Char :=
  manifestDocumentId payload.artifactId payload.version

/-! ## Requests and answers -/

structure ArtifactWriteRequest (Text : Type) where
  projectId : ProjectId
  artifactId : Option ArtifactId := none
  name : String
  mimeType : String
  data : ArtifactContent Text
  contentEncoding : ArtifactContentEncoding := .binary
  tags : List String := []
  lineage : Option ArtifactLineage := none
  deriving DecidableEq

structure ArtifactReadRequest where
  projectId : ProjectId
  artifactId : ArtifactId
  version : Option Nat := none
  deriving DecidableEq

structure ArtifactDeleteRequest where
  projectId : ProjectId
  artifactId : ArtifactId
  version : Option Nat := none
  deriving DecidableEq

structure ArtifactWriteResult (Digest : Type) where
  artifactId : ArtifactId
  version : Nat
  artifactRef : List Char
  integrityRef : Digest
  committed : Bool

structure ArtifactReadResult (Text Digest : Type) where
  manifest : ArtifactVersionRecord Digest
  data : ArtifactContent Text
  contentEncoding : ArtifactContentEncoding

inductive ArtifactError where
  | store
  | zod
  | explicitVersion

section Digest

variable {Digest : Type}

/-- What the schema of a record can still find wrong: an empty name or type, or an id that does not fit a reference. -/
def ArtifactVersionRecord.parse (record : ArtifactVersionRecord Digest) :
    Except ArtifactError (ArtifactVersionRecord Digest) :=
  if record.name = "" ∨ record.mimeType = "" ∨ record.artifactId = [] ∨
      record.artifactId.any (fun c => !(('0' ≤ c ∧ c ≤ '9') ∨ ('a' ≤ c ∧ c ≤ 'f') ∨ c = '-')) = true then .error .zod
  else .ok record

def listVersions (manifests : List (ArtifactVersionRecord Digest)) (projectId : ProjectId) (artifactId : ArtifactId) :
    List (ArtifactVersionRecord Digest) :=
  sortBy (fun left right => decide (left.version ≤ right.version))
    (manifests.filter fun record => decide (record.projectId = projectId ∧ record.artifactId = artifactId))

/-- `Math.max(...versions) + 1`, or the first version. -/
def nextVersion (existing : List (ArtifactVersionRecord Digest)) : Nat :=
  if existing.isEmpty then 1 else (existing.map (·.version)).foldl max 0 + 1

variable {record : ArtifactVersionRecord Digest}

theorem mem_listVersions {manifests : List (ArtifactVersionRecord Digest)} {projectId : ProjectId}
    {artifactId : ArtifactId} :
    record ∈ listVersions manifests projectId artifactId ↔
      record ∈ manifests ∧ record.projectId = projectId ∧ record.artifactId = artifactId := by
  rw [listVersions, mem_sortBy, List.mem_filter, decide_eq_true_eq]

theorem le_foldl_max {l : List Nat} {a : Nat} : ∀ {m : Nat}, a ∈ l ∨ a ≤ m → a ≤ l.foldl max m := by
  induction l with
  | nil =>
    intro m h
    exact h.resolve_left List.not_mem_nil
  | cons b l ih =>
    intro m h
    refine ih ?_
    rcases h with h | h
    · rcases List.mem_cons.mp h with rfl | h
      · exact Or.inr (Nat.le_max_right _ _)
      · exact Or.inl h
    · exact Or.inr (Nat.le_trans h (Nat.le_max_left _ _))

theorem lt_nextVersion {existing : List (ArtifactVersionRecord Digest)}
    (h : record ∈ existing) : record.version < nextVersion existing := by
  unfold nextVersion
  rw [if_neg (by rw [List.isEmpty_iff]; exact List.ne_nil_of_mem h)]
  exact Nat.lt_succ_of_le (le_foldl_max (Or.inl (List.mem_map_of_mem h)))

end Digest

/-! ## Document ids -/

theorem toDigits_inj {m n : Nat} (h : Nat.toDigits 10 m = Nat.toDigits 10 n) : m = n := by
  have hread := congrArg (fun digits => Nat.ofDigitChars 10 digits 0) h
  simpa only [Nat.ofDigitChars_ten_toDigits] using hread

theorem not_mem_toDigits {n : Nat} : ':' ∉ Nat.toDigits 10 n := by
  intro h
  exact absurd (Nat.isDigit_of_mem_toDigits (by decide) (by decide) h) (by decide)

theorem append_colon_inj {a b c d : List Char} (hb : ':' ∉ b) (hd : ':' ∉ d) (h : a ++ ':' :: b = c ++ ':' :: d) :
    a = c ∧ b = d := by
  rcases List.append_eq_append_iff.mp h with ⟨m, hc, hm⟩ | ⟨m, ha, hm⟩
  · cases m with
    | nil => exact ⟨by rw [hc, List.append_nil], (List.cons.inj hm).2⟩
    | cons x m =>
      refine absurd ?_ hb
      rw [(List.cons.inj hm).2]
      simp
  · cases m with
    | nil => exact ⟨by rw [ha, List.append_nil], (List.cons.inj hm).2.symm⟩
    | cons x m =>
      refine absurd ?_ hd
      rw [(List.cons.inj hm).2]
      simp

/-- **Document ids.** Two versions of artifacts have one document id only if they are the same. -/
theorem manifestDocumentId_inj {artifactId artifactId' : ArtifactId} {version version' : Nat}
    (h : manifestDocumentId artifactId version = manifestDocumentId artifactId' version') :
    artifactId = artifactId' ∧ version = version' := by
  have hdigits : ∀ n, ':' ∉ 'v' :: Nat.toDigits 10 n := by
    intro n hmem
    rcases List.mem_cons.mp hmem with h | h
    · exact absurd h (by decide)
    · exact not_mem_toDigits h
  obtain ⟨hid, hversion⟩ := append_colon_inj (hdigits version) (hdigits version') h
  exact ⟨hid, toDigits_inj (List.cons.inj hversion).2⟩


open Async

section Store

variable {Text Digest : Type}

/-! ## The document store -/

/-- The two collections; every document is under its own id. -/
structure ArtifactState (Digest : Type) where
  manifests : Collection (@ArtifactVersionRecord.documentId Digest)
  payloads : Collection ArtifactPayloadDocument.documentId

def ArtifactState.empty : ArtifactState Digest := ⟨.empty, .empty⟩

inductive ArtifactOp (Digest : Type) where
  | randomUUID
  | now
  | queryManifests
  | putManifest (record : ArtifactVersionRecord Digest)
  | putPayload (payload : ArtifactPayloadDocument)
  | getManifest (documentId : List Char)
  | getPayload (documentId : List Char)
  | deleteManifest (documentId : List Char)
  | deletePayload (documentId : List Char)

@[reducible] def ArtifactOp.Answer : ArtifactOp Digest → Type
  | .randomUUID => ArtifactId
  | .now => String
  | .queryManifests => Except ArtifactError (List (ArtifactVersionRecord Digest))
  | .putManifest _ | .putPayload _ => Except ArtifactError Unit
  | .getManifest documentId =>
    Except ArtifactError (Option {record : ArtifactVersionRecord Digest // record.documentId = documentId})
  | .getPayload documentId =>
    Except ArtifactError (Option {payload : ArtifactPayloadDocument // payload.documentId = documentId})
  | .deleteManifest _ | .deletePayload _ => Except ArtifactError Bool

/-- The document store may reject an operation; an id is generated, and the clock is read. -/
structure ArtifactChoice where
  rejects : Bool := false
  uuid : ArtifactId := []
  now : String := ""

def artifactAnswers : Answers (@ArtifactOp.Answer Digest) ArtifactChoice (ArtifactState Digest)
  | .randomUUID, x, s => some (x.uuid, s)
  | .now, x, s => some (x.now, s)
  | .queryManifests, x, s => some (if x.rejects then .error .store else .ok s.manifests.all, s)
  | .putManifest record, x, s =>
    if x.rejects then some (.error .store, s) else some (.ok (), { s with manifests := s.manifests.put record })
  | .putPayload payload, x, s =>
    if x.rejects then some (.error .store, s) else some (.ok (), { s with payloads := s.payloads.put payload })
  | .getManifest documentId, x, s => some (if x.rejects then .error .store else .ok (s.manifests.get documentId), s)
  | .getPayload documentId, x, s => some (if x.rejects then .error .store else .ok (s.payloads.get documentId), s)
  | .deleteManifest documentId, x, s =>
    if x.rejects then some (.error .store, s)
    else some (.ok (s.manifests.find? documentId).isSome, { s with manifests := s.manifests.delete documentId })
  | .deletePayload documentId, x, s =>
    if x.rejects then some (.error .store, s)
    else some (.ok (s.payloads.find? documentId).isSome, { s with payloads := s.payloads.delete documentId })

/-! ## Calls -/

abbrev ArtifactCall (Digest : Type) := Async (@ArtifactOp.Answer Digest) ArtifactError

variable [DecidableEq Digest] (codec : ArtifactCodec Text Digest) (autoCommit : Bool)

def commitPreparedVersion (request : ArtifactReadRequest) :
    ArtifactCall Digest (Option (ArtifactWriteResult Digest)) :=
  match request.version with
  | none => .throw .explicitVersion
  | some version => do
    let answer ← perform (ArtifactOp.getManifest (manifestDocumentId request.artifactId version))
    match ← unwrap answer with
    | none => return none
    | some manifest =>
      if manifest.val.projectId ≠ request.projectId then return none
      else do
        let answer ← perform (ArtifactOp.getPayload (manifestDocumentId request.artifactId version))
        match ← unwrap answer with
        | none => return none
        | some payload =>
          let decoded := decodeArtifactData codec payload.val.data payload.val.contentEncoding
          if computeIntegrityRef codec decoded payload.val.contentEncoding ≠ manifest.val.integrityRef then
            return none
          else do
            let committedAt ← perform ArtifactOp.now
            let committed ← unwrap (ArtifactVersionRecord.parse
              { manifest.val with
                writeState := .committed
                committedAt := some committedAt
                updatedAt := committedAt })
            let answer ← perform (ArtifactOp.putManifest committed)
            unwrap answer
            return some ⟨committed.artifactId, committed.version, committed.artifactRef, committed.integrityRef, true⟩

section

variable (request : ArtifactWriteRequest Text)

def preparedRecord (artifactId : ArtifactId) (version : Nat)
    (timestamp : String) : ArtifactVersionRecord Digest where
  artifactId
  version
  artifactRef := buildArtifactRef artifactId version
  projectId := request.projectId
  name := request.name
  mimeType := request.mimeType
  sizeBytes := (encodeArtifactData codec request.data request.contentEncoding).length
  integrityRef := computeIntegrityRef codec request.data request.contentEncoding
  writeState := .prepared
  lineage := request.lineage
  tags := request.tags
  createdAt := timestamp
  committedAt := none
  updatedAt := timestamp

def payloadDocument (artifactId : ArtifactId) (version : Nat) :
    ArtifactPayloadDocument where
  artifactId
  projectId := request.projectId
  version
  contentEncoding := request.contentEncoding
  data := encodeArtifactData codec request.data request.contentEncoding

def storeAs (artifactId : ArtifactId) :
    ArtifactCall Digest (ArtifactWriteResult Digest) := do
  let answer ← perform ArtifactOp.queryManifests
  let manifests ← unwrap answer
  let version := nextVersion (listVersions manifests request.projectId artifactId)
  let timestamp ← perform ArtifactOp.now
  let prepared ← unwrap (preparedRecord codec request artifactId version timestamp).parse
  let answer ← perform (ArtifactOp.putManifest prepared)
  unwrap answer
  let answer ← perform (ArtifactOp.putPayload (payloadDocument codec request artifactId version))
  unwrap answer
  let uncommitted : ArtifactWriteResult Digest :=
    ⟨artifactId, version, buildArtifactRef artifactId version,
      computeIntegrityRef codec request.data request.contentEncoding, false⟩
  if !autoCommit then return uncommitted
  else do
    let committed ← commitPreparedVersion codec ⟨request.projectId, artifactId, some version⟩
    return committed.getD uncommitted

def store : ArtifactCall Digest (ArtifactWriteResult Digest) :=
  match request.artifactId with
  | some artifactId => storeAs codec autoCommit request artifactId
  | none => do
    let artifactId ← perform ArtifactOp.randomUUID
    storeAs codec autoCommit request artifactId

end

/-- The version that `retrieve` reads: the one that is asked for, or the last that is committed. -/
def selectVersion (manifests : List (ArtifactVersionRecord Digest)) (request : ArtifactReadRequest) :
    Option (ArtifactVersionRecord Digest) :=
  let versions := listVersions manifests request.projectId request.artifactId
  match request.version with
  | some version => versions.find? fun record => decide (record.version = version)
  | none => versions.reverse.find? fun record => decide (record.writeState = .committed)

def retrieve (request : ArtifactReadRequest) : ArtifactCall Digest (Option (ArtifactReadResult Text Digest)) := do
  let answer ← perform ArtifactOp.queryManifests
  let manifests ← unwrap answer
  match selectVersion manifests request with
  | none => return none
  | some selected =>
    if selected.writeState ≠ .committed then return none
    else do
      let answer ← perform (ArtifactOp.getPayload (manifestDocumentId selected.artifactId selected.version))
      match ← unwrap answer with
      | none => return none
      | some payload =>
        if payload.val.projectId ≠ request.projectId then return none
        else
          let data := decodeArtifactData codec payload.val.data payload.val.contentEncoding
          if computeIntegrityRef codec data payload.val.contentEncoding ≠ selected.integrityRef then return none
          else return some ⟨selected, data, payload.val.contentEncoding⟩

/-- The versions that `delete` removes. -/
def selectTargets (manifests : List (ArtifactVersionRecord Digest)) (request : ArtifactDeleteRequest) :
    List (ArtifactVersionRecord Digest) :=
  let versions := listVersions manifests request.projectId request.artifactId
  match request.version with
  | none => versions
  | some version => versions.filter fun record => decide (record.version = version)

def deleteTargets : List (ArtifactVersionRecord Digest) → Bool → ArtifactCall Digest Bool
  | [], deleted => return deleted
  | target :: targets, deleted => do
    let answer ← perform (ArtifactOp.deleteManifest target.documentId)
    let removedManifest ← unwrap answer
    let answer ← perform (ArtifactOp.deletePayload target.documentId)
    let removedPayload ← unwrap answer
    deleteTargets targets (deleted || removedManifest || removedPayload)

def delete (request : ArtifactDeleteRequest) : ArtifactCall Digest Bool := do
  let answer ← perform ArtifactOp.queryManifests
  let manifests ← unwrap answer
  let targets := selectTargets manifests request
  if targets.isEmpty then return false else deleteTargets targets false

/-! ## Calls in progress -/

inductive ArtifactTask (Text : Type) where
  | store (request : ArtifactWriteRequest Text)
  | commitPreparedVersion (request : ArtifactReadRequest)
  | retrieve (request : ArtifactReadRequest)
  | delete (request : ArtifactDeleteRequest)
  deriving DecidableEq

inductive ArtifactReply (Text Digest : Type) where
  | stored (result : ArtifactWriteResult Digest)
  | committed (result : Option (ArtifactWriteResult Digest))
  | retrieved (result : Option (ArtifactReadResult Text Digest))
  | deleted (deleted : Bool)

def ArtifactTask.body : ArtifactTask Text → ArtifactCall Digest (ArtifactReply Text Digest)
  | .store request => .stored <$> Artifacts.store codec autoCommit request
  | .commitPreparedVersion request => .committed <$> Artifacts.commitPreparedVersion codec request
  | .retrieve request => .retrieved <$> Artifacts.retrieve codec request
  | .delete request => .deleted <$> Artifacts.delete request

/-- Calls of one store, on one document store. -/
def artifactSystem : System (ArtifactTask Text) (@ArtifactOp.Answer Digest) ArtifactChoice
    (ArtifactState Digest) ArtifactError (ArtifactReply Text Digest) where
  body := ArtifactTask.body codec autoCommit
  answers := artifactAnswers
  spawned := fun _ => []
  exclusive := fun _ => false

abbrev ArtifactThread (Text Digest : Type) :=
  Thread (ArtifactTask Text) (@ArtifactOp.Answer Digest) ArtifactError (ArtifactReply Text Digest)

abbrev ArtifactConfig (Text Digest : Type) :=
  Config (ArtifactTask Text) (@ArtifactOp.Answer Digest) (ArtifactState Digest) ArtifactError
    (ArtifactReply Text Digest)

end Store

end NousCore.Artifacts
