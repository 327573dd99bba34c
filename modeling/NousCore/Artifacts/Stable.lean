import NousCore.Artifacts.Store
import NousCore.Lib.Follows

/-!
# References to artifacts are stable

* `took`, `hasPut` : the version that a store call has read off, and whether its manifest is written;
* `VersionKept` : a store call reads off a version only where the highest one taken is still stored, and what it
  stores is what decoding gives back;
* `Authored` : every document is that of a store call, `held_of_run` : the invariant.
-/

namespace NousCore.Artifacts

open Async NousCore.System

section

variable {Text Digest : Type}

/-! ## What a store call has done -/

/-- The artifact and the version that a store call has read off. -/
def took (request : ArtifactWriteRequest Text) : Log (@ArtifactOp.Answer Digest) → Option (ArtifactId × Nat)
  | ⟨.queryManifests, .ok manifests⟩ :: _ =>
    request.artifactId.map fun id => (id, nextVersion (listVersions manifests request.projectId id))
  | ⟨.randomUUID, id⟩ :: ⟨.queryManifests, .ok manifests⟩ :: _ =>
    if request.artifactId.isNone then some (id, nextVersion (listVersions manifests request.projectId id)) else none
  | _ => none

/-- The artifact whose versions a store call asks for next. -/
def asksFor (request : ArtifactWriteRequest Text) (log : Log (@ArtifactOp.Answer Digest)) : Option ArtifactId :=
  match request.artifactId, log with
  | some id, [] => some id
  | none, [⟨.randomUUID, id⟩] => some id
  | _, _ => none

def isPut : Sigma (@ArtifactOp.Answer Digest) → Bool
  | ⟨.putManifest _, .ok _⟩ => true
  | _ => false

def hasPut (log : Log (@ArtifactOp.Answer Digest)) : Bool := log.any isPut

def taken (th : ArtifactThread Text Digest) : Option (ProjectId × ArtifactId × Nat) :=
  match th.task with
  | .store request => (took request th.log).map fun k => (request.projectId, k)
  | _ => none

/-- A call that was rejected before it wrote a manifest. -/
def isDead (th : ArtifactThread Text Digest) : Bool :=
  (match th.program with
    | .throw _ => true
    | _ => false) && !hasPut th.log

/-! ## Stable references -/

/-- **References are stable and private.** -/
structure StableReferences (c : ArtifactConfig Text Digest) : Prop where
  distinct : ∀ (i j : Nat) (th th' : ArtifactThread Text Digest) request request' result result', i ≠ j →
    c.threads[i]? = some th → c.threads[j]? = some th' → th.task = .store request → th'.task = .store request' →
      th.program.outcome = some (.ok (.stored result)) → th'.program.outcome = some (.ok (.stored result')) →
        request.projectId = request'.projectId → result.artifactId = result'.artifactId →
          result.version ≠ result'.version
  exact : ∀ th ∈ c.threads, ∀ th' ∈ c.threads, ∀ request request' result found, th.task = .store request →
    th'.task = .retrieve request' → th.program.outcome = some (.ok (.stored result)) →
      th'.program.outcome = some (.ok (.retrieved (some found))) → request'.projectId = request.projectId →
        request'.artifactId = result.artifactId → request'.version = some result.version → found.data = request.data

/-! ## The condition -/

/-- What is stored is read back, unless the check of its integrity refuses it. -/
def ReadsBack (codec : ArtifactCodec Text Digest) (request : ArtifactWriteRequest Text) : Prop :=
  let decoded := decodeArtifactData codec (encodeArtifactData codec request.data request.contentEncoding)
    request.contentEncoding
  computeIntegrityRef codec decoded request.contentEncoding =
    computeIntegrityRef codec request.data request.contentEncoding → decoded = request.data

/-- The project and the artifact whose versions the call reads off next. -/
def asksNext (th : ArtifactThread Text Digest) : Option (ProjectId × ArtifactId) :=
  match th.task, th.program with
  | .store request, .call .queryManifests _ => (asksFor request th.log).map fun id => (request.projectId, id)
  | _, _ => none

/-- The version that the call has taken of the artifact is not above the highest one stored. -/
def Covered (manifests : List (ArtifactVersionRecord Digest)) (projectId : ProjectId) (artifactId : ArtifactId)
    (th : ArtifactThread Text Digest) : Prop :=
  ∀ k ∈ taken th, k.1 = projectId → k.2.1 = artifactId → isDead th = true ∨
    ∃ stored ∈ manifests, stored.projectId = projectId ∧ stored.artifactId = artifactId ∧ k.2.2 ≤ stored.version

def VersionKept (codec : ArtifactCodec Text Digest) (c : ArtifactConfig Text Digest) :
    Label (ArtifactTask Text) ArtifactChoice → Prop
  | .begin (.store request) => ReadsBack codec request
  | .begin _ => True
  | .turn i x => x.rejects = false → ∀ th ∈ c.threads[i]?, ∀ k ∈ asksNext th, ∀ other ∈ c.threads,
    Covered c.state.manifests.all k.1 k.2 other

/-! ## Authors -/

/-- A store call that took the version and wrote its manifest, of a request that meets `Q`. -/
def Authored (c : ArtifactConfig Text Digest) (projectId : ProjectId) (artifactId : ArtifactId) (version : Nat)
    (Q : ArtifactWriteRequest Text → Prop) : Prop :=
  ∃ th ∈ c.threads, ∃ request, th.task = .store request ∧ request.projectId = projectId ∧
    took request th.log = some (artifactId, version) ∧ hasPut th.log = true ∧ Q request

def AuthoredManifest (codec : ArtifactCodec Text Digest) (c : ArtifactConfig Text Digest)
    (manifest : ArtifactVersionRecord Digest) : Prop :=
  Authored c manifest.projectId manifest.artifactId manifest.version fun request =>
    manifest.integrityRef = computeIntegrityRef codec request.data request.contentEncoding

def AuthoredPayload (codec : ArtifactCodec Text Digest) (c : ArtifactConfig Text Digest)
    (payload : ArtifactPayloadDocument) : Prop :=
  Authored c payload.projectId payload.artifactId payload.version fun request =>
    payload.data = encodeArtifactData codec request.data request.contentEncoding ∧
      payload.contentEncoding = request.contentEncoding

def ReadsAuthored (codec : ArtifactCodec Text Digest) (c : ArtifactConfig Text Digest) :
    Sigma (@ArtifactOp.Answer Digest) → Prop
  | ⟨.queryManifests, .ok manifests⟩ => ∀ manifest ∈ manifests, AuthoredManifest codec c manifest
  | ⟨.getManifest _, .ok (some manifest)⟩ => AuthoredManifest codec c manifest.val
  | ⟨.getPayload _, .ok (some payload)⟩ => AuthoredPayload codec c payload.val
  | _ => True

theorem took_of_isPrefix {request : ArtifactWriteRequest Text} {log log' : Log (@ArtifactOp.Answer Digest)}
    {k : ArtifactId × Nat} (hlog : log <+: log') (h : took request log = some k) : took request log' = some k := by
  obtain ⟨rest, rfl⟩ := hlog
  unfold took at h ⊢
  split at h
  · exact h
  · exact h
  · cases h

theorem hasPut_of_isPrefix {log log' : Log (@ArtifactOp.Answer Digest)} (hlog : log <+: log')
    (h : hasPut log = true) : hasPut log' = true := by
  obtain ⟨rest, rfl⟩ := hlog
  unfold hasPut at h ⊢
  rw [List.any_append, h, Bool.true_or]

theorem took_cons_cons (request : ArtifactWriteRequest Text) (e e' : Sigma (@ArtifactOp.Answer Digest))
    (log : Log (@ArtifactOp.Answer Digest)) : took request (e :: e' :: log) = took request [e, e'] := by
  obtain ⟨o, r⟩ := e
  obtain ⟨o', r'⟩ := e'
  cases o with
  | queryManifests => cases r <;> rfl
  | randomUUID =>
    cases o' with
    | queryManifests => cases r' <;> rfl
    | _ => rfl
  | _ => rfl

theorem took_append {request : ArtifactWriteRequest Text} {log : Log (@ArtifactOp.Answer Digest)}
    {e : Sigma (@ArtifactOp.Answer Digest)} {k : ArtifactId × Nat} (h : took request (log ++ [e]) = some k) :
    took request log = some k ∨ ∃ manifests, e = ⟨.queryManifests, .ok manifests⟩ ∧ asksFor request log = some k.1 ∧
      k.2 = nextVersion (listVersions manifests request.projectId k.1) := by
  obtain ⟨o, r⟩ := e
  cases log with
  | nil =>
    cases o with
    | queryManifests =>
      cases r with
      | error e => cases h
      | ok manifests =>
        obtain ⟨id, hid, rfl⟩ := Option.map_eq_some_iff.mp h
        exact Or.inr ⟨manifests, rfl, by simp [asksFor, hid], rfl⟩
    | _ => cases h
  | cons e₁ rest =>
    cases rest with
    | cons e₂ rest =>
      left
      rw [List.cons_append, List.cons_append, took_cons_cons] at h
      rw [took_cons_cons]
      exact h
    | nil =>
      obtain ⟨o₁, r₁⟩ := e₁
      cases o₁ with
      | queryManifests =>
        cases r₁ with
        | error e => cases h
        | ok manifests => exact Or.inl h
      | randomUUID =>
        cases o with
        | queryManifests =>
          cases r with
          | error e => cases h
          | ok manifests =>
            simp only [List.cons_append, List.nil_append, took] at h
            split_ifs at h with hnone
            cases h
            rw [Option.isNone_iff_eq_none] at hnone
            exact Or.inr ⟨manifests, rfl, by simp [asksFor, hnone], rfl⟩
        | _ => cases h
      | _ => cases h

end

/-! ## What the calls ask for -/

section Follows

variable {Text Digest : Type} [DecidableEq Digest] (codec : ArtifactCodec Text Digest) {autoCommit : Bool}

/-- What a call may ask for after a log: a version is read off once, manifests and payloads are those of the version, and
a commit keeps the version, the project and the integrity of the manifest that it has read. -/
def Next (task : ArtifactTask Text) (log : Log (@ArtifactOp.Answer Digest)) : ArtifactOp Digest → Prop
  | .queryManifests => ∀ request, task = .store request → ∃ id, asksFor request log = some id
  | .putManifest record =>
    (∃ request timestamp, task = .store request ∧ took request log = some (record.artifactId, record.version) ∧
      record = preparedRecord codec request record.artifactId record.version timestamp) ∨
    ∃ id manifest, ⟨.getManifest id, .ok (some manifest)⟩ ∈ log ∧ record.artifactId = manifest.val.artifactId ∧
      record.version = manifest.val.version ∧ record.projectId = manifest.val.projectId ∧
      record.integrityRef = manifest.val.integrityRef
  | .putPayload payload => ∃ request, task = .store request ∧
    took request log = some (payload.artifactId, payload.version) ∧ hasPut log = true ∧
    payload = payloadDocument codec request payload.artifactId payload.version
  | _ => True

/-- What is in the log of a call that has returned. -/
def Replies (task : ArtifactTask Text) (log : Log (@ArtifactOp.Answer Digest)) :
    Except ArtifactError (ArtifactReply Text Digest) → Prop
  | .ok (.stored result) => ∀ request, task = .store request →
    took request log = some (result.artifactId, result.version) ∧ hasPut log = true
  | .ok (.retrieved (some found)) => ∀ request, task = .retrieve request → ∃ manifests id payload,
    ⟨.queryManifests, .ok manifests⟩ ∈ log ∧ selectVersion manifests request = some found.manifest ∧
    ⟨.getPayload id, .ok (some payload)⟩ ∈ log ∧
    id = manifestDocumentId found.manifest.artifactId found.manifest.version ∧
    payload.val.projectId = request.projectId ∧
    found.data = decodeArtifactData codec payload.val.data payload.val.contentEncoding ∧
    computeIntegrityRef codec found.data payload.val.contentEncoding = found.manifest.integrityRef
  | _ => True

omit [DecidableEq Digest] in
theorem record_of_parse {record record' : ArtifactVersionRecord Digest} (h : record.parse = .ok record') :
    record' = record := by
  unfold ArtifactVersionRecord.parse at h
  split_ifs at h
  exact (Except.ok.inj h).symm

/-- A commit, as a part of a call: it writes back what it has read, and answers for the version asked for. -/
theorem follows_commit {task : ArtifactTask Text} {request : ArtifactReadRequest}
    {log : Log (@ArtifactOp.Answer Digest)}
    {post : Log (@ArtifactOp.Answer Digest) → Except ArtifactError (Option (ArtifactWriteResult Digest)) → Prop}
    (hpost : ∀ log' y, log <+: log' → (∀ result, y = .ok (some result) → ∃ version,
      request.version = some version ∧ result.artifactId = request.artifactId ∧ result.version = version) →
        post log' y) :
    (commitPreparedVersion codec request).Follows (Next codec task) post log := by
  unfold commitPreparedVersion
  cases hversion : request.version with
  | none => exact hpost _ _ (List.prefix_refl _) (by simp)
  | some version =>
    refine ⟨trivial, fun answer => ?_⟩
    cases answer with
    | error e => exact hpost _ _ (List.prefix_append _ _) (by simp)
    | ok manifest =>
      cases manifest with
      | none => exact hpost _ _ (List.prefix_append _ _) (by simp)
      | some manifest =>
        show Follows (Next codec task) post (ite _ _ _) _
        split_ifs with hproject
        · exact hpost _ _ (List.prefix_append _ _) (by simp)
        refine ⟨trivial, fun answer => ?_⟩
        cases answer with
        | error e => exact hpost _ _ (by simp [List.append_assoc]) (by simp)
        | ok payload =>
          cases payload with
          | none => exact hpost _ _ (by simp [List.append_assoc]) (by simp)
          | some payload =>
            show Follows (Next codec task) post (ite _ _ _) _
            split_ifs with hintegrity
            · exact hpost _ _ (by simp [List.append_assoc]) (by simp)
            refine ⟨trivial, fun committedAt => ?_⟩
            show Follows (Next codec task) post (unwrap (ArtifactVersionRecord.parse _) >>= _) _
            cases hparse : ArtifactVersionRecord.parse { manifest.val with
                writeState := .committed
                committedAt := some committedAt
                updatedAt := committedAt } with
            | error e => exact hpost _ _ (by simp [List.append_assoc]) (by simp)
            | ok committed =>
              obtain rfl := record_of_parse hparse
              obtain ⟨hid, hversion'⟩ := manifestDocumentId_inj manifest.property
              refine ⟨Or.inr ⟨_, manifest, by simp, rfl, rfl, rfl, rfl⟩, fun answer => ?_⟩
              cases answer with
              | error e => exact hpost _ _ (by simp [List.append_assoc]) (by simp)
              | ok _ =>
                refine hpost _ _ (by simp [List.append_assoc]) fun result h => ?_
                cases h
                exact ⟨version, hversion, hid, hversion'⟩

theorem follows_storeAs {request : ArtifactWriteRequest Text} {artifactId : ArtifactId}
    {log : Log (@ArtifactOp.Answer Digest)} (hasks : asksFor request log = some artifactId)
    (htook : ∀ manifests, took request (log ++ [⟨.queryManifests, .ok manifests⟩]) =
      some (artifactId, nextVersion (listVersions manifests request.projectId artifactId))) :
    (storeAs codec autoCommit request artifactId).Follows (Next codec (.store request))
      (fun log y => Replies codec (.store request) log (y.map .stored)) log := by
  refine ⟨fun request' h => ?_, fun answer => ?_⟩
  · obtain rfl := ArtifactTask.store.inj h
    exact ⟨artifactId, hasks⟩
  cases answer with
  | error e => trivial
  | ok manifests =>
    have hversion := htook manifests
    set version := nextVersion (listVersions manifests request.projectId artifactId) with hdef
    refine ⟨trivial, fun timestamp => ?_⟩
    show Follows (Next codec (.store request)) _ (unwrap (ArtifactVersionRecord.parse _) >>= _) _
    cases hparse : ArtifactVersionRecord.parse (preparedRecord codec request artifactId version timestamp) with
    | error e => trivial
    | ok prepared =>
      obtain rfl := record_of_parse hparse
      have hgrown : ∀ {log'}, log ++ [⟨.queryManifests, .ok manifests⟩] <+: log' →
          took request log' = some (artifactId, version) := fun h => took_of_isPrefix h hversion
      refine ⟨Or.inl ⟨request, timestamp, rfl, hgrown (List.prefix_append _ _), rfl⟩, fun answer => ?_⟩
      cases answer with
      | error e => trivial
      | ok _ =>
        refine ⟨⟨request, rfl, hgrown (by simp [List.append_assoc]), by simp [hasPut, isPut], rfl⟩, fun answer => ?_⟩
        cases answer with
        | error e => trivial
        | ok _ =>
          -- whatever comes after, the version is taken and its manifest is written
          have hreplies : ∀ {log' : Log (@ArtifactOp.Answer Digest)} (result : ArtifactWriteResult Digest),
              log ++ [⟨.queryManifests, .ok manifests⟩, ⟨.now, timestamp⟩,
                ⟨.putManifest (preparedRecord codec request artifactId version timestamp), .ok ()⟩] <+: log' →
              result.artifactId = artifactId → result.version = version →
              Replies codec (.store request) log' (.ok (.stored result)) := by
            intro log' result hlog hid hresult request' h
            obtain rfl := ArtifactTask.store.inj h
            rw [hid, hresult]
            exact ⟨hgrown (List.IsPrefix.trans (by simp) hlog),
              hasPut_of_isPrefix hlog (by simp [hasPut, isPut])⟩
          show Follows (Next codec (.store request)) _ (ite _ _ _) _
          split_ifs
          · exact hreplies _ (by simp [List.append_assoc]) rfl rfl
          · rw [follows_bind]
            refine follows_commit codec fun log' y hlog hy => ?_
            have hprefix : log ++ [⟨.queryManifests, .ok manifests⟩, ⟨.now, timestamp⟩,
                ⟨.putManifest (preparedRecord codec request artifactId version timestamp), .ok ()⟩] <+: log' :=
              List.IsPrefix.trans (by simp [List.append_assoc]) hlog
            cases y with
            | error e => trivial
            | ok committed =>
              cases committed with
              | none => exact hreplies _ hprefix rfl rfl
              | some result =>
                obtain ⟨version', hversion', hid, hresult⟩ := hy result rfl
                cases hversion'
                exact hreplies _ hprefix hid hresult

theorem follows_store (request : ArtifactWriteRequest Text) :
    (store codec autoCommit request).Follows (Next codec (.store request))
      (fun log y => Replies codec (.store request) log (y.map .stored)) [] := by
  unfold store
  cases hid : request.artifactId with
  | some artifactId =>
    exact follows_storeAs codec (by simp [asksFor, hid]) fun manifests => by simp [took, hid]
  | none =>
    refine ⟨trivial, fun artifactId => ?_⟩
    exact follows_storeAs codec (by simp [asksFor, hid]) fun manifests => by simp [took, hid]

theorem follows_retrieve (request : ArtifactReadRequest) :
    (retrieve codec request).Follows (Next codec (.retrieve request))
      (fun log y => Replies codec (.retrieve request) log (y.map .retrieved)) [] := by
  refine ⟨(by rintro request' h; cases h), fun answer => ?_⟩
  cases answer with
  | error e => trivial
  | ok manifests =>
    dsimp only [Async.bind, unwrap, bind]
    cases hselected : selectVersion manifests request with
    | none => trivial
    | some selected =>
      show Follows (Next codec (.retrieve request)) _ (ite _ _ _) _
      split_ifs
      · trivial
      refine ⟨trivial, fun answer => ?_⟩
      cases answer with
      | error e => trivial
      | ok payload =>
        cases payload with
        | none => trivial
        | some payload =>
          show Follows (Next codec (.retrieve request)) _ (ite _ _ _) _
          split_ifs with hproject hintegrity
          · trivial
          · trivial
          · intro request' h
            obtain rfl := ArtifactTask.retrieve.inj h
            exact ⟨manifests, _, payload, by simp, hselected, by simp, rfl, not_not.mp hproject, rfl,
              not_not.mp hintegrity⟩

omit [DecidableEq Digest] in
theorem follows_deleteTargets {request : ArtifactDeleteRequest} :
    ∀ (targets : List (ArtifactVersionRecord Digest)) (deleted : Bool) (log : Log (@ArtifactOp.Answer Digest)),
      (deleteTargets targets deleted).Follows (Next codec (.delete request))
        (fun log y => Replies codec (.delete request) log (y.map .deleted)) log
  | [], deleted, log => trivial
  | target :: targets, deleted, log => by
    refine ⟨trivial, fun answer => ?_⟩
    cases answer with
    | error e => trivial
    | ok removedManifest =>
      refine ⟨trivial, fun answer => ?_⟩
      cases answer with
      | error e => trivial
      | ok removedPayload => exact follows_deleteTargets targets _ _

omit [DecidableEq Digest] in
theorem follows_delete (request : ArtifactDeleteRequest) :
    (delete request).Follows (Next codec (.delete request))
      (fun log y => Replies codec (.delete request) log (y.map .deleted)) [] := by
  refine ⟨(by rintro request' h; cases h), fun answer => ?_⟩
  cases answer with
  | error e => trivial
  | ok manifests =>
    show Follows (Next codec (.delete request)) _ (ite _ _ _) _
    split_ifs
    · trivial
    · exact follows_deleteTargets codec _ _ _

theorem follows_body (task : ArtifactTask Text) :
    (task.body codec autoCommit).Follows (Next codec task) (Replies codec task) [] := by
  cases task with
  | store request => exact follows_map.mpr (follows_store codec request)
  | commitPreparedVersion request =>
    refine follows_map.mpr (follows_commit codec fun log' y _ _ => ?_)
    cases y <;> trivial
  | retrieve request => exact follows_map.mpr (follows_retrieve codec request)
  | delete request => exact follows_map.mpr (follows_delete codec request)

end Follows

/-! ## The invariant -/

section Invariant

variable {Text Digest : Type} [DecidableEq Digest] {codec : ArtifactCodec Text Digest} {autoCommit : Bool}
  {c c' : ArtifactConfig Text Digest} {s s' : ArtifactState Digest} {x : ArtifactChoice} {o : ArtifactOp Digest}
  {r : o.Answer}

/-- Every document and every read has an author, and no two calls that are not dead have taken the same version. -/
structure Held (codec : ArtifactCodec Text Digest) (c : ArtifactConfig Text Digest) : Prop where
  follows : ∀ th ∈ c.threads, th.program.Follows (Next codec th.task) (Replies codec th.task) th.log
  admitted : ∀ th ∈ c.threads, ∀ request, th.task = .store request → ReadsBack codec request
  manifests : ∀ manifest ∈ c.state.manifests.all, AuthoredManifest codec c manifest
  payloads : ∀ payload ∈ c.state.payloads.all, AuthoredPayload codec c payload
  reads : ∀ th ∈ c.threads, ∀ e ∈ th.log, ReadsAuthored codec c e
  distinct : ∀ (i j : Nat) (th th' : ArtifactThread Text Digest), i ≠ j → c.threads[i]? = some th →
    c.threads[j]? = some th' → isDead th = false → isDead th' = false → ∀ k, taken th = some k → taken th' ≠ some k

omit [DecidableEq Digest] in
theorem manifests_of_answers (h : artifactAnswers o x s = some (r, s')) {manifest : ArtifactVersionRecord Digest}
    (hmem : manifest ∈ s'.manifests.all) :
    manifest ∈ s.manifests.all ∨ (⟨o, r⟩ : Sigma (@ArtifactOp.Answer Digest)) = ⟨.putManifest manifest, .ok ()⟩ := by
  cases o with
  | putManifest record =>
    simp only [artifactAnswers] at h
    split_ifs at h
    · cases h
      exact Or.inl hmem
    · cases h
      exact (Collection.mem_all_of_put hmem).imp_right (by rintro rfl; rfl)
  | deleteManifest documentId =>
    simp only [artifactAnswers] at h
    split_ifs at h
    · cases h
      exact Or.inl hmem
    · cases h
      exact Or.inl (Collection.mem_all_of_delete hmem)
  | putPayload | deletePayload =>
    simp only [artifactAnswers] at h
    split_ifs at h <;> obtain ⟨-, rfl⟩ := Prod.mk.inj (Option.some.inj h) <;> exact Or.inl hmem
  | _ =>
    cases h
    exact Or.inl hmem

omit [DecidableEq Digest] in
theorem payloads_of_answers (h : artifactAnswers o x s = some (r, s')) {payload : ArtifactPayloadDocument}
    (hmem : payload ∈ s'.payloads.all) :
    payload ∈ s.payloads.all ∨ (⟨o, r⟩ : Sigma (@ArtifactOp.Answer Digest)) = ⟨.putPayload payload, .ok ()⟩ := by
  cases o with
  | putPayload document =>
    simp only [artifactAnswers] at h
    split_ifs at h
    · cases h
      exact Or.inl hmem
    · cases h
      exact (Collection.mem_all_of_put hmem).imp_right (by rintro rfl; rfl)
  | deletePayload documentId =>
    simp only [artifactAnswers] at h
    split_ifs at h
    · cases h
      exact Or.inl hmem
    · cases h
      exact Or.inl (Collection.mem_all_of_delete hmem)
  | putManifest | deleteManifest =>
    simp only [artifactAnswers] at h
    split_ifs at h <;> obtain ⟨-, rfl⟩ := Prod.mk.inj (Option.some.inj h) <;> exact Or.inl hmem
  | _ =>
    cases h
    exact Or.inl hmem

omit [DecidableEq Digest] in
theorem readsAuthored_of_answers (h : artifactAnswers o x c.state = some (r, s'))
    (hmanifests : ∀ manifest ∈ c.state.manifests.all, AuthoredManifest codec c manifest)
    (hpayloads : ∀ payload ∈ c.state.payloads.all, AuthoredPayload codec c payload) :
    ReadsAuthored codec c ⟨o, r⟩ := by
  cases o with
  | queryManifests =>
    cases h
    split_ifs
    · trivial
    · exact hmanifests
  | getManifest documentId =>
    cases h
    split_ifs
    · trivial
    · cases hget : c.state.manifests.get documentId with
      | none => trivial
      | some manifest =>
        have hfind := Collection.find?_of_get hget
        exact hmanifests manifest.val (Collection.mem_all.mpr (manifest.property.symm ▸ hfind))
  | getPayload documentId =>
    cases h
    split_ifs
    · trivial
    · cases hget : c.state.payloads.get documentId with
      | none => trivial
      | some payload =>
        have hfind := Collection.find?_of_get hget
        exact hpayloads payload.val (Collection.mem_all.mpr (payload.property.symm ▸ hfind))
  | _ => trivial

theorem Authored.step {l : Label (ArtifactTask Text) ArtifactChoice} {projectId : ProjectId} {artifactId : ArtifactId}
    {version : Nat} {Q : ArtifactWriteRequest Text → Prop}
    (hstepped : (artifactSystem codec autoCommit).Stepped c l c') (h : Authored c projectId artifactId version Q) :
    Authored c' projectId artifactId version Q := by
  obtain ⟨th, hth, request, htask, hproject, htook, hput, hQ⟩ := h
  obtain ⟨i, hget⟩ := List.mem_iff_getElem?.mp hth
  obtain ⟨th', hget', htask', hlog⟩ := hstepped.log hget
  exact ⟨th', List.mem_of_getElem? hget', request, htask'.trans htask, hproject, took_of_isPrefix hlog htook,
    hasPut_of_isPrefix hlog hput, hQ⟩

theorem ReadsAuthored.step {l : Label (ArtifactTask Text) ArtifactChoice} {e : Sigma (@ArtifactOp.Answer Digest)}
    (hstepped : (artifactSystem codec autoCommit).Stepped c l c') (h : ReadsAuthored codec c e) :
    ReadsAuthored codec c' e := by
  obtain ⟨o, r⟩ := e
  cases o with
  | queryManifests =>
    cases r with
    | error e => trivial
    | ok manifests => exact fun manifest hmem => Authored.step hstepped (h manifest hmem)
  | getManifest documentId =>
    match r, h with
    | .error _, _ => trivial
    | .ok none, _ => trivial
    | .ok (some manifest), h => exact Authored.step hstepped h
  | getPayload documentId =>
    match r, h with
    | .error _, _ => trivial
    | .ok none, _ => trivial
    | .ok (some payload), h => exact Authored.step hstepped h
  | _ => trivial

variable {th : ArtifactThread Text Digest}

omit [DecidableEq Digest] in
theorem isDead_eq_false (h : hasPut th.log = true) : isDead th = false := by
  unfold isDead
  rw [h, Bool.not_true, Bool.and_false]

omit [DecidableEq Digest] in
theorem taken_eq {request : ArtifactWriteRequest Text} {k : ArtifactId × Nat}
    (htask : th.task = .store request) (h : took request th.log = some k) :
    taken th = some (request.projectId, k) := by
  unfold taken
  rw [htask]
  simp only [h, Option.map_some]

variable {i : Nat}

/-- A version that a step takes is above all versions that the other calls have taken of the artifact. -/
theorem Held.fresh {l : Label (ArtifactTask Text) ArtifactChoice} (hkept : VersionKept codec c l)
    (hstepped : (artifactSystem codec autoCommit).Stepped c l c')
    (hget : c'.threads[i]? = some th) (hdead : isDead th = false) {k : ProjectId × ArtifactId × Nat}
    (htaken : taken th = some k) :
    (∃ th₀, c.threads[i]? = some th₀ ∧ isDead th₀ = false ∧ taken th₀ = some k) ∨
      (∃ x, l = .turn i x) ∧ ∀ other ∈ c.threads, isDead other = false → taken other ≠ some k := by
  obtain hold | ⟨hnew, -⟩ | ⟨x, o, next, r, log, rfl, hold, hanswers, hturned⟩ := hstepped.threads hget
  · exact Or.inl ⟨th, hold, hdead, htaken⟩
  · rw [hnew] at htaken
    unfold taken at htaken
    split at htaken <;> cases htaken
  have hlog : th.log = log ++ [⟨o, r⟩] := congrArg Thread.log hturned
  unfold taken at htaken
  split at htaken
  swap
  · cases htaken
  rename_i request htask
  obtain ⟨k, htook, rfl⟩ := Option.map_eq_some_iff.mp htaken
  rw [hlog] at htook
  rcases took_append htook with hbefore | ⟨manifests, he, hasks, hversion⟩
  · refine Or.inl ⟨_, hold, rfl, ?_⟩
    unfold taken
    rw [htask]
    simp only [hbefore, Option.map_some]
  right
  cases he
  obtain ⟨hmanifests, -⟩ := Prod.mk.inj (Option.some.inj hanswers)
  split_ifs at hmanifests with hrejects
  cases hmanifests
  refine ⟨⟨x, rfl⟩, fun other hother hlive hsame => ?_⟩
  have hnext : asksNext (⟨th.task, .call .queryManifests next, log⟩ : ArtifactThread Text Digest) =
      some (request.projectId, k.1) := by
    unfold asksNext
    rw [htask]
    simp only [hasks, Option.map_some]
  rcases hkept (Bool.eq_false_iff.mpr hrejects) _ hold _ hnext other hother _ hsame rfl rfl with hdied | hstored
  · rw [hlive] at hdied
    cases hdied
  · obtain ⟨stored, hmem, hproject, hartifact, hle⟩ := hstored
    have hlt : stored.version < nextVersion (listVersions c.state.manifests.all request.projectId k.1) :=
      lt_nextVersion (mem_listVersions.mpr ⟨hmem, hproject, hartifact⟩)
    rw [← hversion] at hlt
    exact absurd hle (Nat.not_le.mpr hlt)

/-- The manifest that a call writes has an author: the call itself, or the author of the one that it commits. -/
theorem Held.authoredManifest {x : ArtifactChoice} {task : ArtifactTask Text}
    {log : Log (@ArtifactOp.Answer Digest)} {manifest : ArtifactVersionRecord Digest}
    {next : Except ArtifactError Unit → ArtifactCall Digest (ArtifactReply Text Digest)} (h : Held codec c)
    (hstepped : (artifactSystem codec autoCommit).Stepped c (.turn i x) c')
    (hold : c.threads[i]? = some ⟨task, .call (.putManifest manifest) next, log⟩)
    (hnew : (⟨task, next (.ok ()), log ++ [⟨.putManifest manifest, .ok ()⟩]⟩ : ArtifactThread Text Digest) ∈ c'.threads) :
    AuthoredManifest codec c' manifest := by
  have hmem := List.mem_of_getElem? hold
  obtain ⟨hnext, -⟩ := h.follows _ hmem
  rcases hnext with ⟨request, timestamp, htask, htook, hrecord⟩ | ⟨id, read, hread, hid, hversion, hproject, hintegrity⟩
  · refine ⟨_, hnew, request, htask, by rw [hrecord]; rfl, took_of_isPrefix (List.prefix_append _ _) htook,
      by simp [hasPut, isPut], by rw [hrecord]; rfl⟩
  · have hauthored : AuthoredManifest codec c read.val := h.reads _ hmem _ hread
    unfold AuthoredManifest at hauthored ⊢
    rw [hid, hversion, hproject, hintegrity]
    exact hauthored.step hstepped

omit [DecidableEq Digest] in
theorem Held.authoredPayload {task : ArtifactTask Text}
    {log : Log (@ArtifactOp.Answer Digest)} {payload : ArtifactPayloadDocument}
    {next : Except ArtifactError Unit → ArtifactCall Digest (ArtifactReply Text Digest)} (h : Held codec c)
    (hold : c.threads[i]? = some ⟨task, .call (.putPayload payload) next, log⟩)
    (hnew : (⟨task, next (.ok ()), log ++ [⟨.putPayload payload, .ok ()⟩]⟩ : ArtifactThread Text Digest) ∈ c'.threads) :
    AuthoredPayload codec c' payload := by
  obtain ⟨⟨request, htask, htook, hput, hpayload⟩, -⟩ := h.follows _ (List.mem_of_getElem? hold)
  exact ⟨_, hnew, request, htask, by rw [hpayload]; rfl, took_of_isPrefix (List.prefix_append _ _) htook,
    hasPut_of_isPrefix (List.prefix_append _ _) hput, by rw [hpayload]; rfl, by rw [hpayload]; rfl⟩

theorem held_of_step {l : Label (ArtifactTask Text) ArtifactChoice} (h : Held codec c) (hkept : VersionKept codec c l)
    (hstep : (artifactSystem codec autoCommit).Step c l c') : Held codec c' := by
  have hstepped := stepped_of_step hstep
  refine
    { follows := follows_of_step _ (follows_body codec) h.follows hstep
      admitted := ?_
      manifests := ?_
      payloads := ?_
      reads := ?_
      distinct := ?_ }
  · intro th hth request htask
    cases hstepped with
    | begin t =>
      rcases List.mem_append.mp hth with hth | hth
      · exact h.admitted th hth request htask
      · obtain rfl := List.mem_singleton.mp hth
        obtain rfl : t = .store request := htask
        exact hkept
    | turn hget _ _ =>
      rw [show ((artifactSystem codec autoCommit).spawned _).map _ = [] from rfl, List.append_nil] at hth
      rcases List.mem_or_eq_of_mem_set hth with hth | rfl
      · exact h.admitted th hth request htask
      · exact h.admitted _ (List.mem_of_getElem? hget) request htask
  · intro manifest hmem
    cases hcopy : hstepped with
    | begin t => exact Authored.step hstepped (h.manifests manifest hmem)
    | turn hget _ hanswers =>
      rcases manifests_of_answers hanswers hmem with hmem | he
      · exact Authored.step hstepped (h.manifests manifest hmem)
      · cases he
        exact h.authoredManifest hstepped hget (List.mem_of_getElem? (getElem?_self hget))
  · intro payload hmem
    cases hcopy : hstepped with
    | begin t => exact Authored.step hstepped (h.payloads payload hmem)
    | turn hget _ hanswers =>
      rcases payloads_of_answers hanswers hmem with hmem | he
      · exact Authored.step hstepped (h.payloads payload hmem)
      · cases he
        exact h.authoredPayload hget (List.mem_of_getElem? (getElem?_self hget))
  · intro th hth e he
    obtain ⟨i, hget⟩ := List.mem_iff_getElem?.mp hth
    obtain hold | ⟨hnew, -⟩ | ⟨x, o, next, r, log, -, hold, hanswers, hturned⟩ := hstepped.threads hget
    · exact (h.reads th (List.mem_of_getElem? hold) e he).step hstepped
    · rw [hnew] at he
      exact absurd he List.not_mem_nil
    · have hlog : th.log = log ++ [⟨o, r⟩] := congrArg Thread.log hturned
      rw [hlog] at he
      rcases List.mem_append.mp he with he | he
      · exact (h.reads _ (List.mem_of_getElem? hold) e he).step hstepped
      · obtain rfl := List.mem_singleton.mp he
        exact (readsAuthored_of_answers hanswers h.manifests h.payloads).step hstepped
  · intro i j th th' hij hi hj hlive hlive' k hk hk'
    rcases Held.fresh hkept hstepped hi hlive hk with ⟨th₀, hi₀, hlive₀, hk₀⟩ | ⟨⟨x, hl⟩, hfresh⟩
    · rcases Held.fresh hkept hstepped hj hlive' hk' with ⟨th₁, hj₀, hlive₁, hk₁⟩ | ⟨-, hfresh⟩
      · exact h.distinct i j th₀ th₁ hij hi₀ hj₀ hlive₀ hlive₁ k hk₀ hk₁
      · exact hfresh th₀ (List.mem_of_getElem? hi₀) hlive₀ hk₀
    · rcases Held.fresh hkept hstepped hj hlive' hk' with ⟨th₁, hj₀, hlive₁, hk₁⟩ | ⟨⟨x', hl'⟩, -⟩
      · exact hfresh th₁ (List.mem_of_getElem? hj₀) hlive₁ hk₁
      · rw [hl] at hl'
        exact hij (Label.turn.inj hl').1

theorem held_of_run {labels : List (Label (ArtifactTask Text) ArtifactChoice)}
    (hrun : Run (Guarded (artifactSystem codec autoCommit).Step (VersionKept codec)) (start ArtifactState.empty) labels c) :
    Held codec c := by
  refine hrun.invariant (P := Held codec) (fun c l c' h hstep => held_of_step h hstep.2 hstep.1) ?_
  exact ⟨by simp [start], by simp [start], by simp [start, ArtifactState.empty, Collection.all, Collection.empty,
    Record.values, Record.empty], by simp [start, ArtifactState.empty, Collection.all, Collection.empty,
    Record.values, Record.empty], by simp [start], by simp [start]⟩

/-! ## References -/

omit [DecidableEq Digest] in
theorem Held.author (h : Held codec c) {request : ArtifactWriteRequest Text}
    {artifactId : ArtifactId} {version : Nat} {Q : ArtifactWriteRequest Text → Prop} (hth : th ∈ c.threads)
    (htask : th.task = .store request) (htook : took request th.log = some (artifactId, version))
    (hput : hasPut th.log = true) (hauthored : Authored c request.projectId artifactId version Q) : Q request := by
  obtain ⟨th', hth', request', htask', hproject, htook', hput', hQ⟩ := hauthored
  obtain ⟨i, hi⟩ := List.mem_iff_getElem?.mp hth
  obtain ⟨j, hj⟩ := List.mem_iff_getElem?.mp hth'
  by_cases hij : i = j
  · subst hij
    cases hi.symm.trans hj
    obtain rfl := ArtifactTask.store.inj (htask.symm.trans htask')
    exact hQ
  · refine absurd ?_ (h.distinct i j th th' hij hi hj (isDead_eq_false hput) (isDead_eq_false hput') _
      (taken_eq htask htook))
    rw [taken_eq htask' htook', hproject]

omit [DecidableEq Digest] in
theorem Held.stableReferences (h : Held codec c) : StableReferences c := by
  have hstored : ∀ th ∈ c.threads, ∀ request result, th.task = .store request →
      th.program.outcome = some (.ok (.stored result)) →
        took request th.log = some (result.artifactId, result.version) ∧ hasPut th.log = true := by
    intro th hth request result htask hout
    exact (h.follows th hth).of_outcome hout request htask
  constructor
  · intro i j th th' request request' result result' hij hi hj htask htask' hout hout' hproject hartifact hversion
    obtain ⟨htook, hput⟩ := hstored th (List.mem_of_getElem? hi) request result htask hout
    obtain ⟨htook', hput'⟩ := hstored th' (List.mem_of_getElem? hj) request' result' htask' hout'
    refine h.distinct i j th th' hij hi hj (isDead_eq_false hput) (isDead_eq_false hput') _ (taken_eq htask htook) ?_
    rw [taken_eq htask' htook', hproject, hartifact, hversion]
  · intro th hth th' hth' request request' result found htask htask' hout hout' hproject hartifact hversion
    obtain ⟨htook, hput⟩ := hstored th hth request result htask hout
    obtain ⟨manifests, id, payload, hquery, hselect, hread, hid, hown, hdata, hintegrity⟩ :=
      (h.follows th' hth').of_outcome hout' request' htask'
    -- the manifest that was selected, and the payload that was read, are those of the call
    have hmanifest : found.manifest ∈ manifests ∧ found.manifest.projectId = request.projectId ∧
        found.manifest.artifactId = result.artifactId ∧ found.manifest.version = result.version := by
      unfold selectVersion at hselect
      rw [hversion] at hselect
      obtain ⟨hmem, hproject', hartifact'⟩ := mem_listVersions.mp (List.mem_of_find?_eq_some hselect)
      have hfound := List.find?_some hselect
      exact ⟨hmem, hproject'.trans hproject, hartifact'.trans hartifact, of_decide_eq_true hfound⟩
    obtain ⟨hmem, hmproject, hmartifact, hmversion⟩ := hmanifest
    have hauthored : AuthoredManifest codec c found.manifest := h.reads th' hth' _ hquery _ hmem
    have hpayload : AuthoredPayload codec c payload.val := h.reads th' hth' _ hread
    obtain ⟨hpartifact, hpversion⟩ := manifestDocumentId_inj (payload.property.trans hid)
    unfold AuthoredManifest at hauthored
    unfold AuthoredPayload at hpayload
    rw [hmproject, hmartifact, hmversion] at hauthored
    rw [hown, hproject, hpartifact, hpversion, hmartifact, hmversion] at hpayload
    have hkept := h.author hth htask htook hput hauthored
    obtain ⟨hbytes, hencoding⟩ := h.author hth htask htook hput hpayload
    rw [hencoding, hkept] at hintegrity
    rw [hdata, hbytes, hencoding] at hintegrity ⊢
    exact h.admitted th hth request htask hintegrity

/-- **References.** In every interleaving of calls in which the versions are kept, and in which what is stored can be
read back, the references to artifacts are stable. -/
theorem stableReferences_of_run {labels : List (Label (ArtifactTask Text) ArtifactChoice)}
    (hrun : Run (Guarded (artifactSystem codec autoCommit).Step (VersionKept codec)) (start ArtifactState.empty) labels c) :
    StableReferences c := (held_of_run hrun).stableReferences

end Invariant

/-! ## One artifact -/

instance (th : ArtifactThread (List UInt8) (List UInt8)) (manifests : List (ArtifactVersionRecord (List UInt8)))
    (projectId : ProjectId) (artifactId : ArtifactId) : Decidable (Covered manifests projectId artifactId th) :=
  inferInstanceAs (Decidable (∀ k ∈ taken th, _ → _ → _ ∨ ∃ stored ∈ manifests, _))

instance (codec : ArtifactCodec (List UInt8) (List UInt8)) (c : ArtifactConfig (List UInt8) (List UInt8))
    (l : Label (ArtifactTask (List UInt8)) ArtifactChoice) : Decidable (VersionKept codec c l) :=
  match l with
  | .begin (.store _) => inferInstanceAs (Decidable (_ → _))
  | .begin (.commitPreparedVersion _) | .begin (.retrieve _) | .begin (.delete _) => .isTrue trivial
  | .turn i _ => inferInstanceAs (Decidable (_ → ∀ th ∈ c.threads[i]?, ∀ k ∈ asksNext th, ∀ other ∈ c.threads,
      Covered c.state.manifests.all k.1 k.2 other))

/-- Plain text, and digests that tell bytes apart. -/
def plainCodec : ArtifactCodec (List UInt8) (List UInt8) := ⟨id, id, id, id, id⟩

def storeBytes (data : Bytes) : ArtifactTask (List UInt8) :=
  .store
    { projectId := ['p']
      artifactId := some ['a']
      name := "name"
      mimeType := "type"
      data := .bytes data }

/-- A call that begins, and takes so many turns. -/
def callOf (task : ArtifactTask (List UInt8)) (i turns : Nat) : List (Label (ArtifactTask (List UInt8)) ArtifactChoice) :=
  .begin task :: List.replicate turns (.turn i { now := "now" })

def answeredVersion (c : ArtifactConfig (List UInt8) (List UInt8)) (task : ArtifactTask (List UInt8)) (i : Nat) :
    Option (ArtifactWriteResult (List UInt8)) :=
  match c.threads[i]? with
  | some ⟨task', .pure (.stored result), _⟩ => if task' = task then some result else none
  | _ => none

theorem exists_of_answeredVersion {c : ArtifactConfig (List UInt8) (List UInt8)} {task : ArtifactTask (List UInt8)}
    {i : Nat} {result : ArtifactWriteResult (List UInt8)} (h : answeredVersion c task i = some result) :
    ∃ th, c.threads[i]? = some th ∧ th.task = task ∧ th.program.outcome = some (.ok (.stored result)) := by
  unfold answeredVersion at h
  split at h
  · rename_i task' result' log hget
    split_ifs at h with htask
    cases h
    exact ⟨_, hget, htask, rfl⟩
  · cases h

/-- A version is stored, deleted and stored again: the second call answers with the version of the first. -/
theorem deleted_version_reused :
    ¬∀ labels c, Run (artifactSystem plainCodec true).Step (start .empty) labels c → StableReferences c := by
  intro h
  obtain ⟨c, hrun, hcheck⟩ := (artifactSystem plainCodec true).exists_run_of_steps
    (callOf (storeBytes [1]) 0 8 ++ callOf (.delete ⟨['p'], ['a'], some 1⟩) 1 3 ++ callOf (storeBytes [2]) 2 8) .empty
    (fun c => decide ((answeredVersion c (storeBytes [1]) 0).map (fun r => (r.artifactId, r.version)) = some (['a'], 1) ∧
      (answeredVersion c (storeBytes [2]) 2).map (fun r => (r.artifactId, r.version)) = some (['a'], 1)))
    (by decide +kernel)
  obtain ⟨hfirst, hsecond⟩ := of_decide_eq_true hcheck
  obtain ⟨result, hresult, heq⟩ := Option.map_eq_some_iff.mp hfirst
  obtain ⟨result', hresult', heq'⟩ := Option.map_eq_some_iff.mp hsecond
  obtain ⟨th, hget, htask, hout⟩ := exists_of_answeredVersion hresult
  obtain ⟨th', hget', htask', hout'⟩ := exists_of_answeredVersion hresult'
  have hsame := heq.trans heq'.symm
  exact (h _ c hrun).distinct 0 2 th th' _ _ result result' (by decide) hget hget' htask htask' hout hout' rfl
    (congrArg Prod.fst hsame) (congrArg Prod.snd hsame)

/-- Two versions are stored, the first is deleted, and a third is stored. -/
theorem stableReferences_three :
    ∃ c, StableReferences c ∧
      (answeredVersion c (storeBytes [3]) 3).map (fun r => (r.artifactId, r.version)) = some (['a'], 3) := by
  obtain ⟨c, hrun, hcheck⟩ := (artifactSystem plainCodec true).exists_run_of_checkedStep (VersionKept plainCodec)
    (callOf (storeBytes [1]) 0 8 ++ callOf (storeBytes [2]) 1 8 ++ callOf (.delete ⟨['p'], ['a'], some 1⟩) 2 3 ++
      callOf (storeBytes [3]) 3 8) .empty
    (fun c => decide ((answeredVersion c (storeBytes [3]) 3).map (fun r => (r.artifactId, r.version)) = some (['a'], 3)))
    (by decide +kernel)
  exact ⟨c, stableReferences_of_run hrun, of_decide_eq_true hcheck⟩

end NousCore.Artifacts
