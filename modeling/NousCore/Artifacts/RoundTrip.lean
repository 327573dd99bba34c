import NousCore.Artifacts.Stable

/-!
# What is stored is retrieved

* `retrieved_iff` : a store call that commits has come to this exactly when its data round-trips.
-/

namespace NousCore.Artifacts

open Async

variable {Text Digest : Type} (codec : ArtifactCodec Text Digest)

/-- Bytes as they are, and text that is the text of its own bytes, in UTF-8 or in base64. -/
def RoundTrips : ArtifactContent Text → ArtifactContentEncoding → Prop
  | .bytes _, .binary => True
  | .text text, .utf8 => codec.utf8Text (codec.utf8Bytes text) = text
  | .text text, .base64 => codec.base64Text (codec.base64Bytes text) = text
  | _, _ => False

/-- What is read back of the content. -/
def decoded (request : ArtifactWriteRequest Text) : ArtifactContent Text :=
  decodeArtifactData codec (encodeArtifactData codec request.data request.contentEncoding) request.contentEncoding

theorem decoded_eq_iff (request : ArtifactWriteRequest Text) :
    decoded codec request = request.data ↔ RoundTrips codec request.data request.contentEncoding := by
  unfold decoded
  cases request.data <;> cases request.contentEncoding <;>
    simp [RoundTrips, decodeArtifactData, encodeArtifactData]

/-- No operation is rejected. -/
def Unrejected : Allowance (@ArtifactOp.Answer Digest) ArtifactChoice (ArtifactState Digest) :=
  fun _ _ x _ => x.rejects = false

theorem exists_ends_unrejected {α : Type} (p : ArtifactCall Digest α) (t : ArtifactState Digest) :
    ∃ y l u, p.Ends artifactAnswers Unrejected [] t y l u :=
  exists_ends (fun _ o s => by cases o <;> exact ⟨{}, _, _, rfl, rfl⟩) p [] t

variable [DecidableEq Digest]

/-- The version is committed; and a call that retrieves it, and is neither disturbed nor rejected, returns the data that
was stored, of the size and with the checksum that are recorded. -/
structure Retrieved (request : ArtifactWriteRequest Text) (result : ArtifactWriteResult Digest)
    (t : ArtifactState Digest) : Prop where
  committed : result.committed = true
  exact : ∀ y l u, (retrieve codec ⟨request.projectId, result.artifactId, some result.version⟩).Ends artifactAnswers
    Unrejected [] t y l u → ∃ found, y = .ok (some found) ∧ found.data = request.data ∧
      found.manifest.sizeBytes = (encodeArtifactData codec found.data found.contentEncoding).length ∧
      found.manifest.integrityRef = computeIntegrityRef codec found.data found.contentEncoding

variable {codec} {s t : ArtifactState Digest} {m : ArtifactVersionRecord Digest}
  {p : ArtifactPayloadDocument} {l : Log (@ArtifactOp.Answer Digest)}

/-! ## Retrieving -/

theorem get_of_find? {κ α : Type} [DecidableEq κ] {key : α → κ} {c : Collection key} {k : κ} {v : α}
    (h : c.find? k = some v) : ∃ hv, c.get k = some ⟨v, hv⟩ := by
  rw [← Collection.map_val_get] at h
  obtain ⟨⟨w, hw⟩, hget, rfl⟩ := Option.map_eq_some_iff.mp h
  exact ⟨hw, hget⟩

omit [DecidableEq Digest] in
theorem selectVersion_eq (hm : t.manifests.find? m.documentId = some m) :
    selectVersion t.manifests.all ⟨m.projectId, m.artifactId, some m.version⟩ = some m := by
  have hmem : m ∈ listVersions t.manifests.all m.projectId m.artifactId :=
    mem_listVersions.mpr ⟨Collection.mem_all.mpr hm, rfl, rfl⟩
  obtain ⟨x, hx⟩ : ∃ x, (listVersions t.manifests.all m.projectId m.artifactId).find?
      (fun record => decide (record.version = m.version)) = some x :=
    Option.isSome_iff_exists.mp (List.find?_isSome.mpr ⟨m, hmem, decide_eq_true rfl⟩)
  obtain ⟨hall, -, hid⟩ := mem_listVersions.mp (List.mem_of_find?_eq_some hx)
  have hversion : x.version = m.version := by simpa using List.find?_some hx
  have hsame : x.documentId = m.documentId := by
    rw [ArtifactVersionRecord.documentId, ArtifactVersionRecord.documentId, hid, hversion]
  rw [Collection.mem_all, hsame, hm] at hall
  cases hall
  exact hx

/-- The check that a commit makes before it goes on. -/
def Passes (codec : ArtifactCodec Text Digest) (m : ArtifactVersionRecord Digest) (p : ArtifactPayloadDocument) : Prop :=
  computeIntegrityRef codec (decodeArtifactData codec p.data p.contentEncoding) p.contentEncoding = m.integrityRef

omit [DecidableEq Digest] in
theorem meets_answered {α β : Type}
    {post : Log (@ArtifactOp.Answer Digest) → Except ArtifactError α → ArtifactState Digest → Prop}
    {o : ArtifactOp Digest} {r : o.Answer} {f : o.Answer → Except ArtifactError β} {b : β}
    {next : β → ArtifactCall Digest α} (hanswers : ∀ x, x.rejects = false → artifactAnswers o x t = some (r, t))
    (hr : f r = .ok b) (h : (next b).Meets artifactAnswers (.within Unrejected) post (l ++ [⟨o, r⟩]) t) :
    (perform o >>= fun answer => unwrap (f answer) >>= next).Meets artifactAnswers (.within Unrejected) post l t := by
  rw [perform_bind]
  refine meets_within_call fun x r' s' hanswers' hallowed => ?_
  cases (hanswers x hallowed).symm.trans hanswers'
  rw [meets_bind, meets_unwrap, hr]
  exact h

theorem meets_retrieve (hm : t.manifests.find? m.documentId = some m) (hp : t.payloads.find? m.documentId = some p)
    (hcommitted : m.writeState = .committed) (hproject : p.projectId = m.projectId) (hpasses : Passes codec m p) :
    (retrieve codec ⟨m.projectId, m.artifactId, some m.version⟩).Meets artifactAnswers (.within Unrejected)
      (fun _ y _ => y = .ok (some ⟨m, decodeArtifactData codec p.data p.contentEncoding, p.contentEncoding⟩)) l t := by
  unfold retrieve
  refine meets_answered (fun x hx => by simp only [artifactAnswers, hx]; rfl) rfl ?_
  rw [selectVersion_eq hm]
  dsimp only
  rw [if_neg (not_not.mpr hcommitted)]
  refine meets_answered (fun x hx => by simp only [artifactAnswers, hx]; rfl) rfl ?_
  obtain ⟨hv, hget⟩ := get_of_find? (k := manifestDocumentId m.artifactId m.version) hp
  rw [hget]
  dsimp only
  rw [if_neg (not_not.mpr hproject), if_neg (not_not.mpr (show _ = m.integrityRef from hpasses))]
  rfl

/-! ## Storing -/

/-- Every value that the call may end with meets `P`. -/
abbrev Yields {α : Type} (P : α → ArtifactState Digest → Prop) (c : ArtifactCall Digest α)
    (l : Log (@ArtifactOp.Answer Digest)) (s : ArtifactState Digest) : Prop :=
  c.Meets artifactAnswers .alone (fun _ y t => ∀ a, y = .ok a → P a t) l s

omit [DecidableEq Digest] in
theorem yields_unwrapped {α β : Type} {P : α → ArtifactState Digest → Prop} {o : ArtifactOp Digest}
    {f : o.Answer → Except ArtifactError β} {next : β → ArtifactCall Digest α}
    (h : ∀ x r s' b, artifactAnswers o x s = some (r, s') → f r = .ok b → Yields P (next b) (l ++ [⟨o, r⟩]) s') :
    Yields P (perform o >>= fun answer => unwrap (f answer) >>= next) l s := by
  rw [perform_bind]
  refine meets_alone_call fun x r s' hanswers => ?_
  rw [meets_bind, meets_unwrap]
  cases hr : f r with
  | error e => exact nofun
  | ok b => exact h x r s' b hanswers hr

theorem yields_commit (hm : s.manifests.find? m.documentId = some m) (hp : s.payloads.find? m.documentId = some p) :
    Yields (fun r t => t.payloads = s.payloads ∧
        ((¬Passes codec m p ∧ r = none ∧ t.manifests.find? m.documentId = some m) ∨
        (Passes codec m p ∧ r = some ⟨m.artifactId, m.version, m.artifactRef, m.integrityRef, true⟩ ∧
          ∃ at', t.manifests.find? m.documentId =
            some { m with writeState := .committed, committedAt := some at', updatedAt := at' })))
      (commitPreparedVersion codec ⟨m.projectId, m.artifactId, some m.version⟩) l s := by
  refine yields_unwrapped fun x r s' b hanswers hb => ?_
  cases hanswers
  split_ifs at hb
  cases hb
  obtain ⟨hv, hget⟩ := get_of_find? (k := manifestDocumentId m.artifactId m.version) hm
  rw [hget]
  dsimp only
  rw [if_neg (not_not.mpr rfl)]
  refine yields_unwrapped fun x r s' b hanswers hb => ?_
  cases hanswers
  split_ifs at hb
  cases hb
  obtain ⟨hv, hget⟩ := get_of_find? (k := manifestDocumentId m.artifactId m.version) hp
  rw [hget]
  dsimp only
  split_ifs with hcheck
  · rintro r ⟨⟩
    exact ⟨rfl, .inl ⟨hcheck, rfl, hm⟩⟩
  · refine yields_unwrapped fun x r s' b hanswers hb => ?_
    cases hanswers
    unfold ArtifactVersionRecord.parse at hb
    split_ifs at hb
    cases hb
    refine yields_unwrapped fun y r s' b hanswers hb => ?_
    dsimp only [artifactAnswers] at hanswers
    split_ifs at hanswers <;> cases hanswers <;> cases hb
    rintro r ⟨⟩
    exact ⟨rfl, .inr ⟨not_not.mp hcheck, rfl, x.now, Collection.find?_put_self _ _⟩⟩

/-- The version that a store call has written as `m`. -/
structure Stored (codec : ArtifactCodec Text Digest) (autoCommit : Bool) (request : ArtifactWriteRequest Text)
    (result : ArtifactWriteResult Digest) (t : ArtifactState Digest) (m : ArtifactVersionRecord Digest) : Prop where
  project : m.projectId = request.projectId
  artifact : result.artifactId = m.artifactId
  version : result.version = m.version
  sizeBytes : m.sizeBytes = (encodeArtifactData codec request.data request.contentEncoding).length
  integrityRef : m.integrityRef = computeIntegrityRef codec request.data request.contentEncoding
  manifest : t.manifests.find? m.documentId = some m
  payload : t.payloads.find? m.documentId = some (payloadDocument codec request m.artifactId m.version)
  committed : result.committed = true ↔
    autoCommit = true ∧ Passes codec m (payloadDocument codec request m.artifactId m.version)
  writeState : result.committed = true → m.writeState = .committed

theorem yields_storeAs (autoCommit : Bool) (request : ArtifactWriteRequest Text) (artifactId : ArtifactId) :
    Yields (fun result t => ∃ m, Stored codec autoCommit request result t m)
      (storeAs codec autoCommit request artifactId) l s := by
  refine yields_unwrapped fun x r s' b hanswers hb => ?_
  cases hanswers
  split_ifs at hb
  cases hb
  refine yields_unwrapped fun x r s' m hanswers hm => ?_
  cases hanswers
  generalize nextVersion (listVersions s.manifests.all request.projectId artifactId) = version at hm ⊢
  unfold ArtifactVersionRecord.parse at hm
  split_ifs at hm
  replace hm := (Except.ok.inj hm).symm
  refine yields_unwrapped fun y r s' b hanswers hb => ?_
  dsimp only [artifactAnswers] at hanswers
  split_ifs at hanswers <;> cases hanswers <;> cases hb
  refine yields_unwrapped fun y r s' b hanswers hb => ?_
  dsimp only [artifactAnswers] at hanswers
  split_ifs at hanswers <;> cases hanswers <;> cases hb
  have hpayload : payloadDocument codec request artifactId version =
      payloadDocument codec request m.artifactId m.version := by rw [hm]; rfl
  rw [hpayload]
  cases autoCommit with
  | false =>
    rintro result ⟨⟩
    exact ⟨m, by rw [hm]; rfl, by rw [hm]; rfl, by rw [hm]; rfl, by rw [hm]; rfl, by rw [hm]; rfl,
      Collection.find?_put_self _ _, Collection.find?_put_self _ _, by simp, nofun⟩
  | true =>
    have hrequest : (⟨request.projectId, artifactId, some version⟩ : ArtifactReadRequest) =
        ⟨m.projectId, m.artifactId, some m.version⟩ := by rw [hm]; rfl
    dsimp only
    rw [if_neg (by decide), hrequest]
    refine meets_bind.mpr (Meets.mono (fun l' y t hcommit => ?_) (yields_commit (m := m) (Collection.find?_put_self _ _)
      (Collection.find?_put_self s.payloads (payloadDocument codec request m.artifactId m.version))))
    cases y with
    | error e => exact nofun
    | ok r =>
      obtain ⟨hpayloads, ⟨hfails, rfl, hmanifest⟩ | ⟨hpasses, rfl, at', hmanifest⟩⟩ := hcommit r rfl
      · rintro result ⟨⟩
        exact ⟨m, by rw [hm]; rfl, by rw [hm]; rfl, by rw [hm]; rfl, by rw [hm]; rfl, by rw [hm]; rfl, hmanifest,
          by rw [hpayloads]; exact Collection.find?_put_self _ _, by simpa using hfails, nofun⟩
      · rintro result ⟨⟩
        exact ⟨{ m with writeState := .committed, committedAt := some at', updatedAt := at' }, by rw [hm]; rfl, rfl, rfl,
          by rw [hm]; rfl, by rw [hm]; rfl, hmanifest, by rw [hpayloads]; exact Collection.find?_put_self _ _,
          ⟨fun _ => ⟨rfl, hpasses⟩, fun _ => rfl⟩, fun _ => rfl⟩

theorem yields_store (autoCommit : Bool) (request : ArtifactWriteRequest Text) :
    Yields (fun result t => ∃ m, Stored codec autoCommit request result t m) (store codec autoCommit request) l s := by
  unfold store
  split
  · exact yields_storeAs _ _ _
  · exact meets_alone_call fun x r s' hanswers => by cases hanswers; exact yields_storeAs _ _ _

variable {allowed : Allowance (@ArtifactOp.Answer Digest) ArtifactChoice (ArtifactState Digest)}
  {result : ArtifactWriteResult Digest}

theorem retrieved_iff_decoded (autoCommit : Bool) (request : ArtifactWriteRequest Text)
    (hends : (store codec autoCommit request).Ends artifactAnswers allowed [] s (.ok result) l t) :
    Retrieved codec request result t ↔ autoCommit = true ∧ decoded codec request = request.data := by
  obtain ⟨m, hm⟩ := (yields_store autoCommit request).ends (fun _ => rfl) (fun _ _ _ _ _ => trivial) hends result rfl
  have hread : ⟨request.projectId, result.artifactId, some result.version⟩ =
      (⟨m.projectId, m.artifactId, some m.version⟩ : ArtifactReadRequest) := by rw [hm.project, hm.artifact, hm.version]
  constructor
  · rintro ⟨hcommitted, hexact⟩
    obtain ⟨hauto, hpasses⟩ := hm.committed.mp hcommitted
    obtain ⟨y, l', u, hretrieve⟩ :=
      exists_ends_unrejected (retrieve codec ⟨request.projectId, result.artifactId, some result.version⟩) t
    obtain ⟨found, hy, hdata, -⟩ := hexact y l' u hretrieve
    rw [hread] at hretrieve
    cases hy.symm.trans ((meets_retrieve hm.manifest hm.payload (hm.writeState hcommitted) hm.project.symm
      hpasses).of_within hretrieve)
    exact ⟨hauto, hdata⟩
  · rintro ⟨hauto, hdecoded⟩
    have hpasses : Passes codec m (payloadDocument codec request m.artifactId m.version) := by
      rw [Passes, hm.integrityRef]
      exact congrArg (computeIntegrityRef codec · request.contentEncoding) hdecoded
    have hcommitted := hm.committed.mpr ⟨hauto, hpasses⟩
    refine ⟨hcommitted, fun y l' u hretrieve => ?_⟩
    rw [hread] at hretrieve
    refine ⟨_, (meets_retrieve hm.manifest hm.payload (hm.writeState hcommitted) hm.project.symm
      hpasses).of_within hretrieve, hdecoded, ?_, ?_⟩
    · exact hm.sizeBytes.trans (congrArg (fun data => (encodeArtifactData codec data _).length) hdecoded).symm
    · exact hm.integrityRef.trans (congrArg (computeIntegrityRef codec · _) hdecoded).symm

/-- **What is stored is retrieved** exactly when the call commits, and the data round-trips. -/
theorem retrieved_iff (codec : ArtifactCodec Text Digest) (autoCommit : Bool) (request : ArtifactWriteRequest Text)
    (hends : (store codec autoCommit request).Ends artifactAnswers allowed [] s (.ok result) l t) :
    Retrieved codec request result t ↔ autoCommit = true ∧ RoundTrips codec request.data request.contentEncoding := by
  rw [retrieved_iff_decoded autoCommit request hends, decoded_eq_iff]

/-- A request for content of one byte, in the encoding that is the default. -/
def storeOne (data : ArtifactContent (List UInt8)) : ArtifactWriteRequest (List UInt8) where
  projectId := ['p']
  artifactId := some ['a']
  name := "n"
  mimeType := "text/plain"
  data

/-- Bytes come back as they are. -/
theorem bytes_retrieved : ∃ result t, Retrieved plainCodec (storeOne (.bytes [120])) result t := by
  obtain ⟨result, l, t, hends, -⟩ := (store plainCodec true (storeOne (.bytes [120]))).exists_ends_of_check
    artifactAnswers (fun _ _ _ _ => True) (List.replicate 8 {}) .empty (fun _ _ => true) (by decide +kernel)
  exact ⟨result, t, (retrieved_iff _ _ _ hends).mpr ⟨rfl, trivial⟩⟩

/-- Text comes back as bytes. -/
theorem text_not_retrieved : ∃ result l t, (store plainCodec true (storeOne (.text [120]))).Ends artifactAnswers
    (fun _ _ _ _ => True) [] .empty (.ok result) l t ∧ ¬Retrieved plainCodec (storeOne (.text [120])) result t := by
  obtain ⟨result, l, t, hends, -⟩ := (store plainCodec true (storeOne (.text [120]))).exists_ends_of_check
    artifactAnswers (fun _ _ _ _ => True) (List.replicate 8 {}) .empty (fun _ _ => true) (by decide +kernel)
  refine ⟨result, l, t, hends, fun h => ?_⟩
  cases ((retrieved_iff_decoded _ _ hends).mp h).2

end NousCore.Artifacts
