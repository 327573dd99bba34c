import NousCore.PublicMcp.Types

/-!
# The names of the external sources

* `admits_eq`, `hashOf_namespaceOf`, `parse_namespaceOf` : the namespace tells the hash and the subspace it is made of;
* `ExternalCollections.names`, `collectionName_inj` : the name of a collection tells what it is made of;
* `ownKey`, `not_ownKey` : the counters of one namespace are not those of another.
-/

namespace NousCore.PublicMcp

/-! ## The parts of a namespace -/

def Admits (sha256 : String → String) (claims : PublicMcpTokenClaims) (space : String) : Prop :=
  ∃ tokenFingerprint subject, buildSubject sha256 claims tokenFingerprint = .ok subject ∧ subject.namespace = space

variable {sha256 : String → String} {space : String}

variable {claims : PublicMcpTokenClaims}

theorem admits_eq (h : Admits sha256 claims space) :
    space = namespaceOf (sha256 claims.clientId) (sanitizeSubspace claims.subspace) ∧
      isSha256Hex (sha256 claims.clientId) = true ∧ isNamespace space = true := by
  obtain ⟨tokenFingerprint, subject, hbuild, rfl⟩ := h
  unfold buildSubject at hbuild
  dsimp only at hbuild
  split_ifs at hbuild with hvalid
  cases hbuild
  exact ⟨rfl, hvalid.2.1, hvalid.2.2.2⟩

variable {hash : String}

theorem length_of_isSha256Hex (h : isSha256Hex hash = true) : hash.toList.length = 64 := by
  exact of_decide_eq_true (Bool.and_eq_true_iff.mp h).1

variable {c : Char}

theorem not_colon_of_isHexDigit (h : isHexDigit c = true) : c ≠ ':' := by
  rintro rfl
  exact absurd h (by decide)

theorem not_colon_of_isSubspaceChar (h : isSubspaceChar c = true) : c ≠ ':' := by
  rintro rfl
  exact absurd h (by decide)

theorem not_colon_mem_of_isSha256Hex (h : isSha256Hex hash = true) : ':' ∉ hash.toList := by
  exact fun hmem => not_colon_of_isHexDigit (List.all_eq_true.mp (Bool.and_eq_true_iff.mp h).2 _ hmem) rfl

theorem not_colon_mem_of_sanitize {subspace : Option String} {kept : String}
    (h : sanitizeSubspace subspace = some kept) : ':' ∉ kept.toList := by
  unfold sanitizeSubspace at h
  split at h
  · cases h
  · dsimp only at h
    split_ifs at h
    cases h
    rw [String.toList_ofList]
    exact fun hmem => not_colon_of_isSubspaceChar (List.mem_filter.mp (List.mem_of_mem_take hmem)).2 rfl

theorem toString_self (text : String) : toString text = text := rfl

theorem toList_namespaceOf (hash : String) (subspace : Option String) :
    (namespaceOf hash subspace).toList =
      "app".toList ++ ':' :: (hash.toList ++ (subspace.map fun kept => ':' :: kept.toList).getD []) := by
  cases subspace with
  | none | some => simp [namespaceOf, toString_self]

theorem hashOf_namespaceOf (h : isSha256Hex hash = true) (subspace : Option String) :
    hashOf (namespaceOf hash subspace) = hash := by
  unfold hashOf
  rw [toList_namespaceOf]
  have hlength := length_of_isSha256Hex h
  rw [show ("app".toList ++ ':' :: (hash.toList ++ (subspace.map fun kept => ':' :: kept.toList).getD [])).drop 4 =
    hash.toList ++ (subspace.map fun kept => ':' :: kept.toList).getD [] from rfl, List.take_append_of_le_length
    (by omega), List.take_of_length_le (by omega), String.ofList_toList]

theorem parse_namespaceOf (h : isSha256Hex hash = true) {subspace : Option String}
    (hsub : ∀ kept, subspace = some kept → ':' ∉ kept.toList) :
    parseNamespaceSubspace (namespaceOf hash subspace) = subspace := by
  unfold parseNamespaceSubspace
  rw [toList_namespaceOf, List.splitOn_append_cons_self_of_not_mem (by decide)]
  cases subspace with
  | none =>
    rw [Option.map_none, Option.getD_none, List.append_nil,
      List.splitOn_eq_singleton (not_colon_mem_of_isSha256Hex h)]
    rfl
  | some kept =>
    rw [Option.map_some, Option.getD_some,
      List.splitOn_append_cons_self_of_not_mem (not_colon_mem_of_isSha256Hex h),
      List.splitOn_eq_singleton (hsub kept rfl)]
    simp

theorem collectionsOf_admitted (h : Admits sha256 claims space) :
    collectionsOf space = deriveExternalCollectionNames (sha256 claims.clientId) (sanitizeSubspace claims.subspace) := by
  obtain ⟨rfl, hhash, -⟩ := admits_eq h
  unfold collectionsOf
  rw [hashOf_namespaceOf hhash, parse_namespaceOf hhash fun kept => not_colon_mem_of_sanitize]

/-! ## The names of the collections -/

def ExternalCollections.documentCollections (collections : ExternalCollections) : List String :=
  [collections.stmCollection, collections.ltmCollection, collections.mutationAuditCollection,
    collections.tombstoneCollection]

def ExternalCollections.names (collections : ExternalCollections) : List String :=
  collections.documentCollections ++ [collections.vectorCollection]

def collectionKinds : List String := ["stm", "ltm", "audit", "tombstones", "vectors"]

def collectionName (hash suffix kind : String) : String := s!"external:{kind}:{hash}:{suffix}"

theorem names_derive (hash : String) (subspace : Option String) :
    (deriveExternalCollectionNames hash subspace).names =
      collectionKinds.map (collectionName hash (subspace.getD "default")) := by
  simp only [deriveExternalCollectionNames, ExternalCollections.names, ExternalCollections.documentCollections,
    collectionKinds, List.map_cons, List.map_nil, List.cons_append, List.nil_append]
  simp [collectionName, toString_self]

theorem toList_collectionName (hash suffix kind : String) :
    (collectionName hash suffix kind).toList =
      "external:".toList ++ (kind.toList ++ ':' :: (hash.toList ++ ':' :: suffix.toList)) := by
  simp [collectionName, toString_self]

theorem append_cons_inj {r r' : List Char} : ∀ {l l' : List Char}, c ∉ l → c ∉ l' →
    l ++ c :: r = l' ++ c :: r' → l = l' ∧ r = r'
  | [], [], _, _, h => ⟨rfl, (List.cons.inj h).2⟩
  | [], d :: l', _, hl', h => absurd (List.mem_cons.mpr (.inl (List.cons.inj h).1)) hl'
  | d :: l, [], hl, _, h => absurd (List.mem_cons.mpr (.inl (List.cons.inj h).1.symm)) hl
  | d :: l, d' :: l', hl, hl', h => by
    obtain ⟨rfl, htail⟩ := List.cons.inj h
    obtain ⟨rfl, hrest⟩ := append_cons_inj (fun hmem => hl (List.mem_cons_of_mem _ hmem))
      (fun hmem => hl' (List.mem_cons_of_mem _ hmem)) htail
    exact ⟨rfl, hrest⟩

theorem collectionName_inj {hash hash' suffix suffix' kind kind' : String} (hkind : kind ∈ collectionKinds)
    (hkind' : kind' ∈ collectionKinds) (hhash : isSha256Hex hash = true) (hhash' : isSha256Hex hash' = true)
    (h : collectionName hash suffix kind = collectionName hash' suffix' kind') :
    kind = kind' ∧ hash = hash' ∧ suffix = suffix' := by
  have hcolon : ∀ kind ∈ collectionKinds, ':' ∉ kind.toList := by decide
  have hlists := congrArg String.toList h
  rw [toList_collectionName, toList_collectionName] at hlists
  obtain ⟨hkinds, hrest⟩ := append_cons_inj (hcolon _ hkind) (hcolon _ hkind') (List.append_cancel_left hlists)
  obtain ⟨hhashes, hsuffixes⟩ :=
    append_cons_inj (not_colon_mem_of_isSha256Hex hhash) (not_colon_mem_of_isSha256Hex hhash') hrest
  exact ⟨String.toList_inj.mp hkinds, String.toList_inj.mp hhashes, String.toList_inj.mp hsuffixes⟩

/-! ## Clients that share collections -/

/-- Of two namespaces of one client one is without a subspace, and the other has the subspace that stands for none. -/
def Collides (a b : PublicMcpTokenClaims) : Prop :=
  a.clientId = b.clientId ∧
    (sanitizeSubspace a.subspace = none ∧ sanitizeSubspace b.subspace = some "default" ∨
      sanitizeSubspace a.subspace = some "default" ∧ sanitizeSubspace b.subspace = none)

instance (a b : PublicMcpTokenClaims) : Decidable (Collides a b) :=
  inferInstanceAs (Decidable (a.clientId = b.clientId ∧ _))

theorem getD_eq_getD {x y : Option String} (hne : x ≠ y) :
    x.getD "default" = y.getD "default" ↔ x = none ∧ y = some "default" ∨ x = some "default" ∧ y = none := by
  cases x with
  | none =>
    cases y with
    | none => exact absurd rfl hne
    | some y => simp [eq_comm]
  | some x =>
    cases y with
    | none => simp
    | some y => simpa using fun h => hne (congrArg some h)

theorem disjoint_iff {a b : PublicMcpTokenClaims} {space other : String}
    (hsha : sha256 a.clientId = sha256 b.clientId → a.clientId = b.clientId) (ha : Admits sha256 a space)
    (hb : Admits sha256 b other) (hne : other ≠ space) :
    List.Disjoint (collectionsOf space).names (collectionsOf other).names ↔ ¬Collides a b := by
  rw [collectionsOf_admitted ha, collectionsOf_admitted hb, names_derive, names_derive]
  obtain ⟨hspace, hhash, -⟩ := admits_eq ha
  obtain ⟨hother, hhash', -⟩ := admits_eq hb
  have hsubspace : a.clientId = b.clientId → sanitizeSubspace a.subspace ≠ sanitizeSubspace b.subspace := by
    intro hclient hsame
    rw [hspace, hother, hclient, hsame] at hne
    exact hne rfl
  constructor
  · rintro hdisjoint ⟨hclient, hcollides⟩
    rw [hclient, (getD_eq_getD (hsubspace hclient)).mpr hcollides] at hdisjoint
    exact hdisjoint (List.mem_map.mpr ⟨"stm", by decide, rfl⟩) (List.mem_map.mpr ⟨"stm", by decide, rfl⟩)
  · intro hcollides name hname hname'
    obtain ⟨kind, hkind, rfl⟩ := List.mem_map.mp hname
    obtain ⟨kind', hkind', heq⟩ := List.mem_map.mp hname'
    obtain ⟨-, hhashes, hsuffixes⟩ := collectionName_inj hkind' hkind hhash' hhash heq
    have hclient := hsha hhashes.symm
    exact hcollides ⟨hclient, (getD_eq_getD (hsubspace hclient)).mp hsuffixes.symm⟩

/-! ## The keys of the counters -/

/-- The key of a counter of the namespace. -/
def ownKey (space key : String) : Bool := (space.toList ++ [':', ':']).isPrefixOf key.toList

theorem ownKey_buildId (space rest : String) : ownKey space s!"{space}::{rest}" = true := by
  unfold ownKey
  rw [List.isPrefixOf_iff_prefix]
  simp [toString_self]

theorem tail_of_isNamespace (h : isNamespace space = true) :
    ∃ head tail, space.toList = head ++ tail ∧ head.length = 68 ∧
      (tail = [] ∨ ∃ kept, tail = ':' :: kept ∧ kept ≠ [] ∧ ':' ∉ kept) := by
  unfold isNamespace at h
  simp only [Bool.and_eq_true, decide_eq_true_eq] at h
  obtain ⟨⟨⟨-, hlength⟩, -⟩, htail⟩ := h
  refine ⟨space.toList.take 68, space.toList.drop 68, (List.take_append_drop _ _).symm, ?_, ?_⟩
  · rw [List.length_take, List.length_drop] at hlength
    rw [List.length_take]
    omega
  · split at htail
    · rename_i heq
      exact .inl heq
    · rename_i kept heq
      refine .inr ⟨kept, heq, ?_, ?_⟩
      · rintro rfl
        simp at htail
      · exact fun hmem => not_colon_of_isSubspaceChar
          (List.all_eq_true.mp (Bool.and_eq_true_iff.mp htail).2 _ hmem) rfl
    · cases htail

theorem not_ownKey {space other : String} (hspace : isNamespace space = true) (hother : isNamespace other = true)
    (hne : other ≠ space) (rest : String) : ownKey space s!"{other}::{rest}" = false := by
  refine Bool.eq_false_iff.mpr fun hprefix => hne ?_
  obtain ⟨after, hafter⟩ := List.isPrefixOf_iff_prefix.mp hprefix
  obtain ⟨head, tail, heq, hlength, htail⟩ := tail_of_isNamespace hspace
  obtain ⟨head', tail', heq', hlength', htail'⟩ := tail_of_isNamespace hother
  have hkey : s!"{other}::{rest}".toList = other.toList ++ ':' :: ':' :: rest.toList := by simp [toString_self]
  rw [hkey, heq, heq', List.append_assoc, List.append_assoc, List.append_assoc] at hafter
  obtain ⟨rfl, htails⟩ := List.append_inj hafter (hlength.trans hlength'.symm)
  refine String.toList_inj.mp ?_
  rw [heq, heq']
  rcases htail with rfl | ⟨kept, rfl, hkept, hcolon⟩
  · rcases htail' with rfl | ⟨kept', rfl, hkept', hcolon'⟩
    · rfl
    · obtain ⟨c, kept', rfl⟩ := List.exists_cons_of_ne_nil hkept'
      have hc : ':' = c := (List.cons.inj (List.cons.inj htails).2).1
      exact absurd (List.mem_cons.mpr (.inl hc)) hcolon'
  · rcases htail' with rfl | ⟨kept', rfl, hkept', hcolon'⟩
    · obtain ⟨c, kept, rfl⟩ := List.exists_cons_of_ne_nil hkept
      have hc : c = ':' := (List.cons.inj (List.cons.inj htails).2).1
      exact absurd (List.mem_cons.mpr (.inl hc.symm)) hcolon
    · obtain ⟨rfl, -⟩ := append_cons_inj hcolon hcolon' (List.cons.inj htails).2
      rfl

end NousCore.PublicMcp
