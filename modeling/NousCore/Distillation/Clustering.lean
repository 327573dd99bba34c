import Mathlib.Data.Rat.Init
import Mathlib.Algebra.Order.Group.Int
import Mathlib.Algebra.BigOperators.Ring.Finset
import Mathlib.Data.String.Basic
import NousCore.Distillation.Types
import NousCore.Lib.Totals

/-!
# Clusters of experience records

* `clusterByProject`, `clusterByTag`, `identifyClusters` : how the records are grouped;
* `MayGroup`, `Alike` : the groups that a strategy may form, and those that may be distilled together.
-/

namespace NousCore.Distillation

open Memory

/-! ## Grouping -/

def sortById (records : List ExperienceRecord) : List ExperienceRecord := records.insertionSort fun a b => a.id ≤ b.id

def projectKey (record : ExperienceRecord) : String := record.projectId.getD "global"

/-- Where each chunk begins. -/
def chunkStarts (length size : Nat) : List Nat := (List.range ((length + size - 1) / size)).map (· * size)

section

variable (config : DistillationClusterConfig)

def projectClusters (projectId : String) (list : List ExperienceRecord) :
    List ExperienceCluster :=
  let sorted := sortById list
  let chunks := (chunkStarts sorted.length config.maxClusterSize).map fun i =>
    (i, (sorted.drop i).take config.maxClusterSize)
  (chunks.filter fun chunk => config.minClusterSize ≤ chunk.2.length).map fun chunk =>
    { records := chunk.2
      clusterKey := projectId ++ ":" ++ toString chunk.1
      projectId := if projectId = "global" then none else some projectId }

def recordsByProject (records : List ExperienceRecord) : Record String (List ExperienceRecord) :=
  records.foldl (fun byProject r => byProject.addTo [r] (· ++ [r]) (projectKey r)) .empty

def clusterByProject (records : List ExperienceRecord) : List ExperienceCluster :=
  (recordsByProject records).entries.flatMap fun e => projectClusters config e.1 e.2

def overlap (a b : ExperienceRecord) : Nat := a.tags.eraseDups.countP (· ∈ b.tags)

def DistillationClusterConfig.minOverlap : Nat := config.tagOverlapMin.getD 1

/-- The group of `leader` and the ids that are used, after `other` was considered. -/
def joinGroup (leader : ExperienceRecord)
    (state : List ExperienceRecord × List String) (other : ExperienceRecord) : List ExperienceRecord × List String :=
  if other.id ∈ state.2 ∨ config.maxClusterSize ≤ state.1.length then state
  else if config.minOverlap ≤ overlap leader other then (state.1 ++ [other], state.2 ++ [other.id])
  else state

def tagCluster (leader : ExperienceRecord) (group : List ExperienceRecord) : ExperienceCluster where
  records := sortById group
  clusterKey := ",".intercalate ((group.map (·.id)).insertionSort (· ≤ ·))
  projectId := leader.projectId

/-- The clusters and the ids that are used, after `leader` was considered. -/
def tagStep (sorted : List ExperienceRecord)
    (state : List ExperienceCluster × List String) (leader : ExperienceRecord) :
    List ExperienceCluster × List String :=
  if leader.id ∈ state.2 then state
  else
    let grouped := sorted.foldl (joinGroup config leader) ([leader], state.2 ++ [leader.id])
    (if config.minClusterSize ≤ grouped.1.length then state.1 ++ [tagCluster leader grouped.1] else state.1, grouped.2)

def clusterByTag (records : List ExperienceRecord) : List ExperienceCluster :=
  let sorted := sortById records
  (sorted.foldl (tagStep config sorted) ([], [])).1

end

/-- Hard-deleted records pass. -/
def isCandidate (record : ExperienceRecord) : Bool :=
  record.lifecycleStatus ≠ .superseded && record.lifecycleStatus ≠ .softDeleted

def identifyClusters (records : List ExperienceRecord) (config : DistillationClusterConfig) : List ExperienceCluster :=
  let active := records.filter isCandidate
  if active = [] then []
  else match config.clusteringStrategy with
    | .project | .semantic => clusterByProject config active
    | .tag => clusterByTag config active

/-! ## What clusters should be -/

/-- **What distillation relies on.** The pattern of a cluster is then of the project of every record it supersedes. -/
structure Separate (config : DistillationClusterConfig) (records : List ExperienceRecord)
    (clusters : List ExperienceCluster) : Prop where
  taken : (clusters.flatMap (·.records)).Subperm records
  disjoint : (records.map (·.id)).Nodup → clusters.Pairwise fun c d => ∀ r ∈ c.records, ∀ r' ∈ d.records, r.id ≠ r'.id
  sizes : ∀ c ∈ clusters, config.minClusterSize ≤ c.records.length ∧ c.records.length ≤ config.maxClusterSize
  project : ∀ c ∈ clusters, ∀ r ∈ c.records, r.projectId = c.projectId
  placed : ∀ c ∈ clusters, ∀ draft, ∀ r ∈ c.records, (draftPattern c draft).projectId = r.projectId
  live : ∀ c ∈ clusters, ∀ r ∈ c.records, r.lifecycleStatus = .active

variable {records : List ExperienceRecord}

variable {clusters : List ExperienceCluster}

theorem pairwise_of_taken
    (h : (clusters.flatMap (·.records)).Subperm records) (hnodup : (records.map (·.id)).Nodup) :
    clusters.Pairwise fun c d => ∀ r ∈ c.records, ∀ r' ∈ d.records, r.id ≠ r'.id := by
  obtain ⟨part, hperm, hpart⟩ := h
  have hids : ((clusters.flatMap (·.records)).map (·.id)).Nodup :=
    (hperm.map _).nodup_iff.mp ((hpart.map _).nodup hnodup)
  rw [List.map_flatMap, List.nodup_flatMap] at hids
  refine hids.2.imp fun {c d} hdisjoint r hr r' hr' heq => ?_
  exact hdisjoint (List.mem_map_of_mem hr) (heq ▸ List.mem_map_of_mem hr')

/-- The members have later ids of their own, and share enough tags with the leader. -/
structure Leads (config : DistillationClusterConfig) (leader : ExperienceRecord) (members : List ExperienceRecord) :
    Prop where
  nodup : ((leader :: members).map (·.id)).Nodup
  later : ∀ r ∈ members, leader.id ≤ r.id
  overlap : ∀ r ∈ members, config.minOverlap ≤ overlap leader r

def MayGroup (config : DistillationClusterConfig) (group : List ExperienceRecord) : Prop :=
  match config.clusteringStrategy with
  | .project | .semantic => ∀ a ∈ group, ∀ b ∈ group, a.projectId = b.projectId
  | .tag => ∃ leader members, group = leader :: members ∧ Leads config leader members

/-- Of one project, and none hard-deleted. -/
structure Alike (group : List ExperienceRecord) : Prop where
  project : ∀ a ∈ group, ∀ b ∈ group, a.projectId = b.projectId
  kept : ∀ r ∈ group, r.lifecycleStatus ≠ .hardDeleted

/-- Every group of an allowed size that may be formed is alike. -/
def GroupsAlike (config : DistillationClusterConfig) (records : List ExperienceRecord) : Prop :=
  ∀ group : List ExperienceRecord, group.Subperm (records.filter isCandidate) → MayGroup config group →
    config.minClusterSize ≤ group.length → group.length ≤ config.maxClusterSize → Alike group

/-! ## Sorting -/

theorem perm_sortById (records : List ExperienceRecord) : (sortById records).Perm records := List.perm_insertionSort _ _

variable {r : ExperienceRecord}

theorem mem_sortById : r ∈ sortById records ↔ r ∈ records :=
  List.mem_insertionSort _

theorem length_sortById (records : List ExperienceRecord) : (sortById records).length = records.length :=
  List.length_insertionSort _ _

theorem pairwise_sortById (records : List ExperienceRecord) : (sortById records).Pairwise fun a b => a.id ≤ b.id := by
  have : Std.Total fun a b : ExperienceRecord => a.id ≤ b.id := ⟨fun a b => le_total a.id b.id⟩
  have : IsTrans ExperienceRecord fun a b => a.id ≤ b.id := ⟨fun _ _ _ => le_trans⟩
  exact List.pairwise_insertionSort _ _

/-! ## The chunks of a project -/

theorem flatMap_chunks {α : Type} (size : Nat) (l : List α) : ∀ k,
    ((List.range k).map (· * size)).flatMap (fun i => (l.drop i).take size) = l.take (k * size)
  | 0 => by simp
  | k + 1 => by
    rw [List.range_succ, List.map_append, List.flatMap_append, flatMap_chunks size l k, List.map_singleton,
      List.flatMap_singleton, Nat.succ_mul, List.take_add]

variable {config : DistillationClusterConfig} {projectId : String} {list : List ExperienceRecord}
  {c : ExperienceCluster}

theorem projectClusters_sizes (h : c ∈ projectClusters config projectId list) :
    config.minClusterSize ≤ c.records.length ∧ c.records.length ≤ config.maxClusterSize := by
  obtain ⟨chunk, hchunk, rfl⟩ := List.mem_map.mp h
  obtain ⟨hmem, hmin⟩ := List.mem_filter.mp hchunk
  obtain ⟨i, -, rfl⟩ := List.mem_map.mp hmem
  exact ⟨of_decide_eq_true hmin, List.length_take_le _ _⟩

theorem projectClusters_projectId (h : c ∈ projectClusters config projectId list) :
    c.projectId = if projectId = "global" then none else some projectId := by
  obtain ⟨chunk, -, rfl⟩ := List.mem_map.mp h
  rfl

theorem projectClusters_subperm (config : DistillationClusterConfig) (projectId : String)
    (list : List ExperienceRecord) :
    ((projectClusters config projectId list).flatMap (·.records)).Subperm list := by
  unfold projectClusters
  rw [List.flatMap_map]
  have hchunks : (((chunkStarts (sortById list).length config.maxClusterSize).map fun i =>
      (i, ((sortById list).drop i).take config.maxClusterSize)).flatMap Prod.snd).Subperm list := by
    rw [List.flatMap_map]
    show (((List.range _).map _).flatMap fun i => ((sortById list).drop i).take config.maxClusterSize).Subperm list
    rw [flatMap_chunks]
    exact (List.take_sublist _ _).subperm.trans (perm_sortById list).subperm
  exact (List.Sublist.flatMap List.filter_sublist _).subperm.trans hchunks

theorem projectClusters_of_length_le (hmin : config.minClusterSize ≤ list.length)
    (hmax : list.length ≤ config.maxClusterSize) :
    ∃ c ∈ projectClusters config projectId list, c.records = sortById list := by
  have hpos := config.two_le_min
  have hstarts : (0 : Nat) ∈ chunkStarts (sortById list).length config.maxClusterSize := by
    refine List.mem_map.mpr ⟨0, List.mem_range.mpr (Nat.div_pos ?_ (by omega)), zero_mul _⟩
    rw [length_sortById]
    omega
  have htake : ((sortById list).drop 0).take config.maxClusterSize = sortById list := by
    rw [List.drop_zero, List.take_of_length_le]
    rwa [length_sortById]
  refine ⟨_, List.mem_map.mpr ⟨(0, sortById list), List.mem_filter.mpr ⟨?_, ?_⟩, rfl⟩, rfl⟩
  · exact List.mem_map.mpr ⟨0, hstarts, by rw [htake]⟩
  · rw [length_sortById]
    exact decide_eq_true hmin

/-! ## By project -/

theorem projectKey_of_mem : ∀ (records : List ExperienceRecord) (byProject : Record String (List ExperienceRecord)),
    (∀ k list, byProject.get? k = some list → ∀ r ∈ list, projectKey r = k) → ∀ k list,
    (records.foldl (fun byProject r => byProject.addTo [r] (· ++ [r]) (projectKey r)) byProject).get? k = some list →
      ∀ r ∈ list, projectKey r = k
  | [], _, h => h
  | r :: records, byProject, h => by
    refine projectKey_of_mem records _ fun k list hlist r' hr' => ?_
    unfold Record.addTo at hlist
    rw [Record.get?_set] at hlist
    split_ifs at hlist with hk
    · cases hlist
      cases hold : byProject.get? (projectKey r) with
      | none =>
        rw [hold, List.mem_singleton] at hr'
        rw [hr', hk]
      | some old =>
        rw [hold] at hr'
        rcases List.mem_append.mp hr' with hr' | hr'
        · rw [hk]
          exact h _ old hold r' hr'
        · rw [List.mem_singleton.mp hr', hk]
    · exact h k list hlist r' hr'

theorem values_recordsByProject_perm (records : List ExperienceRecord) :
    (recordsByProject records).values.flatten.Perm records := by
  rw [List.perm_iff_count]
  intro a
  have hcount : ∀ l : List ExperienceRecord, ((l.count a : ℕ) : ℤ) = (l.map fun r => if r = a then (1 : ℤ) else 0).sum := by
    intro l
    induction l with
    | nil => rfl
    | cons r l ih =>
      rw [List.count_cons, List.map_cons, List.sum_cons, ← ih]
      by_cases h : r = a
      · rw [if_pos h, if_pos (beq_iff_eq.mpr h), Nat.cast_add, Nat.cast_one, add_comm]
      · rw [if_neg h, if_neg (mt beq_iff_eq.mp h), zero_add, add_zero]
  have htotal : (recordsByProject records).total (fun l => ((l.count a : ℕ) : ℤ)) =
      (Record.empty : Record String (List ExperienceRecord)).total (fun l => ((l.count a : ℕ) : ℤ)) +
        (records.map fun r => if r = a then (1 : ℤ) else 0).sum :=
    Record.total_foldl_addTo (fun r => by rw [hcount]; simp) (fun r l => by rw [hcount, hcount]; simp) records .empty
  rw [Record.total_empty, zero_add, ← hcount] at htotal
  rw [List.count_flatten]
  rw [← Int.natCast_inj, ← htotal, Nat.cast_list_sum, List.map_map]
  rfl

theorem projectId_of_projectKey {k : String} (h : projectKey r = k) :
    r.projectId = if k = "global" then none else some k := by
  unfold projectKey at h
  cases hproject : r.projectId with
  | none =>
    have hk : k = "global" := by rw [← h, hproject, Option.getD_none]
    rw [if_pos hk]
  | some projectId =>
    rw [hproject] at h
    obtain rfl : projectId = k := h
    rw [if_neg fun hglobal => r.projectId_ne_global (hproject.trans (congrArg some hglobal))]

theorem clusterByProject_projectId
    (h : c ∈ clusterByProject config records) : ∀ r ∈ c.records, r.projectId = c.projectId := by
  intro r hr
  obtain ⟨e, he, hc⟩ := List.mem_flatMap.mp h
  have hlist : r ∈ e.2 :=
    (projectClusters_subperm config e.1 e.2).subset (List.mem_flatMap.mpr ⟨c, hc, hr⟩)
  have hkey : projectKey r = e.1 := projectKey_of_mem records .empty (fun _ _ h => by cases h) e.1 e.2
    (Record.get?_eq_some.mpr he) r hlist
  rw [projectClusters_projectId hc, projectId_of_projectKey hkey]

theorem clusterByProject_subperm (config : DistillationClusterConfig) (records : List ExperienceRecord) :
    ((clusterByProject config records).flatMap (·.records)).Subperm records := by
  unfold clusterByProject
  rw [List.flatMap_assoc]
  have hparts : ∀ es : List (String × List ExperienceRecord),
      (es.flatMap fun e => (projectClusters config e.1 e.2).flatMap (·.records)).Subperm (es.map Prod.snd).flatten := by
    intro es
    induction es with
    | nil => exact List.Subperm.refl _
    | cons e es ih => exact (projectClusters_subperm config e.1 e.2).append ih
  exact (hparts _).trans (values_recordsByProject_perm records).subperm

theorem entries_of_same_key {k : String} : ∀ (records : List ExperienceRecord)
    (byProject : Record String (List ExperienceRecord)) (list : List ExperienceRecord),
    byProject.entries = [(k, list)] → (∀ r ∈ records, projectKey r = k) →
    (records.foldl (fun byProject r => byProject.addTo [r] (· ++ [r]) (projectKey r)) byProject).entries =
      [(k, list ++ records)]
  | [], _, list, h, _ => by rw [List.foldl_nil, List.append_nil, h]
  | r :: records, byProject, list, h, hkeys => by
    have hget : byProject.get? k = some list := Record.get?_eq_some.mpr (h ▸ List.mem_singleton_self _)
    have hmem : k ∈ byProject.keys := Record.mem_keys.mpr ⟨list, hget⟩
    have hstep : (byProject.addTo [r] (· ++ [r]) (projectKey r)).entries = [(k, list ++ [r])] := by
      unfold Record.addTo Record.set
      rw [hkeys r List.mem_cons_self, hget, dif_pos hmem]
      show byProject.entries.map _ = _
      rw [h, List.map_singleton, if_pos rfl]
    rw [List.foldl_cons, entries_of_same_key records _ _ hstep fun r' hr' => hkeys r' (List.mem_cons_of_mem _ hr'),
      List.append_assoc, List.singleton_append]

variable {group : List ExperienceRecord}

theorem clusterByProject_of_alike
    (hproject : ∀ a ∈ group, ∀ b ∈ group, a.projectId = b.projectId) (hmin : config.minClusterSize ≤ group.length)
    (hmax : group.length ≤ config.maxClusterSize) :
    ∃ c ∈ clusterByProject config group, c.records.Perm group := by
  cases group with
  | nil => exact absurd hmin (by have := config.two_le_min; simp only [List.length_nil]; omega)
  | cons r group =>
    have hkeys : ∀ r' ∈ group, projectKey r' = projectKey r := fun r' hr' =>
      congrArg (·.getD "global") (hproject r' (List.mem_cons_of_mem _ hr') r List.mem_cons_self)
    have hentries : (recordsByProject (r :: group)).entries = [(projectKey r, r :: group)] :=
      entries_of_same_key group _ [r] rfl hkeys
    obtain ⟨c, hc, hrecords⟩ : ∃ c ∈ projectClusters config (projectKey r) (r :: group), c.records = sortById (r :: group) :=
      projectClusters_of_length_le hmin hmax
    refine ⟨c, List.mem_flatMap.mpr ⟨(projectKey r, r :: group), ?_, hc⟩, ?_⟩
    · rw [hentries]
      exact List.mem_singleton_self _
    rw [hrecords]
    exact perm_sortById _

/-! ## By tag -/

/-- The group of `leader` while it is formed, `before` being the ids that were used. -/
structure Forming (config : DistillationClusterConfig) (sorted : List ExperienceRecord) (leader : ExperienceRecord)
    (before : List String) (members : List ExperienceRecord) (used : List String) : Prop where
  listed : ∀ r ∈ members, r ∈ sorted
  unused : ∀ r ∈ members, r.id ∉ before
  overlap : ∀ r ∈ members, config.minOverlap ≤ overlap leader r
  nodup : ((leader :: members).map (·.id)).Nodup
  marked : ∀ r ∈ leader :: members, r.id ∈ used
  keeps : before ⊆ used
  length : (leader :: members).length ≤ config.maxClusterSize

theorem Forming.start (config : DistillationClusterConfig) (sorted : List ExperienceRecord) (leader : ExperienceRecord)
    (before : List String) : Forming config sorted leader before [] (before ++ [leader.id]) where
  listed := fun _ h => absurd h List.not_mem_nil
  unused := fun _ h => absurd h List.not_mem_nil
  overlap := fun _ h => absurd h List.not_mem_nil
  nodup := List.nodup_singleton _
  marked := fun r hr => by
    rw [List.mem_singleton.mp hr]
    exact List.mem_append_right _ (List.mem_singleton_self _)
  keeps := List.subset_append_left _ _
  length := by
    have := config.three_le_max
    simp only [List.length_singleton]
    omega

variable {members : List ExperienceRecord}

theorem Forming.joinGroup {sorted : List ExperienceRecord}
    {leader other : ExperienceRecord} {before used : List String} (h : Forming config sorted leader before members used)
    (hother : other ∈ sorted) : ∃ members' used',
      joinGroup config leader (leader :: members, used) other = (leader :: members', used') ∧
        Forming config sorted leader before members' used' := by
  unfold Distillation.joinGroup
  split_ifs with hskip hoverlap
  · exact ⟨members, used, rfl, h⟩
  · rw [not_or, not_le] at hskip
    refine ⟨members ++ [other], used ++ [other.id], rfl, ?_⟩
    have hnew : other.id ∉ (leader :: members).map (·.id) := by
      intro hmem
      obtain ⟨r, hr, hid⟩ := List.mem_map.mp hmem
      exact hskip.1 (hid ▸ h.marked r hr)
    constructor
    · intro r hr
      rcases List.mem_append.mp hr with hr | hr
      · exact h.listed r hr
      · rw [List.mem_singleton.mp hr]
        exact hother
    · intro r hr
      rcases List.mem_append.mp hr with hr | hr
      · exact h.unused r hr
      · rw [List.mem_singleton.mp hr]
        exact fun hmem => hskip.1 (h.keeps hmem)
    · intro r hr
      rcases List.mem_append.mp hr with hr | hr
      · exact h.overlap r hr
      · rw [List.mem_singleton.mp hr]
        exact hoverlap
    · rw [← List.cons_append, List.map_append, List.map_singleton]
      exact List.nodup_append.mpr ⟨h.nodup, List.nodup_singleton _, fun a ha b hb hab =>
        hnew (by rwa [← List.mem_singleton.mp hb, ← hab])⟩
    · intro r hr
      rw [← List.cons_append] at hr
      rcases List.mem_append.mp hr with hr | hr
      · exact List.mem_append_left _ (h.marked r hr)
      · rw [List.mem_singleton.mp hr]
        exact List.mem_append_right _ (List.mem_singleton_self _)
    · exact fun id hid => List.mem_append_left _ (h.keeps hid)
    · rw [← List.cons_append, List.length_append]
      exact hskip.2
  · exact ⟨members, used, rfl, h⟩

variable {leader : ExperienceRecord}

theorem Forming.foldl {sorted : List ExperienceRecord}
    {before : List String} : ∀ {others members : List ExperienceRecord} {used : List String}, others ⊆ sorted →
      Forming config sorted leader before members used → ∃ members' used',
        others.foldl (Distillation.joinGroup config leader) (leader :: members, used) = (leader :: members', used') ∧
          Forming config sorted leader before members' used'
  | [], members, used, _, h => ⟨members, used, rfl, h⟩
  | other :: others, _, _, hsubset, h => by
    obtain ⟨members, used, heq, h⟩ := h.joinGroup (hsubset List.mem_cons_self)
    rw [List.foldl_cons, heq]
    exact h.foldl fun r hr => hsubset (List.mem_cons_of_mem _ hr)

structure Clustered (config : DistillationClusterConfig) (sorted done : List ExperienceRecord)
    (state : List ExperienceCluster × List String) : Prop where
  used : ∀ r ∈ done, r.id ∈ state.2
  nodup : ((state.1.flatMap (·.records)).map (·.id)).Nodup
  listed : ∀ r ∈ state.1.flatMap (·.records), r ∈ sorted ∧ r.id ∈ state.2
  led : ∀ c ∈ state.1, ∃ leader members, c = tagCluster leader (leader :: members) ∧ Leads config leader members
  sizes : ∀ c ∈ state.1, config.minClusterSize ≤ c.records.length ∧ c.records.length ≤ config.maxClusterSize

theorem Clustered.tagStep {done rest : List ExperienceRecord}
    {state : List ExperienceCluster × List String}
    (hsorted : (done ++ leader :: rest).Pairwise fun a b => a.id ≤ b.id)
    (h : Clustered config (done ++ leader :: rest) done state) :
    Clustered config (done ++ leader :: rest) (done ++ [leader])
      (tagStep config (done ++ leader :: rest) state leader) := by
  unfold Distillation.tagStep
  split_ifs with hused
  · refine ⟨fun r hr => ?_, h.nodup, h.listed, h.led, h.sizes⟩
    rcases List.mem_append.mp hr with hr | hr
    · exact h.used r hr
    · rwa [List.mem_singleton.mp hr]
  obtain ⟨members, used, heq, hforming⟩ :=
    (Forming.start config (done ++ leader :: rest) leader state.2).foldl (List.Subset.refl _)
  rw [heq]
  have hleads : Leads config leader members := by
    refine ⟨hforming.nodup, fun r hr => ?_, hforming.overlap⟩
    rcases List.mem_append.mp (hforming.listed r hr) with hdone | hrest
    · exact absurd (h.used r hdone) (hforming.unused r hr)
    · rcases List.mem_cons.mp hrest with rfl | hrest
      · exact le_refl _
      · exact List.rel_of_pairwise_cons (List.pairwise_append.mp hsorted).2.1 hrest
  have hmarked : ∀ r ∈ done ++ [leader], r.id ∈ used := by
    intro r hr
    rcases List.mem_append.mp hr with hr | hr
    · exact hforming.keeps (h.used r hr)
    · rw [List.mem_singleton.mp hr]
      exact hforming.marked leader List.mem_cons_self
  have hlisted : ∀ r ∈ state.1.flatMap (·.records), r ∈ done ++ leader :: rest ∧ r.id ∈ used := fun r hr =>
    ⟨(h.listed r hr).1, hforming.keeps (h.listed r hr).2⟩
  show Clustered config _ _ (if config.minClusterSize ≤ (leader :: members).length then
    state.1 ++ [tagCluster leader (leader :: members)] else state.1, used)
  split_ifs with hmin
  · have hrecords : ∀ r, r ∈ (tagCluster leader (leader :: members)).records ↔ r ∈ leader :: members := fun r =>
      mem_sortById
    have hnew : ∀ r ∈ leader :: members, r ∈ done ++ leader :: rest ∧ r.id ∉ state.2 := by
      intro r hr
      rcases List.mem_cons.mp hr with rfl | hr
      · exact ⟨List.mem_append_right _ List.mem_cons_self, hused⟩
      · exact ⟨hforming.listed r hr, hforming.unused r hr⟩
    constructor
    · exact hmarked
    · rw [List.flatMap_append, List.map_append, List.flatMap_singleton]
      have hnodup : ((tagCluster leader (leader :: members)).records.map (·.id)).Nodup :=
        ((perm_sortById _).map _).nodup_iff.mpr hforming.nodup
      refine List.nodup_append.mpr ⟨h.nodup, hnodup, fun a ha b hb hab => ?_⟩
      obtain ⟨old, hold, hid⟩ := List.mem_map.mp ha
      obtain ⟨r, hr, hid'⟩ := List.mem_map.mp hb
      apply (hnew r ((hrecords r).mp hr)).2
      rw [hid', ← hab, ← hid]
      exact (h.listed old hold).2
    · intro r hr
      rw [List.flatMap_append, List.flatMap_singleton] at hr
      rcases List.mem_append.mp hr with hr | hr
      · exact hlisted r hr
      · exact ⟨(hnew r ((hrecords r).mp hr)).1, hforming.marked r ((hrecords r).mp hr)⟩
    · intro c hc
      rcases List.mem_append.mp hc with hc | hc
      · exact h.led c hc
      · exact ⟨leader, members, List.mem_singleton.mp hc, hleads⟩
    · intro c hc
      rcases List.mem_append.mp hc with hc | hc
      · exact h.sizes c hc
      · rw [List.mem_singleton.mp hc, tagCluster, length_sortById]
        exact ⟨hmin, hforming.length⟩
  · exact ⟨hmarked, h.nodup, hlisted, h.led, h.sizes⟩

theorem Clustered.foldl : ∀ {rest done : List ExperienceRecord}
    {state : List ExperienceCluster × List String}, (done ++ rest).Pairwise (fun a b => a.id ≤ b.id) →
      Clustered config (done ++ rest) done state →
      Clustered config (done ++ rest) (done ++ rest) (rest.foldl (Distillation.tagStep config (done ++ rest)) state)
  | [], done, state, _, h => by rwa [List.foldl_nil, List.append_nil] at *
  | leader :: rest, done, state, hsorted, h => by
    have hstep := h.tagStep hsorted
    rw [List.append_cons] at hsorted hstep ⊢
    exact hstep.foldl hsorted

theorem clustered_clusterByTag (config : DistillationClusterConfig) (records : List ExperienceRecord) :
    ∃ used, Clustered config (sortById records) (sortById records) (clusterByTag config records, used) := by
  have hstart : Clustered config ([] ++ sortById records) [] ([], []) :=
    ⟨fun _ h => absurd h List.not_mem_nil, List.nodup_nil, fun _ h => absurd h List.not_mem_nil,
      fun _ h => absurd h List.not_mem_nil, fun _ h => absurd h List.not_mem_nil⟩
  exact ⟨_, hstart.foldl (pairwise_sortById records)⟩

theorem foldl_joinGroup_all :
    ∀ {rest group : List ExperienceRecord} {used : List String}, (∀ r ∈ rest, r.id ∉ used) →
      (rest.map (·.id)).Nodup → (∀ r ∈ rest, config.minOverlap ≤ overlap leader r) →
      group.length + rest.length ≤ config.maxClusterSize →
      rest.foldl (joinGroup config leader) (group, used) = (group ++ rest, used ++ rest.map (·.id))
  | [], group, used, _, _, _, _ => by rw [List.foldl_nil, List.append_nil, List.map_nil, List.append_nil]
  | r :: rest, group, used, hunused, hnodup, hoverlap, hlength => by
    rw [List.length_cons] at hlength
    rw [List.map_cons, List.nodup_cons] at hnodup
    have hjoin : joinGroup config leader (group, used) r = (group ++ [r], used ++ [r.id]) := by
      unfold joinGroup
      rw [if_neg, if_pos (hoverlap r List.mem_cons_self)]
      rw [not_or, not_le]
      exact ⟨hunused r List.mem_cons_self, by show group.length < _; omega⟩
    have hunused' : ∀ r' ∈ rest, r'.id ∉ used ++ [r.id] := by
      intro r' hr' hmem
      rcases List.mem_append.mp hmem with hmem | hmem
      · exact hunused r' (List.mem_cons_of_mem _ hr') hmem
      · exact hnodup.1 (List.mem_singleton.mp hmem ▸ List.mem_map_of_mem hr')
    rw [List.foldl_cons, hjoin, foldl_joinGroup_all hunused' hnodup.2
      (fun r' hr' => hoverlap r' (List.mem_cons_of_mem _ hr')) (by rw [List.length_append, List.length_singleton]; omega)]
    rw [List.append_assoc, List.append_assoc, List.map_cons, List.singleton_append, List.singleton_append]

theorem foldl_tagStep_of_used {sorted : List ExperienceRecord}
    {state : List ExperienceCluster × List String} : ∀ {rest : List ExperienceRecord}, (∀ r ∈ rest, r.id ∈ state.2) →
      rest.foldl (tagStep config sorted) state = state
  | [], _ => rfl
  | r :: rest, h => by
    have hskip : tagStep config sorted state r = state := by
      unfold tagStep
      rw [if_pos (h r List.mem_cons_self)]
    rw [List.foldl_cons, hskip, foldl_tagStep_of_used fun r' hr' => h r' (List.mem_cons_of_mem _ hr')]

theorem sortById_of_leads (h : Leads config leader members) :
    sortById (leader :: members) = leader :: sortById members := by
  show List.orderedInsert _ leader (sortById members) = _
  cases hsorted : sortById members with
  | nil => rfl
  | cons r rest =>
    exact List.orderedInsert_cons_of_le _ _ (h.later r (mem_sortById.mp (hsorted ▸ List.mem_cons_self)))

theorem clusterByTag_of_leads (h : Leads config leader members)
    (hmin : config.minClusterSize ≤ (leader :: members).length)
    (hmax : (leader :: members).length ≤ config.maxClusterSize) :
    ∃ c ∈ clusterByTag config (leader :: members), c.records.Perm (leader :: members) := by
  have hperm := perm_sortById members
  have hids : ((leader :: sortById members).map (·.id)).Nodup := ((hperm.cons leader).map _).nodup_iff.mpr h.nodup
  rw [List.map_cons, List.nodup_cons] at hids
  have hunused : ∀ r ∈ sortById members, r.id ∉ [leader.id] := fun r hr hmem =>
    hids.1 (List.mem_singleton.mp hmem ▸ List.mem_map_of_mem hr)
  have hgroup : (leader :: sortById members).foldl (joinGroup config leader) ([leader], [] ++ [leader.id]) =
      ([leader] ++ sortById members, [leader.id] ++ (sortById members).map (·.id)) := by
    have hskip : joinGroup config leader ([leader], [leader.id]) leader = ([leader], [leader.id]) := by
      unfold joinGroup
      rw [if_pos (.inl (List.mem_singleton_self _))]
    rw [List.nil_append, List.foldl_cons, hskip]
    refine foldl_joinGroup_all hunused hids.2 (fun r hr => h.overlap r (mem_sortById.mp hr)) ?_
    rw [length_sortById, List.length_singleton, add_comm]
    exact hmax
  have hstep : tagStep config (leader :: sortById members) ([], []) leader =
      ([tagCluster leader (leader :: sortById members)], leader.id :: (sortById members).map (·.id)) := by
    unfold tagStep
    rw [if_neg List.not_mem_nil]
    dsimp only
    rw [hgroup, if_pos]
    · rfl
    · rw [List.singleton_append, List.length_cons, length_sortById]
      exact hmin
  refine ⟨tagCluster leader (leader :: sortById members), ?_, (perm_sortById _).trans (hperm.cons leader)⟩
  unfold clusterByTag
  rw [sortById_of_leads h]
  dsimp only
  rw [List.foldl_cons, hstep, foldl_tagStep_of_used]
  · exact List.mem_singleton_self _
  · exact fun r hr => List.mem_cons_of_mem _ (List.mem_map_of_mem hr)

/-! ## Every list of records -/

structure Identified (config : DistillationClusterConfig) (active : List ExperienceRecord)
    (clusters : List ExperienceCluster) : Prop where
  taken : (clusters.flatMap (·.records)).Subperm active
  sizes : ∀ c ∈ clusters, config.minClusterSize ≤ c.records.length ∧ c.records.length ≤ config.maxClusterSize
  formed : ∀ c ∈ clusters, ∃ group, c.records.Perm group ∧ MayGroup config group ∧
    ∃ r ∈ group, r.projectId = c.projectId

theorem identified_clusterByProject (h : config.clusteringStrategy ≠ .tag)
    (active : List ExperienceRecord) : Identified config active (clusterByProject config active) := by
  have hsizes : ∀ c ∈ clusterByProject config active,
      config.minClusterSize ≤ c.records.length ∧ c.records.length ≤ config.maxClusterSize := by
    intro c hc
    obtain ⟨e, -, he⟩ := List.mem_flatMap.mp hc
    exact projectClusters_sizes he
  refine ⟨clusterByProject_subperm config active, hsizes, fun c hc => ⟨c.records, List.Perm.refl _, ?_, ?_⟩⟩
  · have hproject := clusterByProject_projectId hc
    have hgroup : ∀ a ∈ c.records, ∀ b ∈ c.records, a.projectId = b.projectId := fun a ha b hb =>
      (hproject a ha).trans (hproject b hb).symm
    unfold MayGroup
    cases hstrategy : config.clusteringStrategy with
    | project | semantic => exact hgroup
    | tag => exact absurd hstrategy h
  · have hpos : 0 < c.records.length := lt_of_lt_of_le (by have := config.two_le_min; omega) (hsizes c hc).1
    obtain ⟨r, hr⟩ := List.exists_mem_of_length_pos hpos
    exact ⟨r, hr, clusterByProject_projectId hc r hr⟩

theorem identified_clusterByTag (h : config.clusteringStrategy = .tag)
    (active : List ExperienceRecord) : Identified config active (clusterByTag config active) := by
  obtain ⟨used, hclustered⟩ := clustered_clusterByTag config active
  refine ⟨?_, hclustered.sizes, fun c hc => ?_⟩
  · have hsubset : (clusterByTag config active).flatMap (·.records) ⊆ active := fun r hr =>
      mem_sortById.mp (hclustered.listed r hr).1
    exact List.subperm_of_subset (hclustered.nodup.of_map _) hsubset
  · obtain ⟨leader, members, rfl, hleads⟩ := hclustered.led c hc
    refine ⟨leader :: members, perm_sortById _, ?_, leader, List.mem_cons_self, rfl⟩
    unfold MayGroup
    rw [h]
    exact ⟨leader, members, rfl, hleads⟩

theorem identified_identifyClusters (config : DistillationClusterConfig) (records : List ExperienceRecord) :
    Identified config (records.filter isCandidate) (identifyClusters records config) := by
  unfold identifyClusters
  dsimp only
  split_ifs with hnone
  · exact ⟨List.nil_subperm, fun _ h => absurd h List.not_mem_nil, fun _ h => absurd h List.not_mem_nil⟩
  · split
    · rename_i hstrategy
      exact identified_clusterByProject (by rw [hstrategy]; decide) _
    · rename_i hstrategy
      exact identified_clusterByProject (by rw [hstrategy]; decide) _
    · rename_i hstrategy
      exact identified_clusterByTag hstrategy _

theorem Identified.group_subperm {active : List ExperienceRecord} (h : Identified config active clusters)
    (hc : c ∈ clusters) : c.records.Subperm active :=
  (List.sublist_flatten_of_mem (List.mem_map_of_mem hc)).subperm.trans h.taken

theorem lifecycleStatus_of_isCandidate (h : isCandidate r = true)
    (hkept : r.lifecycleStatus ≠ .hardDeleted) : r.lifecycleStatus = .active := by
  unfold isCandidate at h
  cases hstatus : r.lifecycleStatus <;> simp_all

theorem separate_of_groupsAlike
    (h : GroupsAlike config records) : Separate config records (identifyClusters records config) := by
  have hidentified := identified_identifyClusters config records
  have htaken := hidentified.taken.trans List.filter_sublist.subperm
  have halike : ∀ c ∈ identifyClusters records config, ∀ r ∈ c.records,
      r.projectId = c.projectId ∧ r.lifecycleStatus ≠ .hardDeleted := by
    intro c hc r hr
    obtain ⟨group, hperm, hgroup, r', hr', hproject⟩ := hidentified.formed c hc
    have hsizes := hidentified.sizes c hc
    rw [hperm.length_eq] at hsizes
    have hgroupAlike := h group (hperm.symm.subperm.trans (hidentified.group_subperm hc)) hgroup hsizes.1 hsizes.2
    have hr := hperm.mem_iff.mp hr
    exact ⟨(hgroupAlike.project r hr r' hr').trans hproject, hgroupAlike.kept r hr⟩
  refine ⟨htaken, pairwise_of_taken htaken, hidentified.sizes, fun c hc r hr => (halike c hc r hr).1,
    fun c hc _ r hr => (halike c hc r hr).1.symm, fun c hc r hr => ?_⟩
  have hcandidate : isCandidate r = true :=
    (List.mem_filter.mp ((hidentified.group_subperm hc).subset hr)).2
  exact lifecycleStatus_of_isCandidate hcandidate (halike c hc r hr).2

theorem exists_cluster_of_mayGroup (hcandidates : ∀ r ∈ group, isCandidate r = true) (h : MayGroup config group)
    (hmin : config.minClusterSize ≤ group.length) (hmax : group.length ≤ config.maxClusterSize) :
    ∃ c ∈ identifyClusters group config, c.records.Perm group := by
  have hfilter : group.filter isCandidate = group := List.filter_eq_self.mpr hcandidates
  have hnonempty : group ≠ [] := by
    rintro rfl
    have := config.two_le_min
    simp only [List.length_nil] at hmin
    omega
  unfold identifyClusters
  rw [hfilter, if_neg hnonempty]
  unfold MayGroup at h
  split at h
  · exact clusterByProject_of_alike h hmin hmax
  · exact clusterByProject_of_alike h hmin hmax
  · obtain ⟨leader, members, rfl, hleads⟩ := h
    exact clusterByTag_of_leads hleads hmin hmax

def taggedRecord (id projectId : String) (h : isUuid projectId = true) : ExperienceRecord where
  val :=
    { id := id
      content := "content"
      type := .experienceRecord
      scope := .project
      projectId := some projectId
      traceId := "trace"
      sentiment := some .strongPositive
      createdAt := ⟨"2026-01-01T00:00:00.000Z", 0⟩
      updatedAt := ⟨"2026-01-01T00:00:00.000Z", 0⟩
      mutabilityClass := .domainVersioned
      lifecycleStatus := .active
      supersededBy := none
      deletedAt := none
      tombstoneId := none
      placementState := .project
      lastMutationId := none
      embedding := none
      context := some "context"
      action := some "action"
      outcome := some "outcome"
      reason := some "reason"
      tags := ["deploy"]
      patternRefs := none }
  property := ⟨rfl, rfl, rfl, rfl, rfl, rfl, h⟩

def ourRecord : ExperienceRecord :=
  taggedRecord "550e8400-e29b-41d4-a716-446655440040" "550e8400-e29b-41d4-a716-446655440000" (by decide)

def theirRecord : ExperienceRecord :=
  taggedRecord "550e8400-e29b-41d4-a716-446655440041" "550e8400-e29b-41d4-a716-446655440001" (by decide)

def tagConfig : DistillationClusterConfig where
  minClusterSize := 2
  maxClusterSize := 3
  clusteringStrategy := .tag
  tagOverlapMin := some 1
  two_le_min := le_refl _
  min_le := by decide
  three_le_max := le_refl _
  max_le := by decide
  overlap_pos := fun _ h => (Option.some.inj h).le

end NousCore.Distillation
