import NousCore.Packages.Resolver

/-!
# Resolutions are sound when the first demand of a type stands for all

A dependency that is met again adds its range to the constraint of its package, but not its type.

* `Settled` : the release selected for a package meets its constraint, and its dependencies are constrained by it;
* `Extends path` : what a search below the packages on `path` may change;
* `resolveDependencyGraph_sound_iff` : when the resolution is sound.
-/

namespace NousCore.Packages

open Relation DepthFirst

variable {id : PackageId}

theorem RegistryRelease.mem_dependencyIds {release : RegistryRelease} :
    id ∈ release.dependencyIds ↔ ∃ d ∈ release.requiredDependencies, d.packageId = id := by
  unfold dependencyIds
  rw [List.mem_eraseDups, List.mem_map]

/-! ## What a search keeps of its state -/

/-- A demand of a settled package: its range is in the constraint, which has a type. -/
def ResolverState.Demands (state : ResolverState) (d : PackageDependencySpec) : Prop :=
  (∃ constraint, state.constraints.get? d.packageId = some constraint ∧ d.versionRange ∈ constraint.requestedRanges ∧
    constraint.packageType ≠ none) ∧ state.edges.get? d.packageId ≠ none

/-- No walk along the edges from `id` meets the `path`. -/
def ResolverState.Avoids (state : ResolverState) (path : List PackageId) (id : PackageId) : Prop :=
  ∀ x, ReflTransGen (Edge state.next) id x → x ∉ path

/-- `d` is a required dependency of some release of the registry. -/
def DependencyResolver.Demanded (resolver : DependencyResolver) (d : PackageDependencySpec) : Prop :=
  ∃ id releases release, resolver.registry.get? id = some releases ∧ release ∈ releases ∧
    d ∈ release.requiredDependencies

structure Settled (resolver : DependencyResolver) (state : ResolverState) (id : PackageId) (release : RegistryRelease) :
    Prop where
  selected : state.selected.get? id = some release
  listed : ∃ releases, resolver.registry.get? id = some releases ∧ release ∈ releases
  admitted : ∃ constraint, state.constraints.get? id = some constraint ∧ resolver.admits constraint release = true
  edges : state.edges.get? id = some release.dependencyIds
  demands : ∀ d ∈ release.requiredDependencies, state.Demands d

/-- A constraint that has met more demands. -/
structure PackageConstraint.Grown (before after : PackageConstraint) : Prop where
  ranges : before.requestedRanges ⊆ after.requestedRanges
  packageType : ∀ t, before.packageType = some t → after.packageType = some t
  pinned : after.pinnedReleaseId = before.pinnedReleaseId

theorem PackageConstraint.grown_merge (existing : PackageConstraint) (d : PackageDependencySpec) (parentId : PackageId) :
    existing.Grown (existing.merge d parentId) := by
  refine ⟨fun range h => mem_addToSet.mpr (.inl h), fun t h => ?_, rfl⟩
  unfold merge
  rw [h]
  rfl

/-- **What a search below the `path` may change.** The packages on the path keep what is said of them, constraints only
grow, and a package whose edges change leads nowhere on the path. -/
structure Extends (resolver : DependencyResolver) (path : List PackageId) (before after : ResolverState) : Prop where
  constraints_path : ∀ x ∈ path, after.constraints.get? x = before.constraints.get? x
  selected_path : ∀ x ∈ path, after.selected.get? x = before.selected.get? x
  edges_path : ∀ x ∈ path, after.edges.get? x = before.edges.get? x
  grown : ∀ x constraint, before.constraints.get? x = some constraint →
    ∃ constraint', after.constraints.get? x = some constraint' ∧ constraint.Grown constraint'
  typed : ∀ x constraint' t, after.constraints.get? x = some constraint' → constraint'.packageType = some t →
    (∃ constraint, before.constraints.get? x = some constraint ∧ constraint.packageType = some t) ∨
      ∃ d, resolver.Demanded d ∧ d.packageId = x ∧ d.packageType = t
  resolved : ∀ x, before.edges.get? x ≠ none → after.edges.get? x ≠ none
  changed : ∀ x, after.edges.get? x ≠ before.edges.get? x → after.Avoids path x

section Avoids

variable {before after : ResolverState} {path : List PackageId}

/-- A walk that meets no package of the path meets none later, when what has changed off the path avoids it. -/
theorem ResolverState.Avoids.mono
    (hchanged : ∀ x, x ∉ path → after.edges.get? x ≠ before.edges.get? x → after.Avoids path x)
    (h : before.Avoids path id) : after.Avoids path id := by
  intro y hy
  induction hy using ReflTransGen.head_induction_on with
  | refl => exact h y .refl
  | @head x z hxz hzy ih =>
    by_cases hsame : after.edges.get? x = before.edges.get? x
    · have hedge : Edge before.next x z := by
        unfold Edge ResolverState.next at hxz ⊢
        rwa [← hsame]
      exact ih fun w hw => h w (.head hedge hw)
    · exact hchanged x (h x .refl) hsame y (.head hxz hzy)

end Avoids

namespace Extends

variable {resolver : DependencyResolver} {path : List PackageId} {a b c : ResolverState}

theorem refl (resolver : DependencyResolver) (path : List PackageId) (a : ResolverState) :
    Extends resolver path a a where
  constraints_path := fun _ _ => rfl
  selected_path := fun _ _ => rfl
  edges_path := fun _ _ => rfl
  grown := fun _ constraint h => ⟨constraint, h, List.Subset.refl _, fun _ h => h, rfl⟩
  typed := fun _ constraint _ h ht => .inl ⟨constraint, h, ht⟩
  resolved := fun _ h => h
  changed := fun _ h => absurd rfl h

theorem trans (hab : Extends resolver path a b) (hbc : Extends resolver path b c) : Extends resolver path a c where
  constraints_path := fun x hx => (hbc.constraints_path x hx).trans (hab.constraints_path x hx)
  selected_path := fun x hx => (hbc.selected_path x hx).trans (hab.selected_path x hx)
  edges_path := fun x hx => (hbc.edges_path x hx).trans (hab.edges_path x hx)
  grown := by
    intro x constraint h
    obtain ⟨constraint', h', hgrown⟩ := hab.grown x constraint h
    obtain ⟨constraint'', h'', hgrown'⟩ := hbc.grown x constraint' h'
    exact ⟨constraint'', h'', List.Subset.trans hgrown.ranges hgrown'.ranges,
      fun t ht => hgrown'.packageType t (hgrown.packageType t ht), hgrown'.pinned.trans hgrown.pinned⟩
  typed := by
    intro x constraint'' t h'' ht
    rcases hbc.typed x constraint'' t h'' ht with ⟨constraint', h', ht'⟩ | hdemanded
    · exact hab.typed x constraint' t h' ht'
    · exact .inr hdemanded
  resolved := fun x h => hbc.resolved x (hab.resolved x h)
  changed := by
    intro x h
    by_cases hxb : c.edges.get? x = b.edges.get? x
    · exact (hab.changed x (hxb ▸ h)).mono fun y _ hy => hbc.changed y hy
    · exact hbc.changed x hxb

theorem demands {d : PackageDependencySpec} (h : Extends resolver path a b) (hd : a.Demands d) : b.Demands d := by
  obtain ⟨⟨constraint, hget, hrange, htype⟩, hedges⟩ := hd
  obtain ⟨constraint', hget', hgrown⟩ := h.grown _ _ hget
  refine ⟨⟨constraint', hget', hgrown.ranges hrange, ?_⟩, h.resolved _ hedges⟩
  obtain ⟨t, ht⟩ := Option.ne_none_iff_exists'.mp htype
  rw [hgrown.packageType t ht]
  exact Option.some_ne_none t

theorem avoids (h : Extends resolver path a b) (hid : a.Avoids path id) : b.Avoids path id :=
  hid.mono fun x _ hx => h.changed x hx

theorem merge {d : PackageDependencySpec} {parentId : PackageId} (hd : d.packageId ∉ path)
    (hdemanded : resolver.Demanded d) : Extends resolver path a (mergeDependencyConstraint a d parentId) where
  constraints_path := by
    intro x hx
    unfold mergeDependencyConstraint
    rw [Record.get?_set, if_neg fun h : x = d.packageId => hd (h ▸ hx)]
  selected_path := fun _ _ => rfl
  edges_path := fun _ _ => rfl
  grown := by
    intro x constraint h
    unfold mergeDependencyConstraint
    rw [Record.get?_set]
    by_cases hx : x = d.packageId
    · subst hx
      rw [if_pos rfl, h]
      exact ⟨_, rfl, constraint.grown_merge d parentId⟩
    · rw [if_neg hx]
      exact ⟨constraint, h, List.Subset.refl _, fun _ h => h, rfl⟩
  typed := by
    intro x constraint' t h' ht
    unfold mergeDependencyConstraint at h'
    rw [Record.get?_set] at h'
    by_cases hx : x = d.packageId
    · subst hx
      rw [if_pos rfl, Option.some.injEq] at h'
      subst h'
      cases hget : a.constraints.get? d.packageId with
      | none =>
        rw [hget] at ht
        exact .inr ⟨d, hdemanded, rfl, Option.some.inj ht⟩
      | some constraint =>
        rw [hget] at ht
        cases htype : constraint.packageType with
        | none =>
          refine .inr ⟨d, hdemanded, rfl, ?_⟩
          rw [PackageConstraint.merge, Option.getD_some, htype] at ht
          exact Option.some.inj ht
        | some t' =>
          refine .inl ⟨constraint, rfl, ?_⟩
          rw [PackageConstraint.merge, Option.getD_some, htype] at ht
          rw [htype]
          exact ht
    · rw [if_neg hx] at h'
      exact .inl ⟨constraint', h', ht⟩
  resolved := fun _ h => h
  changed := fun x h => absurd rfl h

end Extends

theorem demand_merge (state : ResolverState) (d : PackageDependencySpec) (parentId : PackageId) :
    ∃ constraint, (mergeDependencyConstraint state d parentId).constraints.get? d.packageId = some constraint ∧
      d.versionRange ∈ constraint.requestedRanges ∧ constraint.packageType ≠ none := by
  unfold mergeDependencyConstraint
  rw [Record.get?_set, if_pos rfl]
  refine ⟨_, rfl, mem_addToSet.mpr (.inr rfl), ?_⟩
  unfold PackageConstraint.merge
  cases ((state.constraints.get? d.packageId).getD {}).packageType with
  | none | some => exact Option.some_ne_none _

theorem Settled.mono {resolver : DependencyResolver} {before after : ResolverState}
    {release : RegistryRelease} (h : Settled resolver before id release)
    (hconstraints : after.constraints.get? id = before.constraints.get? id)
    (hselected : after.selected.get? id = before.selected.get? id)
    (hedges : after.edges.get? id = before.edges.get? id) (hdemands : ∀ d, before.Demands d → after.Demands d) :
    Settled resolver after id release where
  selected := hselected.trans h.selected
  listed := h.listed
  admitted := by
    rw [hconstraints]
    exact h.admitted
  edges := hedges.trans h.edges
  demands := fun d hd => hdemands d (h.demands d hd)

def SettledOff (resolver : DependencyResolver) (path : List PackageId) (state : ResolverState) : Prop :=
  ∀ x, x ∉ path → state.edges.get? x ≠ none → ∃ release, Settled resolver state x release

/-- What a search for `id` below the `path` leaves. -/
structure Resolves (resolver : DependencyResolver) (path : List PackageId) (id : PackageId)
    (before after : ResolverState) : Prop where
  extend : Extends resolver path before after
  acyclic : Acyclic after.next
  settled : SettledOff resolver path after
  resolved : after.edges.get? id ≠ none
  avoids : after.Avoids path id

/-! ## The search -/

namespace DependencyResolver

variable {resolver : DependencyResolver}

variable {recur : PackageId → ResolverState → Option ResolveResult} {packageId : PackageId}

/-- What the dependencies of a candidate leave, when each search below the candidate's path leaves it right. -/
theorem resolveDependencies_spec {path : List PackageId}
    (hrecur : ∀ id before after, Acyclic before.next →
      (∀ x, x ∉ path ++ [packageId] → x ≠ id → before.edges.get? x ≠ none → ∃ release, Settled resolver before x release) →
      recur id before = some (.ok after) → Resolves resolver (path ++ [packageId]) id before after) :
    ∀ (ds : List PackageDependencySpec) {before after : ResolverState}, (∀ d ∈ ds, resolver.Demanded d) →
      Acyclic before.next → SettledOff resolver (path ++ [packageId]) before →
      resolveDependencies recur packageId path ds before = some (.ok after) →
      Extends resolver (path ++ [packageId]) before after ∧ Acyclic after.next ∧
        SettledOff resolver (path ++ [packageId]) after ∧
        ∀ d ∈ ds, after.Demands d ∧ after.Avoids (path ++ [packageId]) d.packageId := by
  intro ds
  induction ds with
  | nil =>
    intro before after _ hacyclic hsettled h
    obtain rfl : before = after := ResolveResult.ok.inj (Option.some.inj h)
    exact ⟨.refl _ _ _, hacyclic, hsettled, fun d hd => absurd hd List.not_mem_nil⟩
  | cons d ds ih =>
    intro before after hdemanded hacyclic hsettled h
    unfold resolveDependencies at h
    by_cases hpath : d.packageId ∈ path
    · rw [if_pos hpath] at h
      cases h
    rw [if_neg hpath] at h
    obtain ⟨mid, hmid, hrest⟩ : ∃ mid, recur d.packageId (mergeDependencyConstraint before d packageId) =
        some (.ok mid) ∧ resolveDependencies recur packageId path ds mid = some (.ok after) := by
      cases hr : recur d.packageId (mergeDependencyConstraint before d packageId) with
      | none => rw [hr] at h; cases h
      | some result =>
        rw [hr] at h
        cases result with
        | ok mid => exact ⟨mid, rfl, h⟩
        | failed failure => cases h
        | threw => cases h
    -- only the constraint of the dependency has changed before its search
    have hmerged : ∀ x, x ∉ path ++ [packageId] → x ≠ d.packageId →
        (mergeDependencyConstraint before d packageId).edges.get? x ≠ none →
        ∃ release, Settled resolver (mergeDependencyConstraint before d packageId) x release := by
      intro x hx hne hedges
      obtain ⟨release, hrelease⟩ := hsettled x hx hedges
      refine ⟨release, hrelease.mono ?_ rfl rfl ?_⟩
      · unfold mergeDependencyConstraint
        rw [Record.get?_set, if_neg hne]
      · have hextend : Extends resolver [] before (mergeDependencyConstraint before d packageId) :=
          .merge List.not_mem_nil (hdemanded d List.mem_cons_self)
        exact fun e he => hextend.demands he
    have hresolves := hrecur d.packageId (mergeDependencyConstraint before d packageId) mid hacyclic hmerged hmid
    have hoff : d.packageId ∉ path ++ [packageId] := hresolves.avoids _ .refl
    have hextend : Extends resolver (path ++ [packageId]) before mid :=
      (Extends.merge hoff (hdemanded d List.mem_cons_self)).trans hresolves.extend
    have hdemand : mid.Demands d := by
      obtain ⟨constraint, hget, hrange, htype⟩ := demand_merge before d packageId
      obtain ⟨constraint', hget', hgrown⟩ := hresolves.extend.grown _ _ hget
      obtain ⟨t, ht⟩ := Option.ne_none_iff_exists'.mp htype
      refine ⟨⟨constraint', hget', hgrown.ranges hrange, ?_⟩, hresolves.resolved⟩
      rw [hgrown.packageType t ht]
      exact Option.some_ne_none t
    obtain ⟨hthen, hacyclic', hsettled', hall⟩ := ih (fun e he => hdemanded e (List.mem_cons_of_mem _ he))
      hresolves.acyclic hresolves.settled hrest
    refine ⟨hextend.trans hthen, hacyclic', hsettled', fun e he => ?_⟩
    rcases List.mem_cons.mp he with rfl | he
    · exact ⟨hthen.demands hdemand, hthen.avoids hresolves.avoids⟩
    · exact hall e he

variable {state : ResolverState}

theorem tryCandidates_ok {path : List PackageId} {after : ResolverState} : ∀ {candidates : List RegistryRelease}
      {lastFailure : Option PackageResolutionFailure},
      tryCandidates recur packageId path state candidates lastFailure = some (.ok after) →
      ∃ candidate ∈ candidates, ∃ resolved, resolveDependencies recur packageId path candidate.requiredDependencies
          { state with selected := state.selected.set packageId candidate } = some (.ok resolved) ∧
        after = { resolved with edges := resolved.edges.set packageId candidate.dependencyIds } := by
  intro candidates
  induction candidates with
  | nil => intro lastFailure h; exact absurd h (by simp [tryCandidates])
  | cons candidate rest ih =>
    intro lastFailure h
    unfold tryCandidates at h
    cases hr : resolveDependencies recur packageId path candidate.requiredDependencies
        { state with selected := state.selected.set packageId candidate } with
    | none => rw [hr] at h; cases h
    | some result =>
      rw [hr] at h
      cases result with
      | ok resolved => exact ⟨candidate, List.mem_cons_self, resolved, hr, (ResolveResult.ok.inj (Option.some.inj h)).symm⟩
      | failed failure =>
        obtain ⟨other, hother, hthen⟩ := ih h
        exact ⟨other, List.mem_cons_of_mem _ hother, hthen⟩
      | threw => cases h

variable {releases : List RegistryRelease} {constraint : PackageConstraint}

theorem mem_of_mem_selectCandidates {candidates : List RegistryRelease}
    {candidate : RegistryRelease} (h : resolver.selectCandidates releases constraint = some candidates)
    (hmem : candidate ∈ candidates) : candidate ∈ releases ∧ resolver.admits constraint candidate = true := by
  obtain ⟨sorted, hsorted, rfl⟩ := Option.map_eq_some_iff.mp h
  obtain ⟨hmem, hadmits⟩ := List.mem_filter.mp hmem
  cases (Option.ite_none_right_eq_some.mp hsorted).2
  exact ⟨(mem_sortBy _).mp hmem, hadmits⟩

theorem resolvePackageRecursively_ok {fuel : Nat} {after : ResolverState}
    {path : List PackageId} (h : resolver.resolvePackageRecursively (fuel + 1) packageId state path = some (.ok after)) :
    packageId ∉ path ∧ ∃ constraint releases candidate resolved,
      state.constraints.get? packageId = some constraint ∧ resolver.registry.get? packageId = some releases ∧
      candidate ∈ releases ∧ resolver.admits constraint candidate = true ∧
      resolveDependencies
        (fun id state => resolver.resolvePackageRecursively fuel id state (path ++ [packageId])) packageId path
        candidate.requiredDependencies { state with selected := state.selected.set packageId candidate } =
          some (.ok resolved) ∧
      after = { resolved with edges := resolved.edges.set packageId candidate.dependencyIds } := by
  unfold resolvePackageRecursively at h
  by_cases hpath : packageId ∈ path
  · rw [if_pos hpath] at h
    cases h
  rw [if_neg hpath] at h
  refine ⟨hpath, ?_⟩
  cases hconstraint : state.constraints.get? packageId with
  | none => rw [hconstraint] at h; cases h
  | some constraint =>
    rw [hconstraint] at h
    cases hreleases : resolver.registry.get? packageId with
    | none => rw [hreleases] at h; cases h
    | some releases =>
      rw [hreleases] at h
      cases hcandidates : resolver.selectCandidates releases constraint with
      | none => simp only [hcandidates] at h; cases h
      | some candidates =>
        simp only [hcandidates] at h
        cases candidates with
        | nil => cases h
        | cons first rest =>
          obtain ⟨candidate, hmem, resolved, hresolved, hafter⟩ := tryCandidates_ok h
          obtain ⟨hlisted, hadmits⟩ := mem_of_mem_selectCandidates hcandidates hmem
          exact ⟨constraint, releases, candidate, resolved, rfl, rfl, hlisted, hadmits, hresolved, hafter⟩

theorem resolves_of_dependencies {path : List PackageId} {resolved : ResolverState}
    {candidate : RegistryRelease}
    (hpath : packageId ∉ path) (hconstraint : state.constraints.get? packageId = some constraint)
    (hreleases : resolver.registry.get? packageId = some releases) (hlisted : candidate ∈ releases)
    (hadmits : resolver.admits constraint candidate = true)
    (hextend : Extends resolver (path ++ [packageId])
      { state with selected := state.selected.set packageId candidate } resolved)
    (hacyclic : Acyclic resolved.next) (hsettled : SettledOff resolver (path ++ [packageId]) resolved)
    (hall : ∀ d ∈ candidate.requiredDependencies,
      resolved.Demands d ∧ resolved.Avoids (path ++ [packageId]) d.packageId) :
    Resolves resolver path packageId state
      { resolved with edges := resolved.edges.set packageId candidate.dependencyIds } := by
  generalize hafter : ({ resolved with edges := resolved.edges.set packageId candidate.dependencyIds } :
    ResolverState) = after
  have hmemPath : ∀ x ∈ path, x ∈ path ++ [packageId] := fun x hx => List.mem_append_left _ hx
  have hself : packageId ∈ path ++ [packageId] := List.mem_append_right _ List.mem_cons_self
  have hne : ∀ x ∈ path, x ≠ packageId := fun x hx h => hpath (h ▸ hx)
  have hedges : ∀ x, after.edges.get? x = if x = packageId then some candidate.dependencyIds
      else resolved.edges.get? x := by
    intro x
    rw [← hafter]
    exact Record.get?_set ..
  have hconstraints : after.constraints = resolved.constraints := by rw [← hafter]
  have hselected : after.selected = resolved.selected := by rw [← hafter]
  have hkept : ∀ x, resolved.edges.get? x ≠ none → after.edges.get? x ≠ none := by
    intro x hx
    rw [hedges]
    split_ifs
    · exact Option.some_ne_none _
    · exact hx
  have hdemands : ∀ d, resolved.Demands d → after.Demands d := by
    intro d hd
    refine ⟨?_, hkept _ hd.2⟩
    rw [hconstraints]
    exact hd.1
  -- a walk that avoids the package uses none of its edges
  have haway : ∀ {id}, resolved.Avoids (path ++ [packageId]) id → after.Avoids (path ++ [packageId]) id := by
    intro id hid
    refine hid.mono fun x hx hchanged => absurd ?_ hchanged
    rw [hedges, if_neg fun h : x = packageId => hx (h ▸ hself)]
  have hoff : ∀ {id}, after.Avoids (path ++ [packageId]) id → after.Avoids path id :=
    fun hid x hx hmem => hid x hx (hmemPath x hmem)
  have hnext : after.next packageId = candidate.dependencyIds := by
    unfold ResolverState.next
    rw [hedges, if_pos rfl, Option.getD_some]
  have hbelow : ∀ x ∈ after.next packageId, after.Avoids (path ++ [packageId]) x := by
    intro x hx
    rw [hnext] at hx
    obtain ⟨d, hd, rfl⟩ := RegistryRelease.mem_dependencyIds.mp hx
    exact haway (hall d hd).2
  have havoids : after.Avoids path packageId := by
    intro y hy
    rcases ReflTransGen.cases_head hy with rfl | ⟨x, hx, hxy⟩
    · exact hpath
    · exact hoff (hbelow x hx) y hxy
  have hstate : Extends resolver path state resolved := by
    refine ⟨fun x hx => hextend.constraints_path x (hmemPath x hx), fun x hx => ?_,
      fun x hx => hextend.edges_path x (hmemPath x hx), hextend.grown, hextend.typed, hextend.resolved, ?_⟩
    · rw [hextend.selected_path x (hmemPath x hx), Record.get?_set, if_neg (hne x hx)]
    · exact fun x hx y hy hmem => hextend.changed x hx y hy (hmemPath y hmem)
  refine ⟨⟨?_, ?_, ?_, ?_, ?_, fun x hx => hkept x (hstate.resolved x hx), ?_⟩, ?_, ?_, ?_, havoids⟩
  · rw [hconstraints]
    exact hstate.constraints_path
  · rw [hselected]
    exact hstate.selected_path
  · intro x hx
    rw [hedges, if_neg (hne x hx)]
    exact hstate.edges_path x hx
  · rw [hconstraints]
    exact hstate.grown
  · rw [hconstraints]
    exact hstate.typed
  · intro x hx
    by_cases hxp : x = packageId
    · rw [hxp]
      exact havoids
    · rw [hedges, if_neg hxp] at hx
      exact hoff (haway (hextend.changed x hx))
  · refine hacyclic.reroute (p := packageId) (fun x hx => ?_) fun x hx hback => hbelow x hx _ hback hself
    unfold ResolverState.next
    rw [hedges, if_neg hx]
  · intro x hx hresolved
    by_cases hxp : x = packageId
    · subst hxp
      refine ⟨candidate, ?_, ⟨releases, hreleases, hlisted⟩, ⟨constraint, ?_, hadmits⟩, ?_,
        fun d hd => hdemands d (hall d hd).1⟩
      · rw [hselected, hextend.selected_path _ hself, Record.get?_set, if_pos rfl]
      · rw [hconstraints, hextend.constraints_path _ hself]
        exact hconstraint
      · rw [hedges, if_pos rfl]
    · have hxpath : x ∉ path ++ [packageId] := fun hmem => (List.mem_append.mp hmem).elim hx
        fun h => hxp (List.mem_singleton.mp h)
      have hsame : after.edges.get? x = resolved.edges.get? x := by rw [hedges, if_neg hxp]
      obtain ⟨release, hrelease⟩ := hsettled x hxpath (hsame ▸ hresolved)
      exact ⟨release, hrelease.mono (by rw [hconstraints]) (by rw [hselected]) hsame hdemands⟩
  · rw [hedges, if_pos rfl]
    exact Option.some_ne_none _

/-- **What a search leaves.** It starts with every package settled but those on its path and its own. -/
theorem resolvePackageRecursively_spec : ∀ (fuel : Nat) {packageId : PackageId} {path : List PackageId}
    {before after : ResolverState}, Acyclic before.next →
    (∀ x, x ∉ path → x ≠ packageId → before.edges.get? x ≠ none → ∃ release, Settled resolver before x release) →
    resolver.resolvePackageRecursively fuel packageId before path = some (.ok after) →
    Resolves resolver path packageId before after := by
  intro fuel
  induction fuel with
  | zero => intro packageId path before after _ _ h; cases h
  | succ fuel ih =>
    intro packageId path before after hacyclic hsettled h
    obtain ⟨hpath, constraint, releases, candidate, resolved, hconstraint, hreleases, hlisted, hadmits, hresolved, rfl⟩ :=
      resolvePackageRecursively_ok h
    have hstart : SettledOff resolver (path ++ [packageId])
        { before with selected := before.selected.set packageId candidate } := by
      intro x hx hedges
      have hxp : x ≠ packageId := fun h => hx (List.mem_append_right _ (h ▸ List.mem_cons_self))
      obtain ⟨release, hrelease⟩ := hsettled x (fun h => hx (List.mem_append_left _ h)) hxp hedges
      refine ⟨release, hrelease.mono rfl ?_ rfl fun d hd => hd⟩
      rw [Record.get?_set, if_neg hxp]
    have hselected : Acyclic
        ({ before with selected := before.selected.set packageId candidate } : ResolverState).next := hacyclic
    obtain ⟨hextend, hacyclic', hsettled', hall⟩ := resolveDependencies_spec
      (fun id before after hb hs hr => ih hb hs hr) candidate.requiredDependencies
      (fun d hd => ⟨packageId, releases, candidate, hreleases, hlisted, hd⟩) hselected hstart hresolved
    exact resolves_of_dependencies hpath hconstraint hreleases hlisted hadmits hextend hacyclic' hsettled' hall

/-! ## The search ends -/

theorem resolveDependencies_ne_none {path : List PackageId} (hrecur : ∀ id state, recur id state ≠ none) :
    ∀ (ds : List PackageDependencySpec) (state : ResolverState),
      resolveDependencies recur packageId path ds state ≠ none := by
  intro ds
  induction ds with
  | nil => exact fun state => Option.some_ne_none _
  | cons d ds ih =>
    intro state
    unfold resolveDependencies
    split_ifs
    · exact Option.some_ne_none _
    · cases hr : recur d.packageId (mergeDependencyConstraint state d packageId) with
      | none => exact absurd hr (hrecur _ _)
      | some result =>
        cases result with
        | ok mid => exact ih mid
        | failed failure => exact Option.some_ne_none _
        | threw => exact Option.some_ne_none _

theorem tryCandidates_ne_none
    {path : List PackageId} (hrecur : ∀ id state, recur id state ≠ none) (state : ResolverState) :
    ∀ (candidates : List RegistryRelease) (lastFailure : Option PackageResolutionFailure),
      tryCandidates recur packageId path state candidates lastFailure ≠ none := by
  intro candidates
  induction candidates with
  | nil => exact fun lastFailure => Option.some_ne_none _
  | cons candidate rest ih =>
    intro lastFailure
    unfold tryCandidates
    cases hr : resolveDependencies recur packageId path candidate.requiredDependencies
        { state with selected := state.selected.set packageId candidate } with
    | none => exact absurd hr (resolveDependencies_ne_none hrecur _ _)
    | some result =>
      cases result with
      | ok mid => exact Option.some_ne_none _
      | failed failure => exact ih _
      | threw => exact Option.some_ne_none _

/-- **The search ends.** Every package on its path is another one of the registry. -/
theorem resolvePackageRecursively_ne_none : ∀ (fuel : Nat) (packageId : PackageId) (state : ResolverState)
    (path : List PackageId), remaining resolver.registry.keys path < fuel →
    resolver.resolvePackageRecursively fuel packageId state path ≠ none := by
  intro fuel
  induction fuel with
  | zero => intro _ _ _ h; exact absurd h (Nat.not_lt_zero _)
  | succ fuel ih =>
    intro packageId state path hfuel
    unfold resolvePackageRecursively
    split_ifs with hpath
    · exact Option.some_ne_none _
    · cases state.constraints.get? packageId with
      | none => exact Option.some_ne_none _
      | some constraint =>
        cases hreleases : resolver.registry.get? packageId with
        | none => exact Option.some_ne_none _
        | some releases =>
          have hkey : packageId ∈ resolver.registry.keys := Record.mem_keys.mpr ⟨releases, hreleases⟩
          have hless := remaining_append_lt hkey hpath
          cases hcandidates : resolver.selectCandidates releases constraint with
          | none => simp [hcandidates]
          | some candidates =>
            cases candidates with
            | nil => simp [hcandidates]
            | cons first rest =>
              simp only [hcandidates]
              exact tryCandidates_ne_none (fun id state => ih id state _ (by omega)) _ _ _

end DependencyResolver

end NousCore.Packages
