import Mathlib.Logic.Relation
import NousCore.Cost.Aggregates

/-!
# The roots of correlated runs

* `Known`, `Up` : the runs of which an event is recorded, and the steps that a resolution can take;
* `attributed_iff` : the costs of a tree are booked under its root exactly when every event of the tree comes after
  events of all the runs above its own, the root excepted.
-/

namespace NousCore.Cost

open Relation (ReflTransGen TransGen)

/-! ## Forests -/

section

variable {α : Type} {parent : α → Option α} {top : α → α} {x y t : α}

/-- `y` is `x` or one of its ancestors. -/
def Above (parent : α → Option α) : α → α → Prop := ReflTransGen fun x y => parent x = some y

/-- Every run has an ancestor, or is one itself, that has no parent. -/
structure Forest (parent : α → Option α) (top : α → α) : Prop where
  above : ∀ x, Above parent x (top x)
  root : ∀ x, parent (top x) = none

theorem Above.eq_of_root (h : Above parent x y) (hx : parent x = none) : x = y := by
  rcases h.cases_head with rfl | ⟨z, hz, -⟩
  · rfl
  · rw [hx] at hz
    cases hz

theorem Above.linear (hy : Above parent x y) (ht : Above parent x t) (hroot : parent t = none) : Above parent y t := by
  induction hy using ReflTransGen.head_induction_on with
  | refl => exact ht
  | head hz _ ih =>
    rcases ht.cases_head with rfl | ⟨w, hw, hwt⟩
    · rw [hroot] at hz
      cases hz
    · cases hz.symm.trans hw
      exact ih hwt

theorem Forest.top_eq (h : Forest parent top) (hy : Above parent x y) : top y = top x :=
  ((hy.linear (h.above x) (h.root x)).linear (h.above y) (h.root y)).eq_of_root (h.root x) |>.symm

theorem Forest.top_of_root (h : Forest parent top) (hx : parent x = none) : top x = x :=
  ((h.above x).eq_of_root hx).symm

theorem Above.acyclic (h : Above parent x t) (ht : parent t = none) : ¬TransGen (fun x y => parent x = some y) x x := by
  induction h using ReflTransGen.head_induction_on with
  | refl =>
    intro hcycle
    obtain ⟨y, hy, -⟩ := TransGen.head'_iff.mp hcycle
    rw [ht] at hy
    cases hy
  | head hz _ ih =>
    intro hcycle
    obtain ⟨y, hy, hyx⟩ := TransGen.head'_iff.mp hcycle
    cases hz.symm.trans hy
    exact ih (TransGen.tail' hyx hz)

end

/-! ## Resolutions -/

def Known (log : List CostEvent) (run : String) : Prop := ∃ e ∈ log, e.correlationRunId = run

section

variable (parent : String → Option String)

/-- A step from a run of which an event is recorded to its parent. -/
def Up (log : List CostEvent) (x y : String) : Prop :=
  parent x = some y ∧ Known log x

/-- The events name the parents of their runs. -/
def Consistent (log : List CostEvent) : Prop :=
  ∀ e ∈ log, truthy e.correlationParentId = parent e.correlationRunId

/-- What is cached for a run can be reached from it. -/
def Cached (log : List CostEvent) (cache : Record String String) : Prop :=
  ∀ x v, cache.get? x = some v → ReflTransGen (Up parent log) x v

/-- A resolution that goes on from `x` answers with a run above `x`: one that is cached for a run on the way, or one
that is not known or has no parent. That is all that it caches, for runs on the way. -/
structure Settles (log : List CostEvent) (cache : Record String String) (x : String)
    (result : String × Record String String) : Prop where
  up : ReflTransGen (Up parent log) x result.1
  cached : ∀ y v, result.2.get? y = some v →
    cache.get? y = some v ∨ ReflTransGen (Up parent log) y v ∧ v = result.1
  ends : (∃ y, ReflTransGen (Up parent log) x y ∧ cache.get? y = some result.1) ∨ ¬Known log result.1 ∨
    parent result.1 = none

end

section

variable {parent : String → Option String} {top : String → String} {log log' : List CostEvent}
  {cache : Record String String} {run current x y t : String} {visited : List String}

theorem Settles.head {result : String × Record String String} (h : Settles parent log cache y result)
    (hup : Up parent log x y) : Settles parent log cache x result :=
  ⟨.head hup h.up, h.cached, h.ends.imp_left fun ⟨z, hz, hcache⟩ => ⟨z, .head hup hz, hcache⟩⟩

theorem Up.above (h : ReflTransGen (Up parent log) x y) : Above parent x y :=
  ReflTransGen.mono (fun _ _ h => h.1) _ _ h

theorem Cached.mono (h : Cached parent log cache) (hlog : log ⊆ log') : Cached parent log' cache := fun x v hv =>
  ReflTransGen.mono (fun _ _ ⟨hparent, e, he, hrun⟩ => ⟨hparent, e, hlog he, hrun⟩) _ _ (h x v hv)

theorem truthy_eq_some {text : Option String} {s : String} (h : truthy text = some s) : text = some s :=
  (Option.filter_eq_some_iff.mp h).1

theorem get?_cacheRoot (cache : Record String String) (visited : List String) (root key : String) :
    (cacheRoot cache visited root).get? key = if key ∈ visited then some root else cache.get? key := by
  unfold cacheRoot
  induction visited generalizing cache with
  | nil => rfl
  | cons x visited ih =>
    rw [List.foldl_cons, ih, Record.get?_set]
    by_cases hx : key = x <;> by_cases hv : key ∈ visited <;> simp [hx, hv]

theorem settles_cacheRoot {v : String} (hv : ReflTransGen (Up parent log) current v)
    (hvisited : ∀ x ∈ visited, TransGen (Up parent log) x current)
    (hends : (∃ y, ReflTransGen (Up parent log) current y ∧ cache.get? y = some v) ∨ ¬Known log v ∨ parent v = none) :
    Settles parent log cache current (v, cacheRoot cache (visited ++ [current]) v) := by
  refine ⟨hv, fun y w hw => ?_, hends⟩
  rw [get?_cacheRoot] at hw
  split_ifs at hw with hy
  · cases hw
    refine .inr ⟨?_, rfl⟩
    rcases List.mem_append.mp hy with hy | hy
    · exact (hvisited y hy).to_reflTransGen.trans hv
    · exact List.mem_singleton.mp hy ▸ hv
  · exact .inl hw

theorem settles_climb (hforest : Forest parent top) (hconsistent : Consistent parent log)
    (hcached : Cached parent log cache) (hvisited : ∀ x ∈ visited, TransGen (Up parent log) x current) :
    Settles parent log cache current (climb run cache log current visited) := by
  fun_induction climb run cache log current visited with
  | case1 current visited hmet =>
    exact absurd (TransGen.mono (fun _ _ h => h.1) _ _ (hvisited current hmet))
      ((hforest.above current).acyclic (hforest.root current))
  | case2 current visited hnew root hroot =>
    have hroot := truthy_eq_some hroot
    exact settles_cacheRoot (hcached _ _ hroot) hvisited (.inl ⟨current, .refl, hroot⟩)
  | case3 current visited hnew hmissing hunknown =>
    refine settles_cacheRoot .refl hvisited (.inr (.inl ?_))
    rintro ⟨e, he, hrun⟩
    simpa [hrun] using List.find?_eq_none.mp hunknown e he
  | case4 current visited hnew hmissing event hevent hnone =>
    have hrun : event.correlationRunId = current := by simpa using List.find?_some hevent
    rw [hconsistent event (List.mem_of_find?_eq_some hevent), hrun] at hnone
    exact settles_cacheRoot .refl hvisited (.inr (.inr hnone))
  | case5 current visited hnew hmissing event hevent next hnext ih =>
    have hrun : event.correlationRunId = current := by simpa using List.find?_some hevent
    rw [hconsistent event (List.mem_of_find?_eq_some hevent), hrun] at hnext
    have hup : Up parent log current next := ⟨hnext, event, List.mem_of_find?_eq_some hevent, hrun⟩
    have hsettles := ih fun x hx => by
      rcases List.mem_append.mp hx with hx | hx
      · exact (hvisited x hx).tail hup
      · exact List.mem_singleton.mp hx ▸ .single hup
    exact hsettles.head hup

theorem settles_resolve (hforest : Forest parent top) (hconsistent : Consistent parent log)
    (hcached : Cached parent log cache) {e : CostEvent} (he : e ∈ log) :
    Settles parent log cache e.correlationRunId
      (resolveCorrelationRoot e.correlationRunId e.correlationParentId cache log) := by
  unfold resolveCorrelationRoot
  rw [hconsistent e he]
  split
  · next root hroot =>
    have hroot := truthy_eq_some hroot
    exact ⟨hcached _ _ hroot, fun y v hv => .inl hv, .inl ⟨_, .refl, hroot⟩⟩
  · split
    · next hnone =>
      refine ⟨.refl, fun y v hv => ?_, .inr (.inr hnone)⟩
      rw [Record.get?_set] at hv
      split_ifs at hv with hy
      · cases hv
        exact .inr ⟨hy ▸ .refl, rfl⟩
      · exact .inl hv
    · next p hp =>
      have hup : Up parent log e.correlationRunId p := ⟨hp, e, he, rfl⟩
      exact (settles_climb hforest hconsistent hcached fun x hx =>
        List.mem_singleton.mp hx ▸ .single hup).head hup

/-! ## The books of a project -/

/-- What a tree with the root `t` has cost, by the buckets. -/
def bookedAt (roots : Record String AggregationEntry) (t : String) : ℚ := (roots.get? t).elim 0 (·.totalCostUsd)

/-- The costs of the project's events of the tree with the root `t` are booked under `t`, and under no other run of the
tree. -/
structure Attributed (projectId : String) (top : String → String) (t : String) (log : List CostEvent)
    (roots : Record String AggregationEntry) : Prop where
  booked : bookedAt roots t =
    CostState.costOf ((CostState.ofProject projectId log).filter fun e => top e.correlationRunId = t)
  only : ∀ key ∈ roots.keys, top key = t → key = t

/-- When an event of the project and of the tree is recorded, its run and those above it are known, unless they are the
root. -/
def Informed (projectId : String) (parent : String → Option String) (top : String → String) (t : String)
    (log : List CostEvent) : Prop :=
  ∀ before e after, log = before ++ e :: after → e.projectId = projectId → top e.correlationRunId = t →
    ∀ a, Above parent e.correlationRunId a → a ≠ t → Known (before ++ [e]) a

/-- The cache and the buckets of the project, after the events of the log. -/
structure Books (projectId : String) (parent : String → Option String) (top : String → String) (t : String)
    (log : List CostEvent) (cache : Record String String) (roots : Record String AggregationEntry) : Prop where
  cached : Cached parent log cache
  exactly : Attributed projectId top t log roots ↔ Informed projectId parent top t log
  right : Informed projectId parent top t log → ∀ x v, cache.get? x = some v → top x = t → v = t

theorem bookedAt_add (roots : Record String AggregationEntry) (key : String) (e : CostEvent) :
    bookedAt (addToAggregation roots key e) t = bookedAt roots t + if key = t then e.totalCostUsd else 0 := by
  unfold bookedAt addToAggregation Record.addTo
  rw [Record.get?_set]
  by_cases ht : t = key
  · subst ht
    rw [if_pos rfl, if_pos rfl]
    cases roots.get? t with
    | none => exact (zero_add _).symm
    | some entry => rfl
  · rw [if_neg ht, if_neg (Ne.symm ht), add_zero]

theorem mem_keys_add {roots : Record String AggregationEntry} {key k : String} {e : CostEvent} :
    k ∈ (addToAggregation roots key e).keys ↔ k = key ∨ k ∈ roots.keys := by
  unfold addToAggregation Record.addTo
  rw [Record.mem_keys, Record.mem_keys]
  simp only [Record.get?_set]
  by_cases hk : k = key <;> simp [hk]

variable {projectId : String} {roots : Record String AggregationEntry} {e : CostEvent}

theorem informed_snoc : Informed projectId parent top t (log ++ [e]) ↔ Informed projectId parent top t log ∧
    (e.projectId = projectId → top e.correlationRunId = t →
      ∀ a, Above parent e.correlationRunId a → a ≠ t → Known (log ++ [e]) a) := by
  constructor
  · intro h
    exact ⟨fun before e' after hlog => h before e' (after ++ [e]) (by rw [hlog, List.append_assoc]; rfl),
      h log e [] rfl⟩
  · rintro ⟨h, hlast⟩ before e' after hlog
    rcases List.eq_nil_or_concat after with rfl | ⟨after', x, rfl⟩
    · obtain ⟨rfl, he⟩ := List.append_inj' hlog rfl
      obtain rfl := List.singleton_inj.mp he
      exact hlast
    · rw [List.concat_eq_append, ← List.cons_append, ← List.append_assoc] at hlog
      exact h before e' after' (List.append_inj' hlog rfl).1

theorem attributed_snoc : Attributed projectId top t (log ++ [e]) roots ↔ bookedAt roots t =
      CostState.costOf ((CostState.ofProject projectId log).filter fun e => top e.correlationRunId = t) +
        (if e.projectId = projectId ∧ top e.correlationRunId = t then e.totalCostUsd else 0) ∧
      ∀ key ∈ roots.keys, top key = t → key = t := by
  have hcost : CostState.costOf ((CostState.ofProject projectId (log ++ [e])).filter fun e => top e.correlationRunId = t) =
      CostState.costOf ((CostState.ofProject projectId log).filter fun e => top e.correlationRunId = t) +
        if e.projectId = projectId ∧ top e.correlationRunId = t then e.totalCostUsd else 0 := by
    unfold CostState.costOf CostState.ofProject
    by_cases hp : e.projectId = projectId <;> by_cases ht : top e.correlationRunId = t <;> simp [hp, ht]
  rw [← hcost]
  exact ⟨fun h => ⟨h.booked, h.only⟩, fun h => ⟨h.1, h.2⟩⟩

theorem Books.other (h : Books projectId parent top t log cache roots) (he : e.projectId ≠ projectId) :
    Books projectId parent top t (log ++ [e]) cache roots := by
  have hinformed : Informed projectId parent top t (log ++ [e]) ↔ Informed projectId parent top t log := by
    rw [informed_snoc]
    exact and_iff_left fun heq => absurd heq he
  refine ⟨h.cached.mono (List.subset_append_left _ _), ?_, fun hi => h.right (hinformed.mp hi)⟩
  rw [attributed_snoc, if_neg fun hc => he hc.1, add_zero, hinformed, ← h.exactly]
  exact ⟨fun h => ⟨h.1, h.2⟩, fun h => ⟨h.booked, h.only⟩⟩

/-- A resolution that gets to the root has met events of all the runs below it. -/
theorem known_of_up (hup : ReflTransGen (Up parent log) x t) (ht : parent t = none) (ha : Above parent x y) (hy : y ≠ t) :
    Known log y := by
  induction hup using ReflTransGen.head_induction_on with
  | refl => exact absurd (ha.eq_of_root ht).symm hy
  | head hz _ ih =>
    rcases ha.cases_head with rfl | ⟨w, hw, hwy⟩
    · exact hz.2
    · cases hz.1.symm.trans hw
      exact ih hwy

theorem Books.own (h : Books projectId parent top t log cache roots) (hforest : Forest parent top)
    (ht : parent t = none) (hconsistent : Consistent parent (log ++ [e])) (he : e.projectId = projectId) :
    Books projectId parent top t (log ++ [e])
      (resolveCorrelationRoot e.correlationRunId e.correlationParentId cache (log ++ [e])).2
      (addToAggregation roots
        (resolveCorrelationRoot e.correlationRunId e.correlationParentId cache (log ++ [e])).1 e) := by
  have hcached := h.cached.mono (List.subset_append_left log [e])
  have hsettles := settles_resolve hforest hconsistent hcached (List.mem_append_right log List.mem_cons_self)
  generalize resolveCorrelationRoot e.correlationRunId e.correlationParentId cache (log ++ [e]) = result at hsettles ⊢
  obtain ⟨root, cache'⟩ := result
  have htop : top root = top e.correlationRunId := hforest.top_eq (Up.above hsettles.up)
  -- the root is found, given that it was found before, exactly when the runs on the way are known
  have hfound : Informed projectId parent top t (log ++ [e]) → top e.correlationRunId = t → root = t := by
    intro hinformed htree
    obtain ⟨hbefore, hnow⟩ := informed_snoc.mp hinformed
    rcases hsettles.ends with ⟨y, hy, hcache⟩ | hunknown | hroot
    · exact h.right hbefore y root hcache ((hforest.top_eq (Up.above hy)).trans htree)
    · by_contra hne
      exact hunknown (hnow he htree root (Up.above hsettles.up) hne)
    · exact (hforest.top_of_root hroot).symm.trans (htop.trans htree)
  have hnow : root = t ∨ top e.correlationRunId ≠ t → (Informed projectId parent top t (log ++ [e]) ↔
      Informed projectId parent top t log) := by
    intro hcase
    rw [informed_snoc]
    refine and_iff_left fun _ htree a ha hne => ?_
    rcases hcase with rfl | hother
    · exact known_of_up hsettles.up ht ha hne
    · exact absurd htree hother
  refine ⟨fun x v hv => ?_, ?_, fun hinformed x v hv hx => ?_⟩
  · rcases hsettles.cached x v hv with hold | ⟨hup, -⟩
    · exact hcached x v hold
    · exact hup
  · rw [attributed_snoc, bookedAt_add]
    by_cases htree : top e.correlationRunId = t
    · by_cases hroot : root = t
      · rw [hnow (.inl hroot), ← h.exactly, if_pos hroot, if_pos ⟨he, htree⟩, add_left_inj]
        refine ⟨fun hb => ⟨hb.1, fun key hkey => hb.2 key (mem_keys_add.mpr (.inr hkey))⟩, fun hb => ⟨hb.booked, ?_⟩⟩
        intro key hkey hkt
        exact (mem_keys_add.mp hkey).elim (·.trans hroot) (hb.only key · hkt)
      · refine iff_of_false (fun hb => hroot ?_) fun hinformed => hroot (hfound hinformed htree)
        exact hb.2 root (mem_keys_add.mpr (.inl rfl)) (htop.trans htree)
    · have hroot : root ≠ t := fun heq => htree (by rw [← htop, heq, hforest.top_of_root ht])
      rw [hnow (.inr htree), ← h.exactly, if_neg hroot, if_neg fun hc => htree hc.2, add_zero, add_zero]
      refine ⟨fun hb => ⟨hb.1, fun key hkey => hb.2 key (mem_keys_add.mpr (.inr hkey))⟩, fun hb => ⟨hb.booked, ?_⟩⟩
      intro key hkey hkt
      rcases mem_keys_add.mp hkey with rfl | hkey
      · exact absurd (htop.symm.trans hkt) htree
      · exact hb.only key hkey hkt
  · rcases hsettles.cached x v hv with hold | ⟨hup, rfl⟩
    · exact h.right (informed_snoc.mp hinformed).1 x v hold hx
    · exact hfound hinformed (by rw [← htop, hforest.top_eq (Up.above hup), hx])

end

/-! ## Runs of the service -/

namespace CostState

variable {parent : String → Option String} {top : String → String} {projectId t : String} {s s' : CostState}
  {table : PricingTable}

/-- No event of the project is handled after the end of the period that it finds. -/
def StaysInPeriod (projectId : String) (s : CostState) : CostCall → Prop
  | .inference payload _ created checked => payload.projectId.getD "_system" = projectId →
    checked < (s.getOrCreateProjectState projectId created).periodEnd
  | _ => True

/-- The cache and the buckets of a project; both are empty before its first event. -/
def booksOf (s : CostState) (projectId : String) : Record String String × Record String AggregationEntry :=
  ((s.projectStates.get? projectId).map fun state => (state.correlationRootCache, state.byCorrelationRoot)).getD
    (.empty, .empty)

def Booked (projectId : String) (parent : String → Option String) (top : String → String) (t : String) (s : CostState) :
    Prop :=
  Books projectId parent top t s.costEvents (s.booksOf projectId).1 (s.booksOf projectId).2

theorem booked_handleInferenceEvent (hforest : Forest parent top) (ht : parent t = none)
    (h : Booked projectId parent top t s) {payload : InferenceCallCompletePayload} {stamped created checked : Int}
    (hperiod : s.StaysInPeriod projectId (.inference payload stamped created checked))
    (hconsistent : Consistent parent (s.handleInferenceEvent table payload stamped created checked).costEvents) :
    Booked projectId parent top t (s.handleInferenceEvent table payload stamped created checked) := by
  obtain ⟨alerts, pauses, soft, hard, hresult, -⟩ :=
    handleInferenceEvent_spec s table payload stamped created checked rfl rfl
  rw [hresult] at hconsistent ⊢
  unfold Booked booksOf at h ⊢
  rw [Record.get?_set]
  have hproject : (costEvent table payload stamped).projectId = payload.projectId.getD "_system" := rfl
  split_ifs with hself
  · have hstate : checkPeriodBoundary (s.getOrCreateProjectState (costEvent table payload stamped).projectId created)
        checked = s.getOrCreateProjectState projectId created := by
      rw [← hself]
      exact if_neg (not_le.mpr (hperiod (hproject ▸ hself.symm)))
    have hbooks : ((s.getOrCreateProjectState projectId created).correlationRootCache,
        (s.getOrCreateProjectState projectId created).byCorrelationRoot) = s.booksOf projectId := by
      unfold getOrCreateProjectState booksOf
      cases s.projectStates.get? projectId <;> rfl
    have hown := h.own hforest ht hconsistent hself.symm
    rw [show Option.getD _ _ = s.booksOf projectId from rfl, ← hbooks] at hown
    simpa only [Option.map_some, Option.getD_some, countEvent, hstate, accumulate] using hown
  · exact h.other (Ne.symm hself)

theorem booked_of_act (hforest : Forest parent top) (ht : parent t = none) {call : CostCall}
    (h : Booked projectId parent top t s) (hperiod : s.StaysInPeriod projectId call) (hact : s.act table call = .ok s')
    (hconsistent : Consistent parent s'.costEvents) : Booked projectId parent top t s' := by
  cases call with
  | inference payload stamped created checked =>
    unfold act at hact
    dsimp only at hact
    split_ifs at hact
    cases hact
    exact booked_handleInferenceEvent hforest ht h hperiod hconsistent
  | setBudgetPolicy project policy now =>
    unfold act at hact
    dsimp only at hact
    split_ifs at hact
    cases hact
    have hbooks : (s.setBudgetPolicy project policy now).booksOf projectId = s.booksOf projectId := by
      unfold setBudgetPolicy booksOf
      rw [Record.get?_modify]
      split_ifs
      · rw [Option.map_map]
        rfl
      · rfl
    unfold Booked at h ⊢
    rw [hbooks]
    exact h
  | removeBudgetPolicy project =>
    cases hact
    exact h
  | configure project policy =>
    cases hact
    cases policy <;> exact h
  | advance now =>
    unfold act at hact
    dsimp only at hact
    split_ifs at hact
    cases hact
    exact h

theorem events_of_act {call : CostCall} (h : s.act table call = .ok s') : s.costEvents ⊆ s'.costEvents := by
  cases call with
  | inference payload stamped created checked =>
    obtain ⟨_, _, _, _, hresult, -⟩ := handleInferenceEvent_spec s table payload stamped created checked rfl rfl
    unfold act at h
    dsimp only at h
    split_ifs at h
    cases h
    rw [hresult]
    exact List.subset_append_left _ _
  | removeBudgetPolicy project => exact Except.ok.inj h ▸ List.Subset.refl _
  | configure project policy =>
    cases h
    cases policy <;> exact List.Subset.refl _
  | setBudgetPolicy | advance =>
    unfold act at h
    dsimp only at h
    split_ifs at h
    exact Except.ok.inj h ▸ List.Subset.refl _

theorem books_start : Books projectId parent top t [] .empty .empty where
  cached _ _ h := by cases h
  exactly := by
    refine iff_of_true ⟨rfl, fun _ h => absurd h List.not_mem_nil⟩ fun before e after h => ?_
    simp at h
  right _ _ _ h := by cases h

/-- **The roots of a forest.** In every run of the service in which no event of a project comes after the end of its
period, the costs of a tree are booked under its root, and under no other of its runs, exactly when every event was
recorded after events of the runs above its own, the root excepted. -/
theorem attributed_iff {calls : List CostCall}
    (hrun : Run (Guarded (Succeeds (act table)) (StaysInPeriod projectId)) .start calls s) (hforest : Forest parent top)
    (hconsistent : Consistent parent s.costEvents) (ht : parent t = none) {state : ProjectCostState}
    (hstate : s.projectStates.get? projectId = some state) :
    Attributed projectId top t s.costEvents state.byCorrelationRoot ↔ Informed projectId parent top t s.costEvents := by
  have hbooked : Consistent parent s.costEvents → Booked projectId parent top t s :=
    hrun.invariant (P := fun s => Consistent parent s.costEvents → Booked projectId parent top t s)
      (fun _ _ _ h hstep hconsistent => booked_of_act hforest ht
        (h fun e he => hconsistent e (events_of_act hstep.1 he)) hstep.2 hstep.1 hconsistent) fun _ => books_start
  have hexactly := (hbooked hconsistent).exactly
  unfold booksOf at hexactly
  rwa [hstate] at hexactly

/-! ### Three runs, one below the other -/

def chainParent (run : String) : Option String :=
  if run = "c" then some "b" else if run = "b" then some "a" else none

def chainTop (run : String) : String := if run = "c" ∨ run = "b" then "a" else run

theorem forest_chain : Forest chainParent chainTop := by
  have hb : Above chainParent "b" "a" := .single rfl
  constructor
  · intro x
    unfold chainTop
    split_ifs with hx
    · rcases hx with rfl | rfl
      · exact .head rfl hb
      · exact hb
    · exact .refl
  · intro x
    unfold chainTop
    split_ifs with hx
    · rfl
    · rw [not_or] at hx
      exact (if_neg hx.1).trans (if_neg hx.2)

/-- An event of each of the runs, in this order. -/
def chainCalls (runs : List String) : List CostCall :=
  runs.map fun run => .inference { gptCall "project-1" 1 with
    correlationRunId := some run, correlationParentId := chainParent run } midApril midApril midApril

instance : ∀ call, Decidable (s.StaysInPeriod projectId call)
  | .inference payload _ created checked => inferInstanceAs (Decidable (payload.projectId.getD "_system" = projectId →
    checked < (s.getOrCreateProjectState projectId created).periodEnd))
  | .setBudgetPolicy .. | .removeBudgetPolicy _ | .configure .. | .advance _ => .isTrue trivial

/-- What is left to check of a run of the three calls. -/
def chainCheck (P : Record String AggregationEntry → List CostEvent → Bool) (s : CostState) : Bool :=
  (s.costEvents.all fun e => truthy e.correlationParentId = chainParent e.correlationRunId) &&
    (s.projectStates.get? "project-1").any fun state => P state.byCorrelationRoot s.costEvents

theorem chain_run {runs : List String} {P : Record String AggregationEntry → List CostEvent → Bool}
    (h : ((chainCalls runs).foldlM (guardStep (act gpt4o) (StaysInPeriod "project-1")) start).toOption.any
      (chainCheck P) = true) :
    ∃ s state, Run (Guarded (Succeeds (act gpt4o)) (StaysInPeriod "project-1")) .start (chainCalls runs) s ∧
      Consistent chainParent s.costEvents ∧ s.projectStates.get? "project-1" = some state ∧
      P state.byCorrelationRoot s.costEvents = true := by
  obtain ⟨s, hfold, hcheck⟩ := exists_foldlM_of_check _ (chainCalls runs) start _ h
  obtain ⟨hconsistent, hany⟩ := Bool.and_eq_true_iff.mp hcheck
  obtain ⟨state, hstate, hP⟩ := (Option.any_eq_true _ _).mp hany
  exact ⟨s, state, run_of_guardStep hfold,
    fun e he => of_decide_eq_true (List.all_eq_true.mp hconsistent e he), hstate, hP⟩

theorem chain_attributed : ∃ s state,
    Run (Guarded (Succeeds (act gpt4o)) (StaysInPeriod "project-1")) .start (chainCalls ["a", "b", "c"]) s ∧
    s.projectStates.get? "project-1" = some state ∧
    Attributed "project-1" chainTop "a" s.costEvents state.byCorrelationRoot ∧
    Informed "project-1" chainParent chainTop "a" s.costEvents := by
  obtain ⟨s, state, hrun, hconsistent, hstate, hcheck⟩ := @chain_run ["a", "b", "c"] (fun roots log =>
    (bookedAt roots "a" = costOf ((ofProject "project-1" log).filter fun e => chainTop e.correlationRunId = "a") ∧
      ∀ key ∈ roots.keys, chainTop key = "a" → key = "a")) (by decide +kernel)
  obtain ⟨hbooked, honly⟩ := of_decide_eq_true hcheck
  exact ⟨s, state, hrun, hstate, ⟨hbooked, honly⟩,
    (attributed_iff hrun forest_chain hconsistent rfl hstate).mp ⟨hbooked, honly⟩⟩

/-- The run at the bottom reports first: the costs of the two lower runs are booked under the one in the middle. -/
theorem grandchild_first : ∃ s state,
    Run (Guarded (Succeeds (act gpt4o)) (StaysInPeriod "project-1")) .start (chainCalls ["c", "b", "a"]) s ∧
    Consistent chainParent s.costEvents ∧ s.projectStates.get? "project-1" = some state ∧
    ¬Attributed "project-1" chainTop "a" s.costEvents state.byCorrelationRoot := by
  obtain ⟨s, state, hrun, hconsistent, hstate, hcheck⟩ := @chain_run ["c", "b", "a"] (fun roots _ => "b" ∈ roots.keys)
    (by decide +kernel)
  exact ⟨s, state, hrun, hconsistent, hstate,
    fun h => absurd (h.only "b" (of_decide_eq_true hcheck) rfl) (by decide)⟩

end CostState

end NousCore.Cost
