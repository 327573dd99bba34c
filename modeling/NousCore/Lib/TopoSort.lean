import Mathlib.Algebra.BigOperators.Group.Finset.Piecewise
import Mathlib.Algebra.Order.BigOperators.Group.Finset
import Mathlib.Data.List.Dedup
import Mathlib.Tactic.Linarith

/-!
# Topological sorting by in-degrees

A queue of released items is seeded with some items. An item taken from the queue is put in the order, and lowers the
number of remaining inbound edges of every target of its edges; an item whose number comes to zero is released.

* `State`, `release`, `Take` : the state of the sort, one edge, one turn;
* `inflow l b` : the edges from the items of `l` to `b`;
* `Sorted.mem_order_iff`, `Sorted.length_order` : the order at the end holds the released items, a seed as often as it
  was seeded.
-/

namespace NousCore.TopoSort

variable {α : Type*} [DecidableEq α]

@[ext] structure State (α : Type*) where
  queue : List α
  remaining : α → Int
  order : List α

/-- One edge to `b` is taken away. -/
def release (st : State α) (b : α) : State α :=
  { st with
    remaining := Function.update st.remaining b (st.remaining b - 1)
    queue := if st.remaining b - 1 = 0 then st.queue ++ [b] else st.queue }

/-- One turn, whichever item of the queue it takes. -/
def Take (targets : α → List α) (st st' : State α) : Prop :=
  ∃ a rest, st.queue.Perm (a :: rest) ∧ st' = (targets a).foldl release ⟨rest, st.remaining, st.order ++ [a]⟩

/-- The number of edges to `b` from the items of `l`. -/
def inflow (targets : α → List α) (l : List α) (b : α) : Nat := (l.map fun a => (targets a).count b).sum

section Inflow

variable {targets : α → List α}

theorem inflow_append (l l' : List α) (b : α) :
    inflow targets (l ++ l') b = inflow targets l b + inflow targets l' b := by
  simp [inflow]

theorem inflow_singleton (a b : α) : inflow targets [a] b = (targets a).count b := by simp [inflow]

theorem inflow_eq_sum (l : List α) (b : α) :
    inflow targets l b = ∑ a ∈ l.toFinset, l.count a * (targets a).count b := by
  rw [inflow, Finset.sum_list_map_count]
  rfl

end Inflow

theorem foldl_release : ∀ (ts : List α) (st : State α),
    (ts.foldl release st).order = st.order ∧
    (∀ b, (ts.foldl release st).remaining b = st.remaining b - ts.count b) ∧
    ∀ b, (ts.foldl release st).queue.count b = st.queue.count b +
      if 0 < st.remaining b ∧ st.remaining b - ts.count b ≤ 0 then 1 else 0
  | [], st => by
    refine ⟨rfl, fun b => by simp, fun b => ?_⟩
    rw [if_neg (by simp), List.foldl_nil, Nat.add_zero]
  | c :: ts, st => by
    obtain ⟨horder, hremaining, hcount⟩ := foldl_release ts (release st c)
    rw [List.foldl_cons]
    refine ⟨horder, fun b => ?_, fun b => ?_⟩
    · rw [hremaining, List.count_cons]
      by_cases hb : b = c
      · subst hb
        simp [release]
        omega
      · simp [release, hb, Ne.symm hb]
    · rw [hcount, List.count_cons]
      by_cases hb : b = c
      · subst hb
        simp only [release, Function.update_self, beq_self_eq_true, if_true]
        by_cases hone : st.remaining b - 1 = 0
        · rw [if_pos hone, List.count_append, List.count_singleton_self, if_neg (by omega), if_pos (by push_cast; omega)]
        · rw [if_neg hone]
          congr 1
          refine if_congr ?_ rfl rfl
          push_cast
          omega
      · have hcb : (c == b) = false := beq_eq_false_iff_ne.mpr (Ne.symm hb)
        have hq : (release st c).queue.count b = st.queue.count b := by
          simp only [release]
          split_ifs
          · simp [List.count_append, List.count_singleton, hcb]
          · rfl
        rw [hq, hcb]
        simp [release, hb]

/-! ## The invariant -/

structure Sorted (targets : α → List α) (indegree : α → Nat) (seeds : List α) (st : State α) : Prop where
  remaining : ∀ b, st.remaining b = indegree b - inflow targets st.order b
  count : ∀ b, st.order.count b + st.queue.count b = seeds.count b +
    if 0 < indegree b ∧ indegree b ≤ inflow targets st.order b then 1 else 0
  fed : ∀ l₁ b l₂, st.order = l₁ ++ b :: l₂ → indegree b ≤ inflow targets l₁ b
  queued : ∀ b ∈ st.queue, indegree b ≤ inflow targets st.order b

section

variable {targets : α → List α} {indegree : α → Nat} {seeds : List α} {st st' : State α}

theorem Sorted.initial (hseeds : ∀ b ∈ seeds, indegree b = 0) {queue : List α} (hqueue : queue.Perm seeds) :
    Sorted targets indegree seeds ⟨queue, fun b => indegree b, []⟩ where
  remaining b := by simp [inflow]
  count b := by
    rw [if_neg (by simp [inflow]; omega), hqueue.count_eq]
    simp
  fed l₁ b l₂ h := by simp at h
  queued b hb := by rw [hseeds b (hqueue.mem_iff.mp hb)]; exact Nat.zero_le _

theorem Take.sorted (h : Take targets st st') (hst : Sorted targets indegree seeds st) :
    Sorted targets indegree seeds st' := by
  obtain ⟨a, rest, hperm, rfl⟩ := h
  obtain ⟨horder, hremaining, hcount⟩ := foldl_release (targets a) ⟨rest, st.remaining, st.order ++ [a]⟩
  generalize (targets a).foldl release ⟨rest, st.remaining, st.order ++ [a]⟩ = st' at *
  simp only at horder hremaining hcount
  have hflow : ∀ b, inflow targets st'.order b = inflow targets st.order b + (targets a).count b := by
    intro b
    rw [horder, inflow_append, inflow_singleton]
  have hqueue : ∀ b, st.queue.count b = rest.count b + if a = b then 1 else 0 := by
    intro b
    rw [hperm.count_eq, List.count_cons]
    simp
  refine ⟨fun b => ?_, fun b => ?_, fun l₁ b l₂ hl => ?_, fun b hb => ?_⟩
  · rw [hremaining, hst.remaining, hflow]
    omega
  · have hold := hst.count b
    have hrem := hst.remaining b
    rw [hqueue] at hold
    have horder' : st'.order.count b = st.order.count b + if a = b then 1 else 0 := by
      rw [horder, List.count_append, List.count_singleton]
      simp
    rw [horder', hcount, hflow, hrem]
    split_ifs at hold ⊢ <;> omega
  · rw [horder] at hl
    rcases List.eq_nil_or_concat l₂ with rfl | ⟨l₂, c, rfl⟩
    · obtain ⟨rfl, hab⟩ := List.append_inj' hl rfl
      cases hab
      exact hst.queued a (hperm.mem_iff.mpr List.mem_cons_self)
    · rw [List.concat_eq_append, ← List.cons_append, ← List.append_assoc] at hl
      exact hst.fed l₁ b l₂ (List.append_inj' hl rfl).1
  · have hpos : 0 < st'.queue.count b := List.count_pos_iff.mpr hb
    have hrem := hst.remaining b
    rw [hcount] at hpos
    rw [hflow]
    split_ifs at hpos with hnew
    · omega
    · have : b ∈ rest := List.count_pos_iff.mp (by omega)
      have := hst.queued b (hperm.mem_iff.mpr (List.mem_cons_of_mem _ this))
      omega

theorem sum_count_eq_length (l : List α) (items : Finset α) (h : ∀ a ∈ l, a ∈ items) :
    ∑ a ∈ items, l.count a = l.length := by
  have := Multiset.sum_count_eq_card (s := items) (m := (l : Multiset α)) (by simpa using h)
  simpa using this

theorem Sorted.length_le (h : Sorted targets indegree seeds st) {items : Finset α} (hseeds : ∀ b ∈ seeds, b ∈ items)
    (hfed : ∀ b, 0 < indegree b → b ∈ items) : st.order.length + st.queue.length ≤ seeds.length + items.card := by
  have hmem : ∀ b, 0 < st.order.count b + st.queue.count b → b ∈ items := by
    intro b hb
    rw [h.count] at hb
    by_cases hseed : b ∈ seeds
    · exact hseeds b hseed
    · rw [List.count_eq_zero.mpr hseed] at hb
      split_ifs at hb with hif
      · exact hfed b hif.1
      · omega
  have horder := sum_count_eq_length st.order items
    fun b hb => hmem b (Nat.add_pos_left (List.count_pos_iff.mpr hb) _)
  have hqueue := sum_count_eq_length st.queue items
    fun b hb => hmem b (Nat.add_pos_right _ (List.count_pos_iff.mpr hb))
  have hseed := sum_count_eq_length seeds items hseeds
  rw [← horder, ← hqueue, ← hseed, ← Finset.sum_add_distrib, Finset.card_eq_sum_ones, ← Finset.sum_add_distrib]
  refine Finset.sum_le_sum fun b _ => ?_
  rw [h.count]
  split_ifs <;> omega

/-! ## What the sort releases -/

/-- An item is released when it is a seed, or when the released items of some set have all its inbound edges, the edges
of a seed counted as often as it is seeded. -/
inductive Released (targets : α → List α) (indegree : α → Nat) (seeds : List α) : α → Prop
  | seed {b : α} : b ∈ seeds → Released targets indegree seeds b
  | fed {b : α} (sources : Finset α) : (∀ a ∈ sources, Released targets indegree seeds a) → 0 < indegree b →
      indegree b ≤ ∑ a ∈ sources, max 1 (seeds.count a) * (targets a).count b → Released targets indegree seeds b

/-- The sort is over: the queue is empty. -/
structure Final (targets : α → List α) (indegree : α → Nat) (seeds : List α) (order : List α) : Prop where
  roots : ∀ b ∈ seeds, indegree b = 0
  count : ∀ b, order.count b = seeds.count b + if 0 < indegree b ∧ indegree b ≤ inflow targets order b then 1 else 0
  fed : ∀ l₁ b l₂, order = l₁ ++ b :: l₂ → indegree b ≤ inflow targets l₁ b

theorem Sorted.final (h : Sorted targets indegree seeds st) (hroots : ∀ b ∈ seeds, indegree b = 0)
    (hdone : st.queue = []) : Final targets indegree seeds st.order :=
  ⟨hroots, fun b => by simpa [hdone] using h.count b, h.fed⟩

namespace Final

variable {order : List α}

section

variable (h : Final targets indegree seeds order)

include h

theorem count_of_mem {a : α} (ha : a ∈ order) :
    order.count a = max 1 (seeds.count a) := by
  have hpos : 0 < order.count a := List.count_pos_iff.mpr ha
  have hcount := h.count a
  by_cases hseed : a ∈ seeds
  · have hseed' : 0 < seeds.count a := List.count_pos_iff.mpr hseed
    rw [if_neg (by rw [h.roots a hseed]; omega)] at hcount
    omega
  · have hseed' : seeds.count a = 0 := List.count_eq_zero.mpr hseed
    split_ifs at hcount <;> omega

theorem released_of_append :
    ∀ (l₁ l₂ : List α), order = l₁ ++ l₂ → ∀ b ∈ l₁, Released targets indegree seeds b := by
  intro l₁
  induction l₁ using List.reverseRecOn with
  | nil => intro l₂ _ b hb; cases hb
  | append_singleton l₁ a ih =>
    intro l₂ horder b hb
    rw [List.append_assoc, List.singleton_append] at horder
    have hbefore := ih _ horder
    rcases List.mem_append.mp hb with hb | hb
    · exact hbefore b hb
    rw [List.mem_singleton.mp hb]
    by_cases hseed : a ∈ seeds
    · exact .seed hseed
    refine .fed l₁.toFinset (fun c hc => hbefore c (List.mem_toFinset.mp hc)) ?_ ?_
    · have hpos : 0 < order.count a := List.count_pos_iff.mpr (by simp [horder])
      have hcount := h.count a
      rw [List.count_eq_zero.mpr hseed] at hcount
      split_ifs at hcount with hif
      · exact hif.1
      · omega
    · refine (h.fed l₁ a l₂ horder).trans ?_
      rw [inflow_eq_sum]
      refine Finset.sum_le_sum fun c hc => Nat.mul_le_mul_right _ ?_
      have hmem : c ∈ order := by simp [horder, List.mem_toFinset.mp hc]
      rw [← h.count_of_mem hmem, horder, List.count_append]
      exact Nat.le_add_right _ _

theorem mem_order_iff {b : α} :
    b ∈ order ↔ Released targets indegree seeds b := by
  refine ⟨h.released_of_append order [] (by simp) b, fun hb => ?_⟩
  induction hb with
  | seed hseed =>
    rw [← List.count_pos_iff, h.count]
    exact Nat.add_pos_left (List.count_pos_iff.mpr hseed) _
  | @fed b sources _ hpos hle ih =>
    have hflow : ∑ a ∈ sources, max 1 (seeds.count a) * (targets a).count b ≤ inflow targets order b := by
      rw [inflow_eq_sum]
      calc ∑ a ∈ sources, max 1 (seeds.count a) * (targets a).count b
          = ∑ a ∈ sources, order.count a * (targets a).count b :=
            Finset.sum_congr rfl fun a ha => by rw [h.count_of_mem (ih a ha)]
        _ ≤ ∑ a ∈ order.toFinset, order.count a * (targets a).count b :=
            Finset.sum_le_sum_of_subset fun a ha => List.mem_toFinset.mpr (ih a ha)
    rw [← List.count_pos_iff, h.count, if_pos ⟨hpos, hle.trans hflow⟩]
    exact Nat.succ_pos _

theorem mem_before {l₁ l₂ : List α} {a b : α} (horder : order = l₁ ++ b :: l₂)
    (htotal : ∀ l : List α, l.Nodup → a ∉ l → inflow targets l b + (targets a).count b ≤ indegree b)
    (hnodup : order.Nodup) (hedge : b ∈ targets a) : a ∈ l₁ := by
  by_contra hnot
  have hpos : 0 < (targets a).count b := List.count_pos_iff.mpr hedge
  have hsplit : l₁.Nodup := by
    rw [horder] at hnodup
    exact hnodup.of_append_left
  have := htotal l₁ hsplit hnot
  have := h.fed l₁ b l₂ horder
  omega

open Classical in
/-- **The length of the order.** It counts the released items, and the seeds that repeat others once more each. -/
theorem length_order {items : Finset α}
    (hseeds : ∀ b ∈ seeds, b ∈ items) (hfed : ∀ b, 0 < indegree b → b ∈ items) :
    order.length + (items.filter (¬Released targets indegree seeds ·)).card + seeds.toFinset.card =
      items.card + seeds.length := by
  have horder := sum_count_eq_length order items fun b hb => by
    by_contra hnot
    have hcount := h.count b
    have hpos : 0 < order.count b := List.count_pos_iff.mpr hb
    rw [List.count_eq_zero.mpr fun hs => hnot (hseeds b hs)] at hcount
    split_ifs at hcount with hif
    · exact hnot (hfed b hif.1)
    · omega
  have hseed : seeds.toFinset = items.filter (· ∈ seeds) := by
    ext b
    simpa using hseeds b
  rw [← horder, ← sum_count_eq_length seeds items hseeds, hseed, Finset.card_filter, Finset.card_filter, Finset.card_eq_sum_ones,
    ← Finset.sum_add_distrib, ← Finset.sum_add_distrib, ← Finset.sum_add_distrib]
  refine Finset.sum_congr rfl fun b hb => ?_
  have hcount := h.count b
  -- a seed counts as often as it is seeded, any other released item once
  by_cases hs : b ∈ seeds
  · have hin : b ∈ order := h.mem_order_iff.mpr (.seed hs)
    rw [if_neg (by rw [h.roots b hs]; omega)] at hcount
    rw [if_neg (not_not_intro (Released.seed hs)), if_pos hs]
    omega
  · have hzero : seeds.count b = 0 := List.count_eq_zero.mpr hs
    rw [if_neg hs]
    by_cases hin : b ∈ order
    · have hpos : 0 < order.count b := List.count_pos_iff.mpr hin
      rw [if_neg (not_not_intro (h.mem_order_iff.mp hin))]
      split_ifs at hcount <;> omega
    · rw [if_pos (h.mem_order_iff.not.mp hin), List.count_eq_zero.mpr hin, hzero]

end

end Final

end

end NousCore.TopoSort
