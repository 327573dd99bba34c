import Mathlib.Data.Finset.Card
import Mathlib.Logic.Relation

/-!
# Depth-first search

* `Edge next`, `Acyclic next` : the graph of a successor function;
* `Visit`, `visit` : a search with the items it has met and the items it has left, and a bound on its depth;
* `exists_visit` : the search ends when the bound is above the number of items with successors.
-/

namespace NousCore.DepthFirst

open Relation

variable {α : Type*}

def Edge (next : α → List α) (a b : α) : Prop := b ∈ next a

def Acyclic (next : α → List α) : Prop := ∀ a, ¬TransGen (Edge next) a a

/-! ## One more edge source -/

section Reroute

variable {before after : α → List α} {p : α}

theorem transGen_reroute (hsame : ∀ x, x ≠ p → after x = before x) {a b : α} (h : TransGen (Edge after) a b) :
    TransGen (Edge before) a b ∨ ReflTransGen (Edge after) a p ∧ TransGen (Edge after) p b := by
  have hedge : ∀ {x y}, x ≠ p → Edge after x y → Edge before x y := by
    intro x y hx hxy
    unfold Edge at hxy ⊢
    rwa [hsame x hx] at hxy
  induction h with
  | @single b hab =>
    by_cases hap : a = p
    · subst hap
      exact .inr ⟨.refl, .single hab⟩
    · exact .inl (.single (hedge hap hab))
  | @tail b c hab hbc ih =>
    rcases ih with hold | ⟨hap, hpb⟩
    · by_cases hbp : b = p
      · subst hbp
        exact .inr ⟨hab.to_reflTransGen, .single hbc⟩
      · exact .inl (hold.tail (hedge hbp hbc))
    · exact .inr ⟨hap, hpb.tail hbc⟩

theorem Acyclic.reroute (h : Acyclic before) (hsame : ∀ x, x ≠ p → after x = before x)
    (haway : ∀ x ∈ after p, ¬ReflTransGen (Edge after) x p) : Acyclic after := by
  intro a ha
  rcases transGen_reroute hsame ha with hold | ⟨hap, hpa⟩
  · exact h a hold
  · obtain ⟨x, hpx, hxp⟩ := (TransGen.head'_iff).mp (hpa.trans_left hap)
    exact haway x hpx hxp

end Reroute

/-! ## The search -/

structure Visit (α : Type*) where
  visited : List α
  ordered : List α

variable [DecidableEq α]

/-- Meets `a`, then its successors, then leaves `a`; `none` when the bound on the depth is too small. -/
def visit (next : α → List α) : Nat → Visit α → α → Option (Visit α)
  | 0, _, _ => none
  | fuel + 1, st, a =>
    if a ∈ st.visited then some st
    else ((next a).foldlM (visit next fuel) { st with visited := st.visited ++ [a] }).map fun st =>
      { st with ordered := st.ordered ++ [a] }

def start : Visit α := ⟨[], []⟩

def remaining (keys l : List α) : Nat := (keys.toFinset \ l.toFinset).card

theorem remaining_nil_le (keys : List α) : remaining keys [] ≤ keys.length := by
  unfold remaining
  rw [List.toFinset_nil, Finset.sdiff_empty]
  exact List.toFinset_card_le keys

variable {keys l : List α}

theorem remaining_le {l' : List α} (h : l ⊆ l') : remaining keys l' ≤ remaining keys l := by
  apply Finset.card_le_card
  apply Finset.sdiff_subset_sdiff (Finset.Subset.refl _)
  intro x hx
  exact List.mem_toFinset.mpr (h (List.mem_toFinset.mp hx))

theorem remaining_append_lt {a : α} (hkey : a ∈ keys) (ha : a ∉ l) :
    remaining keys (l ++ [a]) < remaining keys l := by
  apply Finset.card_lt_card
  refine Finset.ssubset_iff.mpr ⟨a, by simp, ?_⟩
  intro x hx
  simp only [Finset.mem_insert, Finset.mem_sdiff, List.mem_toFinset, List.mem_append, List.mem_singleton] at hx ⊢
  rcases hx with rfl | ⟨hx, hnot⟩
  · exact ⟨hkey, ha⟩
  · exact ⟨hx, fun h => hnot (.inl h)⟩

variable {next : α → List α}

theorem exists_visit (hkeys : ∀ x, x ∉ keys → next x = []) :
    ∀ (fuel : Nat) (st : Visit α) (a : α), remaining keys st.visited < fuel →
      ∃ st', visit next fuel st a = some st' ∧ st.visited ⊆ st'.visited := by
  intro fuel
  induction fuel with
  | zero => intro st a h; exact absurd h (Nat.not_lt_zero _)
  | succ fuel ih =>
    have hlist : ∀ (l : List α) (st : Visit α), remaining keys st.visited < fuel →
        ∃ st', l.foldlM (visit next fuel) st = some st' ∧ st.visited ⊆ st'.visited := by
      intro l
      induction l with
      | nil => exact fun st _ => ⟨st, rfl, List.Subset.refl _⟩
      | cons b l ihl =>
        intro st h
        obtain ⟨st1, hst1, hsub1⟩ := ih st b h
        obtain ⟨st2, hst2, hsub2⟩ := ihl st1 (lt_of_le_of_lt (remaining_le hsub1) h)
        refine ⟨st2, ?_, List.Subset.trans hsub1 hsub2⟩
        rw [List.foldlM_cons, hst1]
        exact hst2
    intro st a h
    unfold visit
    by_cases ha : a ∈ st.visited
    · rw [if_pos ha]
      exact ⟨st, rfl, List.Subset.refl _⟩
    · rw [if_neg ha]
      by_cases hkey : a ∈ keys
      · have hlt := remaining_append_lt hkey ha
        obtain ⟨st1, hst1, hsub⟩ := hlist (next a) { st with visited := st.visited ++ [a] }
          (show remaining keys (st.visited ++ [a]) < fuel by omega)
        rw [hst1]
        exact ⟨_, rfl, fun x hx => hsub (List.mem_append_left _ hx)⟩
      · rw [hkeys a hkey]
        exact ⟨_, rfl, fun x hx => List.mem_append_left _ hx⟩

/-! ## The order -/

/-- Every item of the list comes after its successors. -/
def DepsFirst (next : α → List α) (l : List α) : Prop :=
  ∀ front a back, l = front ++ a :: back → ∀ b ∈ next a, b ∈ front

omit [DecidableEq α] in
theorem DepsFirst.snoc {a : α} (h : DepsFirst next l) (ha : ∀ b ∈ next a, b ∈ l) :
    DepsFirst next (l ++ [a]) := by
  intro front x back heq b hb
  rcases List.eq_nil_or_concat back with rfl | ⟨back, z, rfl⟩
  · obtain ⟨rfl, hx⟩ := List.append_inj' heq rfl
    obtain rfl : a = x := List.singleton_inj.mp hx
    exact ha b hb
  · rw [List.concat_eq_append, ← List.cons_append, ← List.append_assoc] at heq
    exact h front x back (List.append_inj' heq rfl).1 b hb

/-- The items that are met and not left are those on the `path`. -/
structure Sorted (next : α → List α) (path : List α) (st : Visit α) : Prop where
  perm : st.visited.Perm (st.ordered ++ path)
  nodup : st.visited.Nodup
  depsFirst : DepsFirst next st.ordered

/-- What a search from `a` leaves. -/
structure Visited (next : α → List α) (path : List α) (a : α) (st st' : Visit α) : Prop where
  sorted : Sorted next path st'
  kept : st.ordered ⊆ st'.ordered
  reached : ∀ x ∈ st'.ordered, x ∈ st.ordered ∨ ReflTransGen (Edge next) a x

theorem visit_sorted (hacyclic : Acyclic next) :
    ∀ (fuel : Nat) {st st' : Visit α} {a : α} {path : List α}, (∀ g ∈ path, TransGen (Edge next) g a) →
      Sorted next path st → visit next fuel st a = some st' → Visited next path a st st' ∧ a ∈ st'.ordered := by
  intro fuel
  induction fuel with
  | zero => intro st st' a path _ _ h; exact absurd h (by simp [visit])
  | succ fuel ih =>
    intro st st' a path hpath hsorted h
    unfold visit at h
    have hfresh : a ∉ path := fun hmem => hacyclic a (hpath a hmem)
    by_cases ha : a ∈ st.visited
    · rw [if_pos ha, Option.some.injEq] at h
      subst h
      refine ⟨⟨hsorted, List.Subset.refl _, fun x hx => .inl hx⟩, ?_⟩
      exact (List.mem_append.mp (hsorted.perm.mem_iff.mp ha)).resolve_right hfresh
    · rw [if_neg ha] at h
      obtain ⟨last, hlast, rfl⟩ := Option.map_eq_some_iff.mp h
      -- the successors are searched below the path and `a`
      have hloop : ∀ (l : List α) (mid last : Visit α), (∀ b ∈ l, b ∈ next a) → Sorted next (path ++ [a]) mid →
          l.foldlM (visit next fuel) mid = some last →
          Visited next (path ++ [a]) a mid last ∧ ∀ b ∈ l, b ∈ last.ordered := by
        intro l
        induction l with
        | nil =>
          intro mid last _ hmid hrun
          obtain rfl : mid = last := Option.some.inj hrun
          exact ⟨⟨hmid, List.Subset.refl _, fun x hx => .inl hx⟩, fun b hb => absurd hb List.not_mem_nil⟩
        | cons b l ihl =>
          intro mid last hsub hmid hrun
          rw [List.foldlM_cons] at hrun
          obtain ⟨mid', hb, hrest⟩ := Option.bind_eq_some_iff.mp hrun
          have hedge : Edge next a b := hsub b List.mem_cons_self
          have hbelow : ∀ g ∈ path ++ [a], TransGen (Edge next) g b := by
            intro g hg
            rcases List.mem_append.mp hg with hg | hg
            · exact (hpath g hg).tail hedge
            · rw [List.mem_singleton.mp hg]
              exact .single hedge
          obtain ⟨hvisited, hmem⟩ := ih hbelow hmid hb
          obtain ⟨hthen, hall⟩ := ihl mid' last (fun c hc => hsub c (List.mem_cons_of_mem _ hc)) hvisited.sorted hrest
          refine ⟨⟨hthen.sorted, List.Subset.trans hvisited.kept hthen.kept, fun x hx => ?_⟩, fun c hc => ?_⟩
          · rcases hthen.reached x hx with hx | hx
            · exact (hvisited.reached x hx).imp_right fun h => .head hedge h
            · exact .inr hx
          · rcases List.mem_cons.mp hc with rfl | hc
            · exact hthen.kept hmem
            · exact hall c hc
      have hmid : Sorted next (path ++ [a]) { st with visited := st.visited ++ [a] } := by
        refine ⟨?_, List.nodup_append_comm.mp (List.nodup_cons.mpr ⟨ha, hsorted.nodup⟩), hsorted.depsFirst⟩
        rw [← List.append_assoc]
        exact hsorted.perm.append_right [a]
      obtain ⟨hvisited, hall⟩ := hloop (next a) _ last (fun b hb => hb) hmid hlast
      have hperm : last.visited.Perm ((last.ordered ++ [a]) ++ path) := by
        refine hvisited.sorted.perm.trans ?_
        rw [List.append_assoc]
        exact (List.perm_append_comm).append_left _
      refine ⟨⟨⟨hperm, hvisited.sorted.nodup, hvisited.sorted.depsFirst.snoc hall⟩,
        fun x hx => List.mem_append_left _ (hvisited.kept hx), fun x hx => ?_⟩,
        List.mem_append_right _ List.mem_cons_self⟩
      rcases List.mem_append.mp hx with hx | hx
      · exact hvisited.reached x hx
      · rw [List.mem_singleton.mp hx]
        exact .inr .refl

/-- **The search from one item.** The items met are the items left; they are those that can be reached, each once and
after its successors. -/
theorem visit_spec (hacyclic : Acyclic next) {fuel : Nat} {st : Visit α} {a : α}
    (h : visit next fuel start a = some st) :
    st.visited.Perm st.ordered ∧ st.ordered.Nodup ∧ DepsFirst next st.ordered ∧
      ∀ x, x ∈ st.ordered ↔ ReflTransGen (Edge next) a x := by
  have hstart : Sorted next [] (start : Visit α) := by
    refine ⟨List.Perm.refl _, List.nodup_nil, fun front x back heq => ?_⟩
    exact absurd heq (by simp [start])
  obtain ⟨hvisited, ha⟩ := visit_sorted hacyclic fuel (fun g hg => absurd hg List.not_mem_nil) hstart h
  have hperm : st.visited.Perm st.ordered := by
    have := hvisited.sorted.perm
    rwa [List.append_nil] at this
  refine ⟨hperm, hperm.nodup_iff.mp hvisited.sorted.nodup, hvisited.sorted.depsFirst, fun x => ⟨fun hx => ?_, fun hx => ?_⟩⟩
  · exact (hvisited.reached x hx).resolve_left List.not_mem_nil
  · induction hx with
    | refl => exact ha
    | tail _ hbc ih =>
      obtain ⟨front, back, heq⟩ := List.append_of_mem ih
      rw [heq]
      exact List.mem_append_left _ (hvisited.sorted.depsFirst front _ back heq _ hbc)

end NousCore.DepthFirst
