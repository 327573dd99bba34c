import NousCore.Lib.System

/-!
# Operations that no two calls perform alike

* `System.traces_of_run` : what every path of a call leaves in its log is in the log of every call in progress;
* `System.logAt`, `System.loggedSince` : the log of a call, and what it has gained;
* `System.Settled`, `settled_of_run` : the outcomes that were returned are those of calls that have ended.
-/

namespace NousCore.System

variable {Op Task : Type} {Res : Op → Type} {ρ σ ε α K : Type} {sys : System Task Res ρ σ ε α}
  {c c' : Config Task Res σ ε α} {s : σ} {ls : List (Label Task ρ)}

variable {l : Label Task ρ} {i : Nat} {th : Thread Task Res ε α}

theorem Stepped.threads (h : sys.Stepped c l c') (hget : c'.threads[i]? = some th) :
    c.threads[i]? = some th ∨ th = sys.thread th.task ∧ c.threads.length ≤ i ∨
      ∃ x o next r log, l = .turn i x ∧ c.threads[i]? = some ⟨th.task, .call o next, log⟩ ∧
        sys.answers o x c.state = some (r, c'.state) ∧ th = ⟨th.task, next r, log ++ [⟨o, r⟩]⟩ := by
  cases h with
  | begin t =>
    by_cases hi : i < c.threads.length
    · rw [List.getElem?_append_left hi] at hget
      exact .inl hget
    · rw [List.getElem?_append_right (by omega)] at hget
      obtain rfl := List.mem_singleton.mp (List.mem_of_getElem? hget)
      exact .inr (.inl ⟨rfl, by omega⟩)
  | @turn j x t log o next r s' hj hblocked hanswers =>
    rcases getElem?_set_append hj hget with ⟨rfl, rfl⟩ | ⟨-, hold⟩ | ⟨hlen, hnew⟩
    · exact .inr (.inr ⟨x, o, next, r, log, rfl, hj, hanswers, rfl⟩)
    · exact .inl hold
    · obtain ⟨t', -, rfl⟩ := List.mem_map.mp hnew
      exact .inr (.inl ⟨rfl, hlen⟩)

theorem Stepped.task (h : sys.Stepped c l c')
    (hget : c.threads[i]? = some th) : ∃ th', c'.threads[i]? = some th' ∧ th'.task = th.task := by
  cases h with
  | begin t =>
    exact ⟨th, by rw [List.getElem?_append_left (List.getElem?_eq_some_iff.mp hget).1, hget], rfl⟩
  | @turn j x t log o next r s' hj hblocked hanswers =>
    by_cases hij : i = j
    · subst hij
      cases hj.symm.trans hget
      exact ⟨⟨t, next r, log ++ [⟨o, r⟩]⟩, getElem?_self hj, rfl⟩
    · exact ⟨th, getElem?_of_ne hij hget, rfl⟩

theorem Stepped.log (h : sys.Stepped c l c') (hget : c.threads[i]? = some th) :
    ∃ th', c'.threads[i]? = some th' ∧ th'.task = th.task ∧ th.log <+: th'.log := by
  cases h with
  | begin t =>
    exact ⟨th, by rw [List.getElem?_append_left (List.getElem?_eq_some_iff.mp hget).1, hget], rfl, List.prefix_refl _⟩
  | @turn j x t log o next r s' hj hblocked hanswers =>
    by_cases hij : i = j
    · subst hij
      cases hj.symm.trans hget
      exact ⟨⟨t, next r, log ++ [⟨o, r⟩]⟩, getElem?_self hj, rfl, List.prefix_append _ _⟩
    · exact ⟨th, getElem?_of_ne hij hget, rfl, List.prefix_refl _⟩

theorem Stepped.returned (h : sys.Stepped c l c') :
    ∃ i th, c'.threads[i]? = some th ∧ c'.returned = c.returned ++ settle i th.program ∧
      (c.threads.length ≤ i ∧ th = sys.thread th.task ∨
        ∃ x o next r log, l = .turn i x ∧ c.threads[i]? = some ⟨th.task, .call o next, log⟩ ∧
          sys.answers o x c.state = some (r, c'.state) ∧ th = ⟨th.task, next r, log ++ [⟨o, r⟩]⟩) := by
  cases h with
  | begin t => exact ⟨c.threads.length, sys.thread t, by simp, rfl, .inl ⟨Nat.le_refl _, rfl⟩⟩
  | @turn j x t log o next r s' hj hblocked hanswers =>
    exact ⟨j, ⟨t, next r, log ++ [⟨o, r⟩]⟩, getElem?_self hj, rfl, .inr ⟨x, o, next, r, log, rfl, hj, hanswers, rfl⟩⟩

/-! ## Logs -/

def logAt (c : Config Task Res σ ε α) (i : Nat) : Log Res := (c.threads[i]?.map (·.log)).getD []

def loggedSince (c c' : Config Task Res σ ε α) (i : Nat) : Log Res := (logAt c' i).drop (logAt c i).length

theorem Stepped.logAt (h : sys.Stepped c l c') (i : Nat) :
    logAt c' i = logAt c i ∨ ∃ x o r, l = .turn i x ∧ sys.answers o x c.state = some (r, c'.state) ∧
      logAt c' i = logAt c i ++ [⟨o, r⟩] := by
  unfold System.logAt
  cases hget : c'.threads[i]? with
  | none =>
    refine .inl ?_
    cases hold : c.threads[i]? with
    | none => rfl
    | some th =>
      obtain ⟨th', hget', -⟩ := h.task hold
      rw [hget] at hget'
      cases hget'
  | some th =>
    obtain hold | ⟨hnew, hlen⟩ | ⟨x, o, next, r, log, hl, hold, hanswers, hth⟩ := h.threads hget
    · exact .inl (by rw [hold])
    · refine .inl ?_
      rw [List.getElem?_eq_none hlen, hnew]
      rfl
    · refine .inr ⟨x, o, r, hl, hanswers, ?_⟩
      rw [hold, hth]
      rfl

theorem Stepped.logAt_isPrefix (h : sys.Stepped c l c') (i : Nat) : System.logAt c i <+: System.logAt c' i := by
  obtain heq | ⟨x, o, r, -, -, heq⟩ := h.logAt i
  · exact heq ▸ List.prefix_refl _
  · exact heq ▸ List.prefix_append _ _

theorem mem_loggedSince_of_isPrefix {c'' : Config Task Res σ ε α} (h : logAt c' i <+: logAt c'' i)
    {e : Sigma Res} (he : e ∈ loggedSince c c' i) : e ∈ loggedSince c c'' i :=
  (h.sublist.drop _).subset he

variable {post : Task → Log Res → Except ε α → Prop}

theorem traces_of_step (h : ∀ t, (sys.body t).Traces (post t) [])
    (hc : ∀ th ∈ c.threads, th.program.Traces (post th.task) th.log) (hstep : sys.Step c l c') :
    ∀ th ∈ c'.threads, th.program.Traces (post th.task) th.log := by
  intro th hth
  obtain ⟨i, hget⟩ := List.mem_iff_getElem?.mp hth
  obtain hold | ⟨hnew, -⟩ | ⟨x, o, next, r, log, -, hold, -, hth'⟩ := (stepped_of_step hstep).threads hget
  · exact hc th (List.mem_of_getElem? hold)
  · rw [hnew]
    exact h th.task
  · rw [hth']
    exact hc _ (List.mem_of_getElem? hold) r

theorem traces_of_run (h : ∀ t, (sys.body t).Traces (post t) [])
    (hrun : Run sys.Step (start s) ls c) : ∀ th ∈ c.threads, th.program.Traces (post th.task) th.log :=
  hrun.invariant (P := fun c => ∀ th ∈ c.threads, th.program.Traces (post th.task) th.log)
    (fun _ _ _ hc hstep => traces_of_step h hc hstep) (by simp [start])

theorem every_of_run {P : Task → Op → Prop} (h : ∀ t, (sys.body t).Every (P t)) {c₀ : Config Task Res σ ε α}
    (h₀ : ∀ th ∈ c₀.threads, th.program.Every (P th.task)) (hrun : Run sys.Step c₀ ls c) :
    ∀ th ∈ c.threads, th.program.Every (P th.task) := by
  refine hrun.invariant (P := fun c => ∀ th ∈ c.threads, th.program.Every (P th.task)) ?_ h₀
  intro c l c' hc hstep th hth
  obtain ⟨i, hget⟩ := List.mem_iff_getElem?.mp hth
  obtain hold | ⟨hnew, -⟩ | ⟨x, o, next, r, log, -, hold, -, hth'⟩ := (stepped_of_step hstep).threads hget
  · exact hc th (List.mem_of_getElem? hold)
  · rw [hnew]
    exact h th.task
  · rw [hth']
    exact (hc _ (List.mem_of_getElem? hold)).2 r

/-- The outcomes that were returned are those of calls that have ended. -/
def Settled (c : Config Task Res σ ε α) : Prop :=
  ∀ e ∈ c.returned, ∃ th, c.threads[e.1]? = some th ∧ th.program.outcome = some e.2

theorem mem_settle {p : Async Res ε α} {e : Nat × Except ε α} (h : e ∈ settle i p) :
    e.1 = i ∧ p.outcome = some e.2 := by
  obtain ⟨y, hy, rfl⟩ := List.mem_map.mp h
  exact ⟨rfl, by simpa using hy⟩

theorem Stepped.ended (h : sys.Stepped c l c')
    {y : Except ε α} (hget : c.threads[i]? = some th) (hout : th.program.outcome = some y) :
    c'.threads[i]? = some th := by
  cases h with
  | begin t => rw [List.getElem?_append_left (List.getElem?_eq_some_iff.mp hget).1, hget]
  | @turn j x t log o next r s' hj hblocked hanswers =>
    refine getElem?_of_ne (fun hij => ?_) hget
    rw [hij, hj] at hget
    cases hget
    cases hout

theorem Stepped.settled (h : sys.Stepped c l c') (hc : Settled c) : Settled c' := by
  intro e he
  obtain ⟨i, th, hget, hreturned, -⟩ := h.returned
  rw [hreturned] at he
  rcases List.mem_append.mp he with he | he
  · obtain ⟨th', hget', hout⟩ := hc e he
    exact ⟨th', h.ended hget' hout, hout⟩
  · obtain ⟨hi, hout⟩ := mem_settle he
    exact ⟨th, by rwa [hi], hout⟩

theorem settled_of_run (hrun : Run sys.Step (start s) ls c) : Settled c :=
  hrun.invariant (fun _ _ _ hc hstep => (stepped_of_step hstep).settled hc) (by simp [Settled, start])

/-! ## Keys -/

section Once

variable (marks : Op → Option K) (used : σ → K → Prop)

/-- The keys that were marked according to a log. -/
def marked (log : Log Res) : List K := log.filterMap fun e => marks e.1

theorem mem_marked_of_mem {log : Log Res} {e : Sigma Res} {k : K} (he : e ∈ log) (hk : marks e.1 = some k) :
    k ∈ marked marks log := List.mem_filterMap.mpr ⟨e, he, hk⟩

/-- Every key that was marked is used, and no two calls have marked the same key. -/
structure Once (c : Config Task Res σ ε α) : Prop where
  used : ∀ th ∈ c.threads, ∀ k ∈ marked marks th.log, used c.state k
  disjoint : ∀ (i j : Nat) (th th' : Thread Task Res ε α), i ≠ j → c.threads[i]? = some th → c.threads[j]? = some th' →
    ∀ k ∈ marked marks th.log, k ∉ marked marks th'.log

variable {marks used} {admits : Task → Prop} {allowed : Task → Allowance Res ρ σ}

/-- **Once.** When a key stays used, and an operation marks a key only while it is unused, no two calls mark the same
key. -/
theorem once_of_run
    (hkeep : ∀ t l o x s r s' k, allowed t l o x s → sys.answers o x s = some (r, s') → used s k → used s' k)
    (hmark : ∀ o x s r s' k, sys.answers o x s = some (r, s') → marks o = some k → used s' k)
    (hfresh : ∀ t l o x s k, allowed t l o x s → marks o = some k → ¬used s k)
    (hrun : Run (Guarded sys.Step (Allows admits allowed)) (start s) ls c) : Once marks used c := by
  refine hrun.invariant ?_ ⟨by simp [start], by simp [start]⟩
  rintro c l c' hc ⟨hstep, hallows⟩
  have hstepped := stepped_of_step hstep
  -- what a turn adds to the log of its thread, and what it leaves used
  have hturn : ∀ i th, c'.threads[i]? = some th → ∀ k ∈ marked marks th.log,
      (∃ th₀, c.threads[i]? = some th₀ ∧ k ∈ marked marks th₀.log) ∨ ¬used c.state k ∧ used c'.state k ∧
        ∃ x, l = .turn i x := by
    intro i th hget k hk
    obtain hold | ⟨hnew, -⟩ | ⟨x, o, next, r, log, rfl, hold, hanswers, hth⟩ := hstepped.threads hget
    · exact .inl ⟨th, hold, hk⟩
    · rw [hnew] at hk
      simp [thread, marked] at hk
    · rw [hth, marked, List.filterMap_append, List.mem_append] at hk
      rcases hk with hk | hk
      · exact .inl ⟨_, hold, hk⟩
      · have hmarks : marks o = some k := by simpa using hk
        have hallow := hallows _ hold
        exact .inr ⟨hfresh _ _ _ _ _ _ hallow hmarks, hmark _ _ _ _ _ _ hanswers hmarks, x, rfl⟩
  have hstate : ∀ k, used c.state k → used c'.state k := by
    intro k hk
    cases hstepped with
    | begin t => exact hk
    | turn hget _ hanswers => exact hkeep _ _ _ _ _ _ _ _ (hallows _ hget) hanswers hk
  refine ⟨fun th hth k hk => ?_, fun i j th th' hij hi hj k hk hk' => ?_⟩
  · obtain ⟨i, hget⟩ := List.mem_iff_getElem?.mp hth
    rcases hturn i th hget k hk with ⟨th₀, hget₀, hk₀⟩ | ⟨-, hused, -⟩
    · exact hstate k (hc.used th₀ (List.mem_of_getElem? hget₀) k hk₀)
    · exact hused
  · rcases hturn i th hi k hk with ⟨th₀, hget₀, hk₀⟩ | ⟨hunused, -, x, hx⟩
    · rcases hturn j th' hj k hk' with ⟨th₁, hget₁, hk₁⟩ | ⟨hunused, -, -⟩
      · exact hc.disjoint i j th₀ th₁ hij hget₀ hget₁ k hk₀ hk₁
      · exact hunused (hc.used th₀ (List.mem_of_getElem? hget₀) k hk₀)
    · rcases hturn j th' hj k hk' with ⟨th₁, hget₁, hk₁⟩ | ⟨-, -, x', hx'⟩
      · exact hunused (hc.used th₁ (List.mem_of_getElem? hget₁) k hk₁)
      · rw [hx] at hx'
        exact hij (Label.turn.inj hx').1

end Once

end NousCore.System
