import NousCore.Lib.Once

/-!
# What a call may ask for next, and what it still has to do

* `Async.Follows N post` : each operation of a call is one that `N` lets follow the log so far, and the log and the
  outcome at the end meet `post`; one rule for each way to build a call;
* `System.follows_of_step` : so do the calls in progress;
* `Async.Obeys P` : each operation meets `P` after the log so far, and `Async.Tells P post` : the log and the outcome at
  the end meet `post` besides;
* `System.obeys_of_run` : what the bodies of the tasks meet, the calls in progress meet;
* `System.asked_of_run` : what is in the log of a call, the call had asked for.
-/

namespace NousCore

namespace Async

variable {Op : Type} {Res : Op → Type} {ε α β : Type}

def Follows (N : Log Res → Op → Prop) (post : Log Res → Except ε α → Prop) : Async Res ε α → Log Res → Prop
  | .pure a, l => post l (.ok a)
  | .throw e, l => post l (.error e)
  | .call o next, l => N l o ∧ ∀ r, (next r).Follows N post (l ++ [⟨o, r⟩])

variable {N : Log Res → Op → Prop} {post : Log Res → Except ε α → Prop} {l : Log Res}

variable {p : Async Res ε α}

theorem Follows.mono {post' : Log Res → Except ε α → Prop} (h : ∀ l y, post l y → post' l y)
    (hp : p.Follows N post l) : p.Follows N post' l := by
  induction p generalizing l with
  | pure | throw => exact h _ _ hp
  | call o next ih => exact ⟨hp.1, fun r => ih r (hp.2 r)⟩

theorem follows_unwrap {y : Except ε α} : (unwrap y : Async Res ε α).Follows N post l ↔ post l y := by
  cases y <;> exact Iff.rfl

theorem follows_bind {p : Async Res ε β} {f : β → Async Res ε α} :
    (p >>= f).Follows N post l ↔ p.Follows N (fun l y => match y with
      | .ok b => (f b).Follows N post l
      | .error e => post l (.error e)) l := by
  induction p generalizing l with
  | pure | throw => exact Iff.rfl
  | call o next ih => exact and_congr Iff.rfl (forall_congr' fun r => ih r)

theorem follows_map_unwrap {f : β → α} {y : Except ε β} :
    (f <$> unwrap y : Async Res ε α).Follows N post l ↔ post l (y.map f) := by
  cases y <;> exact Iff.rfl

theorem follows_ite {c : Prop} [Decidable c] {q : Async Res ε α} (hp : p.Follows N post l) (hq : q.Follows N post l) :
    (if c then p else q).Follows N post l := by
  split_ifs
  · exact hp
  · exact hq

/-- A log that has grown by operations that meet `P`. -/
def Grows (P : Op → Prop) (l l' : Log Res) : Prop := ∃ l₁, l' = l ++ l₁ ∧ ∀ e ∈ l₁, P e.1

theorem Grows.refl (P : Op → Prop) (l : Log Res) : Grows P l l := ⟨[], (List.append_nil l).symm, by simp⟩

variable {P : Op → Prop}

theorem Grows.subset {l l' : Log Res} (h : Grows P l l') {e : Sigma Res} (he : e ∈ l) : e ∈ l' := by
  obtain ⟨l₁, rfl, -⟩ := h
  exact List.mem_append_left _ he

theorem Grows.trans {l l' l'' : Log Res} (h : Grows P l l') (h' : Grows P l' l'') : Grows P l l'' := by
  obtain ⟨l₁, rfl, h₁⟩ := h
  obtain ⟨l₂, rfl, h₂⟩ := h'
  exact ⟨l₁ ++ l₂, List.append_assoc _ _ _, List.forall_mem_append.mpr ⟨h₁, h₂⟩⟩

theorem follows_bind_of_every {p : Async Res ε β} {f : β → Async Res ε α} (hp : p.Every P)
    (hN : ∀ l o, P o → N l o) (hok : ∀ b l', Grows P l l' → (f b).Follows N post l')
    (herror : ∀ e l', Grows P l l' → post l' (.error e)) : (p >>= f).Follows N post l := by
  induction p generalizing l with
  | pure b => exact hok b l (.refl P l)
  | throw e => exact herror e l (.refl P l)
  | call o next ih =>
    have hgrows : ∀ r l', Grows P (l ++ [⟨o, r⟩]) l' → Grows P l l' := fun r l' h =>
      Grows.trans ⟨[⟨o, r⟩], rfl, fun e he => List.mem_singleton.mp he ▸ hp.1⟩ h
    exact ⟨hN l o hp.1, fun r => ih r (hp.2 r) (fun b l' h => hok b l' (hgrows r l' h))
      fun e l' h => herror e l' (hgrows r l' h)⟩

theorem follows_of_every (hp : p.Every P) (hN : ∀ l o, P o → N l o)
    (hpost : ∀ l' y, Grows P l l' → post l' y) : p.Follows N post l := by
  induction p generalizing l with
  | pure | throw => exact hpost _ _ (.refl P l)
  | call o next ih =>
    refine ⟨hN l o hp.1, fun r => ih r (hp.2 r) fun l' y h => hpost l' y ?_⟩
    exact Grows.trans ⟨[⟨o, r⟩], rfl, fun e he => List.mem_singleton.mp he ▸ hp.1⟩ h

theorem follows_map {f : β → α} {p : Async Res ε β} :
    (f <$> p).Follows N post l ↔ p.Follows N (fun l y => post l (y.map f)) l := by
  induction p generalizing l with
  | pure | throw => exact Iff.rfl
  | call o next ih => exact and_congr Iff.rfl (forall_congr' fun r => ih r)

theorem Follows.of_outcome {y : Except ε α} (h : p.Follows N post l) (hout : p.outcome = some y) :
    post l y := by
  cases p with
  | pure | throw => exact Option.some.inj hout ▸ h
  | call o next => cases hout

end Async

namespace System

variable {Op Task : Type} {Res : Op → Type} {ρ σ ε α : Type} {sys : System Task Res ρ σ ε α}
  {c c' : Config Task Res σ ε α} {s : σ}

theorem threads_of_step {P : Thread Task Res ε α → Prop} (hbegin : ∀ t, P (sys.thread t))
    (hturn : ∀ t o next log r, P ⟨t, .call o next, log⟩ → P ⟨t, next r, log ++ [⟨o, r⟩]⟩) {l : Label Task ρ}
    (hc : ∀ th ∈ c.threads, P th) (hstep : sys.Step c l c') : ∀ th ∈ c'.threads, P th := by
  intro th hth
  obtain ⟨i, hget⟩ := List.mem_iff_getElem?.mp hth
  obtain hold | ⟨hnew, -⟩ | ⟨x, o, next, r, log, -, hold, -, hth'⟩ := (stepped_of_step hstep).threads hget
  · exact hc th (List.mem_of_getElem? hold)
  · rw [hnew]
    exact hbegin th.task
  · rw [hth']
    exact hturn _ _ _ _ _ (hc _ (List.mem_of_getElem? hold))

variable {N : Task → Log Res → Op → Prop} {post : Task → Log Res → Except ε α → Prop}

variable (sys) in
theorem follows_of_step (h : ∀ t, (sys.body t).Follows (N t) (post t) []) {l : Label Task ρ}
    (hc : ∀ th ∈ c.threads, th.program.Follows (N th.task) (post th.task) th.log) (hstep : sys.Step c l c') :
    ∀ th ∈ c'.threads, th.program.Follows (N th.task) (post th.task) th.log :=
  threads_of_step (P := fun th => th.program.Follows (N th.task) (post th.task) th.log) h
    (fun _ _ _ _ r hnext => hnext.2 r) hc hstep

end System


/-! ## What calls in progress still have to do -/

namespace Async

variable {Op : Type} {Res : Op → Type} {ε ε' α β : Type}

/-- No path of the call throws. -/
def Returns : Async Res ε α → Prop
  | .pure _ => True
  | .throw _ => False
  | .call _ next => ∀ r, (next r).Returns

/-- Each operation meets `P` after the operations and answers before it. -/
def Obeys (P : Log Res → Op → Prop) : Async Res ε α → Log Res → Prop
  | .call o next, l => P l o ∧ ∀ r, (next r).Obeys P (l ++ [⟨o, r⟩])
  | _, _ => True

/-! ## Operations and outcomes -/

/-- Each operation meets `P` after the operations and answers before it, and the log and the outcome at the end of the
call meet `post`. -/
def Tells (P : Log Res → Op → Prop) (post : Log Res → Except ε α → Prop) : Async Res ε α → Log Res → Prop
  | .pure a, l => post l (.ok a)
  | .throw e, l => post l (.error e)
  | .call o next, l => P l o ∧ ∀ r, (next r).Tells P post (l ++ [⟨o, r⟩])

section Tells

variable {P : Log Res → Op → Prop} {post : Log Res → Except ε α → Prop} {l : Log Res}

variable {p : Async Res ε α}

theorem Tells.obeys (h : p.Tells P post l) : p.Obeys P l := by
  induction p generalizing l with
  | pure | throw => trivial
  | call o next ih => exact ⟨h.1, fun r => ih r (h.2 r)⟩

theorem Tells.traces (h : p.Tells P post l) : p.Traces post l := by
  induction p generalizing l with
  | pure | throw => exact h
  | call o next ih => exact fun r => ih r (h.2 r)

theorem Tells.mono {post' : Log Res → Except ε α → Prop} (h : ∀ l y, post l y → post' l y)
    (hp : p.Tells P post l) : p.Tells P post' l := by
  induction p generalizing l with
  | pure | throw => exact h _ _ hp
  | call o next ih => exact ⟨hp.1, fun r => ih r (hp.2 r)⟩

theorem tells_perform {o : Op} {f : Res o → Async Res ε α} :
    (perform o >>= f).Tells P post l ↔ P l o ∧ ∀ r, (f r).Tells P post (l ++ [⟨o, r⟩]) := Iff.rfl

theorem tells_unwrap (y : Except ε α) : (unwrap y : Async Res ε α).Tells P post l ↔ post l y := by
  cases y <;> exact Iff.rfl

theorem tells_bind {p : Async Res ε β} {f : β → Async Res ε α} :
    (p >>= f).Tells P post l ↔ p.Tells P (fun l y => match y with
      | .ok b => (f b).Tells P post l
      | .error e => post l (.error e)) l := by
  induction p generalizing l with
  | pure | throw => exact Iff.rfl
  | call o next ih => exact and_congr_right fun _ => forall_congr' fun r => ih r

theorem tells_attempt {p : Async Res ε' β} {post : Log Res → Except ε (Except ε' β) → Prop} :
    (p.attempt : Async Res ε (Except ε' β)).Tells P post l ↔ p.Tells P (fun l y => post l (.ok y)) l := by
  induction p generalizing l with
  | pure | throw => exact Iff.rfl
  | call o next ih => exact and_congr_right fun _ => forall_congr' fun r => ih r

end Tells

end Async

namespace System

variable {Op Task : Type} {Res : Op → Type} {ρ σ ε α : Type} {sys : System Task Res ρ σ ε α}
  {c c' c₀ : Config Task Res σ ε α} {ls : List (Label Task ρ)}

theorem obeys_of_run {P : Task → Log Res → Op → Prop} (hbody : ∀ t, (sys.body t).Obeys (P t) [])
    (h₀ : ∀ th ∈ c₀.threads, th.program.Obeys (P th.task) th.log) (hrun : Run sys.Step c₀ ls c) :
    ∀ th ∈ c.threads, th.program.Obeys (P th.task) th.log := by
  refine hrun.invariant (P := fun c => ∀ th ∈ c.threads, th.program.Obeys (P th.task) th.log) ?_ h₀
  intro c l c' hc hstep th hth
  obtain ⟨i, hget⟩ := List.mem_iff_getElem?.mp hth
  obtain hold | ⟨hnew, -⟩ | ⟨x, o, next, r, log, -, hold, -, hth'⟩ := (stepped_of_step hstep).threads hget
  · exact hc th (List.mem_of_getElem? hold)
  · rw [hnew]
    exact hbody th.task
  · rw [hth']
    exact (hc _ (List.mem_of_getElem? hold)).2 r

theorem asked_of_run {P : Task → Log Res → Op → Prop} (hbody : ∀ t, (sys.body t).Obeys (P t) []) {s : σ}
    (hrun : Run sys.Step (start s) ls c) : ∀ th ∈ c.threads, ∀ l₁ e l₂, th.log = l₁ ++ e :: l₂ → P th.task l₁ e.1 := by
  induction hrun with
  | nil => simp [start]
  | @snoc ls c c' l hrun hstep ih =>
    have hobeys := obeys_of_run hbody (by simp [start]) hrun
    intro th hth l₁ e l₂ hlog
    obtain ⟨i, hget⟩ := List.mem_iff_getElem?.mp hth
    obtain hold | ⟨hnew, -⟩ | ⟨x, o, next, r, log, -, hold, -, hth'⟩ := (stepped_of_step hstep).threads hget
    · exact ih th (List.mem_of_getElem? hold) l₁ e l₂ hlog
    · rw [hnew] at hlog
      simp [thread] at hlog
    · have hmem := List.mem_of_getElem? hold
      rw [hth'] at hlog
      rcases List.eq_nil_or_concat l₂ with rfl | ⟨l₂', e', rfl⟩
      · obtain ⟨rfl, he⟩ := List.append_inj' hlog rfl
        obtain rfl := List.singleton_inj.mp he
        exact (hobeys _ hmem).1
      · refine ih _ hmem l₁ e l₂' ?_
        rw [List.concat_eq_append, ← List.cons_append, ← List.append_assoc] at hlog
        exact (List.append_inj' hlog rfl).1

end System

end NousCore
