import NousCore.Opctl.Applied

/-!
# Replay of control commands

* `used` : the keys that the replay store holds;
* `NoReplay`, `noReplay_of_run` : under `unreplayed` no command is replayed, in any interleaving.
-/

namespace NousCore.Opctl

open Async

/-- A sequence number is used when the session has reached it. -/
def used (s : OpctlState) : Mark → Prop
  | .commandId id => id ∈ s.usedCommandIds
  | .nonce nonce => nonce ∈ s.usedNonces
  | .actorSeq sessionId seq => ∃ last, s.actorSeqs.get? sessionId = some last ∧ seq ≤ last

variable (deps : OpctlServiceDeps)

/-- No command marks what is already used, and a command is applied while it is the latest of its session. -/
def unreplayed : OpctlTask → Allowance OpctlOp.Answer (Option String) OpctlState
  | _, _, .markCommandIdUsed id, _, s => id ∉ s.usedCommandIds
  | _, _, .markNonceUsed nonce, _, s => nonce ∉ s.usedNonces
  | _, _, .setActorSeq sessionId seq, _, s => ∀ last ∈ s.actorSeqs.get? sessionId, last < seq
  | .submitCommand (.parsed envelope) _ _ _, l, .release _, _, s =>
    acknowledged deps envelope l = true → s.actorSeqs.get? envelope.actorSessionId = some envelope.actorSeq
  | _, _, _, _, _ => True

instance (t : OpctlTask) (l : Log OpctlOp.Answer) (o : OpctlOp) (x : Option String) (s : OpctlState) :
    Decidable (unreplayed deps t l o x s) := by
  unfold unreplayed
  split <;> infer_instance

variable {deps} {hashes : Hashes} {envelope : ControlCommandEnvelope} {l l' : Log OpctlOp.Answer}

/-! ## The commands that were applied -/

def appliedBy (c : OpctlConfig) (e : Nat × Except OpctlError OpctlResult) : Option ControlCommandEnvelope :=
  match e.2 with
  | .ok (.submitted result) =>
    if result.status = .applied then c.threads[e.1]?.bind fun th => submission th.task else none
  | _ => none

/-- The commands whose submissions returned that they were applied, in this order. -/
def applied (c : OpctlConfig) : List ControlCommandEnvelope := c.returned.filterMap (appliedBy c)

structure NoReplay (c : OpctlConfig) : Prop where
  commandIds : (applied c).Pairwise fun e e' => e.controlCommandId ≠ e'.controlCommandId
  nonces : (applied c).Pairwise fun e e' => e.nonce ≠ e'.nonce
  actorSeqs : (applied c).Pairwise fun e e' => e.actorSessionId = e'.actorSessionId → e.actorSeq < e'.actorSeq

def Applied (envelope : ControlCommandEnvelope) (th : OpctlThread) : Prop :=
  submission th.task = some envelope ∧
    ∃ result, th.program.outcome = some (.ok (.submitted result)) ∧ result.status = .applied

theorem appliedBy_eq_some {c : OpctlConfig} {e : Nat × Except OpctlError OpctlResult} :
    appliedBy c e = some envelope ↔ ∃ result th, e.2 = .ok (.submitted result) ∧ result.status = .applied ∧
      c.threads[e.1]? = some th ∧ submission th.task = some envelope := by
  unfold appliedBy
  split
  · rename_i result heq
    split_ifs with hstatus
    · rw [Option.bind_eq_some_iff, heq]
      constructor
      · rintro ⟨th, hget, hsub⟩
        exact ⟨result, th, rfl, hstatus, hget, hsub⟩
      · rintro ⟨_, th, -, -, hget, hsub⟩
        exact ⟨th, hget, hsub⟩
    · refine ⟨nofun, ?_⟩
      rintro ⟨result', th, hresult, hstatus', -⟩
      rw [heq] at hresult
      obtain rfl := OpctlResult.submitted.inj (Except.ok.inj hresult)
      exact absurd hstatus' hstatus
  · rename_i hne
    refine ⟨nofun, ?_⟩
    rintro ⟨result', th, hresult, -⟩
    exact absurd hresult (hne result')

variable {c c' : OpctlConfig} {s : OpctlState}

theorem exists_of_mem_applied (hset : System.Settled c) (h : envelope ∈ applied c) :
    ∃ (i : Nat) (th : _), c.threads[i]? = some th ∧ Applied envelope th := by
  obtain ⟨e, he, happlied⟩ := List.mem_filterMap.mp h
  obtain ⟨result, th, hresult, hstatus, hget, hsub⟩ := appliedBy_eq_some.mp happlied
  obtain ⟨th', hget', hout⟩ := hset e he
  cases hget.symm.trans hget'
  exact ⟨e.1, th, hget, hsub, result, by rw [hout, hresult], hstatus⟩

variable {ℓ : Label OpctlTask (Option String)}

theorem applied_of_stepped (h : (service hashes deps).Stepped c ℓ c') (hset : System.Settled c) :
    applied c' = applied c ∨ ∃ (i : Nat) (th : OpctlThread) (envelope : _), applied c' = applied c ++ [envelope] ∧ c'.threads[i]? = some th ∧
      Applied envelope th ∧ (th.log = [] ∨ ∃ x o next r log, ℓ = .turn i x ∧
        c.threads[i]? = some ⟨th.task, .call o next, log⟩ ∧ th.log = log ++ [⟨o, r⟩]) := by
  obtain ⟨i, th, hget, hreturned, horigin⟩ := h.returned
  have hold : c.returned.filterMap (appliedBy c') = applied c := by
    refine List.filterMap_congr fun e he => ?_
    obtain ⟨th₀, hget₀, -⟩ := hset e he
    obtain ⟨th₁, hget₁, htask⟩ := h.task hget₀
    unfold appliedBy
    rw [hget₀, hget₁, Option.bind_some, Option.bind_some, htask]
  have happlied : applied c' = applied c ++ (System.settle i th.program).filterMap (appliedBy c') := by
    rw [applied, hreturned, List.filterMap_append, hold]
  cases hout : th.program.outcome with
  | none =>
    left
    rw [happlied, System.settle, hout]
    exact List.append_nil _
  | some y =>
    cases hby : appliedBy c' (i, y) with
    | none =>
      left
      rw [happlied, System.settle, hout]
      simp [hby]
    | some envelope =>
      right
      obtain ⟨result, th', hresult, hstatus, hget', hsub⟩ := appliedBy_eq_some.mp hby
      cases hget.symm.trans hget'
      refine ⟨i, th, envelope, ?_, hget, ⟨hsub, result, by rw [hout]; exact congrArg some hresult, hstatus⟩, ?_⟩
      · rw [happlied, System.settle, hout]
        simp [hby]
      · rcases horigin with ⟨-, hth⟩ | ⟨x, o, next, r, log, hl, hprev, -, hth⟩
        · rw [hth]
          exact .inl rfl
        · rw [hth]
          exact .inr ⟨x, o, next, r, log, hl, hprev, rfl⟩

/-! ## No replay -/

variable {ls : List (Label OpctlTask (Option String))}

theorem appliedWith_of_applied {th : OpctlThread}
    (h : th.program.Traces (Leaves deps th.task) th.log) (happlied : Applied envelope th) :
    AppliedWith deps envelope th.log := by
  obtain ⟨hsub, result, hout, hstatus⟩ := happlied
  obtain ⟨t, program, log⟩ := th
  cases program with
  | pure a =>
    cases hout
    obtain ⟨envelope', hsub', hwith⟩ := h result rfl hstatus
    cases hsub.symm.trans hsub'
    exact hwith
  | throw e => cases Option.some.inj hout
  | call o next => cases hout

theorem AppliedWith.usedUp (h : AppliedWith deps envelope l) : UsedUp envelope l := by
  obtain ⟨l₀, scopeKey, rfl, hcarried⟩ := h
  exact hcarried.usedUp.mono (List.prefix_append _ _)

variable {t : OpctlTask} {o : OpctlOp} {x : Option String} {k : Mark}

theorem unreplayed_marks (h : unreplayed deps t l o x s)
    (hk : marks o = some k) : ¬used s k := by
  unfold marks at hk
  split at hk
  · cases hk
    exact h
  · cases hk
    exact h
  · cases hk
    rintro ⟨last, hlast, hle⟩
    have hlt := h last hlast
    omega
  · cases hk

variable {s' : OpctlState}

theorem replayStore_of_answers {r : o.Answer}
    (hmarks : marks o = none) (h : answers o x s = some (r, s')) :
    s'.usedCommandIds = s.usedCommandIds ∧ s'.usedNonces = s.usedNonces ∧ s'.actorSeqs = s.actorSeqs := by
  cases o with
  | markCommandIdUsed | markNonceUsed | setActorSeq => cases hmarks
  | acquire scopeKey action commandId =>
    obtain rfl := congrArg Prod.snd (Option.some.inj h)
    unfold OpctlState.acquire
    split
    · exact ⟨rfl, rfl, rfl⟩
    · split_ifs <;> exact ⟨rfl, rfl, rfl⟩
  | release scopeKey =>
    cases h
    dsimp only [OpctlState.release]
    split <;> exact ⟨rfl, rfl, rfl⟩
  | awaitGrant ticket =>
    dsimp only [answers] at h
    split_ifs at h
    cases h
    exact ⟨rfl, rfl, rfl⟩
  | setStartLock projectId locked =>
    cases locked <;> obtain rfl := congrArg Prod.snd (Option.some.inj h) <;> exact ⟨rfl, rfl, rfl⟩
  | _ =>
    cases h
    exact ⟨rfl, rfl, rfl⟩

theorem used_of_marks {r : o.Answer}
    (h : answers o x s = some (r, s')) (hk : marks o = some k) : used s' k := by
  unfold marks at hk
  split at hk
  · cases hk
    cases h
    exact List.mem_insert_self
  · cases hk
    cases h
    exact List.mem_insert_self
  · rename_i sessionId seq
    cases hk
    cases h
    exact ⟨seq, by rw [Record.get?_set, if_pos rfl], Nat.le_refl _⟩
  · cases hk

theorem used_of_answers {r : o.Answer}
    (hallow : unreplayed deps t l o x s) (h : answers o x s = some (r, s')) (hk : used s k) : used s' k := by
  cases hmarks : marks o with
  | none =>
    obtain ⟨hids, hnonces, hseqs⟩ := replayStore_of_answers hmarks h
    cases k <;> unfold used at hk ⊢ <;> simpa only [hids, hnonces, hseqs] using hk
  | some k' =>
    unfold marks at hmarks
    split at hmarks
    · cases h
      cases k with
      | commandId id => exact List.mem_insert_of_mem hk
      | nonce nonce => exact hk
      | actorSeq sessionId seq => exact hk
    · cases h
      cases k with
      | commandId id => exact hk
      | nonce nonce => exact List.mem_insert_of_mem hk
      | actorSeq sessionId seq => exact hk
    · rename_i sessionId seq
      cases h
      cases k with
      | commandId id => exact hk
      | nonce nonce => exact hk
      | actorSeq sessionId' seq' =>
        obtain ⟨last, hlast, hle⟩ := hk
        by_cases hsession : sessionId' = sessionId
        · -- the session moves on to a later number
          subst hsession
          have hlt : last < seq := hallow last hlast
          exact ⟨seq, by rw [Record.get?_set, if_pos rfl], by omega⟩
        · exact ⟨last, by rw [Record.get?_set, if_neg hsession, hlast], hle⟩
    · cases hmarks

theorem once_of_unreplayed
    (hrun : Run (Guarded (service hashes deps).Step (System.Allows (fun _ => True) (unreplayed deps)))
      (System.start s) ls c) : System.Once marks used c :=
  System.once_of_run (fun _ _ _ _ _ _ _ _ hallow hanswers hk => used_of_answers hallow hanswers hk)
    (fun _ _ _ _ _ _ hanswers hk => used_of_marks hanswers hk)
    (fun _ _ _ _ _ _ hallow hk => unreplayed_marks hallow hk) hrun

theorem latest_of_unreplayed {scopeKey : String}
    (hsub : submission t = some envelope) (hack : acknowledged deps envelope l = true)
    (h : unreplayed deps t l (.release scopeKey) x s) :
    s.actorSeqs.get? envelope.actorSessionId = some envelope.actorSeq := by
  unfold submission at hsub
  split at hsub
  · cases hsub
    exact h hack
  · cases hsub

theorem UsedUp.disjoint {e e' : ControlCommandEnvelope} (h : UsedUp e l) (h' : UsedUp e' l')
    (hdisjoint : ∀ k ∈ System.marked marks l, k ∉ System.marked marks l') :
    e.controlCommandId ≠ e'.controlCommandId ∧ e.nonce ≠ e'.nonce ∧
      (e.actorSessionId = e'.actorSessionId → e.actorSeq ≠ e'.actorSeq) := by
  obtain ⟨hid, hnonce, hseq⟩ := h
  obtain ⟨hid', hnonce', hseq'⟩ := h'
  refine ⟨fun he => hdisjoint _ hid ?_, fun he => hdisjoint _ hnonce ?_, fun hsession he => hdisjoint _ hseq ?_⟩
  · rwa [he]
  · rwa [he]
  · rwa [he, hsession]

theorem latest_of_applied {i : Nat} {th : OpctlThread}
    (happlied : Applied envelope th) (hwith : AppliedWith deps envelope th.log)
    (hallows : System.Allows (fun _ => True) (unreplayed deps) c ℓ)
    (hturn : th.log = [] ∨ ∃ x o next r log, ℓ = .turn i x ∧ c.threads[i]? = some ⟨th.task, .call o next, log⟩ ∧
      th.log = log ++ [⟨o, r⟩]) :
    (∃ th₀, c.threads[i]? = some th₀ ∧ th₀.program.outcome = none) ∧
      c.state.actorSeqs.get? envelope.actorSessionId = some envelope.actorSeq := by
  obtain ⟨l₀, scopeKey, hlog, hcarried⟩ := hwith
  rcases hturn with hnil | ⟨x, o, next, r, log, rfl, hprev, hlog'⟩
  · rw [hnil] at hlog
    exact absurd hlog.symm (List.append_ne_nil_of_right_ne_nil _ (List.cons_ne_nil _ _))
  · obtain ⟨rfl, hlast⟩ := List.append_inj' (hlog'.symm.trans hlog) rfl
    obtain ⟨rfl, -⟩ := Sigma.mk.inj (List.singleton_inj.mp hlast)
    exact ⟨⟨_, hprev, rfl⟩, latest_of_unreplayed happlied.1 hcarried.acknowledged (hallows _ hprev)⟩

/-- **No replay.** When an id or a nonce is marked only while it is unmarked, the sequence number of a session only
moves up, and a command returns as applied while it is the latest of its session, then no command is replayed in any
interleaving. -/
theorem noReplay_of_run
    (hrun : Run (Guarded (service hashes deps).Step (System.Allows (fun _ => True) (unreplayed deps)))
      (System.start s) ls c) : NoReplay c := by
  induction hrun with
  | nil => exact ⟨.nil, .nil, .nil⟩
  | @snoc ls c c' ℓ hr hs ih =>
    have honce := once_of_unreplayed hr
    have honce' := once_of_unreplayed (hr.snoc hs)
    have hset := System.settled_of_run hr.forget_guard
    have htraces := System.traces_of_run traces_taskBody (hr.snoc hs).forget_guard
    obtain ⟨hstep, hallows⟩ := hs
    have hstepped := System.stepped_of_step hstep
    rcases applied_of_stepped hstepped hset with heq | ⟨i, th, e, heq, hget, happlied, hturn⟩
    · exact ⟨heq ▸ ih.commandIds, heq ▸ ih.nonces, heq ▸ ih.actorSeqs⟩
    have hwith := appliedWith_of_applied (htraces th (List.mem_of_getElem? hget)) happlied
    obtain ⟨⟨th', hget', hlive⟩, hlatest⟩ := latest_of_applied happlied hwith hallows hturn
    have hearlier : ∀ e₀ ∈ applied c, e₀.controlCommandId ≠ e.controlCommandId ∧ e₀.nonce ≠ e.nonce ∧
        (e₀.actorSessionId = e.actorSessionId → e₀.actorSeq < e.actorSeq) := by
      intro e₀ he₀
      obtain ⟨j, th₀, hget₀, hsub₀, result₀, hout₀, hstatus₀⟩ := exists_of_mem_applied hset he₀
      have hgot₀ := hstepped.ended hget₀ hout₀
      have hused₀ := (appliedWith_of_applied (htraces th₀ (List.mem_of_getElem? hgot₀))
        ⟨hsub₀, result₀, hout₀, hstatus₀⟩).usedUp
      have hji : j ≠ i := by
        rintro rfl
        cases hget₀.symm.trans hget'
        rw [hlive] at hout₀
        cases hout₀
      obtain ⟨hid, hnonce, hseq⟩ := hused₀.disjoint hwith.usedUp (honce'.disjoint j i th₀ th hji hgot₀ hget)
      refine ⟨hid, hnonce, fun hsession => ?_⟩
      obtain ⟨last, hlast, hle⟩ := honce.used th₀ (List.mem_of_getElem? hget₀) _ hused₀.2.2
      rw [hsession, hlatest] at hlast
      cases hlast
      have hne := hseq hsession
      omega
    refine ⟨?_, ?_, ?_⟩ <;> rw [heq, List.pairwise_append]
    · exact ⟨ih.commandIds, List.pairwise_singleton _ _, fun e₀ he₀ e' he' => by
        obtain rfl := List.mem_singleton.mp he'
        exact (hearlier e₀ he₀).1⟩
    · exact ⟨ih.nonces, List.pairwise_singleton _ _, fun e₀ he₀ e' he' => by
        obtain rfl := List.mem_singleton.mp he'
        exact (hearlier e₀ he₀).2.1⟩
    · exact ⟨ih.actorSeqs, List.pairwise_singleton _ _, fun e₀ he₀ e' he' => by
        obtain rfl := List.mem_singleton.mp he'
        exact (hearlier e₀ he₀).2.2⟩

/-! ## Two submissions of one session -/

def retryCommand (commandId nonce : String) (seq : Nat) : ControlCommandEnvelope where
  controlCommandId := commandId
  actorType := .principal
  actorSessionId := "session"
  actorSeq := seq
  nonce := nonce
  expiresAt := "2030-01-01T00:00:00.000Z"
  scope := ⟨.executionScope, .singleAgent, ["agent"], none⟩
  action := .retry

def submit (envelope : ControlCommandEnvelope) : OpctlTask :=
  .submitCommand (.parsed envelope) none "2026-01-01T00:00:00.000Z" "2026-01-01T00:00:00.000Z"

/-- The first validates, then the second, then each of them runs under the lock of the scope. -/
def bothValidate (first second : ControlCommandEnvelope) : List (Label OpctlTask (Option String)) :=
  [.begin (submit first), .begin (submit second)] ++
    [.turn 0 none, .turn 0 none, .turn 0 none, .turn 1 none, .turn 1 none, .turn 1 none] ++
    [.turn 0 none, .turn 1 none, .turn 0 none, .turn 0 none, .turn 0 none, .turn 0 (some "w0"), .turn 0 (some "w1"),
      .turn 0 none] ++
    [.turn 1 none, .turn 1 none, .turn 1 none, .turn 1 none, .turn 1 (some "w2"), .turn 1 (some "w3"), .turn 1 none]

theorem bothValidate_noReplay : ∃ c, (applied c).length = 2 ∧ NoReplay c := by
  obtain ⟨c, hrun, hc⟩ := (service firstTarget withWitness).exists_run_of_check (fun _ => True) (unreplayed withWitness)
    (bothValidate (retryCommand "c1" "n1" 1) (retryCommand "c2" "n2" 2)) .empty
    (fun c => decide ((applied c).length = 2)) (by decide +kernel)
  exact ⟨c, of_decide_eq_true hc, noReplay_of_run hrun⟩

/-- Two copies of one command both pass validation before either of them is marked. -/
theorem bothValidate_not_noReplay : ¬∀ (hashes : Hashes) (deps : OpctlServiceDeps)
    (ls : List (Label OpctlTask (Option String))) (c : OpctlConfig),
    Run (service hashes deps).Step (System.start .empty) ls c → NoReplay c := by
  intro h
  obtain ⟨c, hrun, hc⟩ := (service firstTarget withWitness).exists_run_of_check (fun _ => True) (fun _ _ _ _ _ => True)
    (bothValidate (retryCommand "c1" "n1" 1) (retryCommand "c1" "n1" 1)) .empty
    (fun c => decide ((applied c).map (·.controlCommandId) = ["c1", "c1"])) (by decide +kernel)
  have hids := (h _ _ _ _ hrun.forget_guard).commandIds
  have happlied : (applied c).map (·.controlCommandId) = ["c1", "c1"] := of_decide_eq_true hc
  have hpairwise := List.pairwise_map.mpr hids
  rw [happlied] at hpairwise
  exact absurd rfl (List.rel_of_pairwise_cons hpairwise (List.mem_singleton_self _))

end NousCore.Opctl
