import NousCore.Lib.Sorting
import NousCore.Opctl.Types

/-!
# The scope lock

* `LockCall`, `LockEvent` : the calls of the lock store, and what they lead to;
* `LockRun.step` : one call; a lock is released by an acquisition that was granted and has not released it yet;
* `Ledger` : the store says the same, `ledger_of_run`.
-/

namespace NousCore.Opctl

/-! ## Calls -/

inductive LockCall where
  | acquire (scopeKey : String) (action : ControlAction) (commandId : ControlCommandId)
  | release (scopeKey : String) (ticket : Nat)

inductive LockEvent where
  | granted (scopeKey : String) (holder : Holder)
  | queued (scopeKey : String) (waiter : Holder)
  | refused (scopeKey : String) (action holderAction : ControlAction)
  | released (scopeKey : String) (ticket : Nat)

/-- The store, and what has happened so far. -/
structure LockRun where
  state : OpctlState
  events : List LockEvent

def acquireEvent (s : OpctlState) (scopeKey : String) (action : ControlAction) (commandId : ControlCommandId) :
    LockEvent :=
  match (s.acquire scopeKey action commandId).1 with
  | .acquired => .granted scopeKey ⟨action, commandId, s.tickets⟩
  | .conflict holderAction => .refused scopeKey action holderAction
  | .waiting ticket => .queued scopeKey ⟨action, commandId, ticket⟩

/-- The waiters whose promises a release resolves. -/
def resolvedBy (s : OpctlState) (scopeKey : String) : List Holder :=
  let granted := (s.release scopeKey).granted
  (s.queue scopeKey).filter fun waiter => waiter.ticket ∈ granted.take (granted.length - s.granted.length)

def releaseEvents (s : OpctlState) (scopeKey : String) (ticket : Nat) : List LockEvent :=
  .released scopeKey ticket :: (resolvedBy s scopeKey).map (.granted scopeKey)

/-! ## What the events say of a scope -/

def grantedAt (scopeKey : String) (events : List LockEvent) : List Holder :=
  events.filterMap fun
    | .granted key holder => if key = scopeKey then some holder else none
    | _ => none

def queuedAt (scopeKey : String) (events : List LockEvent) : List Holder :=
  events.filterMap fun
    | .queued key waiter => if key = scopeKey then some waiter else none
    | _ => none

def releasedAt (scopeKey : String) (events : List LockEvent) : List Nat :=
  events.filterMap fun
    | .released key ticket => if key = scopeKey then some ticket else none
    | _ => none

/-- The acquisitions that were granted and not released. -/
def outstanding (scopeKey : String) (events : List LockEvent) : List Holder :=
  (grantedAt scopeKey events).filter (·.ticket ∉ releasedAt scopeKey events)

/-- The acquisitions that were queued and not granted. -/
def waiting (scopeKey : String) (events : List LockEvent) : List Holder :=
  (queuedAt scopeKey events).filter (· ∉ grantedAt scopeKey events)

/-! ## Runs -/

def LockRun.start : LockRun := ⟨.empty, []⟩

def LockRun.step (r : LockRun) : LockCall → Option LockRun
  | .acquire scopeKey action commandId => some
    { state := (r.state.acquire scopeKey action commandId).2
      events := r.events ++ [acquireEvent r.state scopeKey action commandId] }
  | .release scopeKey ticket =>
    if (outstanding scopeKey r.events).any (·.ticket = ticket) then some
      { state := r.state.release scopeKey
        events := r.events ++ releaseEvents r.state scopeKey ticket }
    else none

abbrev LockRun.Step : LockRun → LockCall → LockRun → Prop := Takes LockRun.step

/-- **A priority lock.** For one scope: what holds after a run, and what the next call does. -/
structure PriorityLock (scopeKey : String) (r : LockRun) : Prop where
  /-- At most one acquisition is granted and not released. -/
  exclusive : (outstanding scopeKey r.events).length ≤ 1
  /-- A waiter exists only while there is a holder. -/
  held : waiting scopeKey r.events ≠ [] → outstanding scopeKey r.events ≠ []
  /-- No waiter is lost. -/
  kept : r.state.queue scopeKey = waiting scopeKey r.events
  /-- No acquisition is granted twice. -/
  once : ((grantedAt scopeKey r.events).map (·.ticket)).Nodup
  /-- A release grants exactly one waiter: the earliest of the highest precedence. -/
  handsOver : ∀ ticket r', r.Step (.release scopeKey ticket) r' → waiting scopeKey r.events ≠ [] →
    ∃ l₁ next l₂, waiting scopeKey r.events = l₁ ++ next :: l₂ ∧
      (∀ w ∈ l₁, getPrecedence next.action < getPrecedence w.action) ∧
      (∀ w ∈ l₂, getPrecedence next.action ≤ getPrecedence w.action) ∧
      r'.events = r.events ++ [.released scopeKey ticket, .granted scopeKey next]
  /-- An acquisition is refused only for a holder of strictly higher precedence. -/
  refuses : ∀ action commandId holderAction,
    r.Step (.acquire scopeKey action commandId)
      ⟨(r.state.acquire scopeKey action commandId).2, r.events ++ [.refused scopeKey action holderAction]⟩ →
    ∃ holder ∈ outstanding scopeKey r.events, holder.action = holderAction ∧
      getPrecedence holder.action < getPrecedence action

section Events

variable {key other : String} {events : List LockEvent} {h : Holder} {t : Nat}

@[simp] theorem grantedAt_append (es es' : List LockEvent) :
    grantedAt key (es ++ es') = grantedAt key es ++ grantedAt key es' := List.filterMap_append

@[simp] theorem queuedAt_append (es es' : List LockEvent) :
    queuedAt key (es ++ es') = queuedAt key es ++ queuedAt key es' := List.filterMap_append

@[simp] theorem releasedAt_append (es es' : List LockEvent) :
    releasedAt key (es ++ es') = releasedAt key es ++ releasedAt key es' := List.filterMap_append

def LockEvent.scopeKey : LockEvent → String
  | .granted key _ | .queued key _ | .refused key _ _ | .released key _ => key

theorem at_of_elsewhere {es : List LockEvent} (hes : ∀ e ∈ es, e.scopeKey ≠ key) :
    grantedAt key es = [] ∧ queuedAt key es = [] ∧ releasedAt key es = [] := by
  refine ⟨List.filterMap_eq_nil_iff.mpr ?_, List.filterMap_eq_nil_iff.mpr ?_, List.filterMap_eq_nil_iff.mpr ?_⟩ <;>
  · intro e he
    have hne := hes e he
    cases e <;> simp_all [LockEvent.scopeKey]

end Events

/-! ## The store, case by case -/

section Store

variable (s : OpctlState) (key : String) (action : ControlAction) (commandId : ControlCommandId)

inductive Acquires : Prop
  | grants : s.holder key = none →
      (s.acquire key action commandId).2 = { s with
        holders := s.holders.set key (some ⟨action, commandId, s.tickets⟩)
        tickets := s.tickets + 1 } →
      acquireEvent s key action commandId = .granted key ⟨action, commandId, s.tickets⟩ → Acquires
  | refuses (holder : Holder) : s.holder key = some holder → getPrecedence holder.action < getPrecedence action →
      (s.acquire key action commandId).2 = s →
      acquireEvent s key action commandId = .refused key action holder.action → Acquires
  | queues (holder : Holder) : s.holder key = some holder →
      (s.acquire key action commandId).2 = { s with
        waiters := s.waiters.set key (s.queue key ++ [⟨action, commandId, s.tickets⟩])
        tickets := s.tickets + 1 } →
      acquireEvent s key action commandId = .queued key ⟨action, commandId, s.tickets⟩ → Acquires

theorem acquires : Acquires s key action commandId := by
  cases hholder : s.holder key with
  | none =>
    refine .grants hholder ?_ ?_
    · unfold OpctlState.acquire
      rw [hholder]
    · unfold acquireEvent OpctlState.acquire
      rw [hholder]
  | some holder =>
    by_cases hrank : getPrecedence action > getPrecedence holder.action
    · refine .refuses holder hholder hrank ?_ ?_
      · unfold OpctlState.acquire
        rw [hholder]
        exact congrArg Prod.snd (if_pos hrank)
      · unfold acquireEvent OpctlState.acquire
        rw [hholder]
        dsimp only
        rw [if_pos hrank]
    · refine .queues holder hholder ?_ ?_
      · unfold OpctlState.acquire
        rw [hholder]
        exact congrArg Prod.snd (if_neg hrank)
      · unfold acquireEvent OpctlState.acquire
        rw [hholder]
        dsimp only
        rw [if_neg hrank]

inductive Releases : Prop
  | frees : s.queue key = [] → s.release key = { s with holders := s.holders.set key none } →
      resolvedBy s key = [] → Releases
  | handsOver (l₁ : List Holder) (next : Holder) (l₂ : List Holder) : s.queue key = l₁ ++ next :: l₂ →
      (∀ w ∈ l₁, getPrecedence next.action < getPrecedence w.action) →
      (∀ w ∈ l₂, getPrecedence next.action ≤ getPrecedence w.action) →
      s.release key = { s with
        holders := s.holders.set key (some next)
        waiters := s.waiters.set key ((s.queue key).filter (· ≠ next))
        granted := next.ticket :: s.granted } →
      resolvedBy s key = [next] → Releases

theorem releases (hdistinct : ((s.queue key).map (·.ticket)).Nodup) : Releases s key := by
  cases hsorted : (s.queue key).insertionSort fun a b => getPrecedence a.action ≤ getPrecedence b.action with
  | nil =>
    have hnil : s.queue key = [] :=
      List.nil_perm.mp (hsorted ▸ List.perm_insertionSort
        (fun a b : Holder => getPrecedence a.action ≤ getPrecedence b.action) (s.queue key))
    refine .frees hnil ?_ ?_
    · unfold OpctlState.release
      rw [hsorted]
    · unfold resolvedBy
      rw [hnil]
      rfl
  | cons next rest =>
    obtain ⟨l₁, l₂, hsplit, hbefore, hafter⟩ :=
      @exists_split_of_insertionSort _ _ (fun holder : Holder => getPrecedence holder.action) _ _ hsorted
    have hrelease : s.release key = { s with
        holders := s.holders.set key (some next)
        waiters := s.waiters.set key ((s.queue key).filter (· ≠ next))
        granted := next.ticket :: s.granted } := by
      unfold OpctlState.release
      rw [hsorted]
    refine .handsOver l₁ next l₂ hsplit hbefore hafter hrelease ?_
    unfold resolvedBy
    rw [hrelease, hsplit]
    rw [hsplit, List.map_append, List.map_cons] at hdistinct
    obtain ⟨hnot₂, -⟩ := List.nodup_cons.mp hdistinct.of_append_right
    have hnot₁ : next.ticket ∉ l₁.map (·.ticket) := fun hmem =>
      (List.disjoint_of_nodup_append hdistinct) hmem List.mem_cons_self
    simp only [List.length_cons, Nat.add_sub_cancel_left, List.take_succ_cons, List.take_zero, List.mem_singleton,
      List.filter_append, List.filter_cons, decide_true, if_true]
    rw [List.filter_eq_nil_iff.mpr, List.filter_eq_nil_iff.mpr, List.nil_append]
    · intro w hw hticket
      exact hnot₂ (List.mem_map.mpr ⟨w, hw, of_decide_eq_true hticket⟩)
    · intro w hw hticket
      exact hnot₁ (List.mem_map.mpr ⟨w, hw, of_decide_eq_true hticket⟩)

end Store

/-! ## The events and the store -/

/-- The store says of a scope what the events say. -/
structure Ledger (key : String) (s : OpctlState) (events : List LockEvent) : Prop where
  outstanding : outstanding key events = (s.holder key).toList
  waiting : waiting key events = s.queue key
  held : s.queue key ≠ [] → s.holder key ≠ none
  granted_lt : ∀ h ∈ grantedAt key events, h.ticket < s.tickets
  queued_lt : ∀ w ∈ queuedAt key events, w.ticket < s.tickets
  released : ∀ t ∈ releasedAt key events, t ∈ (grantedAt key events).map (·.ticket)
  same : ∀ h ∈ grantedAt key events, ∀ w ∈ queuedAt key events, h.ticket = w.ticket → h = w
  once : ((grantedAt key events).map (·.ticket)).Nodup
  distinct : ((queuedAt key events).map (·.ticket)).Nodup

namespace Ledger

variable {key : String} {s s' : OpctlState} {events es : List LockEvent} {action : ControlAction}
  {commandId : ControlCommandId} {h next : Holder} {ticket : Nat}

theorem start (key : String) : Ledger key .empty [] :=
  ⟨rfl, rfl, fun hqueue => absurd rfl hqueue, nofun, nofun, nofun, nofun, List.nodup_nil, List.nodup_nil⟩

section

variable (hl : Ledger key s events)

include hl

theorem elsewhere (hes : ∀ e ∈ es, e.scopeKey ≠ key) (hholder : s'.holder key = s.holder key)
    (hqueue : s'.queue key = s.queue key) (htickets : s.tickets ≤ s'.tickets) : Ledger key s' (events ++ es) := by
  obtain ⟨hgranted, hqueued, hreleased⟩ := at_of_elsewhere hes
  have hg : grantedAt key (events ++ es) = grantedAt key events := by rw [grantedAt_append, hgranted, List.append_nil]
  have hq : queuedAt key (events ++ es) = queuedAt key events := by rw [queuedAt_append, hqueued, List.append_nil]
  have hr : releasedAt key (events ++ es) = releasedAt key events := by
    rw [releasedAt_append, hreleased, List.append_nil]
  refine ⟨?_, ?_, ?_, ?_, ?_, ?_, ?_, ?_, ?_⟩
  · unfold Opctl.outstanding
    rw [hg, hr, hholder]
    exact hl.outstanding
  · unfold Opctl.waiting
    rw [hg, hq, hqueue]
    exact hl.waiting
  · rw [hqueue, hholder]
    exact hl.held
  · rw [hg]
    exact fun h hh => Nat.lt_of_lt_of_le (hl.granted_lt h hh) htickets
  · rw [hq]
    exact fun w hw => Nat.lt_of_lt_of_le (hl.queued_lt w hw) htickets
  · rw [hg, hr]
    exact hl.released
  · rw [hg, hq]
    exact hl.same
  · rw [hg]
    exact hl.once
  · rw [hq]
    exact hl.distinct

theorem refused (holderAction : ControlAction) :
    Ledger key s (events ++ [.refused key action holderAction]) := by
  have hg : grantedAt key (events ++ [.refused key action holderAction]) = grantedAt key events := by
    rw [grantedAt_append]
    exact List.append_nil _
  have hq : queuedAt key (events ++ [.refused key action holderAction]) = queuedAt key events := by
    rw [queuedAt_append]
    exact List.append_nil _
  have hr : releasedAt key (events ++ [.refused key action holderAction]) = releasedAt key events := by
    rw [releasedAt_append]
    exact List.append_nil _
  refine ⟨?_, ?_, hl.held, ?_, ?_, ?_, ?_, ?_, ?_⟩
  · unfold Opctl.outstanding
    rw [hg, hr]
    exact hl.outstanding
  · unfold Opctl.waiting
    rw [hg, hq]
    exact hl.waiting
  · rw [hg]
    exact hl.granted_lt
  · rw [hq]
    exact hl.queued_lt
  · rw [hg, hr]
    exact hl.released
  · rw [hg, hq]
    exact hl.same
  · rw [hg]
    exact hl.once
  · rw [hq]
    exact hl.distinct

theorem queue_eq_nil (hfree : s.holder key = none) : s.queue key = [] := by
  by_contra hqueue
  exact hl.held hqueue hfree

theorem not_granted (hnext : next ∈ s.queue key) :
    next ∈ queuedAt key events ∧ next.ticket ∉ (grantedAt key events).map (·.ticket) := by
  rw [← hl.waiting] at hnext
  obtain ⟨hqueued, hnot⟩ := List.mem_filter.mp hnext
  refine ⟨hqueued, fun hmem => ?_⟩
  obtain ⟨h, hh, hticket⟩ := List.mem_map.mp hmem
  rw [hl.same h hh next hqueued hticket] at hh
  exact of_decide_eq_true hnot hh

theorem taken (hfree : s.holder key = none) :
    Ledger key { s with
      holders := s.holders.set key (some ⟨action, commandId, s.tickets⟩)
      tickets := s.tickets + 1 } (events ++ [.granted key ⟨action, commandId, s.tickets⟩]) := by
  have hg : grantedAt key (events ++ [.granted key ⟨action, commandId, s.tickets⟩]) =
      grantedAt key events ++ [⟨action, commandId, s.tickets⟩] := by
    rw [grantedAt_append]
    simp [grantedAt]
  have hq : queuedAt key (events ++ [.granted key ⟨action, commandId, s.tickets⟩]) = queuedAt key events := by
    rw [queuedAt_append]
    exact List.append_nil _
  have hr : releasedAt key (events ++ [.granted key ⟨action, commandId, s.tickets⟩]) = releasedAt key events := by
    rw [releasedAt_append]
    exact List.append_nil _
  have hfresh : s.tickets ∉ (grantedAt key events).map (·.ticket) := by
    intro hmem
    obtain ⟨h, hh, hticket⟩ := List.mem_map.mp hmem
    exact absurd (hl.granted_lt h hh) (by omega)
  refine ⟨?_, ?_, fun _ => by simp [OpctlState.holder, Record.get?_set], ?_, ?_, ?_, ?_, ?_, ?_⟩
  · have hout := hl.outstanding
    rw [hfree] at hout
    unfold Opctl.outstanding at hout ⊢
    rw [hg, hr, List.filter_append, hout]
    have hnot : s.tickets ∉ releasedAt key events := fun hmem => hfresh (hl.released _ hmem)
    simp [OpctlState.holder, Record.get?_set, hnot]
  · have hwait := hl.waiting
    rw [hl.queue_eq_nil hfree] at hwait
    unfold Opctl.waiting at hwait ⊢
    rw [hg, hq]
    show _ = s.queue key
    rw [hl.queue_eq_nil hfree, List.filter_eq_nil_iff]
    intro w hw hnot
    refine List.filter_eq_nil_iff.mp hwait w hw (decide_eq_true fun hmem => ?_)
    exact of_decide_eq_true hnot (List.mem_append_left _ hmem)
  · rw [hg]
    intro h hh
    rcases List.mem_append.mp hh with hh | hh
    · exact Nat.lt_succ_of_lt (hl.granted_lt h hh)
    · obtain rfl := List.mem_singleton.mp hh
      exact Nat.lt_succ_self _
  · rw [hq]
    exact fun w hw => Nat.lt_succ_of_lt (hl.queued_lt w hw)
  · rw [hg, hr, List.map_append]
    exact fun t ht => List.mem_append_left _ (hl.released t ht)
  · rw [hg, hq]
    intro h hh w hw hticket
    rcases List.mem_append.mp hh with hh | hh
    · exact hl.same h hh w hw hticket
    · obtain rfl := List.mem_singleton.mp hh
      have hlt := hl.queued_lt w hw
      rw [← hticket] at hlt
      exact absurd hlt (Nat.lt_irrefl _)
  · rw [hg, List.map_append, List.nodup_append]
    refine ⟨hl.once, List.nodup_singleton _, fun t ht t' ht' heq => ?_⟩
    rw [heq, List.mem_singleton.mp ht'] at ht
    exact hfresh ht
  · rw [hq]
    exact hl.distinct

theorem queued (hheld : s.holder key ≠ none) :
    Ledger key { s with
      waiters := s.waiters.set key (s.queue key ++ [⟨action, commandId, s.tickets⟩])
      tickets := s.tickets + 1 } (events ++ [.queued key ⟨action, commandId, s.tickets⟩]) := by
  have hg : grantedAt key (events ++ [.queued key ⟨action, commandId, s.tickets⟩]) = grantedAt key events := by
    rw [grantedAt_append]
    exact List.append_nil _
  have hq : queuedAt key (events ++ [.queued key ⟨action, commandId, s.tickets⟩]) =
      queuedAt key events ++ [⟨action, commandId, s.tickets⟩] := by
    rw [queuedAt_append]
    simp [queuedAt]
  have hr : releasedAt key (events ++ [.queued key ⟨action, commandId, s.tickets⟩]) = releasedAt key events := by
    rw [releasedAt_append]
    exact List.append_nil _
  have hfresh : ∀ h ∈ grantedAt key events, h.ticket ≠ s.tickets := fun h hh heq => by
    have := hl.granted_lt h hh
    omega
  refine ⟨?_, ?_, fun _ => hheld, ?_, ?_, ?_, ?_, ?_, ?_⟩
  · unfold Opctl.outstanding
    rw [hg, hr]
    exact hl.outstanding
  · have hwait := hl.waiting
    unfold Opctl.waiting at hwait ⊢
    rw [hg, hq, List.filter_append, hwait]
    have hnew : (⟨action, commandId, s.tickets⟩ : Holder) ∉ grantedAt key events := fun hmem => hfresh _ hmem rfl
    simp [OpctlState.queue, Record.get?_set, hnew]
  · rw [hg]
    exact fun h hh => Nat.lt_succ_of_lt (hl.granted_lt h hh)
  · rw [hq]
    intro w hw
    rcases List.mem_append.mp hw with hw | hw
    · exact Nat.lt_succ_of_lt (hl.queued_lt w hw)
    · obtain rfl := List.mem_singleton.mp hw
      exact Nat.lt_succ_self _
  · rw [hg, hr]
    exact hl.released
  · rw [hg, hq]
    intro h hh w hw hticket
    rcases List.mem_append.mp hw with hw | hw
    · exact hl.same h hh w hw hticket
    · obtain rfl := List.mem_singleton.mp hw
      exact absurd hticket (hfresh h hh)
  · rw [hg]
    exact hl.once
  · rw [hq, List.map_append, List.nodup_append]
    refine ⟨hl.distinct, List.nodup_singleton _, fun t ht t' ht' heq => ?_⟩
    obtain ⟨w, hw, hticket⟩ := List.mem_map.mp ht
    have hlt := hl.queued_lt w hw
    rw [hticket, heq, List.mem_singleton.mp ht'] at hlt
    exact absurd hlt (Nat.lt_irrefl _)

theorem handed {gs : List Holder} (hholder : s.holder key = some h) (hticket : h.ticket = ticket)
    (hsub : ∀ w ∈ gs, w ∈ s.queue key) (hone : gs.length ≤ 1) (hnew : (s'.holder key).toList = gs)
    (hqueue : s'.queue key = (s.queue key).filter (· ∉ gs)) (hwait : s'.queue key ≠ [] → gs ≠ [])
    (htickets : s'.tickets = s.tickets) :
    Ledger key s' (events ++ .released key ticket :: gs.map (.granted key)) := by
  have hg : grantedAt key (events ++ .released key ticket :: gs.map (.granted key)) = grantedAt key events ++ gs := by
    rw [grantedAt_append]
    simp [grantedAt, List.filterMap_map]
  have hq : queuedAt key (events ++ .released key ticket :: gs.map (.granted key)) = queuedAt key events := by
    rw [queuedAt_append]
    simp [queuedAt, List.filterMap_map]
  have hr : releasedAt key (events ++ .released key ticket :: gs.map (.granted key)) =
      releasedAt key events ++ [ticket] := by
    rw [releasedAt_append]
    simp [releasedAt, List.filterMap_map]
  have hgranted : h ∈ grantedAt key events := by
    have hmem : h ∈ Opctl.outstanding key events := by
      rw [hl.outstanding, hholder]
      exact List.mem_singleton_self _
    exact (List.mem_filter.mp hmem).1
  have hnever : ∀ w ∈ gs, w ∈ queuedAt key events ∧ w.ticket ∉ (grantedAt key events).map (·.ticket) :=
    fun w hw => hl.not_granted (hsub w hw)
  refine ⟨?_, ?_, ?_, ?_, ?_, ?_, ?_, ?_, ?_⟩
  · have hout := hl.outstanding
    rw [hholder] at hout
    unfold Opctl.outstanding at hout ⊢
    rw [hg, hr, List.filter_append, hnew]
    have hold : (grantedAt key events).filter (fun x => decide (x.ticket ∉ releasedAt key events ++ [ticket])) = [] := by
      rw [List.filter_eq_nil_iff]
      intro x hx hnot
      have hnot := of_decide_eq_true hnot
      rw [List.mem_append, not_or, List.mem_singleton] at hnot
      have hmem : x ∈ (some h).toList := hout ▸ List.mem_filter.mpr ⟨hx, decide_eq_true hnot.1⟩
      rw [List.mem_singleton.mp hmem] at hnot
      exact hnot.2 hticket
    have hall : gs.filter (fun x => decide (x.ticket ∉ releasedAt key events ++ [ticket])) = gs := by
      rw [List.filter_eq_self]
      intro w hw
      refine decide_eq_true fun hmem => (hnever w hw).2 ?_
      rcases List.mem_append.mp hmem with hmem | hmem
      · exact hl.released _ hmem
      · rw [List.mem_singleton.mp hmem, ← hticket]
        exact List.mem_map_of_mem hgranted
    rw [hold, hall, List.nil_append]
  · have hwaiting := hl.waiting
    unfold Opctl.waiting at hwaiting ⊢
    rw [hg, hq, hqueue, ← hwaiting, List.filter_filter]
    refine List.filter_congr fun w _ => ?_
    simp only [List.mem_append, not_or, Bool.decide_and, Bool.and_comm]
  · intro hne hnone
    rw [hnone] at hnew
    exact hwait hne hnew.symm
  · rw [hg, htickets]
    intro x hx
    rcases List.mem_append.mp hx with hx | hx
    · exact hl.granted_lt x hx
    · exact hl.queued_lt x (hnever x hx).1
  · rw [hq, htickets]
    exact hl.queued_lt
  · rw [hg, hr, List.map_append]
    intro t ht
    rcases List.mem_append.mp ht with ht | ht
    · exact List.mem_append_left _ (hl.released t ht)
    · rw [List.mem_singleton.mp ht, ← hticket]
      exact List.mem_append_left _ (List.mem_map_of_mem hgranted)
  · rw [hg, hq]
    intro x hx w hw heq
    rcases List.mem_append.mp hx with hx | hx
    · exact hl.same x hx w hw heq
    · exact List.inj_on_of_nodup_map hl.distinct (hnever x hx).1 hw heq
  · rw [hg, List.map_append, List.nodup_append]
    refine ⟨hl.once, ?_, fun t ht t' ht' heq => ?_⟩
    · match gs, hone with
      | [], _ => exact List.nodup_nil
      | [w], _ => exact List.nodup_singleton _
    · obtain ⟨w, hw, hwt⟩ := List.mem_map.mp ht'
      rw [heq, ← hwt] at ht
      exact (hnever w hw).2 ht
  · rw [hq]
    exact hl.distinct

end

end Ledger

/-! ## Runs of the store -/

variable {key : String} {r r' : LockRun} {call : LockCall} {calls : List LockCall}

theorem distinct_queue (hl : Ledger key r.state r.events) : ((r.state.queue key).map (·.ticket)).Nodup := by
  rw [← hl.waiting]
  exact hl.distinct.sublist (List.filter_sublist.map _)

theorem exists_holder {ticket : Nat} (hl : Ledger key r.state r.events)
    (hreleases : (outstanding key r.events).any (·.ticket = ticket) = true) :
    ∃ h, r.state.holder key = some h ∧ h.ticket = ticket := by
  obtain ⟨h, hmem, hticket⟩ := List.any_eq_true.mp hreleases
  rw [hl.outstanding] at hmem
  exact ⟨h, Option.mem_toList.mp hmem, of_decide_eq_true hticket⟩

theorem Ledger.step (hl : ∀ key, Ledger key r.state r.events) (hstep : r.Step call r') :
    ∀ key, Ledger key r'.state r'.events := by
  intro key
  cases call with
  | acquire other action commandId =>
    cases hstep
    by_cases hkey : other = key
    · subst hkey
      cases acquires r.state other action commandId with
      | grants hfree hstate hevent =>
        rw [hstate, hevent]
        exact (hl other).taken hfree
      | refuses holder hholder hrank hstate hevent =>
        rw [hstate, hevent]
        exact (hl other).refused _
      | queues holder hholder hstate hevent =>
        rw [hstate, hevent]
        exact (hl other).queued (by rw [hholder]; exact Option.some_ne_none _)
    · have hkey' : key ≠ other := fun h => hkey h.symm
      cases acquires r.state other action commandId with
      | grants hfree hstate hevent =>
        rw [hstate, hevent]
        exact (hl key).elsewhere (by simpa [LockEvent.scopeKey] using hkey)
          (by simp [OpctlState.holder, Record.get?_set, hkey']) rfl (Nat.le_succ _)
      | refuses holder hholder hrank hstate hevent =>
        rw [hstate, hevent]
        exact (hl key).elsewhere (by simpa [LockEvent.scopeKey] using hkey) rfl rfl (Nat.le_refl _)
      | queues holder hholder hstate hevent =>
        rw [hstate, hevent]
        exact (hl key).elsewhere (by simpa [LockEvent.scopeKey] using hkey) rfl
          (by simp [OpctlState.queue, Record.get?_set, hkey']) (Nat.le_succ _)
  | release other ticket =>
    obtain ⟨hreleases, heq⟩ := Option.ite_none_right_eq_some.mp hstep
    cases heq
    obtain ⟨h, hholder, hticket⟩ := exists_holder (hl other) hreleases
    unfold releaseEvents
    by_cases hkey : other = key
    · subst hkey
      cases releases r.state other (distinct_queue (hl other)) with
      | frees hnil hstate hresolved =>
        rw [hstate, hresolved]
        exact (hl other).handed hholder hticket nofun (Nat.zero_le _)
          (by simp [OpctlState.holder, Record.get?_set]) (by simp [OpctlState.queue])
          (fun hne => absurd (hnil ▸ rfl) hne) rfl
      | handsOver l₁ next l₂ hsplit hbefore hafter hstate hresolved =>
        rw [hstate, hresolved]
        refine (hl other).handed hholder hticket ?_ (Nat.le_refl _)
          (by simp [OpctlState.holder, Record.get?_set]) (by simp [OpctlState.queue, Record.get?_set])
          (fun _ => List.cons_ne_nil _ _) rfl
        intro w hw
        rw [List.mem_singleton.mp hw, hsplit]
        exact List.mem_append_right _ List.mem_cons_self
    · have hkey' : key ≠ other := fun h => hkey h.symm
      have helsewhere : ∀ e ∈ LockEvent.released other ticket :: (resolvedBy r.state other).map (.granted other),
          e.scopeKey ≠ key := by
        intro e he
        rcases List.mem_cons.mp he with rfl | he
        · exact hkey
        · obtain ⟨w, -, rfl⟩ := List.mem_map.mp he
          exact hkey
      cases releases r.state other (distinct_queue (hl other)) with
      | frees hnil hstate hresolved =>
        exact (hl key).elsewhere helsewhere (by rw [hstate]; simp [OpctlState.holder, Record.get?_set, hkey'])
          (by rw [hstate]; rfl) (by rw [hstate])
      | handsOver l₁ next l₂ hsplit hbefore hafter hstate hresolved =>
        exact (hl key).elsewhere helsewhere (by rw [hstate]; simp [OpctlState.holder, Record.get?_set, hkey'])
          (by rw [hstate]; simp [OpctlState.queue, Record.get?_set, hkey']) (by rw [hstate])

theorem ledger_of_run (hrun : Run LockRun.Step .start calls r) (key : String) : Ledger key r.state r.events :=
  hrun.invariant (P := fun r => ∀ key, Ledger key r.state r.events) (fun _ _ _ h hstep => Ledger.step h hstep)
    Ledger.start key

/-- **The scope lock is a priority lock**, after any calls. -/
theorem priorityLock_of_run (hrun : Run LockRun.Step .start calls r) (key : String) : PriorityLock key r := by
  have hl := ledger_of_run hrun key
  refine ⟨?_, fun hne => ?_, hl.waiting.symm, hl.once, fun ticket r' hstep hne => ?_,
    fun action commandId holderAction hstep => ?_⟩
  · rw [hl.outstanding]
    exact Option.length_toList_le
  · rw [hl.waiting] at hne
    rw [hl.outstanding]
    intro hnil
    exact hl.held hne (Option.toList_eq_nil_iff.mp hnil)
  · obtain ⟨hreleases, heq⟩ := Option.ite_none_right_eq_some.mp hstep
    cases heq
    rw [hl.waiting] at hne ⊢
    cases releases r.state key (distinct_queue hl) with
    | frees hnil hstate hresolved => exact absurd hnil hne
    | handsOver l₁ next l₂ hsplit hbefore hafter hstate hresolved =>
      refine ⟨l₁, next, l₂, hsplit, hbefore, hafter, ?_⟩
      unfold releaseEvents
      rw [hresolved]
      rfl
  · have hevent : acquireEvent r.state key action commandId = .refused key action holderAction := by
      have heq := congrArg LockRun.events (Option.some.inj hstep)
      exact List.cons.inj (List.append_cancel_left heq) |>.1
    cases acquires r.state key action commandId with
    | grants hfree hstate hgranted =>
      rw [hgranted] at hevent
      cases hevent
    | refuses holder hholder hrank hstate hrefused =>
      rw [hrefused] at hevent
      obtain ⟨-, -, rfl⟩ := LockEvent.refused.inj hevent
      exact ⟨holder, by rw [hl.outstanding, hholder]; exact List.mem_singleton_self _, rfl, hrank⟩
    | queues holder hholder hstate hqueued =>
      rw [hqueued] at hevent
      cases hevent

/-- Two pauses wait, a resume is refused, and the earlier pause is handed the lock. -/
theorem pauses_priorityLock : ∃ calls r, Run LockRun.Step .start calls r ∧
    waiting "p" r.events = [⟨.pause, "d", 2⟩] ∧ outstanding "p" r.events = [⟨.pause, "b", 1⟩] ∧
    PriorityLock "p" r := by
  obtain ⟨r, hrun, hr⟩ := exists_run_of_takes LockRun.step
    [.acquire "p" .pause "a", .acquire "p" .pause "b", .acquire "p" .resume "c", .acquire "p" .pause "d",
      .release "p" 0] .start
    (fun r => decide (waiting "p" r.events = [⟨.pause, "d", 2⟩] ∧ outstanding "p" r.events = [⟨.pause, "b", 1⟩]))
    (by decide +kernel)
  obtain ⟨hwaiting, houtstanding⟩ := of_decide_eq_true hr
  exact ⟨_, r, hrun, hwaiting, houtstanding, priorityLock_of_run hrun "p"⟩

end NousCore.Opctl
