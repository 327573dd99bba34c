import Mathlib.Data.List.Perm.Subperm
import NousCore.Inference.Lane

/-!
# Every request of a lane ends once

* `Accounted` : each accepted request is queued, active or ended, and was executed once more than it was put back;
* `Busy`, `weight` : no slot is left free while a request waits, and what is left to do.
-/

namespace NousCore.Inference

variable {r r' : LaneRun} {capacity nowMs id : Nat} {e : LaneEntry} {a : ActiveLaneEntry} {queue : List LaneEntry}
  {label : LaneLabel} {labels : List LaneLabel}

/-! ## What the operations do -/

theorem InferenceLane.queueEntry_spec (lane : InferenceLane) (e : LaneEntry) :
    ∃ queue : List LaneEntry, queue.Perm (e :: lane.queue) ∧ lane.queueEntry e = { lane with queue } := by
  unfold queueEntry
  split
  · refine ⟨_, ?_, rfl⟩
    have hsplit : (lane.queue.take (lane.insertIndex e) ++ e :: lane.queue.drop (lane.insertIndex e)).Perm
        (e :: (lane.queue.take (lane.insertIndex e) ++ lane.queue.drop (lane.insertIndex e))) := List.perm_middle
    rwa [List.take_append_drop] at hsplit
  · exact ⟨_, (perm_sortBy queueOrder _).trans (List.perm_append_singleton e lane.queue), rfl⟩

theorem InferenceLane.preempts_eq_some {lane : InferenceLane} {priority : InferencePriority}
    (h : lane.preempts priority = some a) : a ∈ lane.active.values ∧ a.entry.priority ≠ .interactive := by
  unfold preempts at h
  split_ifs at h
  have hmem := List.mem_of_mem_head? (Option.mem_def.mpr h)
  rw [mem_sortBy, List.mem_filter] at hmem
  refine ⟨hmem.1, fun hinteractive => ?_⟩
  rw [hinteractive] at hmem
  simp at hmem

theorem keys_erase {active : Record Nat ActiveLaneEntry} : (active.erase id).keys = active.keys.erase id := by
  refine Eq.trans ?_ (active.nodup.erase_eq_filter id).symm
  rw [List.filter_map]
  exact congrArg (List.map Prod.fst) (List.filter_congr fun x _ => Bool.eq_iff_iff.mpr (by simp))

/-! ## Where the requests are -/

/-- An entry is the one that was accepted, or that one put back. -/
def LaneRun.Knows (r : LaneRun) (e : LaneEntry) : Prop :=
  ∃ b ∈ r.accepted, b.id = e.id ∧ b.priority = e.priority ∧ b.stream = e.stream

structure Accounted (capacity : Nat) (r : LaneRun) : Prop where
  capacity_eq : r.capacity = capacity
  numbered : r.accepted.map (·.id) = List.range r.accepted.length
  /-- Each accepted request is in the queue, active, or ended, in one of these places and once. -/
  placed : ∀ id, (r.queue.map (·.id)).count id + r.active.keys.count id + r.ended.count id =
    (r.accepted.map (·.id)).count id
  bounded : r.active.keys.length ≤ capacity
  queued : ∀ e ∈ r.queue, r.Knows e
  running : ∀ x ∈ r.active.entries, x.2.entry.id = x.1 ∧ r.Knows x.2.entry
  /-- An execution is in progress, has ended, or was put back. -/
  executed : ∀ id, r.started.count id = r.requeued.count id + r.active.keys.count id + r.ended.count id
  /-- Only preempted executions are put back, each once. -/
  requeued : ∀ id, r.requeued.count id ≤ r.preempted.count id
  marked : ∀ x ∈ r.active.entries, x.2.preempted = true →
    r.requeued.count x.1 < r.preempted.count x.1 ∧ x.2.entry.priority ≠ .interactive
  movable : ∀ id ∈ r.requeued, ∃ b ∈ r.accepted, b.id = id ∧ b.priority ≠ .interactive ∧ b.stream = false

theorem accounted_create : Accounted capacity (.create capacity nowMs) :=
  ⟨rfl, rfl, fun _ => rfl, Nat.zero_le _, nofun, nofun, fun _ => rfl, fun _ => Nat.le_refl _, nofun, nofun⟩

namespace Accounted

theorem nodup (h : Accounted capacity r) : (r.accepted.map (·.id)).Nodup := by
  rw [h.numbered]
  exact List.nodup_range

theorem count_le_one (h : Accounted capacity r) (id : Nat) : (r.accepted.map (·.id)).count id ≤ 1 :=
  List.nodup_iff_count_le_one.mp h.nodup id

theorem accept (h : Accounted capacity r) (hid : e.id = r.accepted.length) : Accounted capacity (r.accept e) := by
  obtain ⟨queue, hperm, hqueue⟩ := r.queueEntry_spec e
  have hknows : ∀ f, r.Knows f → (r.accept e).Knows f := fun f ⟨b, hb, hkind⟩ => ⟨b, List.mem_append_left _ hb, hkind⟩
  unfold LaneRun.accept at hknows ⊢
  rw [hqueue] at hknows ⊢
  refine { h with
    numbered := ?_
    placed := fun id => ?_
    queued := fun f hf => ?_
    running := fun x hx => ⟨(h.running x hx).1, hknows _ (h.running x hx).2⟩
    movable := fun id hid => ?_ }
  · simp [h.numbered, hid, List.range_succ]
  · have := h.placed id
    have := (hperm.map (·.id)).count_eq id
    simp only [List.map_append, List.map_cons, List.map_nil, List.count_append, List.count_cons, List.count_nil] at *
    omega
  · rcases List.mem_cons.mp (hperm.mem_iff.mp hf) with rfl | hf
    · exact ⟨f, by simp, rfl, rfl, rfl⟩
    · exact hknows f (h.queued f hf)
  · obtain ⟨b, hb, hkind⟩ := h.movable id hid
    exact ⟨b, List.mem_append_left _ hb, hkind⟩

theorem maybePreempt (h : Accounted capacity r) (priority : InferencePriority) :
    Accounted capacity (r.maybePreempt priority) := by
  unfold LaneRun.maybePreempt
  split
  · exact h
  next a hpreempts =>
  obtain ⟨hmem, hpriority⟩ := InferenceLane.preempts_eq_some hpreempts
  have hkeys : (r.active.modify a.entry.id ({ · with preempted := true })).keys = r.active.keys :=
    Record.keys_modify (r := r.active) _ _
  refine { h with
    placed := fun id => by simpa only [hkeys] using h.placed id
    bounded := by simpa only [hkeys] using h.bounded
    executed := fun id => by simpa only [hkeys] using h.executed id
    running := fun x hx => ?_
    requeued := fun id => (h.requeued id).trans ((List.sublist_append_left _ _).count_le id)
    marked := fun x hx hmarked => ?_ }
  · obtain ⟨y, hy, rfl⟩ := List.mem_map.mp hx
    have hrunning := h.running y hy
    dsimp only
    split_ifs
    · exact hrunning
    · exact hrunning
  · obtain ⟨y, hy, rfl⟩ := List.mem_map.mp hx
    have hle := h.requeued y.1
    dsimp only at hmarked ⊢
    rw [List.count_append]
    split_ifs at hmarked ⊢ with hself
    · obtain ⟨k, hk⟩ := Record.mem_values.mp hmem
      have hid : a.entry.id = k := (h.running (k, a) (Record.mem_entries_of_get? hk)).1
      have hy' : r.active.get? y.1 = some y.2 := Record.get?_eq_some.mpr hy
      rw [hself, hid, hk] at hy'
      rw [hself, List.count_singleton_self]
      exact ⟨by rw [hself] at hle; omega, Option.some.inj hy' ▸ hpriority⟩
    · obtain ⟨hlt, hlow⟩ := h.marked y hy hmarked
      exact ⟨by omega, hlow⟩

theorem new_of_queue (h : Accounted capacity { r with queue := e :: queue }) : e.id ∉ r.active.keys := fun hmem => by
  have := List.count_pos_iff.mpr hmem
  have := h.placed e.id
  have := h.count_le_one e.id
  simp only [List.map_cons, List.count_cons_self] at *
  omega

theorem keys_start (h : Accounted capacity { r with queue := e :: queue }) :
    (r.start e).active.keys = r.active.keys ++ [e.id] := Record.keys_set_of_not_mem _ h.new_of_queue

/-- The first entry of the queue starts. -/
theorem start (h : Accounted capacity { r with queue := e :: queue }) (hfree : r.active.keys.length < r.capacity) :
    Accounted capacity { r.start e with queue } := by
  have hplaced := h.placed
  simp only [List.map_cons, List.count_cons, beq_iff_eq] at hplaced
  have hkeys := h.keys_start
  have hentries : (r.start e).active.entries = r.active.entries ++ [(e.id, ⟨e, r.nowMs, false⟩)] :=
    Record.entries_set_of_not_mem _ h.new_of_queue
  have hcapacity : r.capacity = capacity := h.capacity_eq
  refine { h with
    placed := fun id => ?_
    bounded := ?_
    queued := fun f hf => h.queued f (List.mem_cons_of_mem e hf)
    running := fun x hx => ?_
    executed := fun id => ?_
    marked := fun x hx hmarked => ?_ }
  · have := hplaced id
    simp only [hkeys, List.count_append, List.count_singleton, beq_iff_eq]
    dsimp only [LaneRun.start, InferenceLane.start]
    omega
  · simp only [hkeys, List.length_append, List.length_singleton]
    omega
  · rw [hentries, List.mem_append, List.mem_singleton] at hx
    rcases hx with hx | rfl
    · exact h.running x hx
    · exact ⟨rfl, h.queued e List.mem_cons_self⟩
  · have : r.started.count id = r.requeued.count id + r.active.keys.count id + r.ended.count id := h.executed id
    rw [hkeys, List.count_append]
    simp only [LaneRun.start, List.count_append]
    omega
  · rw [hentries, List.mem_append, List.mem_singleton] at hx
    rcases hx with hx | rfl
    · exact h.marked x hx hmarked
    · cases hmarked

theorem scheduleFrom (h : Accounted capacity { r with queue }) : Accounted capacity (r.scheduleFrom queue) := by
  induction queue generalizing r with
  | nil => exact h
  | cons e queue ih =>
    unfold LaneRun.scheduleFrom
    split_ifs with hfree
    · exact ih (h.start hfree)
    · exact h

theorem schedule (h : Accounted capacity r) : Accounted capacity r.schedule := scheduleFrom h

theorem submit (h : Accounted capacity r) (call : LaneCall) (agentClass : Option AgentClass) :
    Accounted capacity (r.submit call agentClass) := ((h.accept rfl).maybePreempt _).schedule

theorem length_leave (h : r.active.get? id = some a) :
    (r.leave id).active.keys.length + 1 = r.active.keys.length := by
  have hmem := Record.mem_keys.mpr ⟨a, h⟩
  have := List.length_pos_of_mem hmem
  simp only [LaneRun.leave, keys_erase, List.length_erase_of_mem hmem]
  omega

theorem count_leave (h : r.active.get? id = some a) (id' : Nat) :
    (r.leave id).active.keys.count id' + [id].count id' = r.active.keys.count id' := by
  have := List.count_pos_iff.mpr (Record.mem_keys.mpr ⟨a, h⟩)
  simp only [LaneRun.leave, keys_erase, List.count_erase, List.count_singleton, beq_iff_eq]
  split_ifs with hid
  · subst hid
    omega
  · rfl

theorem mem_leave {x : Nat × ActiveLaneEntry} (hx : x ∈ (r.leave id).active.entries) : x ∈ r.active.entries ∧ x.1 ≠ id := by
  simpa using List.mem_filter.mp hx

theorem finish (h : Accounted capacity r) (ha : r.active.get? id = some a) : Accounted capacity (r.finish id) := by
  have hcount := count_leave ha
  refine { h with
    placed := fun id' => ?_
    bounded := ?_
    running := fun x hx => h.running x (mem_leave hx).1
    executed := fun id' => ?_
    marked := fun x hx => h.marked x (mem_leave hx).1 }
  · have := h.placed id'
    have := hcount id'
    simp only [LaneRun.finish, List.count_append]
    simp only [LaneRun.leave] at *
    omega
  · have hlength := length_leave ha
    have := h.bounded
    dsimp only [LaneRun.finish]
    omega
  · have := h.executed id'
    have := hcount id'
    simp only [LaneRun.finish, List.count_append]
    simp only [LaneRun.leave] at *
    omega

theorem putBack (h : Accounted capacity r) (ha : r.active.get? a.entry.id = some a) (hmarked : a.preempted = true)
    (hstream : a.entry.stream = false) : Accounted capacity (r.putBack a.entry) := by
  obtain ⟨queue, hperm, hqueue⟩ := (r.leave a.entry.id).queueEntry_spec
    { a.entry with mode := .reinsert, enqueuedAtMs := r.nowMs }
  have hmem := Record.mem_entries_of_get? ha
  obtain ⟨-, b, hb, hid, hpriority, hkind⟩ := h.running _ hmem
  obtain ⟨hlt, hlow⟩ := h.marked _ hmem hmarked
  have hcount := count_leave ha
  unfold LaneRun.putBack
  rw [hqueue]
  refine { h with
    placed := fun id' => ?_
    bounded := ?_
    queued := fun f hf => ?_
    running := fun x hx => h.running x (mem_leave hx).1
    executed := fun id' => ?_
    requeued := fun id' => ?_
    marked := fun x hx hx' => ?_
    movable := fun id' hid' => ?_ }
  · have := h.placed id'
    have := hcount id'
    have := (hperm.map (·.id)).count_eq id'
    simp only [List.map_cons, List.count_cons, List.count_nil, LaneRun.leave] at *
    omega
  · have := length_leave ha
    have := h.bounded
    dsimp only
    omega
  · rcases List.mem_cons.mp (hperm.mem_iff.mp hf) with rfl | hf
    · exact ⟨b, hb, hid, hpriority, hkind⟩
    · exact h.queued f hf
  · have := h.executed id'
    have := hcount id'
    simp only [List.count_append, LaneRun.leave] at *
    omega
  · have := h.requeued id'
    rw [List.count_append, List.count_singleton]
    split_ifs with hself
    · rw [← beq_iff_eq.mp hself]
      exact hlt
    · exact this
  · obtain ⟨hold, hne⟩ := mem_leave hx
    rw [List.count_append, List.count_singleton, if_neg (by simpa using hne.symm)]
    exact h.marked x hold hx'
  · rcases List.mem_append.mp hid' with hid' | hid'
    · exact h.movable id' hid'
    · exact ⟨b, hb, hid.trans (List.mem_singleton.mp hid').symm, hpriority ▸ hlow, hkind.trans hstream⟩

theorem settle (h : Accounted capacity r) (ha : r.active.get? id = some a) (hstream : a.entry.stream = false)
    (succeeded : Bool) : Accounted capacity (r.settle a succeeded) := by
  obtain rfl : a.entry.id = id := (h.running _ (Record.mem_entries_of_get? ha)).1
  unfold LaneRun.settle
  split_ifs with hput
  · exact h.putBack ha (by simp_all) hstream
  · exact h.finish ha

end Accounted

/-! ## Runs -/

/-- The executions end, and `schedule` is called; nothing is submitted. -/
def LaneLabel.isSettling : LaneLabel → Bool
  | .settle .. | .release _ | .schedule => true
  | _ => false

/-- What a step can be. -/
theorem LaneRun.Step.cases (h : r.Step label r') :
    (label.isSettling = false ∧ ∃ call agentClass, r' = r.submit call agentClass) ∨
    (∃ id a succeeded, r.active.get? id = some a ∧ a.entry.stream = false ∧ r' = r.settle a succeeded) ∨
    (∃ id a, r.active.get? id = some a ∧ r' = (r.finish id).schedule) ∨
    (0 < r.scheduling ∧ r' = { r.schedule with scheduling := r.scheduling - 1 }) ∨
    (label.isSettling = false ∧ ∃ leaseState n ms,
      r' = { r with leaseState, scheduling := r.scheduling + n, nowMs := r.nowMs + ms }) := by
  unfold LaneRun.Step Takes laneStep at h
  split at h
  case h_1 call agentClass aborted =>
    split_ifs at h <;> cases h
    · exact .inr (.inr (.inr (.inr ⟨rfl, _, 0, 0, rfl⟩)))
    · exact .inl ⟨rfl, call, agentClass, rfl⟩
  case h_2 id succeeded =>
    obtain ⟨a, ha, h⟩ := Option.bind_eq_some_iff.mp h
    split_ifs at h with hstream
    exact .inr (.inl ⟨id, a, succeeded, ha, by simpa using hstream, (Option.some.inj h).symm⟩)
  case h_3 id =>
    obtain ⟨a, ha, h⟩ := Option.bind_eq_some_iff.mp h
    split_ifs at h
    exact .inr (.inr (.inl ⟨id, a, ha, (Option.some.inj h).symm⟩))
  case h_4 =>
    split_ifs at h with hnone
    exact .inr (.inr (.inr (.inl ⟨Nat.pos_of_ne_zero hnone, (Option.some.inj h).symm⟩)))
  case h_5 => cases h; exact .inr (.inr (.inr (.inr ⟨rfl, _, 0, 0, rfl⟩)))
  case h_6 =>
    split_ifs at h <;> cases h
    · exact .inr (.inr (.inr (.inr ⟨rfl, _, 1, 0, rfl⟩)))
    · exact .inr (.inr (.inr (.inr ⟨rfl, _, 0, 0, rfl⟩)))
  case h_7 ms => cases h; exact .inr (.inr (.inr (.inr ⟨rfl, _, 0, ms, rfl⟩)))

theorem Accounted.step (h : Accounted capacity r) (hstep : r.Step label r') : Accounted capacity r' := by
  obtain ⟨-, call, agentClass, rfl⟩ | ⟨id, a, succeeded, ha, hstream, rfl⟩ | ⟨id, a, ha, rfl⟩ | ⟨-, rfl⟩ |
    ⟨-, leaseState, n, ms, rfl⟩ := hstep.cases
  · exact h.submit call agentClass
  · exact h.settle ha hstream succeeded
  · exact (h.finish ha).schedule
  · exact { h.schedule with }
  · exact { h with }

theorem accounted_run (h : Run LaneRun.Step (.create capacity nowMs) labels r) : Accounted capacity r :=
  h.invariant (fun _ _ _ hr hs => hr.step hs) accounted_create

theorem Accounted.perm (h : Accounted capacity r) :
    (r.queue.map (·.id) ++ r.active.keys ++ r.ended).Perm (r.accepted.map (·.id)) :=
  List.perm_iff_count.mpr fun id => by
    rw [List.count_append, List.count_append]
    exact h.placed id

/-- **Every request ends once.** At any time each accepted request is in the queue, active, or ended, in one of these
places and once; no more are active than there are slots. -/
theorem ends_once_of_run (h : Run LaneRun.Step (.create capacity nowMs) labels r) :
    (r.queue.map (·.id) ++ r.active.keys ++ r.ended).Perm (r.accepted.map (·.id)) ∧ (r.accepted.map (·.id)).Nodup ∧
      r.active.keys.length ≤ capacity :=
  have hr := accounted_run h
  ⟨hr.perm, hr.nodup, hr.bounded⟩

/-- **What is executed again was preempted.** A request is executed at most once more than it was preempted; one of a
principal agent, and a stream, at most once. -/
theorem executions_of_run (h : Run LaneRun.Step (.create capacity nowMs) labels r) : ∀ b ∈ r.accepted,
    r.started.count b.id ≤ 1 + r.preempted.count b.id ∧
      (b.priority = .interactive ∨ b.stream = true → r.started.count b.id ≤ 1) := by
  have hr := accounted_run h
  intro b hb
  have hone := hr.count_le_one b.id
  have hplaced := hr.placed b.id
  have hexecuted := hr.executed b.id
  have hrequeued := hr.requeued b.id
  refine ⟨by omega, fun hfixed => ?_⟩
  have hnever : r.requeued.count b.id = 0 := List.count_eq_zero_of_not_mem fun hmem => by
    obtain ⟨c, hc, hid, hlow, hstream⟩ := hr.movable _ hmem
    obtain rfl := List.inj_on_of_nodup_map hr.nodup hc hb hid
    exact hfixed.elim hlow fun h => by simp [hstream] at h
  omega

/-- A worker's request makes way for one of a principal agent, is put back, and executed again. -/
def preemptedLabels : List LaneLabel :=
  [.submit .enqueue (some .worker) false, .submit .enqueue (some .principal) false, .settle 0 false, .schedule,
    .settle 1 true, .schedule]

theorem worker_accounted : ∃ r, Run LaneRun.Step (.create 1 0) preemptedLabels r ∧ r.ended = [1] ∧
    (r.queue.map (·.id) ++ r.active.keys ++ r.ended).Perm (r.accepted.map (·.id)) := by
  obtain ⟨r, h, hcheck⟩ := exists_run_of_takes laneStep preemptedLabels (.create 1 0) (fun r => r.ended = [1]) (by decide)
  exact ⟨r, h, of_decide_eq_true hcheck, (ends_once_of_run h).1⟩

theorem worker_executed_twice : ∃ r, Run LaneRun.Step (.create 1 0) preemptedLabels r ∧ r.started = [0, 1, 0] ∧
    ∀ b ∈ r.accepted, r.started.count b.id ≤ 1 + r.preempted.count b.id := by
  obtain ⟨r, h, hcheck⟩ := exists_run_of_takes laneStep preemptedLabels (.create 1 0) (fun r => r.started = [0, 1, 0])
    (by decide)
  exact ⟨r, h, of_decide_eq_true hcheck, fun b hb => (executions_of_run h b hb).1⟩

/-! ## Coming to rest -/

namespace LaneRun

/-- A slot is free while a request waits only when a call of `schedule` is still to come. -/
def Busy (r : LaneRun) : Prop := r.scheduling = 0 → r.queue = [] ∨ r.capacity ≤ r.active.keys.length

theorem full_scheduleFrom (r : LaneRun) (queue : List LaneEntry) : (r.scheduleFrom queue).queue = [] ∨
    (r.scheduleFrom queue).capacity ≤ (r.scheduleFrom queue).active.keys.length := by
  induction queue generalizing r with
  | nil => exact .inl rfl
  | cons e queue ih =>
    unfold scheduleFrom
    split_ifs with hfree
    · exact ih (r.start e)
    · exact .inr (Nat.le_of_not_lt hfree)

theorem scheduling_scheduleFrom (r : LaneRun) (queue : List LaneEntry) :
    (r.scheduleFrom queue).scheduling = r.scheduling := by
  induction queue generalizing r with
  | nil => rfl
  | cons e queue ih =>
    unfold scheduleFrom
    split_ifs
    · exact ih (r.start e)
    · rfl

theorem scheduling_settle (succeeded : Bool) : (r.settle a succeeded).scheduling = r.scheduling + 1 := by
  unfold settle
  split_ifs <;> rfl

theorem Busy.step (h : r.Busy) (hstep : r.Step label r') : r'.Busy := by
  obtain ⟨-, call, agentClass, rfl⟩ | ⟨id, a, succeeded, -, -, rfl⟩ | ⟨id, a, -, rfl⟩ | ⟨-, rfl⟩ |
    ⟨-, leaseState, n, ms, rfl⟩ := hstep.cases
  · exact fun _ => full_scheduleFrom _ _
  · exact fun hnone => by simp [scheduling_settle] at hnone
  · exact fun _ => full_scheduleFrom _ _
  · exact fun _ => full_scheduleFrom _ _
  · exact fun hnone => h (Nat.eq_zero_of_add_eq_zero_right hnone)

/-- A bound on the steps that it takes until the lane comes to rest: what is queued is still to be started, to end, and
to call `schedule`; what is active is to end, and to call it; what is preempted may be put back. -/
def weight (r : LaneRun) : Nat :=
  3 * r.queue.length + 2 * r.active.keys.length + 3 * (r.preempted.length - r.requeued.length) + r.scheduling

theorem weight_scheduleFrom {queue : List LaneEntry} (h : Accounted capacity { r with queue }) :
    (r.scheduleFrom queue).weight ≤ weight { r with queue } := by
  induction queue generalizing r with
  | nil => exact Nat.le_refl _
  | cons e queue ih =>
    unfold scheduleFrom
    split_ifs with hfree
    · refine (ih (h.start hfree)).trans ?_
      simp only [weight, h.keys_start, List.length_append, List.length_cons, List.length_nil]
      dsimp only [start, InferenceLane.start]
      omega
    · exact Nat.le_refl _

theorem weight_finish (ha : r.active.get? id = some a) : (r.finish id).weight < r.weight := by
  have := Accounted.length_leave ha
  simp only [weight, finish, leave] at *
  omega

theorem weight_settle (h : Accounted capacity r) (ha : r.active.get? id = some a) (hstream : a.entry.stream = false)
    (succeeded : Bool) : (r.settle a succeeded).weight < r.weight := by
  obtain rfl : a.entry.id = id := (h.running _ (Record.mem_entries_of_get? ha)).1
  have hkept := h.settle ha hstream succeeded
  unfold settle at hkept ⊢
  split_ifs at hkept ⊢ with hput
  · -- this execution was preempted, and that is used up
    have hused := (List.subperm_ext_iff.mpr fun id _ => hkept.requeued id).length_le
    have hlength := Accounted.length_leave ha
    obtain ⟨queue, hperm, hqueue⟩ := (r.leave a.entry.id).queueEntry_spec
      { a.entry with mode := .reinsert, enqueuedAtMs := r.nowMs }
    have := hperm.length_eq
    simp only [weight, putBack, hqueue, leave, List.length_append, List.length_cons, List.length_nil] at *
    omega
  · exact weight_finish ha

theorem weight_step (h : Accounted capacity r) (hsettling : label.isSettling = true) (hstep : r.Step label r') :
    r'.weight < r.weight := by
  obtain ⟨hnot, -⟩ | ⟨id, a, succeeded, ha, hstream, rfl⟩ | ⟨id, a, ha, rfl⟩ | ⟨hpos, rfl⟩ | ⟨hnot, -⟩ := hstep.cases
  · simp [hnot] at hsettling
  · exact weight_settle h ha hstream succeeded
  · exact (weight_scheduleFrom (h.finish ha)).trans_lt (weight_finish ha)
  · have hle : r.schedule.weight ≤ r.weight := weight_scheduleFrom h
    have hscheduling : r.schedule.scheduling = r.scheduling := r.scheduling_scheduleFrom r.queue
    simp only [weight] at hle ⊢
    omega
  · simp [hnot] at hsettling

theorem length_le_weight (h : Accounted capacity r) (hsettling : ∀ l ∈ labels, l.isSettling = true)
    (hr : Run LaneRun.Step r labels r') : labels.length + r'.weight ≤ r.weight ∧ Accounted capacity r' := by
  induction hr with
  | nil => exact ⟨by simp, h⟩
  | @snoc ls t u l _ hstep ih =>
    rw [List.forall_mem_append] at hsettling
    obtain ⟨hle, ht⟩ := ih hsettling.1
    have hlt := weight_step ht (hsettling.2 l (List.mem_singleton_self l)) hstep
    refine ⟨?_, ht.step hstep⟩
    rw [List.length_append, List.length_singleton]
    omega

end LaneRun

/-- **A lane comes to rest.** While nothing is submitted, executions can end and `schedule` be called only so often;
when none of this is left to happen, the queue is empty, nothing is active, and every accepted request has ended. -/
theorem drains_of_run (hcapacity : 0 < capacity) {settling : List LaneLabel}
    (h : Run LaneRun.Step (.create capacity nowMs) labels r) (hsettling : ∀ l ∈ settling, l.isSettling = true)
    (h' : Run LaneRun.Step r settling r') : settling.length ≤ r.weight ∧
      ((∀ l : LaneLabel, l.isSettling = true → laneStep r' l = none) →
        r'.queue = [] ∧ r'.active.keys = [] ∧ r'.ended.Perm (r'.accepted.map (·.id))) := by
  have hr' := accounted_run (h.trans h')
  have hbusy : r'.Busy := (h.trans h').invariant (fun _ _ _ hr hs => hr.step hs) fun _ => .inl rfl
  have hlength := (LaneRun.length_le_weight (accounted_run h) hsettling h').1
  refine ⟨by omega, fun hrest => ?_⟩
  have hactive : r'.active.keys = [] := by
    refine List.eq_nil_iff_forall_not_mem.mpr fun id hid => ?_
    obtain ⟨a, ha⟩ := Record.mem_keys.mp hid
    cases hstream : a.entry.stream with
    | false => simpa [laneStep, ha, hstream] using hrest (.settle id true) rfl
    | true => simpa [laneStep, ha, hstream] using hrest (.release id) rfl
  have hnone : r'.scheduling = 0 := by simpa [laneStep] using hrest .schedule rfl
  have hqueue : r'.queue = [] := (hbusy hnone).resolve_right fun hfull => by
    rw [hr'.capacity_eq, hactive, List.length_nil] at hfull
    omega
  exact ⟨hqueue, hactive, by simpa [hqueue, hactive] using hr'.perm⟩

theorem worker_drains : ∃ r r', Run LaneRun.Step (.create 1 0) preemptedLabels r ∧
    Run LaneRun.Step r [.settle 0 true, .schedule] r' ∧ [0, 1].length ≤ r.weight ∧ r'.queue = [] := by
  obtain ⟨r', h, hcheck⟩ := exists_run_of_takes laneStep (preemptedLabels ++ [.settle 0 true, .schedule]) (.create 1 0)
    (fun r' => r'.queue = []) (by decide)
  obtain ⟨r, hr, hr'⟩ := h.exists_of_append
  exact ⟨r, r', hr, hr', (drains_of_run Nat.one_pos hr (by decide) hr').1, of_decide_eq_true hcheck⟩

end NousCore.Inference
