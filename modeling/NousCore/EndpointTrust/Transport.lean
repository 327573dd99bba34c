import NousCore.EndpointTrust.Logs

/-!
# Envelopes, rotations and incidents

Calls may overlap. An accepted envelope writes back the session that was read for it; an approval writes back the
peripheral that was read for it, whatever has happened since the pairing was requested.

* `TransportHistory` : the calls in progress, and what they have accepted, closed, requested, revoked and approved;
* `TransportKept` : a session is written back only while it is active and behind the envelope, a pairing is approved only
  if it was requested after the incident, and no incident falls into an approval;
* `SessionsHeld`, `PeripheralsHeld`, `Held` : the invariants.
-/

namespace NousCore.EndpointTrust

open Async NousCore.System
open Witness (Timestamp)
open Opctl (Hashes)

def trustSystem (services : TrustServices) (hashes : Hashes) :
    System TrustCall TrustOp.Answer TrustEnv TrustState TrustError TrustResult where
  body := TrustCall.run services
  answers := trustAnswers hashes
  spawned _ := []
  exclusive _ := false

abbrev TrustConfig := Config TrustCall TrustOp.Answer TrustState TrustError TrustResult

abbrev TrustThread := Thread TrustCall TrustOp.Answer TrustError TrustResult

/-! ## Histories -/

/-- An envelope was accepted for a session, that had been established so often; `closed` if the session had been rotated
or revoked since. -/
structure Acceptance where
  sessionId : String
  epoch : Nat
  sequence : Nat
  closed : Bool

def Acceptance.key (a : Acceptance) : String × Nat × Nat := (a.sessionId, a.epoch, a.sequence)

structure PairingRequested where
  pairingId : String
  peripheralId : String
  call : Nat

/-- A pairing was approved, and when an incident had last revoked the peripheral by then. -/
structure Approval where
  pairingId : String
  peripheralId : String
  revokedAt : Option Nat

@[ext] structure TransportHistory where
  config : TrustConfig
  /-- How often a session was established. -/
  epoch : String → Nat
  accepted : List Acceptance
  /-- The sessions that were rotated or revoked, and how often they had been established then. -/
  closed : List (String × Nat)
  requested : List PairingRequested
  /-- How many calls had begun when an incident last revoked a peripheral. -/
  revoked : String → Option Nat
  approved : List Approval

def TransportHistory.start : TransportHistory := ⟨System.start .empty, fun _ => 0, [], [], [], fun _ => none, []⟩

namespace TransportHistory

def noteSession (h : TransportHistory) (record : EndpointSessionRecord) : TrustCall → TransportHistory
  | .authorize _ =>
    let epoch := h.epoch record.sessionId
    { h with
      accepted := ⟨record.sessionId, epoch, record.lastSequence, (record.sessionId, epoch) ∈ h.closed⟩ :: h.accepted }
  | .establishSession _ =>
    { h with epoch := Function.update h.epoch record.sessionId (h.epoch record.sessionId + 1) }
  | .rotateSession _ | .reportIncident _ =>
    { h with closed := (record.sessionId, h.epoch record.sessionId) :: h.closed }
  | _ => h

def notePeripheral (h : TransportHistory) (record : EndpointTrustPeripheral) : TrustCall → TransportHistory
  | .reportIncident input =>
    if input.incidentType.severe then
      { h with revoked := Function.update h.revoked record.peripheralId (some h.config.threads.length) }
    else h
  | .reviewPairing input =>
    if input.approved then
      { h with approved := ⟨input.pairingId, record.peripheralId, h.revoked record.peripheralId⟩ :: h.approved }
    else h
  | _ => h

def notePairing (h : TransportHistory) (i : Nat) (record : EndpointPairingRecord) : TrustCall → TransportHistory
  | .requestPairing _ => { h with requested := ⟨record.pairingId, record.peripheralId, i⟩ :: h.requested }
  | _ => h

def note (h : TransportHistory) (i : Nat) (call : TrustCall) : TrustOp → TransportHistory
  | .saveSession record => h.noteSession record call
  | .savePeripheral record => h.notePeripheral record call
  | .savePairing record => h.notePairing i record call
  | _ => h

def noteLabel (h : TransportHistory) : Label TrustCall TrustEnv → TransportHistory
  | .begin _ => h
  | .turn i _ =>
    match h.config.threads[i]? with
    | some ⟨task, .call o _, _⟩ => h.note i task o
    | _ => h

def advance (services : TrustServices) (hashes : Hashes) (h : TransportHistory) (l : Label TrustCall TrustEnv) :
    Except String TransportHistory :=
  match (trustSystem services hashes).step h.config l with
  | some config => .ok { h.noteLabel l with config := config }
  | none => .error "step"

end TransportHistory

def Advances (services : TrustServices) (hashes : Hashes) :
    TransportHistory → Label TrustCall TrustEnv → TransportHistory → Prop :=
  Succeeds (TransportHistory.advance services hashes)

/-! ## The condition -/

def pairingsRead : Sigma TrustOp.Answer → List EndpointPairingRecord
  | ⟨.getPairing _, record⟩ => Option.toList record
  | _ => []

def TrustCall.approves : TrustCall → Bool
  | .reviewPairing input => input.approved
  | _ => false

/-- The call approves a pairing of the peripheral that it has read, and has still to save the peripheral. -/
def Approving (peripheralId : String) (th : TrustThread) : Prop :=
  th.task.approves = true ∧ th.log.any savesPeripheral = false ∧
    ∃ pairing ∈ th.log.flatMap pairingsRead, pairing.peripheralId = peripheralId

instance (peripheralId : String) (th : TrustThread) : Decidable (Approving peripheralId th) :=
  inferInstanceAs (Decidable (_ ∧ _ ∧ ∃ pairing ∈ th.log.flatMap pairingsRead, pairing.peripheralId = peripheralId))

def RequestedAfter (requested : List PairingRequested) (pairingId peripheralId : String) (n : Nat) : Prop :=
  ∃ request ∈ requested, request.pairingId = pairingId ∧ request.peripheralId = peripheralId ∧ n ≤ request.call

instance (requested : List PairingRequested) (pairingId peripheralId : String) (n : Nat) :
    Decidable (RequestedAfter requested pairingId peripheralId n) :=
  inferInstanceAs (Decidable (∃ request ∈ requested, request.pairingId = pairingId ∧ request.peripheralId = peripheralId ∧
    n ≤ request.call))

/-- An authorization writes a session back only while it is active, and behind the envelope. -/
def PermitsSession (h : TransportHistory) (record : EndpointSessionRecord) : TrustCall → Prop
  | .authorize _ => ∃ stored ∈ h.config.state.sessions.find? record.sessionId,
      stored.status = .active ∧ stored.lastSequence < record.lastSequence
  | _ => True

/-- A pairing that is to be approved was requested after the peripheral was last revoked by an incident. -/
def PermitsPairing (h : TransportHistory) (pairingId : String) (task : TrustCall) : Prop :=
  task.approves = true → ∀ pairing ∈ h.config.state.pairings.find? pairingId, ∀ n ∈ h.revoked pairing.peripheralId,
    RequestedAfter h.requested pairingId pairing.peripheralId n

/-- No incident revokes a peripheral while a pairing of it is being approved. -/
def PermitsPeripheral (h : TransportHistory) (record : EndpointTrustPeripheral) : TrustCall → Prop
  | .reportIncident input => input.incidentType.severe = true → ∀ th ∈ h.config.threads, ¬Approving record.peripheralId th
  | _ => True

/-- What an operation of a call needs. -/
def Permits (h : TransportHistory) (task : TrustCall) : TrustOp → Prop
  | .saveSession record => PermitsSession h record task
  | .savePeripheral record => PermitsPeripheral h record task
  | .getPairing pairingId => PermitsPairing h pairingId task
  | _ => True

def TransportKept (h : TransportHistory) : Label TrustCall TrustEnv → Prop
  | .begin _ => True
  | .turn i x => ∀ th ∈ h.config.threads[i]?, Asks (fun call _ o _ _ => Permits h call o) x h.config.state th

/-! ## What stays so -/

/-- Every acceptance is known to the session, and every closed session stays closed, until it is established again. -/
structure SessionsHeld (sessions : Collection EndpointSessionRecord.sessionId) (epoch : String → Nat)
    (accepted : List Acceptance) (closed : List (String × Nat)) : Prop where
  once : (accepted.map Acceptance.key).Nodup
  current : ∀ a ∈ accepted, a.closed = false
  past : ∀ a ∈ accepted, a.epoch ≤ epoch a.sessionId
  known : ∀ a ∈ accepted, a.epoch = epoch a.sessionId → ∃ session, sessions.find? a.sessionId = some session ∧
    (session.status = .active → a.sequence ≤ session.lastSequence)
  closedPast : ∀ e ∈ closed, e.2 ≤ epoch e.1
  closed : ∀ e ∈ closed, e.2 = epoch e.1 → ∃ session, sessions.find? e.1 = some session ∧ session.status ≠ .active

section Sessions

variable {sessions : Collection EndpointSessionRecord.sessionId} {epoch : String → Nat} {accepted : List Acceptance}
  {closed : List (String × Nat)} {record : EndpointSessionRecord}

section

variable (h : SessionsHeld sessions epoch accepted closed)

include h

theorem SessionsHeld.accept {stored : EndpointSessionRecord}
    (hfind : sessions.find? record.sessionId = some stored) (hactive : stored.status = .active)
    (hsequence : stored.lastSequence < record.lastSequence) :
    SessionsHeld (sessions.put record) epoch (⟨record.sessionId, epoch record.sessionId, record.lastSequence,
      (record.sessionId, epoch record.sessionId) ∈ closed⟩ :: accepted) closed := by
  have hopen : (record.sessionId, epoch record.sessionId) ∉ closed := fun hmem => by
    obtain ⟨session, hsession, hstatus⟩ := h.closed _ hmem rfl
    cases hfind.symm.trans hsession
    exact hstatus hactive
  refine ⟨List.nodup_cons.mpr ⟨fun hmem => ?_, h.once⟩, List.forall_mem_cons.mpr ⟨by simp [hopen], h.current⟩,
    List.forall_mem_cons.mpr ⟨Nat.le_refl _, h.past⟩, List.forall_mem_cons.mpr ⟨fun _ => ?_, fun a ha hepoch => ?_⟩,
    h.closedPast, fun e he hepoch => ?_⟩
  · obtain ⟨a, ha, heq⟩ := List.mem_map.mp hmem
    obtain ⟨hid, hrest⟩ := Prod.mk.inj heq
    obtain ⟨hepoch, hsame⟩ := Prod.mk.inj hrest
    have hsame : a.sequence = record.lastSequence := hsame
    obtain ⟨session, hsession, hle⟩ := h.known a ha (by rw [hepoch, hid])
    rw [hid, hfind] at hsession
    cases hsession
    have hle := hle hactive
    omega
  · exact ⟨record, Collection.find?_put_self _ _, fun _ => Nat.le_refl _⟩
  · obtain ⟨session, hsession, hle⟩ := h.known a ha hepoch
    rw [Collection.find?_put]
    split_ifs with hid
    · rw [hid, hfind] at hsession
      cases hsession
      have hle := hle hactive
      exact ⟨record, rfl, fun _ => by omega⟩
    · exact ⟨session, hsession, hle⟩
  · obtain ⟨session, hsession, hstatus⟩ := h.closed e he hepoch
    rw [Collection.find?_put]
    split_ifs with hid
    · rw [hid, hfind] at hsession
      cases hsession
      exact absurd hactive hstatus
    · exact ⟨session, hsession, hstatus⟩

theorem SessionsHeld.establish :
    SessionsHeld (sessions.put record) (Function.update epoch record.sessionId (epoch record.sessionId + 1)) accepted
      closed := by
  have hle : ∀ sessionId n, n ≤ epoch sessionId →
      n ≤ Function.update epoch record.sessionId (epoch record.sessionId + 1) sessionId := by
    intro sessionId n hn
    rw [Function.update_apply]
    split_ifs with hid
    · rw [hid] at hn
      omega
    · exact hn
  -- what is said of the present epoch of a session is said of another session
  have hother : ∀ sessionId n, n ≤ epoch sessionId →
      n = Function.update epoch record.sessionId (epoch record.sessionId + 1) sessionId →
      sessionId ≠ record.sessionId ∧ n = epoch sessionId := by
    intro sessionId n hn heq
    rw [Function.update_apply] at heq
    split_ifs at heq with hid
    · rw [hid] at hn
      omega
    · exact ⟨hid, heq⟩
  refine ⟨h.once, h.current, fun a ha => hle _ _ (h.past a ha), fun a ha hepoch => ?_, fun e he => hle _ _ (h.closedPast e he),
    fun e he hepoch => ?_⟩
  · obtain ⟨hne, heq⟩ := hother _ _ (h.past a ha) hepoch
    rw [Collection.find?_put, if_neg hne]
    exact h.known a ha heq
  · obtain ⟨hne, heq⟩ := hother _ _ (h.closedPast e he) hepoch
    rw [Collection.find?_put, if_neg hne]
    exact h.closed e he heq

theorem SessionsHeld.close (hstatus : record.status ≠ .active) :
    SessionsHeld (sessions.put record) epoch accepted ((record.sessionId, epoch record.sessionId) :: closed) := by
  refine ⟨h.once, h.current, h.past, fun a ha hepoch => ?_, List.forall_mem_cons.mpr ⟨Nat.le_refl _, h.closedPast⟩,
    List.forall_mem_cons.mpr ⟨fun _ => ⟨record, Collection.find?_put_self _ _, hstatus⟩, fun e he hepoch => ?_⟩⟩
  · rw [Collection.find?_put]
    split_ifs
    · exact ⟨record, rfl, fun hactive => absurd hactive hstatus⟩
    · exact h.known a ha hepoch
  · rw [Collection.find?_put]
    split_ifs
    · exact ⟨record, rfl, hstatus⟩
    · exact h.closed e he hepoch

end

end Sessions

/-- A peripheral that an incident has revoked is trusted only if a pairing was approved since, and every approval is of
a pairing that was requested after the incident. -/
structure PeripheralsHeld (peripherals : Collection EndpointTrustPeripheral.peripheralId)
    (requested : List PairingRequested) (revoked : String → Option Nat) (approved : List Approval) : Prop where
  trusted : ∀ peripheralId n peripheral, revoked peripheralId = some n → peripherals.find? peripheralId = some peripheral →
    peripheral.trustState = .trusted → ∃ a ∈ approved, a.peripheralId = peripheralId ∧ a.revokedAt = some n
  requested : ∀ a ∈ approved, ∀ n, a.revokedAt = some n → RequestedAfter requested a.pairingId a.peripheralId n

variable {pairingId peripheralId : String}

section Peripherals

variable {peripherals : Collection EndpointTrustPeripheral.peripheralId} {requested : List PairingRequested}
  {revoked : String → Option Nat} {approved : List Approval} {record : EndpointTrustPeripheral}

theorem RequestedAfter.cons {request : PairingRequested} {n : Nat}
    (h : RequestedAfter requested pairingId peripheralId n) :
    RequestedAfter (request :: requested) pairingId peripheralId n := by
  obtain ⟨r, hr, hrest⟩ := h
  exact ⟨r, List.mem_cons_of_mem _ hr, hrest⟩

section

variable (h : PeripheralsHeld peripherals requested revoked approved)

include h

theorem PeripheralsHeld.distrust
    (hstate : record.trustState ≠ .trusted) : PeripheralsHeld (peripherals.put record) requested revoked approved := by
  refine ⟨fun peripheralId n peripheral hrevoked hfind htrusted => ?_, h.requested⟩
  rw [Collection.find?_put] at hfind
  split_ifs at hfind
  · exact absurd (Option.some.inj hfind ▸ htrusted) hstate
  · exact h.trusted peripheralId n peripheral hrevoked hfind htrusted

theorem PeripheralsHeld.revoke
    (hstate : record.trustState ≠ .trusted) (n : Nat) :
    PeripheralsHeld (peripherals.put record) requested (Function.update revoked record.peripheralId (some n)) approved := by
  refine ⟨fun peripheralId m peripheral hrevoked hfind htrusted => ?_, h.requested⟩
  rw [Collection.find?_put] at hfind
  split_ifs at hfind with hid
  · exact absurd (Option.some.inj hfind ▸ htrusted) hstate
  · rw [Function.update_of_ne hid] at hrevoked
    exact h.trusted peripheralId m peripheral hrevoked hfind htrusted

theorem PeripheralsHeld.approve
    (hrequested : ∀ n, revoked record.peripheralId = some n → RequestedAfter requested pairingId record.peripheralId n) :
    PeripheralsHeld (peripherals.put record) requested revoked
      (⟨pairingId, record.peripheralId, revoked record.peripheralId⟩ :: approved) := by
  refine ⟨fun peripheralId n peripheral hrevoked hfind htrusted => ?_, List.forall_mem_cons.mpr ⟨hrequested, h.requested⟩⟩
  by_cases hid : peripheralId = record.peripheralId
  · subst hid
    exact ⟨_, List.mem_cons_self, rfl, hrevoked⟩
  · rw [Collection.find?_put, if_neg hid] at hfind
    obtain ⟨a, ha, hrest⟩ := h.trusted peripheralId n peripheral hrevoked hfind htrusted
    exact ⟨a, List.mem_cons_of_mem _ ha, hrest⟩

theorem PeripheralsHeld.request (request : PairingRequested) :
    PeripheralsHeld peripherals (request :: requested) revoked approved :=
  ⟨h.trusted, fun a ha n hn => (h.requested a ha n hn).cons⟩

end

end Peripherals

/-! ## The calls in progress -/

def TrustCall.closes : TrustCall → Bool
  | .rotateSession _ | .reportIncident _ => true
  | _ => false

/-- What is required of a call that approves, while it has still to save the peripheral. -/
def ApprovesRequested (h : TransportHistory) (th : TrustThread) : Prop :=
  ∀ input, th.task = .reviewPairing input → input.approved = true → th.log.any savesPeripheral = false →
    ∀ pairing ∈ th.log.flatMap pairingsRead, ∀ n, h.revoked pairing.peripheralId = some n →
      RequestedAfter h.requested input.pairingId pairing.peripheralId n

structure Held (h : TransportHistory) : Prop where
  sessions : SessionsHeld h.config.state.sessions h.epoch h.accepted h.closed
  peripherals : PeripheralsHeld h.config.state.peripherals h.requested h.revoked h.approved
  follows : ∀ th ∈ h.config.threads, th.program.Follows (AsksNext th.task) (AsksLast th.task) th.log
  keyed : ∀ th ∈ h.config.threads, ∀ e ∈ th.log, Keyed e
  saved : ∀ th ∈ h.config.threads, th.task.closes = true → ∀ sessionId ∈ savedSessions th.log,
    ∃ n, (sessionId, n) ∈ h.closed
  approving : ∀ th ∈ h.config.threads, ApprovesRequested h th

section Turn

variable {hashes : Hashes} {h : TransportHistory} {i : Nat} {task : TrustCall} {o : TrustOp} {env : TrustEnv}
  {s s' : TrustState} {r : o.Answer} {l : TrustLog}

theorem keyed_of_answers (hanswers : trustAnswers hashes o env s = some (r, s')) : Keyed ⟨o, r⟩ := by
  cases o with
  | getPeripheral peripheralId =>
    cases hanswers
    exact fun peripheral hmem => s.peripherals.keyed _ _ (Option.mem_toList.mp hmem)
  | getSession sessionId =>
    cases hanswers
    exact fun session hmem => s.sessions.keyed _ _ (Option.mem_toList.mp hmem)
  | _ => trivial

variable (h task) in
theorem notePeripheral_frame (record : EndpointTrustPeripheral) : (h.notePeripheral record task).epoch = h.epoch ∧
    (h.notePeripheral record task).accepted = h.accepted ∧ (h.notePeripheral record task).closed = h.closed ∧
    (h.notePeripheral record task).requested = h.requested := by
  unfold TransportHistory.notePeripheral
  split
  · split_ifs <;> exact ⟨rfl, rfl, rfl, rfl⟩
  · split_ifs <;> exact ⟨rfl, rfl, rfl, rfl⟩
  · exact ⟨rfl, rfl, rfl, rfl⟩

variable (h task) in
theorem noteSession_frame (record : EndpointSessionRecord) : (h.noteSession record task).revoked = h.revoked ∧
    (h.noteSession record task).approved = h.approved ∧ (h.noteSession record task).requested = h.requested := by
  unfold TransportHistory.noteSession
  split <;> exact ⟨rfl, rfl, rfl⟩

variable (h i task) in
theorem notePairing_frame (record : EndpointPairingRecord) : (h.notePairing i record task).epoch = h.epoch ∧
    (h.notePairing i record task).accepted = h.accepted ∧ (h.notePairing i record task).closed = h.closed ∧
    (h.notePairing i record task).revoked = h.revoked ∧ (h.notePairing i record task).approved = h.approved ∧
    ((h.notePairing i record task).requested = h.requested ∨
      ∃ request, (h.notePairing i record task).requested = request :: h.requested) := by
  unfold TransportHistory.notePairing
  split
  · exact ⟨rfl, rfl, rfl, rfl, rfl, .inr ⟨_, rfl⟩⟩
  · exact ⟨rfl, rfl, rfl, rfl, rfl, .inl rfl⟩

variable (i task) in
theorem note_sessions (ho : ∀ record, o ≠ .saveSession record) (hanswers : trustAnswers hashes o env s = some (r, s')) :
    s'.sessions = s.sessions ∧ (h.note i task o).epoch = h.epoch ∧ (h.note i task o).accepted = h.accepted ∧
      (h.note i task o).closed = h.closed := by
  cases o with
  | saveSession record => exact absurd rfl (ho record)
  | savePeripheral record =>
    cases hanswers
    obtain ⟨hepoch, haccepted, hclosed, -⟩ := notePeripheral_frame h task record
    exact ⟨rfl, hepoch, haccepted, hclosed⟩
  | savePairing record =>
    cases hanswers
    obtain ⟨hepoch, haccepted, hclosed, -⟩ := notePairing_frame h i task record
    exact ⟨rfl, hepoch, haccepted, hclosed⟩
  | _ =>
    cases hanswers
    exact ⟨rfl, rfl, rfl, rfl⟩

variable (i task) in
theorem note_peripherals (ho : ∀ record, o ≠ .savePeripheral record)
    (hanswers : trustAnswers hashes o env s = some (r, s')) :
    s'.peripherals = s.peripherals ∧ (h.note i task o).revoked = h.revoked ∧ (h.note i task o).approved = h.approved ∧
      ((h.note i task o).requested = h.requested ∨ ∃ request, (h.note i task o).requested = request :: h.requested) := by
  cases o with
  | savePeripheral record => exact absurd rfl (ho record)
  | saveSession record =>
    cases hanswers
    obtain ⟨hrevoked, happroved, hrequested⟩ := noteSession_frame h task record
    exact ⟨rfl, hrevoked, happroved, .inl hrequested⟩
  | savePairing record =>
    cases hanswers
    obtain ⟨-, -, -, hrevoked, happroved, hrequested⟩ := notePairing_frame h i task record
    exact ⟨rfl, hrevoked, happroved, hrequested⟩
  | _ =>
    cases hanswers
    exact ⟨rfl, rfl, rfl, .inl rfl⟩

theorem sessionsHeld_turn (hheld : SessionsHeld h.config.state.sessions h.epoch h.accepted h.closed)
    (hnext : AsksNext task l o) (hpermits : Permits h task o)
    (hanswers : trustAnswers hashes o env h.config.state = some (r, s')) :
    SessionsHeld s'.sessions (h.note i task o).epoch (h.note i task o).accepted (h.note i task o).closed := by
  by_cases ho : ∀ record, o ≠ .saveSession record
  · obtain ⟨hsessions, hepoch, haccepted, hclosed⟩ := note_sessions i task ho hanswers
    rw [hsessions, hepoch, haccepted, hclosed]
    exact hheld
  · push Not at ho
    obtain ⟨record, rfl⟩ := ho
    cases hanswers
    cases task with
    | authorize request =>
      obtain ⟨stored, hfind, hactive, hsequence⟩ := hpermits
      exact hheld.accept hfind hactive hsequence
    | establishSession input => exact hheld.establish
    | rotateSession | reportIncident => exact hheld.close hnext
    | requestPairing input | reviewPairing input | registerEndpoint input | grantCapability input
    | revokeCapability input => exact hnext.elim

theorem requestedAfter_note {n : Nat} (hrequested : RequestedAfter h.requested pairingId peripheralId n) :
    RequestedAfter (h.note i task o).requested pairingId peripheralId n := by
  cases o with
  | savePairing record =>
    obtain ⟨-, -, -, -, -, hsame | ⟨request, hcons⟩⟩ := notePairing_frame h i task record
    · exact hsame ▸ hrequested
    · exact hcons ▸ hrequested.cons
  | saveSession record => exact (noteSession_frame h task record).2.2 ▸ hrequested
  | savePeripheral record => exact (notePeripheral_frame h task record).2.2.2 ▸ hrequested
  | _ => exact hrequested

theorem peripheralsHeld_turn (hheld : PeripheralsHeld h.config.state.peripherals h.requested h.revoked h.approved)
    (hnext : AsksNext task l o)
    (happroving : ∀ input record, task = .reviewPairing input → o = .savePeripheral record → input.approved = true →
      ∀ n, h.revoked record.peripheralId = some n → RequestedAfter h.requested input.pairingId record.peripheralId n)
    (hanswers : trustAnswers hashes o env h.config.state = some (r, s')) :
    PeripheralsHeld s'.peripherals (h.note i task o).requested (h.note i task o).revoked (h.note i task o).approved := by
  by_cases ho : ∀ record, o ≠ .savePeripheral record
  · obtain ⟨hperipherals, hrevoked, happroved, hrequested⟩ :=
      note_peripherals i task ho hanswers
    rw [hperipherals, hrevoked, happroved]
    rcases hrequested with hsame | ⟨request, hcons⟩
    · rw [hsame]
      exact hheld
    · rw [hcons]
      exact hheld.request request
  · push Not at ho
    obtain ⟨record, rfl⟩ := ho
    cases hanswers
    cases task with
    | requestPairing input => exact hheld.distrust hnext
    | reviewPairing input =>
      show PeripheralsHeld _ (h.notePeripheral record (.reviewPairing input)).requested
        (h.notePeripheral record (.reviewPairing input)).revoked (h.notePeripheral record (.reviewPairing input)).approved
      unfold TransportHistory.notePeripheral
      dsimp only
      split_ifs with happroved
      · exact hheld.approve (happroving input record rfl rfl happroved)
      · exact hheld.distrust (hnext.2.1 (Bool.eq_false_iff.mpr happroved))
    | reportIncident input =>
      show PeripheralsHeld _ (h.notePeripheral record (.reportIncident input)).requested
        (h.notePeripheral record (.reportIncident input)).revoked
        (h.notePeripheral record (.reportIncident input)).approved
      unfold TransportHistory.notePeripheral
      dsimp only
      split_ifs
      · exact hheld.revoke hnext _
      · exact hheld.distrust hnext
    | registerEndpoint input | grantCapability input | revokeCapability input | establishSession input
    | rotateSession input | authorize request => exact hnext.elim

end Turn

/-! ## A step -/

section Step

variable {services : TrustServices} {hashes : Hashes} {h h' : TransportHistory} {i : Nat} {task : TrustCall}
  {o : TrustOp} {env : TrustEnv} {s s' : TrustState} {r : o.Answer} {l : TrustLog}

theorem closed_note {e : String × Nat} (he : e ∈ h.closed) : e ∈ (h.note i task o).closed := by
  cases o with
  | saveSession record =>
    show e ∈ (h.noteSession record task).closed
    unfold TransportHistory.noteSession
    split
    · exact he
    · exact he
    · exact List.mem_cons_of_mem _ he
    · exact List.mem_cons_of_mem _ he
    · exact he
  | savePeripheral record => exact (notePeripheral_frame h task record).2.2.1 ▸ he
  | savePairing record =>
    have hclosed := (notePairing_frame h i task record).2.2.1
    exact hclosed ▸ he
  | _ => exact he

theorem saved_turn (hcloses : task.closes = true)
    (hsaved : ∀ sessionId ∈ savedSessions l, ∃ n, (sessionId, n) ∈ h.closed) {sessionId : String}
    (hmem : sessionId ∈ savedSessions (l ++ [⟨o, r⟩])) : ∃ n, (sessionId, n) ∈ (h.note i task o).closed := by
  rw [savedSessions_append, List.mem_append] at hmem
  rcases hmem with hmem | hmem
  · obtain ⟨n, hn⟩ := hsaved sessionId hmem
    exact ⟨n, closed_note hn⟩
  · cases o with
    | saveSession record =>
      obtain rfl : sessionId = record.sessionId := by simpa [savedSessions, sessionSaved] using hmem
      refine ⟨h.epoch record.sessionId, ?_⟩
      cases task with
      | rotateSession input => exact List.mem_cons_self
      | reportIncident input => exact List.mem_cons_self
      | requestPairing | reviewPairing | registerEndpoint | grantCapability | revokeCapability | establishSession
      | authorize => cases hcloses
    | _ => cases hmem

variable (h i task o) in
theorem revoked_note : (h.note i task o).revoked = h.revoked ∨
    ∃ input record, task = .reportIncident input ∧ o = .savePeripheral record ∧ input.incidentType.severe = true ∧
      (h.note i task o).revoked = Function.update h.revoked record.peripheralId (some h.config.threads.length) := by
  cases o with
  | savePeripheral record =>
    show (h.notePeripheral record task).revoked = h.revoked ∨ _
    unfold TransportHistory.notePeripheral
    split
    · rename_i input
      split_ifs with hsevere
      · refine .inr ⟨input, record, rfl, rfl, hsevere, ?_⟩
        show (h.notePeripheral record (.reportIncident input)).revoked = _
        unfold TransportHistory.notePeripheral
        dsimp only
        rw [if_pos hsevere]
      · exact .inl rfl
    · split_ifs <;> exact .inl rfl
    · exact .inl rfl
  | saveSession record => exact .inl (noteSession_frame h task record).1
  | savePairing record =>
    obtain ⟨-, -, -, hrevoked, -⟩ := notePairing_frame h i task record
    exact .inl hrevoked
  | _ => exact .inl rfl

theorem approvesRequested_other {th : TrustThread} (hth : th ∈ h.config.threads) (hpermits : Permits h task o)
    (happroves : ApprovesRequested h th) (hrevoked' : h'.revoked = (h.note i task o).revoked)
    (hrequested' : h'.requested = (h.note i task o).requested) : ApprovesRequested h' th := by
  intro input htask happroved hsaved pairing hpairing n hrevoked
  rw [hrequested']
  rw [hrevoked'] at hrevoked
  refine requestedAfter_note (happroves input htask happroved hsaved pairing hpairing n ?_)
  rcases revoked_note h i task o with hsame | ⟨incident, record, rfl, rfl, hsevere, hupdate⟩
  · rwa [hsame] at hrevoked
  · rw [hupdate] at hrevoked
    by_cases hid : pairing.peripheralId = record.peripheralId
    · refine absurd ⟨?_, hsaved, pairing, hpairing, hid⟩ (hpermits hsevere th hth)
      rw [htask]
      exact happroved
    · rwa [Function.update_of_ne hid] at hrevoked

theorem approvesRequested_turn {next : o.Answer → TrustM TrustResult} {next' : TrustM TrustResult}
    (hth : ⟨task, .call o next, l⟩ ∈ h.config.threads) (hnext : AsksNext task l o) (hpermits : Permits h task o)
    (hanswers : trustAnswers hashes o env h.config.state = some (r, s'))
    (happroves : ApprovesRequested h ⟨task, .call o next, l⟩) (hrevoked' : h'.revoked = (h.note i task o).revoked)
    (hrequested' : h'.requested = (h.note i task o).requested) : ApprovesRequested h' ⟨task, next', l ++ [⟨o, r⟩]⟩ := by
  intro input htask happroved hsaved pairing hpairing n hrevoked
  rw [List.any_append, Bool.or_eq_false_iff] at hsaved
  rw [List.flatMap_append, List.mem_append, List.flatMap_singleton] at hpairing
  rcases hpairing with hpairing | hpairing
  · exact approvesRequested_other hth hpermits happroves hrevoked' hrequested' input htask happroved hsaved.1 pairing
      hpairing n hrevoked
  · obtain rfl : task = .reviewPairing input := htask
    cases o with
    | getPairing pairingId =>
      cases hanswers
      obtain rfl : pairingId = input.pairingId := hnext
      have hfind : h.config.state.pairings.find? input.pairingId = some pairing := by
        simpa [pairingsRead] using hpairing
      rw [hrevoked'] at hrevoked
      rw [hrequested']
      exact hpermits happroved pairing hfind n hrevoked
    | _ => cases hpairing

end Step

/-! ## Runs -/

section Run

variable {services : TrustServices} {hashes : Hashes} {h h' : TransportHistory}
  {ls : List (Label TrustCall TrustEnv)} {label : Label TrustCall TrustEnv}

theorem advances_cases (hadvances : Advances services hashes h label h') :
    ∃ config, (trustSystem services hashes).Step h.config label config ∧ h' = { h.noteLabel label with config := config } := by
  unfold Advances Succeeds TransportHistory.advance at hadvances
  split at hadvances
  · rename_i config hstep
    exact ⟨config, hstep, (Except.ok.inj hadvances).symm⟩
  · cases hadvances

theorem held_start : Held .start where
  sessions := ⟨List.nodup_nil, by simp [TransportHistory.start], by simp [TransportHistory.start],
    by simp [TransportHistory.start], by simp [TransportHistory.start], by simp [TransportHistory.start]⟩
  peripherals := ⟨by simp [TransportHistory.start], by simp [TransportHistory.start]⟩
  follows := by simp [TransportHistory.start, System.start]
  keyed := by simp [TransportHistory.start, System.start]
  saved := by simp [TransportHistory.start, System.start]
  approving := by simp [TransportHistory.start, System.start]

/-- The sessions that a call closes. -/
def affected (th : TrustThread) : List String :=
  match th.task with
  | .rotateSession input => [input.sessionId]
  | .reportIncident _ => (listedSessions th.log).map (·.sessionId)
  | _ => []

theorem held_of_step (hheld : Held h) (hstep : Guarded (Advances services hashes) TransportKept h label h') : Held h' := by
  obtain ⟨hadvances, hkept⟩ := hstep
  obtain ⟨config, hstep, rfl⟩ := advances_cases hadvances
  have hfollows := follows_of_step (trustSystem services hashes) (follows_run services) hheld.follows hstep
  have hstepped := stepped_of_step hstep
  clear hstep hadvances
  cases hstepped with
  | begin call =>
    have hold : ∀ th ∈ h.config.threads ++ [(trustSystem services hashes).thread call],
        th ∈ h.config.threads ∨ th.log = [] := by
      intro th hth
      refine (List.mem_append.mp hth).imp id fun hnew => ?_
      rw [List.mem_singleton.mp hnew]
      rfl
    refine ⟨hheld.sessions, hheld.peripherals, hfollows, fun th hth => ?_, fun th hth => ?_, fun th hth => ?_⟩
    · rcases hold th hth with hmem | hnil
      · exact hheld.keyed th hmem
      · simp [hnil]
    · rcases hold th hth with hmem | hnil
      · exact hheld.saved th hmem
      · simp [hnil, savedSessions]
    · rcases hold th hth with hmem | hnil
      · exact hheld.approving th hmem
      · intro input _ _ _ pairing hpairing
        rw [hnil] at hpairing
        cases hpairing
  | @turn i env task log o next r s' hget hblocked hanswers =>
    have hmem := List.mem_of_getElem? hget
    have hnote : h.noteLabel (.turn i env) = h.note i task o := by
      unfold TransportHistory.noteLabel
      dsimp only
      rw [hget]
    have hnext : AsksNext task log o := (hheld.follows _ hmem).1
    have hpermits : Permits h task o := hkept _ hget
    have hanswers : trustAnswers hashes o env h.config.state = some (r, s') := hanswers
    have hthreads : ∀ th ∈ h.config.threads.set i ⟨task, next r, log ++ [⟨o, r⟩]⟩ ++
        ((trustSystem services hashes).spawned o).map (trustSystem services hashes).thread,
        th = ⟨task, next r, log ++ [⟨o, r⟩]⟩ ∨ th ∈ h.config.threads := by
      intro th hth
      obtain ⟨j, hj⟩ := List.mem_iff_getElem?.mp hth
      rcases getElem?_set_append hget hj with ⟨rfl, rfl⟩ | ⟨-, hold⟩ | ⟨-, hnew⟩
      · exact .inl rfl
      · exact .inr (List.mem_of_getElem? hold)
      · cases hnew
    rw [hnote]
    refine ⟨sessionsHeld_turn hheld.sessions hnext hpermits hanswers,
      peripheralsHeld_turn hheld.peripherals hnext (fun input record htask ho happroved n hrevoked => ?_) hanswers, hfollows,
      fun th hth => ?_, fun th hth hcloses sessionId hsaved => ?_, fun th hth => ?_⟩
    · subst htask ho
      obtain ⟨hunsaved, -, pairing, hread, hkeyed⟩ := hnext
      have hperipheral := hkeyed (hheld.keyed _ hmem)
      rw [hperipheral] at hrevoked ⊢
      exact hheld.approving _ hmem input rfl happroved hunsaved pairing
        (List.mem_flatMap.mpr ⟨_, hread, by simp [pairingsRead]⟩) n hrevoked
    · rcases hthreads th hth with rfl | hold
      · exact List.forall_mem_append.mpr ⟨hheld.keyed _ hmem, fun e he => by
          rw [List.mem_singleton.mp he]
          exact keyed_of_answers hanswers⟩
      · exact hheld.keyed th hold
    · rcases hthreads th hth with rfl | hold
      · exact saved_turn hcloses (hheld.saved _ hmem hcloses) hsaved
      · obtain ⟨n, hn⟩ := hheld.saved th hold hcloses sessionId hsaved
        exact ⟨n, closed_note hn⟩
    · rcases hthreads th hth with rfl | hold
      · exact approvesRequested_turn hmem hnext hpermits hanswers (hheld.approving _ hmem) rfl rfl
      · exact approvesRequested_other hold hpermits (hheld.approving th hold) rfl rfl

theorem held_of_run (hrun : Run (Guarded (Advances services hashes) TransportKept) .start ls h) : Held h :=
  hrun.invariant (fun _ _ _ hheld hstep => held_of_step hheld hstep) held_start

structure TransportHolds (h : TransportHistory) : Prop where
  once : (h.accepted.map Acceptance.key).Nodup
  current : ∀ a ∈ h.accepted, a.closed = false
  closed : ∀ e ∈ h.closed, e.2 = h.epoch e.1 → ∃ session, h.config.state.sessions.find? e.1 = some session ∧
    session.status ≠ .active
  resolved : ∀ th ∈ h.config.threads, ∀ result, th.program.outcome = some (.ok result) → ∀ sessionId ∈ affected th,
    ∃ n, (sessionId, n) ∈ h.closed
  trusted : ∀ peripheralId n peripheral, h.revoked peripheralId = some n →
    h.config.state.peripherals.find? peripheralId = some peripheral → peripheral.trustState = .trusted →
    ∃ a ∈ h.approved, a.peripheralId = peripheralId ∧ RequestedAfter h.requested a.pairingId peripheralId n

end Run

/-! ## Runs that overlap -/

section Overlaps

instance (h : TransportHistory) (record : EndpointSessionRecord) : ∀ task, Decidable (PermitsSession h record task)
  | .authorize _ => inferInstanceAs (Decidable (∃ stored ∈ h.config.state.sessions.find? record.sessionId,
      stored.status = .active ∧ stored.lastSequence < record.lastSequence))
  | .requestPairing _ | .reviewPairing _ | .registerEndpoint _ | .grantCapability _ | .revokeCapability _
  | .establishSession _ | .rotateSession _ | .reportIncident _ => .isTrue trivial

instance (h : TransportHistory) (pairingId : String) (task : TrustCall) : Decidable (PermitsPairing h pairingId task) :=
  inferInstanceAs (Decidable (task.approves = true → ∀ pairing ∈ h.config.state.pairings.find? pairingId,
    ∀ n ∈ h.revoked pairing.peripheralId, RequestedAfter h.requested pairingId pairing.peripheralId n))

instance (h : TransportHistory) (record : EndpointTrustPeripheral) : ∀ task, Decidable (PermitsPeripheral h record task)
  | .reportIncident input => inferInstanceAs (Decidable (input.incidentType.severe = true →
      ∀ th ∈ h.config.threads, ¬Approving record.peripheralId th))
  | .requestPairing _ | .reviewPairing _ | .registerEndpoint _ | .grantCapability _ | .revokeCapability _
  | .establishSession _ | .rotateSession _ | .authorize _ => .isTrue trivial

instance (h : TransportHistory) (task : TrustCall) : ∀ o, Decidable (Permits h task o)
  | .saveSession record => inferInstanceAs (Decidable (PermitsSession h record task))
  | .savePeripheral record => inferInstanceAs (Decidable (PermitsPeripheral h record task))
  | .getPairing pairingId => inferInstanceAs (Decidable (PermitsPairing h pairingId task))
  | .now | .nextId | .appendAuthorization _ | .appendCompletion _ _ _ | .evaluateInstallEligibility _ _ _
  | .validateConfirmationProof _ _ | .notify _ _ | .getPeripheral _ | .savePairing _ | .getEndpoint _ | .saveEndpoint _
  | .listEndpointsByPeripheral _ | .getGrant _ | .saveGrant _ | .listGrantsByEndpoint _ | .getSession _
  | .listSessionsByPeripheral _ | .saveIncident _ => .isTrue trivial

instance (h : TransportHistory) (label : Label TrustCall TrustEnv) : Decidable (TransportKept h label) :=
  match label with
  | .begin _ => .isTrue trivial
  | .turn i x => inferInstanceAs (Decidable (∀ th ∈ h.config.threads[i]?,
      Asks (fun task _ o _ _ => Permits h task o) x h.config.state th))

def turns (i n : Nat) : List (Label TrustCall TrustEnv) := .replicate n (.turn i plainEnv)

def calls (i : Nat) (task : TrustCall) (n : Nat) : List (Label TrustCall TrustEnv) := .begin task :: turns i n

def sessionStart : EndpointSessionStartInput :=
  ⟨some "session-1", "endpoint-1", "peripheral-1", "project-1", "principal", none, some trustTime, []⟩

def sessionRotation : EndpointSessionRotateInput := ⟨"session-1", "principal", some trustTime, []⟩

def firstEnvelope : EndpointTransportEnvelope :=
  ⟨"envelope-1", "endpoint-1", "peripheral-1", "project-1", "session-1", "nonce-1", 1, "2026-03-06T21:30:00.000Z"⟩

def envelopeRequest : EndpointAuthorizationRequest :=
  { captureRequest "endpoint-1" "peripheral-1" "project-1" with
    sessionId := some "session-1", transportEnvelope := some firstEnvelope }

def compromise : EndpointIncidentReportInput :=
  ⟨some "incident-1", "peripheral-1", none, "project-1", .compromisedDevice, "principal", .high, "NDT-501-COMPROMISED", [],
    some trustTime⟩

def pairedCalls : List (Label TrustCall TrustEnv) :=
  calls 0 (.requestPairing (pairingInput "pairing-1" "peripheral-1" "project-1")) 3 ++
    calls 1 (.reviewPairing (approval "pairing-1")) 4

def sessionCalls : List (Label TrustCall TrustEnv) :=
  pairedCalls ++ calls 2 (.registerEndpoint (sensoryInput "endpoint-1" "peripheral-1" "project-1")) 2 ++
    calls 3 (.establishSession sessionStart) 3

/-- Both calls read the session before either writes it back. -/
def twiceAccepted : List (Label TrustCall TrustEnv) :=
  sessionCalls ++ calls 4 (.authorize envelopeRequest) 4 ++ calls 5 (.authorize envelopeRequest) 5 ++ turns 4 1

/-- The session is rotated before the accepted envelope writes it back. -/
def rotatedBetween : List (Label TrustCall TrustEnv) :=
  sessionCalls ++ calls 4 (.authorize envelopeRequest) 4 ++ calls 5 (.rotateSession sessionRotation) 2 ++ turns 4 1

/-- The pairing is approved once more after the incident. -/
def approvedAgain : List (Label TrustCall TrustEnv) :=
  pairedCalls ++ calls 2 (.reportIncident compromise) 5 ++ calls 3 (.reviewPairing (approval "pairing-1")) 4

/-- The envelope is accepted, and the session is rotated after that. -/
def acceptedAndRotated : List (Label TrustCall TrustEnv) :=
  sessionCalls ++ calls 4 (.authorize envelopeRequest) 5 ++ calls 5 (.rotateSession sessionRotation) 2

end Overlaps

end NousCore.EndpointTrust
