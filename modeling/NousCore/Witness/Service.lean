import NousCore.Lib.System
import NousCore.Witness.Types

/-!
# The witness service, and the verification of its ledger

* `verifyEventChain` : sequence numbers, payload hashes, links and event hashes of a list of events;
* `verifyCheckpointChain` : the same of a list of checkpoints, with the events at their ends and their signatures;
* `filterEventsByRange`, `filterCheckpointsByRange` : the records of a range;
* `collectInvariantEventFindings`, `countFindingsBySeverity`, `deriveVerificationStatus` : the rest of a report;
* `appendAuthorization`, `appendCompletion`, `appendInvariant`, `createCheckpoint`, `rotateKeyEpoch` : the calls that
  `runExclusive` puts in a queue;
* `verify` : a verification, which is not queued.
-/

namespace NousCore.Witness

open Async

variable {H : Type}

structure EventChainVerification where
  sequenceContiguous : Bool
  hashChainValid : Bool
  findings : List InvariantFinding

structure CheckpointChainVerification where
  checkpointChainValid : Bool
  signaturesValid : Bool
  findings : List InvariantFinding

def filterEventsByRange (events : List (WitnessEvent H)) (fromSequence toSequence : Nat) : List (WitnessEvent H) :=
  events.filter fun event => decide (event.sequence ≥ fromSequence) && decide (event.sequence ≤ toSequence)

def filterCheckpointsByRange (checkpoints : List (WitnessCheckpoint H)) (fromSequence toSequence : Nat) :
    List (WitnessCheckpoint H) :=
  checkpoints.filter fun checkpoint =>
    decide (checkpoint.endEventSequence ≥ fromSequence) && decide (checkpoint.startEventSequence ≤ toSequence)

def chainCode (rest : String) : InvariantCode := ⟨.CHAIN, rest⟩

def findingUnless (passes : Bool) (rest description : String) (evidenceEventIds : List EventId)
    (detectedAt : Timestamp) : List InvariantFinding :=
  if passes then [] else [createInvariantFinding (chainCode rest) description evidenceEventIds detectedAt]

variable (c : Primitives H) [DecidableEq H]

/-! ## Events -/

/-- One turn of the loop over the events; `previous` is the event before. -/
def verifyEvent (detectedAt : Timestamp) (previous : Option (WitnessEvent H)) (event : WitnessEvent H) :
    EventChainVerification :=
  let expectedSequence := match previous with
    | none => event.sequence
    | some p => p.sequence + 1
  let payloadHash := c.hashPayload (buildEventPayload event.toEventPayload).canonical
  let expectedPreviousHash := previous.map (·.eventHash)
  let eventHash := c.hashLink ⟨event.sequence, event.previousEventHash, event.payloadHash⟩
  let sequenceHolds := decide (event.sequence = expectedSequence)
  let payloadHolds := decide (payloadHash = event.payloadHash)
  let previousHolds := decide (event.previousEventHash = expectedPreviousHash)
  let hashHolds := decide (eventHash = event.eventHash)
  { sequenceContiguous := sequenceHolds
    hashChainValid := payloadHolds && previousHolds && hashHolds
    findings :=
      findingUnless sequenceHolds "SEQUENCE-GAP" s!"sequence gap at event {event.id}" [event.id] detectedAt ++
      findingUnless payloadHolds "PAYLOAD-HASH-MISMATCH" s!"payload hash mismatch at event {event.id}" [event.id]
        detectedAt ++
      findingUnless previousHolds "PREVIOUS-HASH-MISMATCH" s!"previous hash mismatch at event {event.id}" [event.id]
        detectedAt ++
      findingUnless hashHolds "EVENT-HASH-MISMATCH" s!"event hash mismatch at event {event.id}" [event.id] detectedAt }

def verifyEventChainFrom (detectedAt : Timestamp) :
    Option (WitnessEvent H) → List (WitnessEvent H) → EventChainVerification
  | _, [] => ⟨true, true, []⟩
  | previous, event :: events =>
    let here := verifyEvent c detectedAt previous event
    let rest := verifyEventChainFrom detectedAt (some event) events
    ⟨here.sequenceContiguous && rest.sequenceContiguous, here.hashChainValid && rest.hashChainValid,
      here.findings ++ rest.findings⟩

def verifyEventChain (events : List (WitnessEvent H)) (detectedAt : Timestamp) : EventChainVerification :=
  verifyEventChainFrom c detectedAt none events

/-! ## Checkpoints -/

/-- `new Map(events.map(event => [event.sequence, event]))`: the last event of a sequence number. -/
def eventBySequence (events : List (WitnessEvent H)) (sequence : Nat) : Option (WitnessEvent H) :=
  events.reverse.find? fun event => event.sequence = sequence

/-- One turn of the loop over the checkpoints, without the signature. -/
def verifyCheckpoint (events : List (WitnessEvent H)) (detectedAt : Timestamp)
    (previous : Option (WitnessCheckpoint H)) (checkpoint : WitnessCheckpoint H) : CheckpointChainVerification :=
  let sequenceHolds := match previous with
    | none => true
    | some p => decide (checkpoint.checkpointSequence = p.checkpointSequence + 1)
  let linkHolds := decide (previous.map (·.checkpointHash) = checkpoint.previousCheckpointHash)
  let hashHolds := decide (buildCheckpointHash c checkpoint.toCheckpointBody = checkpoint.checkpointHash)
  let headEvent := eventBySequence events checkpoint.endEventSequence
  let headHolds := decide (headEvent.map (·.eventHash) = some checkpoint.ledgerHeadHash)
  { checkpointChainValid := sequenceHolds && linkHolds && hashHolds && headHolds
    signaturesValid := true
    findings :=
      findingUnless sequenceHolds "CHECKPOINT-SEQUENCE-GAP" s!"checkpoint sequence gap at {checkpoint.id}" []
        detectedAt ++
      findingUnless linkHolds "CHECKPOINT-LINK-BROKEN" s!"checkpoint link mismatch at {checkpoint.id}" []
        detectedAt ++
      findingUnless hashHolds "CHECKPOINT-HASH-MISMATCH" s!"checkpoint hash mismatch at {checkpoint.id}" []
        detectedAt ++
      findingUnless headHolds "CHECKPOINT-LEDGER-HEAD-MISMATCH" s!"checkpoint ledger head mismatch at {checkpoint.id}"
        (headEvent.toList.map (·.id)) detectedAt }

def verifyCheckpointSignature (checkpoint : WitnessCheckpoint H) : WitnessCall H Bool := do
  match ← getKeyEpoch checkpoint.keyEpoch with
  | none => return false
  | some keyRecord =>
    return c.verifyDigestSignature checkpoint.checkpointHash checkpoint.signature keyRecord.publicKeyPem

def verifyCheckpointChainFrom (events : List (WitnessEvent H)) (detectedAt : Timestamp) :
    Option (WitnessCheckpoint H) → List (WitnessCheckpoint H) → WitnessCall H CheckpointChainVerification
  | _, [] => return ⟨true, true, []⟩
  | previous, checkpoint :: checkpoints => do
    let here := verifyCheckpoint c events detectedAt previous checkpoint
    let signatureValid ← verifyCheckpointSignature c checkpoint
    let rest ← verifyCheckpointChainFrom events detectedAt (some checkpoint) checkpoints
    return ⟨here.checkpointChainValid && rest.checkpointChainValid, signatureValid && rest.signaturesValid,
      here.findings ++
        findingUnless signatureValid "CHECKPOINT-SIGNATURE-INVALID" s!"checkpoint signature invalid at {checkpoint.id}"
          [] detectedAt ++
        rest.findings⟩

def verifyCheckpointChain (checkpoints : List (WitnessCheckpoint H)) (events : List (WitnessEvent H))
    (detectedAt : Timestamp) : WitnessCall H CheckpointChainVerification :=
  verifyCheckpointChainFrom c events detectedAt none checkpoints

/-! ## The rest of a report -/

omit [DecidableEq H]

def WitnessActor.text : WitnessActor → String
  | .core => "core"
  | .pfc => "pfc"
  | .subcortex => "subcortex"
  | .app => "app"
  | .principal => "principal"
  | .system => "system"
  | .orchestrationAgent => "orchestration_agent"
  | .workerAgent => "worker_agent"

def collectInvariantEventFindings (events : List (WitnessEvent H)) (detectedAt : Timestamp) : List InvariantFinding :=
  events.filterMap fun event =>
    match event.stage, event.invariantCode with
    | .invariant, some code =>
      let evidenceEventIds := ((event.detail.get? "evidenceEventIds").bind Json.strings?).getD [event.id]
      let description := ((event.detail.get? "description").bind Json.string?).getD
        s!"invariant signaled by {event.actor.text}"
      some (createInvariantFinding code description evidenceEventIds detectedAt)
    | _, _ => none

def countFindingsBySeverity (findings : List InvariantFinding) : SeverityCounts :=
  ⟨findings.countP fun f => f.severity = .S0, findings.countP fun f => f.severity = .S1,
    findings.countP fun f => f.severity = .S2⟩

def deriveVerificationStatus (bySeverity : SeverityCounts) : VerificationReportStatus :=
  if bySeverity.S0 > 0 then .fail
  else if bySeverity.S1 > 0 ∨ bySeverity.S2 > 0 then .review
  else .pass

def findEvidenceCompletenessFindings (events : List (WitnessEvent H)) (detectedAt : Timestamp) :
    List InvariantFinding :=
  let authorizations := (events.filter fun event => event.stage = .authorization).map (·.id)
  let completions := events.filter fun event => event.stage = .completion
  let completionRefs := completions.filterMap (·.authorizationRef)
  (authorizations.eraseDups.filter fun id => !completionRefs.contains id).map (fun id =>
      createInvariantFinding ⟨.EVID, "MISSING-COMPLETION"⟩ s!"authorization {id} has no completion event" [id]
        detectedAt) ++
    (completions.filter fun completion => !completion.authorizationRef.any authorizations.contains).map fun completion =>
      createInvariantFinding ⟨.EVID, "MISSING-AUTHORIZATION"⟩
        s!"completion {completion.id} has no matching authorization event" [completion.id] detectedAt

end NousCore.Witness

namespace NousCore.Witness

open Async

variable {H : Type} (c : Primitives H) (checkpointInterval : Nat)

/-! ## Checkpoints -/

/-- The checkpoint that covers the events from the end of the latest one to the head. -/
def checkpointBody (reason : WitnessCheckpointReason) (head : LedgerHead H) (headHash : H)
    (latestCheckpoint : Option (WitnessCheckpoint H)) : CheckpointBody H where
  checkpointSequence := head.lastCheckpointSequence + 1
  startEventSequence := match latestCheckpoint with
    | some latest => min (latest.endEventSequence + 1) head.lastSequence
    | none => 1
  endEventSequence := head.lastSequence
  previousCheckpointHash := latestCheckpoint.map (·.checkpointHash)
  ledgerHeadHash := headHash
  keyEpoch := head.activeKeyEpoch
  reason := reason

def createCheckpointInternal (reason : WitnessCheckpointReason) (head : LedgerHead H) (now : Timestamp) :
    WitnessCall H (WitnessCheckpoint H) :=
  match head.lastEventHash, head.lastSequence with
  | none, _ | _, 0 => .throw .emptyLedger
  | some headHash, _ + 1 => do
    let latestCheckpoint ← getLatestCheckpoint
    let keyRecord ← ensureKeyEpoch head.activeKeyEpoch now
    let body := checkpointBody reason head headHash latestCheckpoint
    let checkpointHash := buildCheckpointHash c body
    let signature := c.signDigest checkpointHash keyRecord.privateKeyPem
    let id ← nextId
    let checkpoint : WitnessCheckpoint H :=
      { body with id := id, checkpointHash := checkpointHash, signature := signature, createdAt := now }
    let nextHead : LedgerHead H :=
      { head with
        lastCheckpointSequence := body.checkpointSequence
        lastCheckpointHash := some checkpointHash
        updatedAt := now }
    saveCheckpoint checkpoint nextHead
    return checkpoint

def maybeIntervalCheckpoint (head : LedgerHead H) (now : Timestamp) : WitnessCall H Unit :=
  if head.lastSequence = 0 then return ()
  else if head.lastSequence % checkpointInterval ≠ 0 then return ()
  else do
    let _ ← createCheckpointInternal c .interval head now
    return ()

/-! ## Queued calls -/

/-- What the three appends have in common, from the id of the event on. -/
def appendEvent (head : LedgerHead H) (payload : EventPayload Detail) (now : Timestamp) :
    WitnessCall H (WitnessEvent H) := do
  let eventId ← nextId
  let (event, nextHead) ← appendLedgerEvent c head { payload with eventId := eventId } now
  maybeIntervalCheckpoint c checkpointInterval nextHead now
  return event

def appendAuthorization (parsed : WitnessAuthorizationInput) (now : Timestamp) : WitnessCall H (WitnessEvent H) := do
  let head ← getLedgerHead now
  appendEvent c checkpointInterval head
    { stage := .authorization
      actionCategory := parsed.actionCategory
      actionRef := parsed.actionRef
      authorizationRef := none
      traceId := parsed.traceId
      projectId := parsed.projectId
      actor := parsed.actor
      status := parsed.status
      invariantCode := none
      detail := parsed.detail
      occurredAt := parsed.occurredAt.getD now } now

def appendCompletion (parsed : WitnessCompletionInput) (now : Timestamp) : WitnessCall H (WitnessEvent H) := do
  match ← getEventById parsed.authorizationRef with
  | none => .throw (.authorizationNotFound parsed.authorizationRef)
  | some _ =>
    let head ← getLedgerHead now
    appendEvent c checkpointInterval head
      { stage := .completion
        actionCategory := parsed.actionCategory
        actionRef := parsed.actionRef
        authorizationRef := some parsed.authorizationRef
        traceId := parsed.traceId
        projectId := parsed.projectId
        actor := parsed.actor
        status := parsed.status
        invariantCode := none
        detail := parsed.detail
        occurredAt := parsed.occurredAt.getD now } now

def InvariantSeverity.text : InvariantSeverity → String
  | .S0 => "S0"
  | .S1 => "S1"
  | .S2 => "S2"

def EnforcementAction.text : EnforcementAction → String
  | .hardStop => "hard-stop"
  | .autoPause => "auto-pause"
  | .review => "review"

def appendInvariant (parsed : WitnessInvariantInput) (now : Timestamp) : WitnessCall H (WitnessEvent H) := do
  let mapped := mapInvariantToEnforcement parsed.code
  let head ← getLedgerHead now
  appendEvent c checkpointInterval head
    { stage := .invariant
      actionCategory := parsed.actionCategory
      actionRef := parsed.actionRef
      authorizationRef := none
      traceId := parsed.traceId
      projectId := parsed.projectId
      actor := parsed.actor
      status := if mapped.enforcement = .hardStop then .blocked else .failed
      invariantCode := some parsed.code
      detail := (parsed.detail.set "severity" (.string mapped.severity.text)).set "enforcement"
        (.string mapped.enforcement.text)
      occurredAt := parsed.occurredAt.getD now } now

def createCheckpoint (reason : WitnessCheckpointReason) (now : Timestamp) : WitnessCall H (WitnessCheckpoint H) := do
  let head ← getLedgerHead now
  createCheckpointInternal c reason head now

def rotateKeyEpoch (now : Timestamp) : WitnessCall H Nat := do
  let head ← getLedgerHead now
  let nextEpoch := head.activeKeyEpoch + 1
  let _ ← ensureKeyEpoch nextEpoch now
  let nextHead : LedgerHead H := { head with activeKeyEpoch := nextEpoch, updatedAt := now }
  saveLedgerHead nextHead
  if nextHead.lastSequence > 0 then
    let _ ← createCheckpointInternal c .rotation nextHead now
    return nextEpoch
  else
    return nextEpoch

/-! ## Verification -/

def issueAttestationReceipt (subjectHash : H) (now : Timestamp) : WitnessCall H (AttestationReceipt H) := do
  let head ← getLedgerHead now
  let keyRecord ← ensureKeyEpoch head.activeKeyEpoch now
  let signature := c.signDigest subjectHash keyRecord.privateKeyPem
  let verified := c.verifyDigestSignature subjectHash signature keyRecord.publicKeyPem
  let id ← nextId
  return { id := id, subjectHash := subjectHash, keyEpoch := keyRecord.keyEpoch, signature := signature,
           verified := verified, issuedAt := now }

variable [DecidableEq H]

/-- The report on the events and checkpoints that were read. -/
def reportBody (id : String) (now : Timestamp) (fromSequence toSequence : Nat) (rangeEvents : List (WitnessEvent H))
    (rangeCheckpoints : List (WitnessCheckpoint H)) (checkpointVerification : CheckpointChainVerification) :
    ReportBody H :=
  let eventVerification := verifyEventChain c rangeEvents now
  let findings := collectInvariantEventFindings rangeEvents now ++ findEvidenceCompletenessFindings rangeEvents now ++
    eventVerification.findings ++ checkpointVerification.findings
  let bySeverity := countFindingsBySeverity findings
  { id := id
    generatedAt := now
    fromSequence := fromSequence
    toSequence := toSequence
    eventCount := rangeEvents.length
    headEventHash := rangeEvents.getLast?.map (·.eventHash)
    sequenceContiguous := eventVerification.sequenceContiguous
    hashChainValid := eventVerification.hashChainValid
    checkpointCount := rangeCheckpoints.length
    headCheckpointHash := rangeCheckpoints.getLast?.map (·.checkpointHash)
    checkpointChainValid := checkpointVerification.checkpointChainValid
    signaturesValid := checkpointVerification.signaturesValid
    findings := findings
    bySeverity := bySeverity
    status := deriveVerificationStatus bySeverity }

omit [DecidableEq H] in
def WitnessVerificationRequest.first (request : WitnessVerificationRequest) (events : List (WitnessEvent H)) : Nat :=
  request.fromSequence.getD ((events.head?.map (·.sequence)).getD 0)

omit [DecidableEq H] in
def WitnessVerificationRequest.last (request : WitnessVerificationRequest) (events : List (WitnessEvent H)) : Nat :=
  request.toSequence.getD ((events.getLast?.map (·.sequence)).getD 0)

def verify (parsed : WitnessVerificationRequest) (now : Timestamp) : WitnessCall H (VerificationReport H) := do
  let events ← listEvents
  let checkpoints ← listCheckpoints
  let fromSequence := parsed.first events
  let toSequence := parsed.last events
  let rangeEvents := filterEventsByRange events fromSequence toSequence
  let rangeCheckpoints := filterCheckpointsByRange checkpoints fromSequence toSequence
  let checkpointVerification ← verifyCheckpointChain c rangeCheckpoints rangeEvents now
  let id ← nextId
  let body := reportBody c id now fromSequence toSequence rangeEvents rangeCheckpoints checkpointVerification
  let receipt ← issueAttestationReceipt c (c.hashReport body) now
  let report : VerificationReport H := { body with receipt := receipt }
  if c.parses body then
    putReport report
    return report
  else
    .throw .invalidReport

/-! ## The service -/

inductive WitnessTask where
  | appendAuthorization (input : WitnessAuthorizationInput) (now : Timestamp)
  | appendCompletion (input : WitnessCompletionInput) (now : Timestamp)
  | appendInvariant (input : WitnessInvariantInput) (now : Timestamp)
  | createCheckpoint (reason : WitnessCheckpointReason) (now : Timestamp)
  | rotateKeyEpoch (now : Timestamp)
  | verify (request : WitnessVerificationRequest) (now : Timestamp)

inductive WitnessResult (H : Type) where
  | event (event : WitnessEvent H)
  | checkpoint (checkpoint : WitnessCheckpoint H)
  | keyEpoch (keyEpoch : Nat)
  | report (report : VerificationReport H)

def taskBody : WitnessTask → WitnessCall H (WitnessResult H)
  | .appendAuthorization input now => .event <$> appendAuthorization c checkpointInterval input now
  | .appendCompletion input now => .event <$> appendCompletion c checkpointInterval input now
  | .appendInvariant input now => .event <$> appendInvariant c checkpointInterval input now
  | .createCheckpoint reason now => .checkpoint <$> createCheckpoint c reason now
  | .rotateKeyEpoch now => .keyEpoch <$> rotateKeyEpoch c now
  | .verify request now => .report <$> verify c request now

/-- `runExclusive` queues every call but `verify`. -/
def queued : WitnessTask → Bool
  | .verify _ _ => false
  | _ => true

/-- One `WitnessService` over a document store. -/
def service (idFactory : Nat → String) : System WitnessTask (WitnessOp.Answer (H := H)) PutOutcome (WitnessState H)
    WitnessError (WitnessResult H) where
  body := taskBody c checkpointInterval
  answers := answers c idFactory
  spawned := fun _ => []
  exclusive := queued

end NousCore.Witness
