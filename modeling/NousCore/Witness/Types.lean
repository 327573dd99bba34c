import Mathlib.Data.List.Infix
import NousCore.Lib.Async
import NousCore.Lib.Json

/-!
# The evidence records and their store

* `mapInvariantToEnforcement` : severity and enforcement of a code;
* `createInvariantFinding` : a finding with the policy of its code;
* `answers` : what they do; a `put` that the store rejects leaves the documents as they were;
* `getLedgerHead`, `saveLedgerHead`, `appendLedgerEvent`, `saveCheckpoint` : the writes of the ledger;
* `buildEventPayload`, `buildCheckpointHash` : what is hashed;
* `ensureKeyEpoch` : the key pair of an epoch, created on first use.
-/

namespace NousCore.Witness

abbrev EventId := String

abbrev Timestamp := String

inductive InvariantSeverity where
  | S0 | S1 | S2
  deriving DecidableEq

inductive EnforcementAction where
  | hardStop | autoPause | review
  deriving DecidableEq

inductive InvariantPrefix where
  | AUTH | EVID | MEM | CHAIN | ISO | PRV | OPCTL | START | ESC | MAO | GTM | POL | WMODE | PCP | ING | FR
  deriving DecidableEq

/-- An invariant code `AUTH-…`: its prefix, and what follows the first dash. -/
structure InvariantCode where
  family : InvariantPrefix
  rest : String
  deriving DecidableEq

inductive CriticalActionCategory where
  | modelInvoke | toolExecute | memoryWrite | tracePersist | opctlCommand | maoProjection
  deriving DecidableEq

inductive WitnessEventStage where
  | authorization | completion | invariant
  deriving DecidableEq

inductive WitnessActor where
  | core | pfc | subcortex | app | principal | system | orchestrationAgent | workerAgent
  deriving DecidableEq

inductive WitnessEventStatus where
  | approved | denied | succeeded | failed | blocked
  deriving DecidableEq

inductive WitnessCheckpointReason where
  | interval | manual | rotation
  deriving DecidableEq

/-! ## Events -/

/-- The fields that `payloadHash` covers; `D` is how the detail document is written. -/
structure EventPayload (D : Type) where
  stage : WitnessEventStage
  actionCategory : CriticalActionCategory
  actionRef : String
  authorizationRef : Option EventId
  traceId : Option String
  projectId : Option String
  actor : WitnessActor
  status : WitnessEventStatus
  invariantCode : Option InvariantCode
  detail : D
  occurredAt : Timestamp
  deriving DecidableEq

/-- The detail of an event, as it is stored. -/
abbrev Detail := Record String Json

/-- The payload in canonical form: the detail with its entries in key order. -/
def EventPayload.canonical (p : EventPayload Detail) : EventPayload (List (String × Json)) :=
  { p with detail := Json.normalizeEntries p.detail.entries }

/-- What `eventHash` covers. -/
structure EventLink (H : Type) where
  sequence : Nat
  previousEventHash : Option H
  payloadHash : H

structure WitnessEvent (H : Type) extends EventPayload Detail, EventLink H where
  id : EventId
  eventHash : H
  recordedAt : Timestamp
  sequence_pos : 0 < sequence

structure AppendLedgerEventInput extends EventPayload Detail where
  eventId : EventId

/-! ## Checkpoints and keys -/

/-- What `checkpointHash` covers. -/
structure CheckpointBody (H : Type) where
  checkpointSequence : Nat
  startEventSequence : Nat
  endEventSequence : Nat
  previousCheckpointHash : Option H
  ledgerHeadHash : H
  keyEpoch : Nat
  reason : WitnessCheckpointReason

structure WitnessCheckpoint (H : Type) extends CheckpointBody H where
  id : String
  checkpointHash : H
  signature : String
  createdAt : Timestamp

structure LedgerHead (H : Type) where
  lastSequence : Nat
  lastEventHash : Option H
  lastCheckpointSequence : Nat
  lastCheckpointHash : Option H
  activeKeyEpoch : Nat
  updatedAt : Timestamp

structure KeyPair where
  publicKeyPem : String
  privateKeyPem : String

structure KeyEpochRecord extends KeyPair where
  keyEpoch : Nat
  createdAt : Timestamp
  activatedAt : Timestamp

/-! ## Inputs -/

structure WitnessAuthorizationInput where
  actionCategory : CriticalActionCategory
  actionRef : String
  traceId : Option String
  projectId : Option String
  actor : WitnessActor
  status : WitnessEventStatus
  detail : Detail
  occurredAt : Option Timestamp

structure WitnessCompletionInput where
  actionCategory : CriticalActionCategory
  actionRef : String
  authorizationRef : EventId
  traceId : Option String
  projectId : Option String
  actor : WitnessActor
  status : WitnessEventStatus
  detail : Detail
  occurredAt : Option Timestamp

structure WitnessInvariantInput where
  code : InvariantCode
  actionCategory : CriticalActionCategory
  actionRef : String
  traceId : Option String
  projectId : Option String
  actor : WitnessActor
  detail : Detail
  occurredAt : Option Timestamp

structure WitnessVerificationRequest where
  fromSequence : Option Nat
  toSequence : Option Nat

/-! ## Reports -/

structure InvariantEnforcementDecision where
  code : InvariantCode
  severity : InvariantSeverity
  enforcement : EnforcementAction

structure InvariantFinding extends InvariantEnforcementDecision where
  description : String
  evidenceEventIds : List EventId
  detectedAt : Timestamp

inductive VerificationReportStatus where
  | pass | review | fail

structure SeverityCounts where
  S0 : Nat
  S1 : Nat
  S2 : Nat

/-- A report without its receipt. -/
structure ReportBody (H : Type) where
  id : String
  generatedAt : Timestamp
  fromSequence : Nat
  toSequence : Nat
  eventCount : Nat
  headEventHash : Option H
  sequenceContiguous : Bool
  hashChainValid : Bool
  checkpointCount : Nat
  headCheckpointHash : Option H
  checkpointChainValid : Bool
  signaturesValid : Bool
  findings : List InvariantFinding
  bySeverity : SeverityCounts
  status : VerificationReportStatus

structure AttestationReceipt (H : Type) where
  id : String
  subjectHash : H
  keyEpoch : Nat
  signature : String
  verified : Bool
  issuedAt : Timestamp

structure VerificationReport (H : Type) extends ReportBody H where
  receipt : AttestationReceipt H

def ReportBody.chainFinding {H : Type} (r : ReportBody H) : Bool := r.findings.any fun f => f.code.family = .CHAIN

/-! ## Hashing and signing -/

/-- The hash of canonical records, as `hashCanonical` computes it of each kind of record, the signature scheme, and the
format that an id has to have; `keyPair n` is the `n`-th key pair that is generated. -/
structure Primitives (H : Type) where
  isUuid : String → Bool
  hashPayload : EventPayload (List (String × Json)) → H
  hashLink : EventLink H → H
  hashCheckpoint : CheckpointBody H → H
  hashReport : ReportBody H → H
  keyPair : Nat → KeyPair
  signDigest : H → String → String
  verifyDigestSignature : H → String → String → Bool

/-- `VerificationReportSchema` accepts the report: the ids that its findings name have the format of ids. -/
def Primitives.parses {H : Type} (c : Primitives H) (r : ReportBody H) : Bool :=
  r.findings.all fun f => f.evidenceEventIds.all c.isUuid

/-- Canonical records with the same hash are the same. -/
structure Primitives.CollisionFree {H : Type} (c : Primitives H) : Prop where
  payload : Function.Injective c.hashPayload
  link : Function.Injective c.hashLink
  checkpoint : Function.Injective c.hashCheckpoint

/-- What was signed with the private key of a pair verifies with the public key of the pair. -/
def Primitives.Verifies {H : Type} (c : Primitives H) : Prop := ∀ n d,
  c.verifyDigestSignature d (c.signDigest d (c.keyPair n).privateKeyPem) (c.keyPair n).publicKeyPem = true

/-! ## Invariant codes and what they enforce -/

def BASE_POLICY : InvariantPrefix → InvariantSeverity × EnforcementAction
  | .POL | .MEM => (.S2, .review)
  | .EVID | .PRV => (.S1, .autoPause)
  | .AUTH | .CHAIN | .ISO | .OPCTL | .START | .ESC | .MAO | .GTM | .WMODE | .PCP | .ING | .FR => (.S0, .hardStop)

section

variable (code : InvariantCode)

def getInvariantPrefix : InvariantPrefix := code.family

def InvariantCode.includes (s : String) : Bool := decide (s.toList <:+: code.rest.toList)

def InvariantCode.startsWith (s : String) : Bool := s.toList.isPrefixOf code.rest.toList

def mapInvariantToEnforcement : InvariantEnforcementDecision :=
  let family := getInvariantPrefix code
  if family = .MEM ∧ code.includes "AUTHORITY" then ⟨code, .S1, .autoPause⟩
  else if family = .EVID ∧ code.includes "INTEGRITY" then ⟨code, .S0, .hardStop⟩
  else if family = .ING ∧ (code.startsWith "002" ∨ code.startsWith "003" ∨ code.startsWith "004") then
    ⟨code, .S1, .autoPause⟩
  else if family = .ING ∧ code.startsWith "005" then ⟨code, .S2, .review⟩
  else if family = .FR ∧ (code.startsWith "003" ∨ code.startsWith "005" ∨ code.startsWith "006" ∨
      code.startsWith "007" ∨ code.startsWith "008" ∨ code.startsWith "009") then
    ⟨code, .S1, .autoPause⟩
  else ⟨code, (BASE_POLICY family).1, (BASE_POLICY family).2⟩

def createInvariantFinding (description : String) (evidenceEventIds : List EventId)
    (detectedAt : Timestamp) : InvariantFinding :=
  { mapInvariantToEnforcement code with
    description := description, evidenceEventIds := evidenceEventIds, detectedAt := detectedAt }

@[simp] theorem mapInvariantToEnforcement_code : (mapInvariantToEnforcement code).code = code := by
  unfold mapInvariantToEnforcement
  dsimp only
  split_ifs <;> rfl

@[simp] theorem createInvariantFinding_code (description : String) (ids : List EventId)
    (detectedAt : Timestamp) : (createInvariantFinding code description ids detectedAt).code = code :=
  mapInvariantToEnforcement_code code

end


/-! ## The document store of the ledger, and what is written to it -/

open Async

section

/-- A stored head that is missing or that its schema refuses is `none`: both are read alike. -/
structure WitnessState (H : Type) where
  events : Record EventId (WitnessEvent H)
  head : Option (LedgerHead H)
  checkpoints : Record String (WitnessCheckpoint H)
  keyEpochs : Record Nat KeyEpochRecord
  reports : Record String (VerificationReport H)
  issued : Nat
  drawn : Nat

inductive WitnessOp (H : Type) where
  | getHead
  | putHead (head : LedgerHead H)
  | getEvent (id : EventId)
  | putEvent (event : WitnessEvent H)
  | listEvents
  | putCheckpoint (checkpoint : WitnessCheckpoint H)
  | listCheckpoints
  | latestCheckpoint
  | getKeyEpoch (keyEpoch : Nat)
  | putKeyEpoch (record : KeyEpochRecord)
  | putReport (report : VerificationReport H)
  | nextId
  | createKeyPair

inductive WitnessError where
  | storeRejected
  | authorizationNotFound (ref : EventId)
  | emptyLedger
  | invalidReport

def WitnessError.message : WitnessError → String
  | .storeRejected => "the store rejected the document"
  | .authorizationNotFound ref => s!"Authorization event not found: {ref}"
  | .emptyLedger => "Cannot create checkpoint for empty witness ledger"
  | .invalidReport => "Invalid uuid"

inductive PutOutcome where
  | accepted | rejected
  deriving DecidableEq

@[reducible] def WitnessOp.Answer {H : Type} : WitnessOp H → Type
  | .getHead => Option (LedgerHead H)
  | .getEvent _ => Option (WitnessEvent H)
  | .listEvents => List (WitnessEvent H)
  | .listCheckpoints => List (WitnessCheckpoint H)
  | .latestCheckpoint => Option (WitnessCheckpoint H)
  | .getKeyEpoch _ => Option KeyEpochRecord
  | .nextId => String
  | .createKeyPair => KeyPair
  | .putHead _ | .putEvent _ | .putCheckpoint _ | .putKeyEpoch _ | .putReport _ => Except WitnessError Unit

/-- A call on the store that may reject. -/
abbrev WitnessCall (H : Type) := Async (WitnessOp.Answer (H := H)) WitnessError

variable {H : Type}

namespace WitnessState

def empty : WitnessState H := ⟨.empty, none, .empty, .empty, .empty, 0, 0⟩

/-- The rows of `witness_events` in ascending order of `sequence`. -/
def listEvents (s : WitnessState H) : List (WitnessEvent H) :=
  s.events.values.insertionSort fun a b => a.sequence ≤ b.sequence

/-- The rows of `witness_checkpoints` in ascending order of `checkpointSequence`. -/
def listCheckpoints (s : WitnessState H) : List (WitnessCheckpoint H) :=
  s.checkpoints.values.insertionSort fun a b => a.checkpointSequence ≤ b.checkpointSequence

end WitnessState

def stored (x : PutOutcome) (s t : WitnessState H) : Except WitnessError Unit × WitnessState H :=
  match x with
  | .accepted => (.ok (), t)
  | .rejected => (.error .storeRejected, s)

variable (c : Primitives H) (idFactory : Nat → String)

def answers : Answers (WitnessOp.Answer (H := H)) PutOutcome (WitnessState H)
  | .getHead, _, s => some (s.head, s)
  | .putHead head, x, s => some (stored x s { s with head := some head })
  | .getEvent id, _, s => some (s.events.get? id, s)
  | .putEvent event, x, s => some (stored x s { s with events := s.events.set event.id event })
  | .listEvents, _, s => some (s.listEvents, s)
  | .putCheckpoint checkpoint, x, s =>
    some (stored x s { s with checkpoints := s.checkpoints.set checkpoint.id checkpoint })
  | .listCheckpoints, _, s => some (s.listCheckpoints, s)
  | .latestCheckpoint, _, s => some (s.listCheckpoints.getLast?, s)
  | .getKeyEpoch keyEpoch, _, s => some (s.keyEpochs.get? keyEpoch, s)
  | .putKeyEpoch record, x, s => some (stored x s { s with keyEpochs := s.keyEpochs.set record.keyEpoch record })
  | .putReport report, x, s => some (stored x s { s with reports := s.reports.set report.id report })
  | .nextId, _, s => some (idFactory s.issued, { s with issued := s.issued + 1 })
  | .createKeyPair, _, s => some (c.keyPair s.drawn, { s with drawn := s.drawn + 1 })

/-! ## The operations as calls -/

def readHead : WitnessCall H (Option (LedgerHead H)) := perform WitnessOp.getHead

def putHead (head : LedgerHead H) : WitnessCall H Unit := perform (WitnessOp.putHead head) >>= unwrap

def getEventById (id : EventId) : WitnessCall H (Option (WitnessEvent H)) := perform (WitnessOp.getEvent id)

def putEvent (event : WitnessEvent H) : WitnessCall H Unit := perform (WitnessOp.putEvent event) >>= unwrap

def listEvents : WitnessCall H (List (WitnessEvent H)) := perform WitnessOp.listEvents

def putCheckpoint (checkpoint : WitnessCheckpoint H) : WitnessCall H Unit :=
  perform (WitnessOp.putCheckpoint checkpoint) >>= unwrap

def listCheckpoints : WitnessCall H (List (WitnessCheckpoint H)) := perform WitnessOp.listCheckpoints

def getLatestCheckpoint : WitnessCall H (Option (WitnessCheckpoint H)) := perform WitnessOp.latestCheckpoint

def getKeyEpoch (keyEpoch : Nat) : WitnessCall H (Option KeyEpochRecord) := perform (WitnessOp.getKeyEpoch keyEpoch)

def putKeyEpoch (record : KeyEpochRecord) : WitnessCall H Unit := perform (WitnessOp.putKeyEpoch record) >>= unwrap

def putReport (report : VerificationReport H) : WitnessCall H Unit := perform (WitnessOp.putReport report) >>= unwrap

def nextId : WitnessCall H String := perform WitnessOp.nextId

def createKeyPairPem : WitnessCall H KeyPair := perform WitnessOp.createKeyPair

/-! ## An honest store -/

section Honest

variable {allowed : Allowance (WitnessOp.Answer (H := H)) PutOutcome (WitnessState H)}
  {k : Contract (WitnessOp.Answer (H := H)) PutOutcome (WitnessState H)} {α : Type}
  {post : Log (WitnessOp.Answer (H := H)) → Except WitnessError α → WitnessState H → Prop} {s s' : WitnessState H}

def Honest (allowed : Allowance (WitnessOp.Answer (H := H)) PutOutcome (WitnessState H)) : Prop :=
  ∀ l o x s, allowed l o x s → x = .accepted

variable {c idFactory}

theorem meets_answered (hhonest : Honest k.allowed) {o : WitnessOp H} {next : o.Answer → WitnessCall H α} {r : o.Answer}
    {l : Log (WitnessOp.Answer (H := H))} (hanswers : answers c idFactory o .accepted s = some (r, s'))
    (hguar : k.allowed l o .accepted s → k.guar s s')
    (hnext : k.allowed l o .accepted s → ∀ s'', k.rely s' s'' →
      (next r).Meets (answers c idFactory) k post (l ++ [⟨o, r⟩]) s'') :
    (Async.call o next).Meets (answers c idFactory) k post l s := by
  intro x r' t hx hallow
  obtain rfl := hhonest _ _ _ _ hallow
  rw [hanswers] at hx
  cases hx
  exact ⟨hguar hallow, hnext hallow⟩

end Honest

end

/-! ## The append-only ledger -/

variable {H : Type}

def LedgerHead.initial (now : Timestamp) : LedgerHead H := ⟨0, none, 0, none, 1, now⟩

def getLedgerHead (now : Timestamp) : WitnessCall H (LedgerHead H) := do
  match ← readHead with
  | some head => return head
  | none =>
    let head := LedgerHead.initial now
    putHead head
    return head

def saveLedgerHead (head : LedgerHead H) : WitnessCall H Unit := putHead head

def buildEventPayload (input : EventPayload Detail) : EventPayload Detail := input

variable (c : Primitives H)

def AppendLedgerEventInput.event (head : LedgerHead H) (input : AppendLedgerEventInput) (recordedAt : Timestamp) :
    WitnessEvent H :=
  let payloadHash := c.hashPayload (buildEventPayload input.toEventPayload).canonical
  let link : EventLink H := ⟨head.lastSequence + 1, head.lastEventHash, payloadHash⟩
  { toEventPayload := input.toEventPayload
    toEventLink := link
    id := input.eventId
    eventHash := c.hashLink link
    recordedAt := recordedAt
    sequence_pos := Nat.succ_pos _ }

def appendLedgerEvent (head : LedgerHead H) (input : AppendLedgerEventInput) (recordedAt : Timestamp) :
    WitnessCall H (WitnessEvent H × LedgerHead H) := do
  let event := input.event c head recordedAt
  putEvent event
  let nextHead : LedgerHead H :=
    { head with lastSequence := event.sequence, lastEventHash := some event.eventHash, updatedAt := recordedAt }
  saveLedgerHead nextHead
  return (event, nextHead)

def saveCheckpoint (checkpoint : WitnessCheckpoint H) (nextHead : LedgerHead H) : WitnessCall H Unit := do
  putCheckpoint checkpoint
  saveLedgerHead nextHead

def buildCheckpointHash (input : CheckpointBody H) : H := c.hashCheckpoint input

/-! ## Key epochs -/

def ensureKeyEpoch (keyEpoch : Nat) (now : Timestamp) : WitnessCall H KeyEpochRecord := do
  match ← getKeyEpoch keyEpoch with
  | some existing => return existing
  | none =>
    let keyPair ← createKeyPairPem
    let record : KeyEpochRecord := { keyPair with keyEpoch := keyEpoch, createdAt := now, activatedAt := now }
    putKeyEpoch record
    return record

end NousCore.Witness
