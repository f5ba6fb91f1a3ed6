import DecAustrum.Sqlite.Values
import DecAustrum.Storage.Evidence

/-!
# The ledger as it is stored

What rows edited by hand can hold: an integer column keeps numbers that are no integers, texts
and blobs, and a text need not be UTF-8. A text column is kept as the string `surrogateescape`
decodes it to, so that a surrogate in it stands for a byte that is not UTF-8.
-/
namespace DecAustrum

open Python Sqlite

/-! ## Reading columns -/

/-- `int(value)`. The digits of a blob are ASCII. -/
def Sqlite.Value.toInt : Value → Except PyExc Int
  | .integer n _ => .ok n
  | .real x _ => .ok x.toInt
  | .infinity _ => .error .overflowError
  | .text bytes => do
    let text ← orRaise .operationalError (decodeUtf8 bytes)
    orRaise .valueError (readInteger text)
  | .blob bytes =>
    if bytes.all (fun b => b.toNat < 0x80) then
      orRaise .valueError (readInteger (bytes.map fun b => Fin.ofNat 0x110000 b.toNat))
    else .error .valueError

/-- Fetching a row decodes its texts. -/
def Sqlite.Value.decodable : Value → Bool
  | .text bytes => (decodeUtf8 bytes).isSome
  | .integer _ _ | .real _ _ | .infinity _ | .blob _ => true

/-- The integer a model reads a column as: a number without a fraction, or digits. -/
def Sqlite.Value.read (platform : Platform) : Value → Option Int
  | .integer n _ => some n
  | .real x _ => if x.val.den = 1 then some x.val.num else none
  | .infinity _ => none
  | .text bytes | .blob bytes => (decodeUtf8 bytes).bind fun text => platform.readInt (.str text)

/-- A parameter of a statement is a 64-bit integer. -/
def bindable (n : Int) : Except PyExc Unit :=
  if fitsInteger n then .ok () else .error .overflowError

/-! ## Rows -/

structure StoredDecision where
  decisionId : Str
  projectId : Str
  evaluatedAt : Str
  decision : Str
  policyId : Option Str
  policyVersion : Option Value
  reason : Str
  evidenceJson : Option Str
  traceJson : Str
  agent : Str
  action : Str
  contextJson : Str
  deriving DecidableEq

/-- A stored record. Its `CHECK` leaves the schema version no value but the integer one. -/
structure StoredRecord where
  decisionId : Str
  projectId : Str
  sequenceNumber : Value
  previousHash : Option Str
  payloadHash : Str
  recordHash : Str
  algorithm : Str
  schemaVersion : Int
  createdAt : Str
  deriving DecidableEq

/-- The row with a policy version that is read as a number. -/
def StoredDecision.versioned (d : StoredDecision) (policyVersion : Option Int) : DecisionRow :=
  ⟨d.decisionId, d.projectId, d.evaluatedAt, d.decision, d.policyId, policyVersion, d.reason,
    d.evidenceJson, d.traceJson, d.agent, d.action, d.contextJson⟩

/-- The record with a sequence number that is read as a number. -/
def StoredRecord.numbered (i : StoredRecord) (sequenceNumber : Int) : IntegrityRow :=
  ⟨i.decisionId, i.projectId, sequenceNumber, i.previousHash, i.payloadHash, i.recordHash,
    i.algorithm, i.schemaVersion, i.createdAt⟩

def isUtf8 (text : Str) : Bool := !text.any isSurrogate

/-- Every text of the row is UTF-8. -/
def StoredDecision.decodable (d : StoredDecision) : Bool :=
  (d.versioned none).texts.all isUtf8 && d.policyVersion.all Value.decodable

def StoredRecord.decodable (i : StoredRecord) : Bool :=
  ([i.decisionId, i.projectId, i.payloadHash, i.recordHash, i.algorithm, i.createdAt] ++
    i.previousHash.toList).all isUtf8 && i.sequenceNumber.decodable

/-- Fetching a row raises where a text of it is not UTF-8. -/
def fetched (decodable : Bool) : Except PyExc Unit :=
  if decodable then .ok () else .error .operationalError

section

variable (platform : Platform)

/-- `_row_to_authorization`. The policy version is validated after the JSON columns are loaded. -/
def StoredDecision.authorization (d : StoredDecision) : Except PyExc AuthorizationResponse :=
  match d.policyVersion with
  | none => rowToAuthorization platform (d.versioned none)
  | some value =>
    match value.read platform with
    | some n => rowToAuthorization platform (d.versioned (some n))
    | none => do
      let _ ← rowToAuthorization platform (d.versioned none)
      throw .validationError

/-- `_row_to_proof`. -/
def StoredRecord.proof (i : StoredRecord) : Except PyExc DecisionIntegrityProof := do
  let n ← orRaise .validationError (i.sequenceNumber.read platform)
  rowToProof platform (i.numbered n)

/-- `_row_to_record`. -/
def storedRowToRecord (row : StoredDecision × StoredRecord) :
    Except PyExc VerifiableDecisionRecord := do
  fetched (row.1.decodable && row.2.decodable)
  let decision ← row.1.authorization platform
  let integrity ← { row.2 with decisionId := row.1.decisionId }.proof platform
  return ⟨decision, integrity⟩

def storedRowToProof (i : StoredRecord) : Except PyExc DecisionIntegrityProof := do
  fetched i.decodable
  i.proof platform

end

structure StoredLedger where
  decisions : List StoredDecision
  integrity : List StoredRecord
  deriving DecidableEq

namespace StoredLedger

variable (platform : Platform) (ledger : StoredLedger) (project : Uuid)

def projectDecisions : List StoredDecision :=
  ledger.decisions.filter fun d => d.projectId = project.str

def projectIntegrity : List StoredRecord :=
  ledger.integrity.filter fun i => i.projectId = project.str

def matchRow (d : StoredDecision) (i : StoredRecord) : Bool :=
  d.decisionId = i.decisionId && d.projectId = i.projectId

/-- The decisions without their record, and the records without their decision. -/
def unmatchedRows : List Str :=
  ((ledger.projectDecisions project).filter fun d =>
      !ledger.integrity.any (matchRow d)).map (·.decisionId) ++
    ((ledger.projectIntegrity project).filter fun i =>
      !ledger.decisions.any fun d => matchRow d i).map (·.decisionId)

/-- The keys of the two tables. -/
structure Keys : Prop where
  decisionId : (ledger.decisions.map (·.decisionId)).Nodup
  integrityId : (ledger.integrity.map (·.decisionId)).Nodup
  sequence : (ledger.integrity.map fun i => (i.projectId, i.sequenceNumber)).Nodup
  recordHash : (ledger.integrity.map (·.recordHash)).Nodup

def recordLe (a b : StoredRecord) : Prop := a.sequenceNumber ≤ b.sequenceNumber

instance : DecidableRel recordLe :=
  fun a b => inferInstanceAs (Decidable (a.sequenceNumber ≤ b.sequenceNumber))

/-- The records of a project in sequence. -/
def chain : List StoredRecord := (ledger.projectIntegrity project).insertionSort recordLe

/-! ## The verifier -/

/-- `int(COALESCE(MAX(sequence_number), 0))`. -/
def maxSequenceNumber : Except PyExc Int :=
  match ((ledger.projectIntegrity project).map (·.sequenceNumber)).max? with
  | none => .ok 0
  | some value => value.toInt

def sequenceLe (a b : StoredDecision × StoredRecord) : Prop :=
  a.2.sequenceNumber ≤ b.2.sequenceNumber

instance : DecidableRel sequenceLe :=
  fun a b => inferInstanceAs (Decidable (a.2.sequenceNumber ≤ b.2.sequenceNumber))

/-- `_iter_verification_rows`. -/
def verificationRows (maxSequence : Int) : List (StoredDecision × StoredRecord) :=
  (((ledger.projectIntegrity project).filter fun i => i.sequenceNumber.atMost maxSequence).flatMap
    fun i => (ledger.decisions.filter fun d => matchRow d i).map fun d => (d, i)).insertionSort
      sequenceLe

/-- What one fetched row is checked for. -/
def checkRow (expectedSequence : Nat) (previousHash : Option Str)
    (row : StoredDecision × StoredRecord) :
    Except PyExc (Except IntegrityVerificationFailure AuthorizationResponse) := do
  fetched (row.1.decodable && row.2.decodable)
  let decisionId ← orRaise .valueError (platform.uuid row.1.decisionId)
  let actualSequence ← row.2.sequenceNumber.toInt
  checkRecordRow platform expectedSequence previousHash decisionId (row.1.authorization platform)
    (row.2.numbered actualSequence)

def verifyLoop (expectedHead : Option Str) : VerifierState → List (StoredDecision × StoredRecord) →
    Except PyExc (Except (IntegrityVerificationFailure × Nat) VerifierState) :=
  walkRecords (checkRow platform) (·.2.recordHash) expectedHead

/-- The identifier of an unmatched row, if there is one. -/
def fetchUnmatched : Except PyExc (Option Str) := do
  match platform.firstRow.row (ledger.unmatchedRows project) with
  | none => return none
  | some id => do
    fetched (isUtf8 id)
    return some id

/-- `DecisionIntegrityRepository.verify`. -/
def verify (expectedHead : Option Str) (now : Datetime) :
    Except PyExc DecisionIntegrityVerification := do
  let maxSequence ← ledger.maxSequenceNumber project
  let unmatched ← ledger.fetchUnmatched platform project
  verificationReport platform project (ledger.projectDecisions project).length
    (ledger.projectIntegrity project).length unmatched expectedHead now do
      bindable maxSequence
      verifyLoop platform expectedHead ⟨none, 0, expectedHead.isNone⟩
        (ledger.verificationRows project maxSequence)

/-! ## The export -/

def recordOrder (sort : DecisionSortOrder) (a b : StoredDecision × StoredRecord) : Prop :=
  match sort with
  | .asc => Ledger.decisionLe (a.1.versioned none) (b.1.versioned none)
  | .desc => Ledger.decisionLe (b.1.versioned none) (a.1.versioned none)

instance (sort : DecisionSortOrder) : DecidableRel (recordOrder sort) := fun a b =>
  match sort with
  | .asc => inferInstanceAs (Decidable (Ledger.decisionLe (a.1.versioned none) (b.1.versioned none)))
  | .desc => inferInstanceAs (Decidable (Ledger.decisionLe (b.1.versioned none) (a.1.versioned none)))

/-- `_record_query` without filters. -/
def recordRows (sort : DecisionSortOrder) (maxSequence : Int) :
    List (StoredDecision × StoredRecord) :=
  ((ledger.projectDecisions project).flatMap fun d =>
    (ledger.integrity.filter fun i => matchRow d i && i.sequenceNumber.atMost maxSequence).map
      fun i => (d, i)).insertionSort (recordOrder sort)

/-- The snapshot at the last record of the project, whose sequence number is `maxSequence`. -/
def snapshot (maxSequence : Int) (recordCount : Nat) (capturedAt : UtcDatetime) :
    Option EvidenceExportSnapshot :=
  match (ledger.chain project).getLast? with
  | none => some ⟨project, capturedAt, 0, 0, none, recordCount⟩
  | some head => do
    let headHash ← Sha256Digest.validate head.recordHash
    if 0 ≤ maxSequence then
      return ⟨project, capturedAt, maxSequence.toNat, maxSequence.toNat, some headHash, recordCount⟩
    else none

/-- The sequence number of the last record, or zero. -/
def lastSequence : Except PyExc Int :=
  match (ledger.chain project).getLast? with
  | none => .ok 0
  | some head => do
    fetched (isUtf8 head.recordHash && head.sequenceNumber.decodable)
    head.sequenceNumber.toInt

/-- `capture_records` without filters. -/
def captureRecords (sort : DecisionSortOrder) (maximumRecords maximumBytes : Nat)
    (capturedAt : UtcDatetime) :
    Except PyExc (EvidenceExportSnapshot × List VerifiableDecisionRecord) := do
  let maxSequence ← ledger.lastSequence project
  bindable maxSequence
  let rows := ledger.recordRows project sort maxSequence
  let snapshot ← orRaise .validationError
    (ledger.snapshot project maxSequence rows.length capturedAt)
  if maximumRecords < rows.length then
    return (snapshot, [])
  let records ← readWithin platform maximumBytes (storedRowToRecord platform)
    VerifiableDecisionRecord.dump 0 rows
  return (snapshot, records)

/-- `list_chain`. -/
def listChain (maxSequence : Int) (maximumBytes : Nat) :
    Except PyExc (List DecisionIntegrityProof) := do
  bindable maxSequence
  readWithin platform maximumBytes (storedRowToProof platform) (fun proof => .ok proof.dump) 0
    ((ledger.chain project).filter fun i => i.sequenceNumber.atMost maxSequence)

end StoredLedger

end DecAustrum
