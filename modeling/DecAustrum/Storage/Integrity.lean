import DecAustrum.Storage.Decisions
import DecAustrum.Integrity
import DecAustrum.HashChain

/-!
# The integrity ledger

Rows of `decision_integrity_records` and the verifier that walks the chain of one project,
rebuilding every decision from its row.
-/
namespace DecAustrum

open Python

/-- A record whose integer columns hold integers, as every insert of the program leaves them. -/
structure IntegrityRow where
  decisionId : Str
  projectId : Str
  sequenceNumber : Int
  previousHash : Option Str
  payloadHash : Str
  recordHash : Str
  algorithm : Str
  schemaVersion : Int
  createdAt : Str
  deriving DecidableEq

/-- The two tables the ledger lives in. -/
structure Ledger where
  decisions : List DecisionRow
  integrity : List IntegrityRow
  deriving DecidableEq

/-- The row `_insert_proof` writes. -/
def integrityRow (proof : DecisionIntegrityProof) : IntegrityRow :=
  ⟨proof.decisionId.str, proof.projectId.str, proof.sequenceNumber,
    proof.previousHash.map (·.val), proof.payloadHash.val, proof.recordHash.val,
    integrityAlgorithm, integritySchemaVersion, proof.createdAt.isoformat⟩

inductive IntegrityFailureCode where
  | recordCountMismatch
  | sequenceMismatch
  | previousHashMismatch
  | payloadHashMismatch
  | recordHashMismatch
  | algorithmMismatch
  | schemaVersionMismatch
  | createdAtMismatch
  | payloadUnreadable
  | headHashMismatch
  deriving DecidableEq, Repr

structure IntegrityVerificationFailure where
  code : IntegrityFailureCode
  message : Str
  decisionId : Option Uuid
  sequenceNumber : Option Nat
  expected : Option Str
  actual : Option Str
  deriving DecidableEq

structure DecisionIntegrityVerification where
  projectId : Uuid
  verified : Bool
  totalDecisions : Nat
  checkedRecords : Nat
  headHash : Option Sha256Digest
  verifiedAt : Datetime
  failure : Option IntegrityVerificationFailure
  deriving DecidableEq

namespace Ledger

variable (ledger : Ledger) (project : Uuid)

def projectDecisions : List DecisionRow := ledger.decisions.filter fun d => d.projectId = project.str

def projectIntegrity : List IntegrityRow := ledger.integrity.filter fun i => i.projectId = project.str

/-- `COALESCE(MAX(sequence_number), 0)`. -/
def maxSequenceNumber : Int :=
  match (ledger.projectIntegrity project).map (·.sequenceNumber) with
  | [] => 0
  | first :: rest => rest.foldl max first

/-- The join condition of a decision and its integrity record. -/
def matchRow (d : DecisionRow) (i : IntegrityRow) : Bool :=
  d.decisionId = i.decisionId && d.projectId = i.projectId

/-- The decisions without their record, and the records without their decision. -/
def unmatchedRows : List Str :=
  ((ledger.projectDecisions project).filter fun d =>
      !ledger.integrity.any (matchRow d)).map (·.decisionId) ++
    ((ledger.projectIntegrity project).filter fun i =>
      !ledger.decisions.any fun d => matchRow d i).map (·.decisionId)

def sequenceLe (a b : DecisionRow × IntegrityRow) : Prop := a.2.sequenceNumber ≤ b.2.sequenceNumber

instance : DecidableRel sequenceLe :=
  fun a b => inferInstanceAs (Decidable (a.2.sequenceNumber ≤ b.2.sequenceNumber))

/-- `_iter_verification_rows`: each record up to `maxSequence` with its decision, in sequence. -/
def verificationRows (maxSequence : Int) : List (DecisionRow × IntegrityRow) :=
  (((ledger.projectIntegrity project).filter fun i => i.sequenceNumber ≤ maxSequence).flatMap
    fun i => (ledger.decisions.filter fun d => matchRow d i).map fun d => (d, i)).insertionSort
      sequenceLe

/-- The keys of the two tables. -/
structure Keys : Prop where
  decisionId : (ledger.decisions.map (·.decisionId)).Nodup
  integrityId : (ledger.integrity.map (·.decisionId)).Nodup
  sequence : (ledger.integrity.map fun i => (i.projectId, i.sequenceNumber)).Nodup
  recordHash : (ledger.integrity.map (·.recordHash)).Nodup

def recordLe (a b : IntegrityRow) : Prop := a.sequenceNumber ≤ b.sequenceNumber

instance : DecidableRel recordLe :=
  fun a b => inferInstanceAs (Decidable (a.sequenceNumber ≤ b.sequenceNumber))

/-- The records of a project in sequence. -/
def chain : List IntegrityRow := (ledger.projectIntegrity project).insertionSort recordLe

end Ledger

/-! ## The verifier -/

section Verifier

variable (platform : Platform)

private def rowFailure (code : IntegrityFailureCode) (message : Str) (decisionId : Uuid)
    (sequence : Nat) (expected actual : Option Str) : IntegrityVerificationFailure :=
  ⟨code, message, some decisionId, some sequence, expected, actual⟩

/-- What one record is checked for, with the decision rebuilt from the row joined to it. A record
that passes is returned with its decision. -/
def checkRecordRow (expectedSequence : Nat) (previousHash : Option Str) (decisionId : Uuid)
    (rebuilt : Except PyExc AuthorizationResponse) (i : IntegrityRow) :
    Except PyExc (Except IntegrityVerificationFailure AuthorizationResponse) := do
  if i.sequenceNumber ≠ expectedSequence then
    return .error (rowFailure .sequenceMismatch "Integrity sequence is not contiguous." decisionId
      expectedSequence (some (decimal expectedSequence)) (some (Json.intText i.sequenceNumber)))
  if i.previousHash ≠ previousHash then
    return .error (rowFailure .previousHashMismatch
      "Integrity record does not reference the preceding record." decisionId expectedSequence
      previousHash i.previousHash)
  if i.algorithm ≠ integrityAlgorithm then
    return .error (rowFailure .algorithmMismatch "Integrity algorithm is not supported." decisionId
      expectedSequence (some integrityAlgorithm) (some i.algorithm))
  if i.schemaVersion ≠ integritySchemaVersion then
    return .error (rowFailure .schemaVersionMismatch "Integrity schema version is not supported."
      decisionId expectedSequence (some (Json.intText integritySchemaVersion))
      (some (Json.intText i.schemaVersion)))
  match rebuilt with
  | .error exc =>
    return .error (rowFailure .payloadUnreadable
      "Stored authorization payload cannot be reconstructed." decisionId expectedSequence none
      (some exc.name))
  | .ok authorization =>
    if platform.fromIsoformat i.createdAt ≠ some authorization.evaluatedAt.moment then
      return .error (rowFailure .createdAtMismatch
        "Integrity timestamp does not match the decision timestamp." decisionId expectedSequence
        (some authorization.evaluatedAt.isoformat) (some i.createdAt))
    let payloadHash ← calculateAuthorizationPayloadHash platform authorization
    if i.payloadHash ≠ payloadHash then
      return .error (rowFailure .payloadHashMismatch "Authorization payload has changed." decisionId
        expectedSequence (some payloadHash) (some i.payloadHash))
    let recordHash ← calculateIntegrityRecordHash platform authorization expectedSequence
      previousHash payloadHash
    if i.recordHash ≠ recordHash then
      return .error (rowFailure .recordHashMismatch "Integrity record hash is invalid." decisionId
        expectedSequence (some recordHash) (some i.recordHash))
    return .ok authorization

def checkRow (expectedSequence : Nat) (previousHash : Option Str) (d : DecisionRow)
    (i : IntegrityRow) : Except PyExc (Except IntegrityVerificationFailure AuthorizationResponse) := do
  let decisionId ← orRaise .valueError (platform.uuid d.decisionId)
  checkRecordRow platform expectedSequence previousHash decisionId (rowToAuthorization platform d) i

/-- Where the loop over the records stands. -/
structure VerifierState where
  previousHash : Option Str
  checkedRecords : Nat
  checkpointSeen : Bool
  deriving DecidableEq

/-- The loop: every record is checked at the next sequence number. A failure comes with the
number of records checked before it. -/
def walkRecords {ρ : Type} (check : Nat → Option Str → ρ →
      Except PyExc (Except IntegrityVerificationFailure AuthorizationResponse))
    (recordHash : ρ → Str) (expectedHead : Option Str) : VerifierState → List ρ →
    Except PyExc (Except (IntegrityVerificationFailure × Nat) VerifierState)
  | state, [] => .ok (.ok state)
  | state, row :: rest => do
    match ← check (state.checkedRecords + 1) state.previousHash row with
    | .error failure => return .error (failure, state.checkedRecords)
    | .ok _ =>
      walkRecords check recordHash expectedHead ⟨some (recordHash row), state.checkedRecords + 1,
        state.checkpointSeen || decide (some (recordHash row) = expectedHead)⟩ rest

def verifyLoop (expectedHead : Option Str) : VerifierState → List (DecisionRow × IntegrityRow) →
    Except PyExc (Except (IntegrityVerificationFailure × Nat) VerifierState) :=
  walkRecords (fun sequence previousHash row => checkRow platform sequence previousHash row.1 row.2)
    (·.2.recordHash) expectedHead

/-- The report on the counts, the unmatched row and the walk over the records. -/
def verificationReport (project : Uuid) (totalDecisions integrityCount : Nat)
    (unmatched : Option Str) (expectedHead : Option Str) (now : Datetime)
    (walk : Except PyExc (Except (IntegrityVerificationFailure × Nat) VerifierState)) :
    Except PyExc DecisionIntegrityVerification := do
  if integrityCount ≠ totalDecisions ∨ unmatched ≠ none then
    let decisionId ← match unmatched with
      | none => Except.ok none
      | some text => (orRaise .valueError (platform.uuid text)).map some
    return ⟨project, false, totalDecisions, 0, none, now,
      some ⟨.recordCountMismatch, "Decision and integrity record counts do not match.", decisionId,
        none, some (decimal totalDecisions), some (decimal integrityCount)⟩⟩
  match ← walk with
  | .error (failure, checkedRecords) =>
    return ⟨project, false, totalDecisions, checkedRecords, none, now, some failure⟩
  | .ok state =>
    let headHash ← orRaise .validationError (Sha256Digest.validateOptional state.previousHash)
    if expectedHead ≠ none ∧ state.checkpointSeen = false then
      return ⟨project, false, totalDecisions, state.checkedRecords, headHash, now,
        some ⟨.headHashMismatch, "Expected chain checkpoint is not present in the current chain.",
          none, none, expectedHead, state.previousHash⟩⟩
    return ⟨project, true, totalDecisions, state.checkedRecords, headHash, now, none⟩

/-- `DecisionIntegrityRepository.verify`. -/
def Ledger.verify (ledger : Ledger) (project : Uuid) (expectedHead : Option Str) (now : Datetime) :
    Except PyExc DecisionIntegrityVerification :=
  verificationReport platform project (ledger.projectDecisions project).length
    (ledger.projectIntegrity project).length
    (platform.firstRow.row (ledger.unmatchedRows project)) expectedHead now
    (verifyLoop platform expectedHead ⟨none, 0, expectedHead.isNone⟩
      (ledger.verificationRows project (ledger.maxSequenceNumber project)))

end Verifier

/-! ## Steps of the loop -/

section Steps

variable {ρ : Type} {check : Nat → Option Str → ρ →
    Except PyExc (Except IntegrityVerificationFailure AuthorizationResponse)}
  {recordHash : ρ → Str} {expectedHead : Option Str} {state : VerifierState} {row : ρ}
  {rest : List ρ}

theorem walkRecords_raises {exc : PyExc}
    (raises : check (state.checkedRecords + 1) state.previousHash row = .error exc) :
    walkRecords check recordHash expectedHead state (row :: rest) = .error exc := by
  rw [walkRecords, raises]
  rfl

theorem walkRecords_fails {failure : IntegrityVerificationFailure}
    (fails : check (state.checkedRecords + 1) state.previousHash row = .ok (.error failure)) :
    walkRecords check recordHash expectedHead state (row :: rest) =
      .ok (.error (failure, state.checkedRecords)) := by
  rw [walkRecords, fails]
  rfl

theorem walkRecords_passes {a : AuthorizationResponse}
    (passes : check (state.checkedRecords + 1) state.previousHash row = .ok (.ok a)) :
    walkRecords check recordHash expectedHead state (row :: rest) =
      walkRecords check recordHash expectedHead ⟨some (recordHash row), state.checkedRecords + 1,
        state.checkpointSeen || decide (some (recordHash row) = expectedHead)⟩ rest := by
  rw [walkRecords, passes]
  rfl

end Steps

end DecAustrum
