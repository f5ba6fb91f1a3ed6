import DecAustrum.Sqlite.Values
import DecAustrum.Storage.Integrity
import Mathlib.Data.List.Dedup

/-!
# Writing the ledger

The statements that add decisions and integrity records, with the constraints and triggers
of their tables, and the backfill that builds the chains of a table of old decisions.
-/
namespace DecAustrum

open Python

def DecisionRow.texts (row : DecisionRow) : List Str :=
  [row.decisionId, row.projectId, row.evaluatedAt, row.decision, row.reason, row.traceJson,
    row.agent, row.action, row.contextJson] ++ row.policyId.toList ++ row.evidenceJson.toList

/-- The `CHECK` constraints of an integrity record. -/
def IntegrityRow.checks (row : IntegrityRow) : Bool :=
  1 ≤ row.sequenceNumber && isSha256Digest row.payloadHash && isSha256Digest row.recordHash &&
    row.algorithm = ofString "SHA-256" && row.schemaVersion = 1 &&
    match row.previousHash with
    | none => row.sequenceNumber = 1
    | some hash => 1 < row.sequenceNumber && isSha256Digest hash

namespace Ledger

/-- The keys a new integrity record has to leave unique. -/
def recordConflict (ledger : Ledger) (row : IntegrityRow) : Bool :=
  ledger.integrity.any fun other => other.decisionId = row.decisionId ||
    other.recordHash = row.recordHash ||
    (other.projectId = row.projectId && other.sequenceNumber = row.sequenceNumber)

/-- `_insert_proof`. The trigger asks for the decision of the record in its project. -/
def insertProof (ledger : Ledger) (proof : DecisionIntegrityProof) : Except PyExc Ledger := do
  let row := integrityRow proof
  if fitsInteger row.sequenceNumber = false then
    throw .overflowError
  if ledger.decisions.any (fun d => matchRow d row) = false then
    throw .integrityError
  if row.checks = false ∨ ledger.recordConflict row = true then
    throw .integrityError
  return { ledger with integrity := ledger.integrity ++ [row] }

section

variable (platform : Platform)

/-- `AuthorizationDecisionRepository.insert`. -/
def insertDecision (ledger : Ledger) (a : AuthorizationResponse) : Except PyExc Ledger := do
  let row ← decisionRow platform a
  if row.texts.any (fun s => s.any isSurrogate) = true then
    throw .unicodeEncodeError
  if row.policyVersion.any (fun n => !fitsInteger n) = true then
    throw .overflowError
  if ledger.decisions.any (fun d => d.decisionId = row.decisionId) = true then
    throw .integrityError
  return { ledger with decisions := ledger.decisions ++ [row] }

def nextSequence : Option IntegrityRow → Int
  | none => 1
  | some row => row.sequenceNumber + 1

/-- `DecisionIntegrityRepository.insert`: the record after the last one of the project. -/
def insertIntegrity (ledger : Ledger) (a : AuthorizationResponse) :
    Except PyExc (Ledger × DecisionIntegrityProof) := do
  let previous := (ledger.chain a.projectId).getLast?
  let proof ← buildDecisionIntegrityProof platform a (nextSequence previous)
    (previous.map (·.recordHash))
  let ledger ← ledger.insertProof proof
  return (ledger, proof)

/-- A decision and its record, as one transaction writes them. -/
def save (ledger : Ledger) (a : AuthorizationResponse) :
    Except PyExc (Ledger × DecisionIntegrityProof) := do
  let ledger ← ledger.insertDecision platform a
  ledger.insertIntegrity platform a

/-- The loop of the backfill over the decisions of one project. -/
def backfillRows : Ledger → Int → Option Str → List DecisionRow → Except PyExc Ledger
  | ledger, _, _, [] => .ok ledger
  | ledger, sequenceNumber, previousHash, row :: rest => do
    let a ← rowToAuthorization platform row
    let proof ← buildDecisionIntegrityProof platform a sequenceNumber previousHash
    let ledger ← ledger.insertProof proof
    backfillRows ledger (sequenceNumber + 1) (some proof.recordHash.val) rest

def decisionLe (a b : DecisionRow) : Prop :=
  a.evaluatedAt < b.evaluatedAt ∨ a.evaluatedAt = b.evaluatedAt ∧ a.decisionId ≤ b.decisionId

instance : DecidableRel decisionLe := fun a b =>
  inferInstanceAs (Decidable (a.evaluatedAt < b.evaluatedAt ∨
    a.evaluatedAt = b.evaluatedAt ∧ a.decisionId ≤ b.decisionId))

/-- One group of the backfill: the decisions stored under one project text. -/
def backfillGroup (ledger : Ledger) (projectText : Str) : Except PyExc Ledger := do
  let project ← orRaise .valueError (platform.uuid projectText)
  let decisionCount := (ledger.decisions.filter fun d => d.projectId = projectText).length
  let integrityCount := (ledger.projectIntegrity project).length
  if integrityCount = decisionCount then
    return ledger
  if integrityCount ≠ 0 then
    throw .migrationError
  ledger.backfillRows platform 1 none
    ((ledger.projectDecisions project).insertionSort decisionLe)

/-- `GROUP BY project_id ORDER BY project_id`. -/
def projectTexts (ledger : Ledger) : List Str :=
  (ledger.decisions.map (·.projectId)).dedup.insertionSort (· ≤ ·)

/-- `backfill_existing_decisions`. -/
def backfill (ledger : Ledger) : Except PyExc Ledger :=
  ledger.projectTexts.foldlM (backfillGroup platform) ledger

end

end Ledger

end DecAustrum
