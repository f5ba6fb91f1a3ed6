import DecAustrum.Evidence
import DecAustrum.Storage.LedgerWrites

/-!
# Reading evidence

The snapshot of a project an export is built from: the selected decisions with their proofs,
and the chain. `selects` stands for the conditions a search adds to the project's.
-/
namespace DecAustrum

open Python

section

variable (platform : Platform)

/-- The columns of a record under the names of the proof model. -/
def proofFields (i : IntegrityRow) : Json :=
  .obj [("decision_id", .str i.decisionId), ("project_id", .str i.projectId),
    ("sequence_number", .int i.sequenceNumber), ("previous_hash", dumpOptional .str i.previousHash),
    ("payload_hash", .str i.payloadHash), ("record_hash", .str i.recordHash),
    ("algorithm", .str i.algorithm), ("schema_version", .int i.schemaVersion),
    ("created_at", .str i.createdAt)]

/-- `_row_to_proof`. -/
def rowToProof (i : IntegrityRow) : Except PyExc DecisionIntegrityProof :=
  orRaise .validationError (DecisionIntegrityProof.validate platform (proofFields i))

/-- `_row_to_record`. -/
def rowToRecord (row : DecisionRow × IntegrityRow) : Except PyExc VerifiableDecisionRecord := do
  let decision ← rowToAuthorization platform row.1
  let integrity ← rowToProof platform { row.2 with decisionId := row.1.decisionId }
  return ⟨decision, integrity⟩

/-- The bytes of a line: canonical JSON and a newline. -/
def serializedBytes (v : Json) : Except PyExc Nat := do
  let text ← canonicalJson platform v
  let bytes ← orRaise .unicodeEncodeError (encodeUtf8 text)
  return bytes.length + 1

/-- Reads rows until their serialized size passes the maximum. -/
def readWithin {α β : Type} (maximumBytes : Nat) (read : α → Except PyExc β)
    (dump : β → Except PyExc Json) : Nat → List α → Except PyExc (List β)
  | _, [] => .ok []
  | size, row :: rest => do
    let value ← read row
    let dumped ← dump value
    let bytes ← serializedBytes platform dumped
    if maximumBytes < size + bytes then
      throw .exportSizeLimitError
    let values ← readWithin maximumBytes read dump (size + bytes) rest
    return value :: values

namespace Ledger

/-- `ORDER BY evaluated_at, decision_id` in the direction of the search. -/
def recordOrder (sort : DecisionSortOrder) (a b : DecisionRow × IntegrityRow) : Prop :=
  match sort with
  | .asc => decisionLe a.1 b.1
  | .desc => decisionLe b.1 a.1

instance (sort : DecisionSortOrder) : DecidableRel (recordOrder sort) := fun a b =>
  match sort with
  | .asc => inferInstanceAs (Decidable (decisionLe a.1 b.1))
  | .desc => inferInstanceAs (Decidable (decisionLe b.1 a.1))

variable (ledger : Ledger) (project : Uuid)

/-- `_record_query`. -/
def recordRows (selects : DecisionRow → Bool) (sort : DecisionSortOrder) (maxSequence : Int) :
    List (DecisionRow × IntegrityRow) :=
  (((ledger.projectDecisions project).filter selects).flatMap fun d =>
    (ledger.integrity.filter fun i => matchRow d i && i.sequenceNumber ≤ maxSequence).map
      fun i => (d, i)).insertionSort (recordOrder sort)

/-- `EvidenceExportSnapshot` at the last record of the project. -/
def snapshot (recordCount : Nat) (capturedAt : UtcDatetime) : Option EvidenceExportSnapshot :=
  match (ledger.chain project).getLast? with
  | none => some ⟨project, capturedAt, 0, 0, none, recordCount⟩
  | some head => do
    let headHash ← Sha256Digest.validate head.recordHash
    if 0 ≤ head.sequenceNumber then
      return ⟨project, capturedAt, head.sequenceNumber.toNat, head.sequenceNumber.toNat,
        some headHash, recordCount⟩
    else none

/-- The sequence number of the last record, or zero. -/
def lastSequence : Int := ((ledger.chain project).getLast?.map (·.sequenceNumber)).getD 0

/-- `capture_records`. -/
def captureRecords (selects : DecisionRow → Bool) (sort : DecisionSortOrder)
    (maximumRecords maximumBytes : Nat) (capturedAt : UtcDatetime) :
    Except PyExc (EvidenceExportSnapshot × List VerifiableDecisionRecord) := do
  let rows := ledger.recordRows project selects sort (ledger.lastSequence project)
  let snapshot ← orRaise .validationError (ledger.snapshot project rows.length capturedAt)
  if maximumRecords < rows.length then
    return (snapshot, [])
  let records ← readWithin platform maximumBytes (rowToRecord platform)
    VerifiableDecisionRecord.dump 0 rows
  return (snapshot, records)

/-- `list_chain`. -/
def listChain (maxSequence : Int) (maximumBytes : Nat) :
    Except PyExc (List DecisionIntegrityProof) :=
  readWithin platform maximumBytes (rowToProof platform) (fun proof => .ok proof.dump) 0
    ((ledger.chain project).filter fun i => i.sequenceNumber ≤ maxSequence)

end Ledger

end

end DecAustrum
