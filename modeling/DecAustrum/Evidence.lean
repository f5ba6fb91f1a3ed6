import DecAustrum.EvidenceModels

/-!
# Building and verifying evidence bundles

The bundle an export builds and the offline verifier that checks it without the database.
-/
namespace DecAustrum

open Python

section Building

variable (platform : Platform)

def logicalBundlePayload (manifest : Json) (records chain : List Json) : Json :=
  .obj [("manifest", manifest), ("records", .arr records), ("chain", .arr chain)]

/-- `build_evidence_bundle`. The manifest is made once for its digest and once with it. -/
def buildEvidenceBundle (snapshot : EvidenceExportSnapshot) (criteria : DecisionSearchFilters)
    (records : List VerifiableDecisionRecord) (chain : List DecisionIntegrityProof)
    (expectedHeadHash : Option Str) (generatedAt : Datetime) (exportId : Uuid) :
    Except PyExc EvidenceBundle := do
  if records.length ≠ snapshot.recordCount then
    throw .valueError
  if chain.length ≠ snapshot.chainRecordCount then
    throw .valueError
  if chain.getLast?.map (·.recordHash) ≠ snapshot.chainHeadHash then
    throw .valueError
  let recordsData ← records.mapM (·.dump)
  let chainData := chain.map (·.dump)
  let recordsDigest ← digest platform (.arr recordsData)
  let chainDigest ← digest platform (.arr chainData)
  let generated ← UtcDatetime.of generatedAt
  let expected ← orRaise .validationError (Sha256Digest.validateOptional expectedHeadHash)
  let recordsSha256 ← orRaise .validationError (Sha256Digest.validate recordsDigest)
  let chainSha256 ← orRaise .validationError (Sha256Digest.validate chainDigest)
  let manifest (bundleSha256 : Sha256Digest) : EvidenceBundleManifest :=
    ⟨exportId, generated, snapshot.capturedAt, snapshot.projectId, criteria, snapshot.recordCount,
      snapshot.chainRecordCount, snapshot.chainHeadHash, expected, recordsSha256, chainSha256,
      bundleSha256⟩
  let zeros : Sha256Digest := ⟨List.replicate 64 0x30, by decide⟩
  let bundleDigest ← digest platform
    (logicalBundlePayload (manifest zeros).dumpWithoutBundleDigest recordsData chainData)
  let bundleSha256 ← orRaise .validationError (Sha256Digest.validate bundleDigest)
  return ⟨manifest bundleSha256, records, chain⟩

end Building

/-! ## The offline verifier -/

inductive EvidenceBundleFailureCode where
  | manifestRecordCountMismatch
  | manifestChainCountMismatch
  | recordsDigestMismatch
  | chainDigestMismatch
  | bundleDigestMismatch
  | projectMismatch
  | chainSequenceMismatch
  | chainPreviousHashMismatch
  | chainRecordHashMismatch
  | chainHeadMismatch
  | trustedCheckpointMismatch
  | selectedRecordMissing
  | selectedProofMismatch
  | selectedPayloadHashMismatch
  deriving DecidableEq, Repr

structure EvidenceBundleVerificationFailure where
  code : EvidenceBundleFailureCode
  message : Str
  decisionId : Option Uuid
  sequenceNumber : Option Int
  expected : Option Str
  actual : Option Str
  deriving DecidableEq

structure EvidenceBundleVerification where
  verified : Bool
  projectId : Uuid
  checkedRecords : Nat
  checkedChainRecords : Nat
  headHash : Option Sha256Digest
  verifiedAt : Datetime
  failure : Option EvidenceBundleVerificationFailure
  deriving DecidableEq

/-- `==` on proofs: timestamps are equal when they denote one moment. -/
def DecisionIntegrityProof.equal (p q : DecisionIntegrityProof) : Bool :=
  p.decisionId = q.decisionId && p.projectId = q.projectId &&
    p.sequenceNumber = q.sequenceNumber && p.previousHash = q.previousHash &&
    p.payloadHash = q.payloadHash && p.recordHash = q.recordHash &&
    p.createdAt.moment = q.createdAt.moment

section Verifier

variable (platform : Platform)

/-- What one proof of the chain is checked for; `seen` are the proofs before it. -/
def checkProof (project : Uuid) (expectedSequence : Nat) (previousHash : Option Sha256Digest)
    (seen : List DecisionIntegrityProof) (proof : DecisionIntegrityProof) :
    Except PyExc (Option EvidenceBundleVerificationFailure) := do
  if proof.projectId ≠ project then
    return some ⟨.projectMismatch, "Integrity record belongs to another project.",
      some proof.decisionId, some proof.sequenceNumber, some project.str, some proof.projectId.str⟩
  if proof.sequenceNumber ≠ expectedSequence then
    return some ⟨.chainSequenceMismatch, "Integrity chain sequence is not contiguous.",
      some proof.decisionId, some expectedSequence, some (decimal expectedSequence),
      some (Json.intText proof.sequenceNumber)⟩
  if proof.previousHash ≠ previousHash then
    return some ⟨.chainPreviousHashMismatch, "Integrity record does not reference its predecessor.",
      some proof.decisionId, some proof.sequenceNumber, previousHash.map (·.val),
      proof.previousHash.map (·.val)⟩
  let calculated ← calculateIntegrityProofRecordHash platform proof
  if proof.recordHash.val ≠ calculated then
    return some ⟨.chainRecordHashMismatch, "Integrity record hash is invalid.",
      some proof.decisionId, some proof.sequenceNumber, some proof.recordHash.val, some calculated⟩
  if seen.any (fun other => other.decisionId = proof.decisionId) then
    return some ⟨.chainSequenceMismatch, "Integrity chain contains a duplicate decision.",
      some proof.decisionId, some proof.sequenceNumber, none, none⟩
  return none

/-- The loop over the chain: the failure, if any, with the number of proofs checked before it. -/
def verifyChain (project : Uuid) (seen : List DecisionIntegrityProof)
    (previousHash : Option Sha256Digest) :
    List DecisionIntegrityProof → Except PyExc (Option (EvidenceBundleVerificationFailure × Nat))
  | [] => .ok none
  | proof :: rest => do
    match ← checkProof platform project (seen.length + 1) previousHash seen proof with
    | some failure => return some (failure, seen.length)
    | none => verifyChain project (seen ++ [proof]) (some proof.recordHash) rest

/-- What one selected record is checked for; `selected` are the decisions before it. -/
def checkRecord (project : Uuid) (chain : List DecisionIntegrityProof) (selected : List Uuid)
    (record : VerifiableDecisionRecord) :
    Except PyExc (Option EvidenceBundleVerificationFailure) := do
  let decision := record.decision
  let proof := record.integrity
  if decision.projectId ≠ project ∨ proof.projectId ≠ project then
    return some ⟨.projectMismatch, "Selected decision belongs to another project.",
      some decision.decisionId, none, some project.str, some decision.projectId.str⟩
  match chain.find? fun other => other.decisionId = decision.decisionId with
  | none =>
    return some ⟨.selectedRecordMissing, "Selected decision is missing from the chain.",
      some decision.decisionId, none, none, none⟩
  | some chainProof =>
    if proof.decisionId ≠ decision.decisionId ∨ proof.equal chainProof = false ∨
        decision.decisionId ∈ selected then
      return some ⟨.selectedProofMismatch,
        "Selected decision and its integrity proof do not match the chain.",
        some decision.decisionId, some proof.sequenceNumber, none, none⟩
    let calculated ← calculateAuthorizationPayloadHash platform decision
    if proof.payloadHash.val ≠ calculated then
      return some ⟨.selectedPayloadHashMismatch, "Selected decision payload was modified.",
        some decision.decisionId, some proof.sequenceNumber, some proof.payloadHash.val,
        some calculated⟩
    return none

/-- The loop over the selected records. -/
def verifyRecords (project : Uuid) (chain : List DecisionIntegrityProof) (selected : List Uuid) :
    List VerifiableDecisionRecord → Except PyExc (Option (EvidenceBundleVerificationFailure × Nat))
  | [] => .ok none
  | record :: rest => do
    match ← checkRecord platform project chain selected record with
    | some failure => return some (failure, selected.length)
    | none => verifyRecords project chain (selected ++ [record.decision.decisionId]) rest

/-- The first checkpoint the chain does not contain. -/
def missingCheckpoint (chain : List DecisionIntegrityProof) (checkpoints : List (Option Str)) :
    Option Str :=
  (checkpoints.filterMap id).find? fun checkpoint => !chain.any fun p => p.recordHash.val = checkpoint

/-- `verify_evidence_bundle`. -/
def verifyEvidenceBundle (bundle : EvidenceBundle) (expectedHeadHash : Option Str)
    (now : Datetime) : Except PyExc EvidenceBundleVerification := do
  let manifest := bundle.manifest
  let recordsData ← bundle.records.mapM (·.dump)
  let chainData := bundle.chain.map (·.dump)
  let headHash := bundle.chain.getLast?.map (·.recordHash)
  let failed (failure : EvidenceBundleVerificationFailure) (checkedRecords checkedChain : Nat) :
      EvidenceBundleVerification :=
    ⟨false, manifest.projectId, checkedRecords, checkedChain, headHash, now, some failure⟩
  if manifest.recordCount ≠ bundle.records.length then
    return failed ⟨.manifestRecordCountMismatch, "Manifest and exported record counts do not match.",
      none, none, some (decimal manifest.recordCount), some (decimal bundle.records.length)⟩ 0 0
  if manifest.chainRecordCount ≠ bundle.chain.length then
    return failed ⟨.manifestChainCountMismatch, "Manifest and integrity chain counts do not match.",
      none, none, some (decimal manifest.chainRecordCount), some (decimal bundle.chain.length)⟩ 0 0
  let recordsDigest ← digest platform (.arr recordsData)
  if manifest.recordsSha256.val ≠ recordsDigest then
    return failed ⟨.recordsDigestMismatch, "Exported decision records were modified.", none, none,
      some manifest.recordsSha256.val, some recordsDigest⟩ 0 0
  let chainDigest ← digest platform (.arr chainData)
  if manifest.chainSha256.val ≠ chainDigest then
    return failed ⟨.chainDigestMismatch, "Exported integrity chain records were modified.", none,
      none, some manifest.chainSha256.val, some chainDigest⟩ 0 0
  let bundleDigest ← digest platform
    (logicalBundlePayload manifest.dumpWithoutBundleDigest recordsData chainData)
  if manifest.bundleSha256.val ≠ bundleDigest then
    return failed ⟨.bundleDigestMismatch, "Evidence bundle manifest was modified.", none, none,
      some manifest.bundleSha256.val, some bundleDigest⟩ 0 0
  match ← verifyChain platform manifest.projectId [] none bundle.chain with
  | some (failure, checkedChain) => return failed failure 0 checkedChain
  | none =>
    if manifest.chainHeadHash ≠ headHash then
      return failed ⟨.chainHeadMismatch, "Manifest chain head does not match the chain.", none, none,
        manifest.chainHeadHash.map (·.val), headHash.map (·.val)⟩ 0 bundle.chain.length
    match missingCheckpoint bundle.chain [manifest.expectedHeadHash.map (·.val), expectedHeadHash] with
    | some checkpoint =>
      return failed ⟨.trustedCheckpointMismatch,
        "Trusted checkpoint is not present in the exported integrity chain.", none, none,
        some checkpoint, headHash.map (·.val)⟩ 0 bundle.chain.length
    | none =>
      match ← verifyRecords platform manifest.projectId bundle.chain [] bundle.records with
      | some (failure, checkedRecords) => return failed failure checkedRecords bundle.chain.length
      | none =>
        return ⟨true, manifest.projectId, bundle.records.length, bundle.chain.length, headHash, now,
          none⟩

end Verifier

end DecAustrum
