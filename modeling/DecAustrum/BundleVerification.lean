import DecAustrum.Evidence
import DecAustrum.LedgerHistory
import DecAustrum.Traversal

/-!
# Accepted bundles

What `verify_evidence_bundle` establishes of the bundles it accepts, and that a bundle with
these properties is accepted.
-/
namespace DecAustrum

open Python HashChain Traversal

section

variable (platform : Platform)

/-- The checks of one proof of the chain. -/
structure ProofAccepted (project : Uuid) (seen : List DecisionIntegrityProof)
    (proof : DecisionIntegrityProof) : Prop where
  project : proof.projectId = project
  sequence : proof.sequenceNumber = (seen.length + 1 : Nat)
  previous : proof.previousHash = seen.getLast?.map (·.recordHash)
  record : EnvelopeHashes platform proof.fields proof.recordHash.val
  fresh : ∀ other ∈ seen, other.decisionId ≠ proof.decisionId

/-- The checks of one selected record. -/
structure RecordAccepted (project : Uuid) (chain : List DecisionIntegrityProof)
    (selected : List VerifiableDecisionRecord) (record : VerifiableDecisionRecord) : Prop where
  decisionProject : record.decision.projectId = project
  proofProject : record.integrity.projectId = project
  proved : ∃ proof, chain.find? (fun other => other.decisionId = record.decision.decisionId) =
    some proof ∧ record.integrity.equal proof = true
  decisionId : record.integrity.decisionId = record.decision.decisionId
  fresh : ∀ other ∈ selected, other.decision.decisionId ≠ record.decision.decisionId
  payload : calculateAuthorizationPayloadHash platform record.decision =
    .ok record.integrity.payloadHash.val

/-- What the offline verifier accepts. -/
structure BundleVerifies (bundle : EvidenceBundle) (expectedHeadHash : Option Str) : Prop where
  dumpable : ∀ r ∈ bundle.records, r.decision.Dumpable
  recordCount : bundle.manifest.recordCount = bundle.records.length
  chainCount : bundle.manifest.chainRecordCount = bundle.chain.length
  recordsDigest : digest platform (.arr (bundle.records.map (·.dumped))) =
    .ok bundle.manifest.recordsSha256.val
  chainDigest : digest platform (.arr (bundle.chain.map (·.dump))) =
    .ok bundle.manifest.chainSha256.val
  bundleDigest : digest platform (logicalBundlePayload bundle.manifest.dumpWithoutBundleDigest
    (bundle.records.map (·.dumped)) (bundle.chain.map (·.dump))) =
      .ok bundle.manifest.bundleSha256.val
  chain : EachAfter (ProofAccepted platform bundle.manifest.projectId) [] bundle.chain
  head : bundle.manifest.chainHeadHash = bundle.chain.getLast?.map (·.recordHash)
  checkpoints : ∀ checkpoint ∈ [bundle.manifest.expectedHeadHash.map (·.val), expectedHeadHash],
    ∀ hash ∈ checkpoint, ∃ proof ∈ bundle.chain, proof.recordHash.val = hash
  records : EachAfter (RecordAccepted platform bundle.manifest.projectId bundle.chain) []
    bundle.records

end

variable {platform : Platform}

/-! ## The chain -/

theorem checkProof_eq_ok_iff (project : Uuid) (seen : List DecisionIntegrityProof)
    (proof : DecisionIntegrityProof) :
    checkProof platform project (seen.length + 1) (seen.getLast?.map (·.recordHash)) seen proof =
      .ok none ↔ ProofAccepted platform project seen proof := by
  constructor
  · intro checked
    unfold checkProof at checked
    simp only [bind, Except.bind, pure, Except.pure] at checked
    split at checked
    · cases checked
    split at checked
    · cases checked
    split at checked
    · cases checked
    next projectOk sequenceOk previousOk =>
    cases hashed : calculateIntegrityProofRecordHash platform proof with
    | error exc => simp [hashed] at checked
    | ok calculated =>
      simp only [hashed] at checked
      split at checked
      · cases checked
      next recordOk =>
      split at checked
      · cases checked
      next freshOk =>
      simp only [ne_eq, Decidable.not_not] at *
      refine ⟨projectOk, sequenceOk, previousOk, ?_, ?_⟩
      · rw [recordOk]
        exact hashed
      · simpa using freshOk
  · intro accepted
    have hashed : calculateIntegrityProofRecordHash platform proof = .ok proof.recordHash.val :=
      accepted.record
    have fresh : seen.any (fun other => other.decisionId = proof.decisionId) = false := by
      simpa using accepted.fresh
    have sequence := accepted.sequence
    push_cast at sequence
    simp [checkProof, accepted.project, sequence, accepted.previous, hashed, fresh, bind,
      Except.bind, pure, Except.pure]

theorem verifyChain_eq_none_iff (project : Uuid) (rest : List DecisionIntegrityProof) :
    ∀ seen, verifyChain platform project seen (seen.getLast?.map (·.recordHash)) rest = .ok none ↔
      EachAfter (ProofAccepted platform project) seen rest := by
  induction rest with
  | nil =>
    intro seen
    exact ⟨fun _ => .nil, fun _ => rfl⟩
  | cons proof rest ih =>
    intro seen
    rw [EachAfter.cons_iff, ← ih, ← checkProof_eq_ok_iff, List.getLast?_concat, verifyChain]
    cases checkProof platform project (seen.length + 1) (seen.getLast?.map (·.recordHash)) seen
        proof with
    | error exc => simp [bind, Except.bind]
    | ok failure => cases failure <;> simp [bind, Except.bind, pure, Except.pure]

/-! ## The records -/

theorem checkRecord_eq_ok_iff (project : Uuid) (chain : List DecisionIntegrityProof)
    (selected : List VerifiableDecisionRecord) (record : VerifiableDecisionRecord) :
    checkRecord platform project chain (selected.map (·.decision.decisionId)) record = .ok none ↔
      RecordAccepted platform project chain selected record := by
  constructor
  · intro checked
    unfold checkRecord at checked
    simp only [bind, Except.bind, pure, Except.pure] at checked
    split at checked
    · cases checked
    next projectOk =>
    cases found : chain.find? fun other => other.decisionId = record.decision.decisionId with
    | none => simp [found] at checked
    | some proof =>
      simp only [found] at checked
      split at checked
      · cases checked
      next proofOk =>
      cases hashed : calculateAuthorizationPayloadHash platform record.decision with
      | error exc => simp [hashed] at checked
      | ok calculated =>
        simp only [hashed] at checked
        split at checked
        · cases checked
        next payloadOk =>
        simp only [not_or, ne_eq, Decidable.not_not, Bool.not_eq_false] at projectOk proofOk payloadOk
        refine ⟨projectOk.1, projectOk.2, ⟨proof, found, proofOk.2.1⟩, proofOk.1, ?_, ?_⟩
        · intro other member same
          exact proofOk.2.2 (List.mem_map.mpr ⟨other, member, same⟩)
        · rw [payloadOk]
          exact hashed
  · intro accepted
    obtain ⟨proof, found, equal⟩ := accepted.proved
    have hashed : calculateAuthorizationPayloadHash platform record.decision =
        .ok record.integrity.payloadHash.val := accepted.payload
    have fresh : record.decision.decisionId ∉ selected.map (·.decision.decisionId) := by
      intro member
      obtain ⟨other, inside, same⟩ := List.mem_map.mp member
      exact accepted.fresh other inside same
    unfold checkRecord
    simp [accepted.decisionProject, accepted.proofProject, found, equal, accepted.decisionId, fresh,
      hashed, bind, Except.bind, pure, Except.pure]

theorem verifyRecords_eq_none_iff (project : Uuid) (chain : List DecisionIntegrityProof)
    (rest : List VerifiableDecisionRecord) :
    ∀ seen : List VerifiableDecisionRecord,
      verifyRecords platform project chain (seen.map (·.decision.decisionId)) rest = .ok none ↔
        EachAfter (RecordAccepted platform project chain) seen rest := by
  induction rest with
  | nil =>
    intro seen
    exact ⟨fun _ => .nil, fun _ => rfl⟩
  | cons record rest ih =>
    intro seen
    rw [EachAfter.cons_iff, ← ih, ← checkRecord_eq_ok_iff, List.map_append, verifyRecords]
    cases checkRecord platform project chain (seen.map (·.decision.decisionId)) record with
    | error exc => simp [bind, Except.bind]
    | ok failure => cases failure <;> simp [bind, Except.bind, pure, Except.pure]

/-! ## The verifier -/

theorem missingCheckpoint_eq_none_iff (chain : List DecisionIntegrityProof)
    (checkpoints : List (Option Str)) :
    missingCheckpoint chain checkpoints = none ↔ ∀ checkpoint ∈ checkpoints, ∀ hash ∈ checkpoint,
      ∃ proof ∈ chain, proof.recordHash.val = hash := by
  rw [missingCheckpoint, List.find?_eq_none]
  simp only [List.mem_filterMap, id, Bool.not_eq_true', Bool.not_eq_false, List.any_eq_true,
    decide_eq_true_eq]
  constructor
  · intro none checkpoint member hash held
    exact none hash ⟨checkpoint, member, held⟩
  · rintro all hash ⟨checkpoint, member, held⟩
    exact all checkpoint member hash held

/-- The report on an accepted bundle. -/
def verifiedBundleReport (bundle : EvidenceBundle) (now : Datetime) : EvidenceBundleVerification :=
  ⟨true, bundle.manifest.projectId, bundle.records.length, bundle.chain.length,
    bundle.chain.getLast?.map (·.recordHash), now, none⟩

theorem verifyEvidenceBundle_verified_iff (bundle : EvidenceBundle) (expectedHeadHash : Option Str)
    (now : Datetime) (report : EvidenceBundleVerification) :
    (verifyEvidenceBundle platform bundle expectedHeadHash now = .ok report ∧
      report.verified = true) ↔
      BundleVerifies platform bundle expectedHeadHash ∧ report = verifiedBundleReport bundle now := by
  have chain := @verifyChain_eq_none_iff platform bundle.manifest.projectId bundle.chain []
  have records := @verifyRecords_eq_none_iff platform bundle.manifest.projectId
    bundle.chain bundle.records []
  have checkpoints := missingCheckpoint_eq_none_iff bundle.chain
    [bundle.manifest.expectedHeadHash.map (·.val), expectedHeadHash]
  rw [List.getLast?_nil, Option.map_none] at chain
  rw [List.map_nil] at records
  have dumps := mapM_eq_map_iff VerifiableDecisionRecord.dump_eq_ok bundle.records
  constructor
  · rintro ⟨verified, positive⟩
    unfold verifyEvidenceBundle at verified
    rw [bind_eq_ok] at verified
    obtain ⟨_, dumped, verified⟩ := verified
    obtain ⟨dumpable, rfl⟩ := (dumps _).mp dumped
    simp only [bind, Except.bind, pure, Except.pure] at verified
    split at verified
    · cases verified
      cases positive
    split at verified
    · cases verified
      cases positive
    next recordCount chainCount =>
    cases recordsDigest : digest platform (.arr (bundle.records.map (·.dumped))) with
    | error exc => simp [recordsDigest] at verified
    | ok recordsHash =>
    cases chainDigest : digest platform (.arr (bundle.chain.map (·.dump))) with
    | error exc =>
      simp only [recordsDigest, chainDigest] at verified
      split at verified
      · cases verified
        cases positive
      · cases verified
    | ok chainHash =>
    simp only [recordsDigest, chainDigest] at verified
    split at verified
    · cases verified
      cases positive
    split at verified
    · cases verified
      cases positive
    next recordsOk chainOk =>
    cases bundleDigest : digest platform (logicalBundlePayload
        bundle.manifest.dumpWithoutBundleDigest (bundle.records.map (·.dumped))
        (bundle.chain.map (·.dump))) with
    | error exc => simp [bundleDigest] at verified
    | ok bundleHash =>
    simp only [bundleDigest] at verified
    split at verified
    · cases verified
      cases positive
    next bundleOk =>
    cases walked : verifyChain platform bundle.manifest.projectId [] none bundle.chain with
    | error exc => simp [walked] at verified
    | ok chainFailure =>
    cases chainFailure with
    | some failure =>
      simp only [walked] at verified
      cases verified
      cases positive
    | none =>
    simp only [walked] at verified
    split at verified
    · cases verified
      cases positive
    next headOk =>
    cases missing : missingCheckpoint bundle.chain
        [bundle.manifest.expectedHeadHash.map (·.val), expectedHeadHash] with
    | some checkpoint =>
      simp only [missing] at verified
      cases verified
      cases positive
    | none =>
    cases selected : verifyRecords platform bundle.manifest.projectId bundle.chain []
        bundle.records with
    | error exc =>
      simp only [missing, selected] at verified
      cases verified
    | ok recordFailure =>
    cases recordFailure with
    | some failure =>
      simp only [missing, selected] at verified
      cases verified
      cases positive
    | none =>
    simp only [missing, selected] at verified
    cases verified
    simp only [ne_eq, Decidable.not_not] at *
    exact ⟨⟨dumpable, recordCount, chainCount, recordsOk ▸ recordsDigest, chainOk ▸ chainDigest,
      bundleOk ▸ bundleDigest, chain.mp walked, headOk, checkpoints.mp missing,
      records.mp selected⟩, rfl⟩
  · rintro ⟨verifies, rfl⟩
    refine ⟨?_, rfl⟩
    have walked := chain.mpr verifies.chain
    have selected := records.mpr verifies.records
    have missing := checkpoints.mpr verifies.checkpoints
    have dumped := (dumps _).mpr ⟨verifies.dumpable, rfl⟩
    unfold verifyEvidenceBundle
    simp only [dumped, verifies.recordCount, verifies.chainCount, verifies.recordsDigest,
      verifies.chainDigest, verifies.bundleDigest, walked, verifies.head, missing, selected, bind,
      Except.bind, pure, Except.pure, ne_eq, not_true_eq_false, if_false]
    rfl

end DecAustrum
