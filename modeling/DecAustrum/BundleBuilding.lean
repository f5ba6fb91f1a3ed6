import DecAustrum.BundleVerification
import DecAustrum.Digestible
import DecAustrum.StoredProofs

/-!
# Built bundles

What `build_evidence_bundle` puts into a bundle, and when it builds one.
-/
namespace DecAustrum

open Python Traversal

section

variable (platform : Platform)

/-- A bundle with the counts, the heads and the digests of what it holds. -/
structure BundleBuilt (snapshot : EvidenceExportSnapshot) (expectedHeadHash : Option Str)
    (records : List VerifiableDecisionRecord) (chain : List DecisionIntegrityProof)
    (bundle : EvidenceBundle) : Prop where
  dumpable : ∀ r ∈ records, r.decision.Dumpable
  recordCount : records.length = snapshot.recordCount
  chainCount : chain.length = snapshot.chainRecordCount
  head : chain.getLast?.map (·.recordHash) = snapshot.chainHeadHash
  recordsKept : bundle.records = records
  chainKept : bundle.chain = chain
  project : bundle.manifest.projectId = snapshot.projectId
  manifestRecords : bundle.manifest.recordCount = snapshot.recordCount
  manifestChain : bundle.manifest.chainRecordCount = snapshot.chainRecordCount
  manifestHead : bundle.manifest.chainHeadHash = snapshot.chainHeadHash
  expected : bundle.manifest.expectedHeadHash.map (·.val) = expectedHeadHash
  recordsDigest : digest platform (.arr (records.map (·.dumped))) =
    .ok bundle.manifest.recordsSha256.val
  chainDigest : digest platform (.arr (chain.map (·.dump))) = .ok bundle.manifest.chainSha256.val
  bundleDigest : digest platform (logicalBundlePayload bundle.manifest.dumpWithoutBundleDigest
    (records.map (·.dumped)) (chain.map (·.dump))) = .ok bundle.manifest.bundleSha256.val

end

variable {platform : Platform} {snapshot : EvidenceExportSnapshot} {criteria : DecisionSearchFilters}
  {records : List VerifiableDecisionRecord} {chain : List DecisionIntegrityProof}
  {expectedHeadHash : Option Str} {generatedAt : Datetime} {exportId : Uuid}

theorem validateOptional_iff (text : Option Str) (hash : Option Sha256Digest) :
    Sha256Digest.validateOptional text = some hash ↔ hash.map (·.val) = text := by
  cases text with
  | none => cases hash <;> simp [Sha256Digest.validateOptional]
  | some s =>
    cases hash with
    | none => simp [Sha256Digest.validateOptional]
    | some d =>
      simp only [Sha256Digest.validateOptional, Option.map_eq_some_iff, Option.some.injEq,
        exists_eq_right, Sha256Digest.validate_eq_some, Option.map_some]
      exact eq_comm

theorem buildEvidenceBundle_spec {bundle : EvidenceBundle}
    (built : buildEvidenceBundle platform snapshot criteria records chain expectedHeadHash generatedAt
      exportId = .ok bundle) :
    BundleBuilt platform snapshot expectedHeadHash records chain bundle := by
  unfold buildEvidenceBundle at built
  simp only [bind, Except.bind, pure, Except.pure, throw, throwThe, MonadExceptOf.throw] at built
  split at built
  · cases built
  split at built
  · cases built
  split at built
  · cases built
  next recordCount chainCount head =>
  simp only [ne_eq, Decidable.not_not] at recordCount chainCount head
  split at built
  · cases built
  next dumps dumped =>
  obtain ⟨dumpable, rfl⟩ := (mapM_eq_map_iff VerifiableDecisionRecord.dump_eq_ok _ _).mp dumped
  split at built
  · cases built
  next recordsDigest recordsHashed =>
  split at built
  · cases built
  next chainDigest chainHashed =>
  split at built
  · cases built
  next generated _ =>
  split at built
  · cases built
  next expected expectedRead =>
  split at built
  · cases built
  next recordsSha256 recordsRead =>
  split at built
  · cases built
  next chainSha256 chainRead =>
  split at built
  · cases built
  next bundleDigest bundleHashed =>
  split at built
  · cases built
  next bundleSha256 bundleRead =>
  cases built
  rw [orRaise_eq_ok] at expectedRead recordsRead chainRead bundleRead
  rw [Sha256Digest.validate_eq_some] at recordsRead chainRead bundleRead
  exact
    { dumpable := dumpable
      recordCount := recordCount
      chainCount := chainCount
      head := head
      recordsKept := rfl
      chainKept := rfl
      project := rfl
      manifestRecords := rfl
      manifestChain := rfl
      manifestHead := rfl
      expected := (validateOptional_iff _ _).mp expectedRead
      recordsDigest := by rw [recordsHashed, recordsRead]
      chainDigest := by rw [chainHashed, chainRead]
      bundleDigest := by rw [← bundleRead]; exact bundleHashed }

/-- A snapshot that fits its records and chain becomes a bundle. -/
theorem buildEvidenceBundle_total (lawful : platform.Lawful) (hex : platform.HexDigests)
    (snapshot : EvidenceExportSnapshot) (criteria : DecisionSearchFilters)
    (records : List VerifiableDecisionRecord) (chain : List DecisionIntegrityProof)
    (generatedAt : UtcDatetime) (expected : Option Sha256Digest) (exportId : Uuid)
    (recordCount : records.length = snapshot.recordCount)
    (chainCount : chain.length = snapshot.chainRecordCount)
    (head : chain.getLast?.map (·.recordHash) = snapshot.chainHeadHash)
    (recordsDigestible : ∀ r ∈ records, Digests r.dump)
    (chainDigestible : ∀ p ∈ chain, Digestible p.dump) (criteriaDigestible : Digestible criteria.dump)
    (recordsPrintable : Digestible (.int snapshot.recordCount))
    (chainPrintable : Digestible (.int snapshot.chainRecordCount)) :
    ∃ bundle, buildEvidenceBundle platform snapshot criteria records chain
      (expected.map (·.val)) generatedAt.val exportId = .ok bundle := by
  have dumped : records.mapM (·.dump) = .ok (records.map (·.dumped)) :=
    (mapM_eq_map_iff VerifiableDecisionRecord.dump_eq_ok _ _).mpr
      ⟨fun r member => (r.digests_iff.mp (recordsDigestible r member)).1, rfl⟩
  have recordsValue : Digestible (.arr (records.map (·.dumped))) := .arr fun v member => by
    obtain ⟨r, inside, rfl⟩ := List.mem_map.mp member
    exact (r.digests_iff.mp (recordsDigestible r inside)).2
  have chainValue : Digestible (.arr (chain.map (·.dump))) := .arr fun v member => by
    obtain ⟨p, inside, rfl⟩ := List.mem_map.mp member
    exact chainDigestible p inside
  obtain ⟨recordsSha256, recordsHashed⟩ := recordsValue.digest lawful hex
  obtain ⟨chainSha256, chainHashed⟩ := chainValue.digest lawful hex
  let manifest (bundleSha256 : Sha256Digest) : EvidenceBundleManifest :=
    ⟨exportId, generatedAt, snapshot.capturedAt, snapshot.projectId, criteria, snapshot.recordCount,
      snapshot.chainRecordCount, snapshot.chainHeadHash, expected, recordsSha256, chainSha256,
      bundleSha256⟩
  have bundleValue : Digestible (logicalBundlePayload (manifest recordsSha256).dumpWithoutBundleDigest
      (records.map (·.dumped)) (chain.map (·.dump))) := by
    refine .record (by simp only [List.all_cons, List.all_nil]; decide) ?_
    simp only [List.map_cons, List.map_nil, List.mem_cons, List.not_mem_nil, or_false,
      forall_eq_or_imp, forall_eq]
    exact ⟨EvidenceBundleManifest.dump_digestible _ criteriaDigestible recordsPrintable
      chainPrintable, recordsValue, chainValue⟩
  obtain ⟨bundleSha256, bundleHashed⟩ := bundleValue.digest lawful hex
  refine ⟨⟨manifest bundleSha256, records, chain⟩, ?_⟩
  -- the digest is left out of what it is taken of, so the zeros in its place do not matter
  have withoutDigest (zeros : Sha256Digest) : digest platform (logicalBundlePayload
      (EvidenceBundleManifest.mk exportId generatedAt snapshot.capturedAt snapshot.projectId criteria
        snapshot.recordCount snapshot.chainRecordCount snapshot.chainHeadHash expected recordsSha256
        chainSha256 zeros).dumpWithoutBundleDigest (records.map (·.dumped)) (chain.map (·.dump))) =
      .ok bundleSha256.val := bundleHashed
  have utc : UtcDatetime.of generatedAt.val = .ok generatedAt := UtcDatetime.of_val generatedAt
  have expectedRead := (validateOptional_iff _ expected).mpr rfl
  unfold buildEvidenceBundle
  simp only [bind, Except.bind, pure, Except.pure, recordCount, chainCount, head, ne_eq,
    not_true_eq_false, if_false, dumped, recordsHashed, chainHashed, utc, expectedRead,
    Sha256Digest.validate_val, orRaise]
  rw [withoutDigest]
  simp only [Sha256Digest.validate_val]
  rfl

end DecAustrum
