import DecAustrum.PlainLedgers

/-!
# Exports of stored ledgers

The live verifier truncates a sequence number and the export does not, so a ledger the first
accepts can be exported only if its sequence numbers are integers. It is then plain, and the
verifiers agree on it as on the rows it is read as.
-/
namespace DecAustrum

open Python Sqlite

variable {platform : Platform}

/-! ## Accepted walks -/

theorem Passed.reaches {count : Nat} {last : Option Str} {rows : List StoredRow}
    (passed : Passed platform count last rows) (row : StoredRow) (member : row ∈ rows) :
    ∃ checked a, Reaches platform rows count last checked row ∧
      RowPasses platform (count + checked.length + 1) (walkedHash last checked) row a := by
  induction passed with
  | nil => cases member
  | @cons count last rest first a passes continues ih =>
    rcases List.mem_cons.mp member with rfl | later
    · exact ⟨[], a, reaches_cons_iff.mpr (.inl ⟨rfl, rfl⟩), passes⟩
    · obtain ⟨checked, b, reached, found⟩ := ih later
      refine ⟨first :: checked, b, reaches_cons_iff.mpr (.inr ⟨a, checked, rfl, passes, reached⟩), ?_⟩
      rw [List.length_cons, show count + (checked.length + 1) + 1 = count + 1 + checked.length + 1 by
        omega]
      exact found

/-- A ledger that the live verifier accepts, with the sequence number it walks to. -/
structure Accepts (platform : Platform) (ledger : StoredLedger) (project : Uuid) (n : Int) :
    Prop where
  matched : Matched ledger project
  readable : LedgerReadable platform ledger project n
  passed : Passed platform 0 none (ledger.verificationRows project n)

theorem accepts_of_verified (lawful : platform.Lawful) (hex : platform.HexDigests)
    {ledger : StoredLedger} {project : Uuid} {expectedHead : Option Str} {now : Datetime}
    {report : DecisionIntegrityVerification}
    (returned : ledger.verify platform project expectedHead now = .ok report)
    (verified : report.verified = true) : ∃ n, Accepts platform ledger project n := by
  obtain ⟨-, exc, raised⟩ | ⟨n, readable, report', returned', reports⟩ :=
    verify_outcome lawful hex ledger project expectedHead now
  · rw [raised] at returned
    cases returned
  · obtain rfl : report' = report := Except.ok.inj (returned'.symm.trans returned)
    cases reports with
    | verified headHash matched passed _ _ => exact ⟨n, matched, readable, passed⟩
    | unmatched _ _ _ _ => cases verified
    | record _ _ _ _ _ _ _ _ => cases verified
    | head _ _ _ _ _ _ _ _ => cases verified

namespace Accepts

variable {ledger : StoredLedger} {project : Uuid} {n : Int}
  (accepts : Accepts platform ledger project n)

include accepts

theorem fits : fitsInteger n = true := accepts.readable.bound accepts.matched

theorem joined : (∀ d ∈ ledger.projectDecisions project,
      ∃ i ∈ ledger.projectIntegrity project, StoredLedger.matchRow d i = true) ∧
    ∀ i ∈ ledger.projectIntegrity project,
      ∃ d ∈ ledger.projectDecisions project, StoredLedger.matchRow d i = true := by
  have unmatched := accepts.matched.unmatched
  rw [StoredLedger.unmatchedRows, List.append_eq_nil_iff, List.map_eq_nil_iff, List.map_eq_nil_iff,
    List.filter_eq_nil_iff, List.filter_eq_nil_iff] at unmatched
  constructor
  · intro d member
    have present := unmatched.1 d member
    rw [Bool.not_eq_true', Bool.not_eq_false, List.any_eq_true] at present
    obtain ⟨i, stored, matched⟩ := present
    exact ⟨i, StoredLedger.mem_projectIntegrity member (List.mem_filter.mpr ⟨stored, matched⟩), matched⟩
  · intro i member
    have present := unmatched.2 i member
    rw [Bool.not_eq_true', Bool.not_eq_false, List.any_eq_true] at present
    obtain ⟨d, stored, matched⟩ := present
    exact ⟨d, StoredLedger.mem_projectDecisions member (List.mem_filter.mpr ⟨stored, matched⟩), matched⟩

omit accepts in
theorem mem_rows {d : StoredDecision} {i : StoredRecord} (decision : d ∈ ledger.projectDecisions project)
    (record : i ∈ ledger.projectIntegrity project) (matched : StoredLedger.matchRow d i = true)
    (below : i.sequenceNumber.atMost n = true) : (d, i) ∈ ledger.verificationRows project n := by
  simp only [StoredLedger.verificationRows, List.mem_insertionSort, List.mem_flatMap, List.mem_filter,
    List.mem_map]
  exact ⟨i, ⟨record, below⟩, d, ⟨List.mem_of_mem_filter decision, matched⟩, rfl⟩

/-- A row of the walk is fetched, its number is a position, and it is rebuilt. -/
theorem row (row : StoredRow) (member : row ∈ ledger.verificationRows project n) :
    (row.1.decodable && row.2.decodable) = true ∧
      (∃ k : Nat, 1 ≤ k ∧ row.2.sequenceNumber.toInt = .ok (k : Int)) ∧
      ∃ a, row.1.authorization platform = .ok a := by
  obtain ⟨checked, a, reached, passes⟩ := accepts.passed.reaches row member
  have readable := accepts.readable.walk accepts.matched checked row reached
  exact ⟨readable.decodable, ⟨_, by omega, passes.rebuilt.sequence⟩, a, passes.rebuilt.rebuilt⟩

theorem exists_largest : ledger.projectIntegrity project = [] ∨
    ∃ head ∈ ledger.projectIntegrity project, head.sequenceNumber.toInt = .ok n ∧
      ∀ i ∈ ledger.projectIntegrity project, i.sequenceNumber ≤ head.sequenceNumber := by
  have maximum := accepts.readable.maximum
  unfold StoredLedger.maxSequenceNumber at maximum
  split at maximum
  next none =>
    left
    simpa using none
  next value largest =>
    rw [List.max?_eq_some_iff] at largest
    obtain ⟨head, member, rfl⟩ := List.mem_map.mp largest.1
    exact .inr ⟨head, member, maximum, fun i inside => largest.2 _ (List.mem_map_of_mem inside)⟩

/-- A project whose sequence numbers are integers is plain. -/
theorem plain (integers : ∀ i ∈ ledger.projectIntegrity project,
    i.sequenceNumber.asInteger.isSome = true) : ledger.Plain platform project := by
  have below (i : StoredRecord) (member : i ∈ ledger.projectIntegrity project) :
      i.sequenceNumber.atMost n = true := by
    obtain none | ⟨head, inside, number, largest⟩ := accepts.exists_largest
    · rw [none] at member
      cases member
    · obtain ⟨m, isInteger⟩ := Option.isSome_iff_exists.mp (integers head inside)
      obtain ⟨fits, same⟩ := Value.asInteger_eq_some_iff.mp isInteger
      rw [same] at number
      obtain rfl : m = n := Except.ok.inj number
      exact Value.atMost_iff_le.mpr (same ▸ largest i member)
  constructor
  · intro d member
    obtain ⟨i, inside, matched⟩ := accepts.joined.1 d member
    obtain ⟨decodable, -, a, rebuilt⟩ := accepts.row (d, i) (mem_rows member inside matched (below i inside))
    exact d.isPlain_of_authorization ((Bool.and_eq_true ..).mp decodable).1 rebuilt
  · intro i member
    obtain ⟨d, inside, matched⟩ := accepts.joined.2 i member
    obtain ⟨decodable, -⟩ := accepts.row (d, i) (mem_rows inside member matched (below i member))
    rw [StoredRecord.isPlain, ((Bool.and_eq_true ..).mp decodable).2, integers i member]
    rfl

end Accepts

/-! ## Accepted exports -/

/-- A value that a model reads, and `int` reads below a 64-bit integer, is an integer. -/
theorem asInteger_of_read {value : Value} {bound : Int} {k : Nat}
    (reads : (value.read platform).isSome = true) (below : value.atMost bound = true)
    (fits : fitsInteger bound = true) (number : value.toInt = .ok (k : Int)) :
    value.asInteger.isSome = true := by
  have small := fitsInteger_of_toInt below fits number
  cases value with
  | integer m _ => rfl
  | real x kept =>
    have whole : x.val.den = 1 := by
      by_contra fraction
      simp [Value.read, fraction] at reads
    have size : x.val = x.val.num := (Rat.den_eq_one_iff x.val).mp whole |>.symm
    have truncated : x.toInt = k := Except.ok.inj number
    have exact : x.toInt = x.val.num := by
      unfold Double.toInt
      split
      · rw [size]
        exact Int.floor_intCast _
      · rw [size]
        exact Int.ceil_intCast _
    exact absurd (size.trans (by rw [← exact, truncated])) (kept k small)
  | infinity _ => cases number
  | text bytes => simp at below
  | blob bytes => simp at below

namespace StoredLedger

variable {ledger : StoredLedger} {project : Uuid}

theorem captureRecords_spec {sort : DecisionSortOrder} {maximumRecords maximumBytes : Nat}
    {capturedAt : UtcDatetime} {captured : EvidenceExportSnapshot × List VerifiableDecisionRecord}
    (done : ledger.captureRecords platform project sort maximumRecords maximumBytes capturedAt =
      .ok captured) :
    ∃ last count, ledger.lastSequence project = .ok last ∧
      ledger.snapshot project last count capturedAt = some captured.1 := by
  simp only [captureRecords, bind_eq_ok, orRaise_eq_ok] at done
  obtain ⟨last, read, -, -, snapshot, made, done⟩ := done
  have kept : captured.1 = snapshot := by
    split at done
    · cases done
      rfl
    · obtain ⟨records, -, done⟩ := (bind_eq_ok _ _ _).mp done
      cases done
      rfl
  exact ⟨last, _, read, kept ▸ made⟩

theorem storedRowToProof_reads {i : StoredRecord} {p : DecisionIntegrityProof}
    (read : storedRowToProof platform i = .ok p) :
    (i.sequenceNumber.read platform).isSome = true ∧ i.recordHash = p.recordHash.val := by
  simp only [storedRowToProof, StoredRecord.proof, bind_eq_ok, orRaise_eq_ok] at read
  obtain ⟨-, -, n, number, proof⟩ := read
  exact ⟨by simp [number], ((rowToProof_eq_ok_iff _ _).mp proof).record⟩

instance : Std.Total recordLe := ⟨fun a b => le_total a.sequenceNumber b.sequenceNumber⟩

instance : IsTrans StoredRecord recordLe := ⟨fun _ _ _ => le_trans⟩

theorem le_getLast_chain {head : StoredRecord} (isLast : (ledger.chain project).getLast? = some head) :
    ∀ i ∈ ledger.chain project, i.sequenceNumber ≤ head.sequenceNumber := by
  have sorted : (ledger.chain project).Pairwise recordLe := List.pairwise_insertionSort _ _
  obtain ⟨front, split⟩ := List.getLast?_eq_some_iff.mp isLast
  rw [split, List.pairwise_append] at sorted
  intro i member
  rw [split, List.mem_append, List.mem_singleton] at member
  rcases member with earlier | rfl
  · exact sorted.2.2 i earlier head (List.mem_singleton_self _)
  · exact le_rfl

/-- An export ends in the last record of the project, whose number is at most what it is truncated
to, and reads every record up to it. -/
theorem exportBundle_head (keys : ledger.Keys) {request : ExportRequest} {bundle : EvidenceBundle}
    (exported : ledger.exportBundle platform project request = .ok bundle) {head : StoredRecord}
    (isLast : (ledger.chain project).getLast? = some head) :
    ∃ m, head.sequenceNumber.toInt = .ok m ∧ head.sequenceNumber.atMost m = true ∧
      ∀ i ∈ ledger.chain project, i.sequenceNumber.atMost m = true →
        (i.sequenceNumber.read platform).isSome = true := by
  simp only [exportBundle, bind_eq_ok] at exported
  obtain ⟨captured, capturedOk, chain, listed, built⟩ := exported
  obtain ⟨m, count, last, made⟩ := captureRecords_spec capturedOk
  have fields := buildEvidenceBundle_spec built
  rw [lastSequence, isLast] at last
  obtain ⟨-, -, number⟩ := (bind_eq_ok _ _ _).mp last
  -- the snapshot is taken at the last record
  rw [snapshot, isLast] at made
  simp only [Option.bind_eq_bind, Option.bind_eq_some_iff] at made
  obtain ⟨headHash, validated, made⟩ := made
  split at made
  next nonnegative =>
    have snapshotEq := Option.some.inj made
    have bound : (captured.1.maxSequenceNumber : Int) = m := by
      rw [← snapshotEq]
      exact Int.toNat_of_nonneg nonnegative
    have headEq : captured.1.chainHeadHash = some headHash := by rw [← snapshotEq]
    simp only [listChain, bind_eq_ok] at listed
    obtain ⟨-, -, listed⟩ := listed
    rw [bound] at listed
    have read := readWithin_spec _ _ _ _ _ _ listed
    refine ⟨m, number, ?_, ?_⟩
    · have tail := fields.head
      rw [headEq, Option.map_eq_some_iff] at tail
      obtain ⟨p, lastProof, sameHash⟩ := tail
      obtain ⟨i, inside, proof⟩ := forall₂_right read (List.mem_of_getLast? lastProof)
      obtain ⟨member, below⟩ := List.mem_filter.mp inside
      have stored (j : StoredRecord) (found : j ∈ ledger.chain project) : j ∈ ledger.integrity :=
        List.mem_of_mem_filter ((List.mem_insertionSort _).mp found)
      have hash : i.recordHash = head.recordHash := by
        rw [(storedRowToProof_reads proof).2, sameHash]
        exact ((Sha256Digest.validate_eq_some _ _).mp validated).symm
      obtain rfl := List.inj_on_of_nodup_map keys.recordHash (stored i member)
        (stored head (List.mem_of_getLast? isLast)) hash
      exact below
    · intro i member below
      obtain ⟨p, -, proof⟩ := forall₂_left read (List.mem_filter.mpr ⟨member, below⟩)
      exact (storedRowToProof_reads proof).1
  next => cases made

/-- An accepted ledger that is exported has integers for sequence numbers. -/
theorem integers_of_exported (keys : ledger.Keys) {n : Int} (accepts : Accepts platform ledger project n)
    {request : ExportRequest} {bundle : EvidenceBundle}
    (exported : ledger.exportBundle platform project request = .ok bundle) :
    ∀ i ∈ ledger.projectIntegrity project, i.sequenceNumber.asInteger.isSome = true := by
  intro i member
  have inChain : i ∈ ledger.chain project := (List.mem_insertionSort _).mpr member
  obtain ⟨head, isLast⟩ : ∃ head, (ledger.chain project).getLast? = some head :=
    ⟨_, List.getLast?_eq_some_getLast (List.ne_nil_of_mem inChain)⟩
  obtain ⟨m, number, headBelow, reads⟩ := exportBundle_head keys exported isLast
  have inside : head ∈ ledger.projectIntegrity project :=
    (List.mem_insertionSort _).mp (List.mem_of_getLast? isLast)
  obtain none | ⟨largest, stored, largestNumber, above⟩ := accepts.exists_largest
  · rw [none] at member
    cases member
  -- the last record of the chain holds the largest number
  have same : largest.sequenceNumber = head.sequenceNumber :=
    le_antisymm (le_getLast_chain isLast largest ((List.mem_insertionSort _).mpr stored))
      (above head inside)
  obtain rfl : n = m := by
    rw [same, number] at largestNumber
    exact (Except.ok.inj largestNumber).symm
  have below := Value.atMost_of_le (le_getLast_chain isLast i inChain) headBelow
  obtain ⟨d, decision, matched⟩ := accepts.joined.2 i member
  obtain ⟨-, ⟨k, positive, truncated⟩, -⟩ :=
    accepts.row (d, i) (Accepts.mem_rows decision member matched below)
  exact asInteger_of_read (reads i inChain below) below accepts.fits truncated

end StoredLedger

/-! ## The agreement -/

/-- The sequence numbers are integers, each record's time is read as the datetime of its decision,
and no two records name one decision in different spellings. -/
structure Exportable (platform : Platform) (ledger : StoredLedger) (project : Uuid) : Prop where
  integers : ∀ i ∈ ledger.projectIntegrity project, i.sequenceNumber.asInteger.isSome = true
  times : ∀ i ∈ ledger.projectIntegrity project, ∀ d ∈ ledger.decisions,
    StoredLedger.matchRow d i = true →
      platform.readDatetime (.str i.createdAt) = platform.readDatetime (.str d.evaluatedAt)
  ids : ∀ i ∈ ledger.projectIntegrity project, ∀ j ∈ ledger.projectIntegrity project,
    platform.readUuid (.str i.decisionId) = platform.readUuid (.str j.decisionId) → i = j

namespace StoredLedger

variable {ledger : StoredLedger} {project : Uuid}

theorem Keys.plain (keys : ledger.Keys) : (ledger.plain platform).Keys := by
  have records (column : StoredRecord → Str) (unique : (ledger.integrity.map column).Nodup) :
      ((ledger.integrity.filter (·.isPlain)).map column).Nodup :=
    unique.sublist (List.filter_sublist.map _)
  refine ⟨?_, ?_, ?_, ?_⟩
  · have decisions := keys.decisionId.sublist
      ((List.filter_sublist (p := (·.isPlain platform))).map _)
    rwa [StoredLedger.plain, List.map_map]
  · rw [StoredLedger.plain, List.map_map]
    exact records _ keys.integrityId
  · rw [StoredLedger.plain, List.map_map]
    refine List.Nodup.map_on (fun i inside j inside' same => ?_) ?_
    · obtain ⟨stored, readable⟩ := List.mem_filter.mp inside
      obtain ⟨stored', readable'⟩ := List.mem_filter.mp inside'
      obtain ⟨m, fits, number, read⟩ := StoredRecord.exists_integer readable
      obtain ⟨n, fits', number', read'⟩ := StoredRecord.exists_integer readable'
      simp only [Function.comp_apply, read, read', Prod.mk.injEq] at same
      refine List.inj_on_of_nodup_map keys.sequence stored stored' ?_
      obtain ⟨owner, rfl⟩ : i.projectId = j.projectId ∧ m = n := same
      rw [number, number', owner]
    · exact (List.Nodup.of_map _ keys.integrityId).filter _
  · rw [StoredLedger.plain, List.map_map]
    exact records _ keys.recordHash

/-- The verifiers agree on a plain project as they do on the rows it is read as. -/
theorem Plain.agreeable_iff (plain : ledger.Plain platform project) (keys : ledger.Keys) :
    Agreeable platform (ledger.plain platform) project ↔ Exportable platform ledger project := by
  constructor
  · rintro ⟨times, ids⟩
    rw [TimesAgree, plain.projectIntegrity_eq] at times
    rw [DistinctIds, plain.projectIntegrity_eq] at ids
    refine ⟨fun i member => ((Bool.and_eq_true ..).mp (plain.records i member)).2, ?_, ?_⟩
    · intro i member d stored matched
      have readable := plain.decisions d
        (mem_projectDecisions member (List.mem_filter.mpr ⟨stored, matched⟩))
      exact times i.plain (List.mem_map_of_mem member) (d.plain platform)
        (List.mem_map_of_mem (List.mem_filter.mpr ⟨stored, readable⟩)) matched
    · intro i member j member' same
      have equal := ids i.plain (List.mem_map_of_mem member) j.plain (List.mem_map_of_mem member') same
      exact List.inj_on_of_nodup_map keys.integrityId (List.mem_of_mem_filter member)
        (List.mem_of_mem_filter member') (congrArg IntegrityRow.decisionId equal)
  · rintro ⟨-, times, ids⟩
    refine ⟨?_, ?_⟩
    · intro i inside d stored matched
      rw [plain.projectIntegrity_eq] at inside
      obtain ⟨j, member, rfl⟩ := List.mem_map.mp inside
      obtain ⟨e, present, rfl⟩ := List.mem_map.mp stored
      exact times j member e (List.mem_of_mem_filter present) matched
    · intro i inside j inside' same
      rw [plain.projectIntegrity_eq] at inside inside'
      obtain ⟨i, member, rfl⟩ := List.mem_map.mp inside
      obtain ⟨j, member', rfl⟩ := List.mem_map.mp inside'
      rw [ids i member j member' same]

end StoredLedger

/-- The offline verifier accepts the export of a ledger the live verifier accepts exactly when
the sequence numbers are integers and the times and the ids of the records agree. -/
theorem export_verifies_iff (lawful : platform.Lawful) (hex : platform.HexDigests)
    (ledger : StoredLedger) (project : Uuid) (keys : ledger.Keys)
    (binding : ∀ i ∈ ledger.integrity, ∀ e f, EnvelopeHashes platform e i.recordHash →
      EnvelopeHashes platform f i.recordHash → e = f)
    (now later : Datetime) (report : DecisionIntegrityVerification)
    (verified : ledger.verify platform project none now = .ok report ∧ report.verified = true)
    (request : ExportRequest)
    (expected : request.expectedHeadHash = none ∨ request.expectedHeadHash = report.headHash)
    (room : (ledger.projectDecisions project).length ≤ request.maximumRecords)
    (fits : ledger.exportBundle platform project request ≠ .error .exportSizeLimitError) :
    (∃ bundle offline, ledger.exportBundle platform project request = .ok bundle ∧
      verifyEvidenceBundle platform bundle (report.headHash.map (·.val)) later = .ok offline ∧
      offline.verified = true) ↔ Exportable platform ledger project := by
  obtain ⟨n, accepts⟩ := accepts_of_verified lawful hex verified.1 verified.2
  have agree (integers : ∀ i ∈ ledger.projectIntegrity project,
      i.sequenceNumber.asInteger.isSome = true) :
      (∃ bundle offline, ledger.exportBundle platform project request = .ok bundle ∧
        verifyEvidenceBundle platform bundle (report.headHash.map (·.val)) later = .ok offline ∧
        offline.verified = true) ↔ Exportable platform ledger project := by
    have plain := accepts.plain integers
    rw [plain.verify_eq] at verified
    rw [plain.exportBundle_eq] at fits ⊢
    rw [← plain.agreeable_iff keys]
    refine plain_export_verifies_iff lawful hex (ledger.plain platform) project keys.plain ?_ now
      later report verified request expected ?_ fits
    · intro i member
      obtain ⟨j, stored, rfl⟩ := List.mem_map.mp member
      exact binding j (List.mem_of_mem_filter stored)
    · rwa [plain.projectDecisions_eq, List.length_map]
  constructor
  · rintro ⟨bundle, offline, exported, passed⟩
    exact (agree (StoredLedger.integers_of_exported keys accepts exported)).mp
      ⟨bundle, offline, exported, passed⟩
  · intro exportable
    exact (agree exportable.integers).mpr exportable

/-! ## Accepted ledgers that cannot be exported

The first decision of the sample ledger with the time of its record respelled two hours east, and
both decisions with the sequence number 2.5 for the second. -/

/-- A row without a policy version, as it is stored. -/
def unversionedRow (d : DecisionRow) : StoredDecision :=
  ⟨d.decisionId, d.projectId, d.evaluatedAt, d.decision, d.policyId, none, d.reason, d.evidenceJson,
    d.traceJson, d.agent, d.action, d.contextJson⟩

/-- A record as it is stored under a sequence number. -/
def storedRecord (i : IntegrityRow) (sequenceNumber : Value) : StoredRecord :=
  ⟨i.decisionId, i.projectId, sequenceNumber, i.previousHash, i.payloadHash, i.recordHash,
    i.algorithm, i.schemaVersion, i.createdAt⟩

def samplePayStored : StoredRecord := storedRecord samplePayIntegrity (.integer 1 fits_one)

def sampleStoredLedger : StoredLedger := ⟨[unversionedRow samplePayRow], [samplePayStored]⟩

theorem isDouble_fraction : IsDouble (5 / 2) :=
  ⟨5, -1, by norm_num, by norm_num, by norm_num, by norm_num⟩

theorem fraction_kept (n : Int) (_ : fitsInteger n = true) : (5 / 2 : ℚ) ≠ n := by
  intro same
  have doubled : (5 : ℚ) = (2 * n : Int) := by
    push_cast
    linarith
  have whole : (5 : Int) = 2 * n := by exact_mod_cast doubled
  omega

def fractionalLedger : StoredLedger :=
  ⟨[unversionedRow samplePayRow, unversionedRow sampleRefundRow],
    [samplePayStored,
      storedRecord sampleRefundIntegrity (.real ⟨5 / 2, isDouble_fraction⟩ fraction_kept)]⟩

def respelledTime : Datetime := ⟨2025, 1, 2, 5, 4, 5, 0, some 120, sampleDate_valid, by simp, by simp⟩

def respelledLedger : StoredLedger :=
  ⟨[unversionedRow samplePayRow], [{ samplePayStored with createdAt := respelledTime.isoformat }]⟩

def respelledProof : DecisionIntegrityProof := { sampleProof with createdAt := respelledTime }

def respelledRecord : VerifiableDecisionRecord := ⟨samplePay, respelledProof⟩

def respelledManifest : EvidenceBundleManifest :=
  { sampleManifest with
    recordsSha256 := ⟨"ae85e2d30ab5be67e2ece7f5432fd47c0ac2bcf2afbdc314c59512f4def8f3b9", by decide +kernel⟩
    chainSha256 := ⟨"4ad9ed184be82d11b149382f04916729ef9e54395bc92a7ab4a860a17f7fa2e2", by decide +kernel⟩ }

def respelledTable : List (Bytes × Str) :=
  sampleBundleTable ++ [(canonicalBytes (.arr [respelledRecord.dumped]),
      respelledManifest.recordsSha256.val),
    (canonicalBytes (.arr [respelledProof.dump]), respelledManifest.chainSha256.val),
    (canonicalBytes (logicalBundlePayload respelledManifest.dumpWithoutBundleDigest
        [respelledRecord.dumped] [respelledProof.dump]),
      "9c472da96f1918ad1ce002f6ceb35ded3eb1ce8ac7bca6f57b6c5866a826243e"),
    (canonicalBytes respelledProof.fields.envelope,
      "3bc0d3352f7a0233fff00f42291713e9e7d9e3305a91758ff1272020c7b973c9")]

def respelledPlatform : Platform := referencePlatform (hexSha256 respelledTable)

def sampleRequest : ExportRequest :=
  ⟨100, 100000, 100000, none, sampleExportTime, sampleExportTime, ⟨20⟩⟩

/-- An export and the offline report on it. -/
def exportAndVerify (platform : Platform) (ledger : StoredLedger) (head : Option Str) :
    Except PyExc EvidenceBundleVerification := do
  let bundle ← ledger.exportBundle platform sampleProject sampleRequest
  verifyEvidenceBundle platform bundle head sampleExportTime.val

/-- The live verifier accepts both ledgers; the offline verifier rejects the export of the first,
and the second cannot be exported. -/
theorem accepted_ledgers_not_exported :
    (respelledLedger.Keys ∧
      respelledLedger.verify respelledPlatform sampleProject none samplePay.evaluatedAt =
        .ok (sampleReport 1 ⟨samplePayRecord, samplePayRecord_digest⟩) ∧
      ∃ bundle offline,
        respelledLedger.exportBundle respelledPlatform sampleProject sampleRequest = .ok bundle ∧
        verifyEvidenceBundle respelledPlatform bundle (some samplePayRecord) sampleExportTime.val =
          .ok offline ∧ offline.verified = false) ∧
    fractionalLedger.Keys ∧
      fractionalLedger.verify respelledPlatform sampleProject none samplePay.evaluatedAt =
        .ok ⟨sampleProject, true, 2, 1, some ⟨samplePayRecord, samplePayRecord_digest⟩,
          samplePay.evaluatedAt, none⟩ ∧
      fractionalLedger.exportBundle respelledPlatform sampleProject sampleRequest =
        .error .valueError := by
  refine ⟨⟨⟨by decide +kernel, by decide +kernel, by decide +kernel, by decide +kernel⟩,
    by decide +kernel, ?_⟩, ⟨by decide +kernel, by decide +kernel, by decide +kernel,
      by decide +kernel⟩, by decide +kernel, ?_⟩
  · have rejected : (exportAndVerify respelledPlatform respelledLedger
        (some samplePayRecord)).map (·.verified) = .ok false := by decide +kernel
    cases outcome : exportAndVerify respelledPlatform respelledLedger (some samplePayRecord) with
    | error exc =>
      rw [outcome] at rejected
      cases rejected
    | ok offline =>
      rw [outcome] at rejected
      obtain ⟨bundle, exported, checked⟩ := (bind_eq_ok _ _ _).mp outcome
      exact ⟨bundle, offline, exported, checked, Except.ok.inj rejected⟩
  · have raised : (fractionalLedger.exportBundle respelledPlatform sampleProject
        sampleRequest).map (fun _ => ()) = .error .valueError := by decide +kernel
    cases outcome : fractionalLedger.exportBundle respelledPlatform sampleProject sampleRequest with
    | error exc =>
      rw [outcome] at raised
      rw [Except.error.inj raised]
    | ok bundle =>
      rw [outcome] at raised
      cases raised

/-- The unchanged ledger, whose export the offline verifier accepts. -/
theorem export_verifies_iff_sample :
    (∃ bundle offline,
      sampleStoredLedger.exportBundle respelledPlatform sampleProject sampleRequest = .ok bundle ∧
      verifyEvidenceBundle respelledPlatform bundle (some samplePayRecord) sampleExportTime.val =
        .ok offline ∧ offline.verified = true) ↔
      Exportable respelledPlatform sampleStoredLedger sampleProject := by
  have distinct : (respelledTable.map Prod.snd).Nodup := by decide +kernel
  have binding : ∀ i ∈ sampleStoredLedger.integrity, ∀ e f,
      EnvelopeHashes respelledPlatform e i.recordHash →
      EnvelopeHashes respelledPlatform f i.recordHash → e = f := by
    intro i member e f eHashes fHashes
    obtain rfl := List.mem_singleton.mp member
    exact EnvelopeFields.envelope_inj e f (hexPlatform_binding respelledTable distinct
      samplePayRecord (by decide +kernel) _ _ eHashes fHashes)
  have exported : (sampleStoredLedger.exportBundle respelledPlatform sampleProject
      sampleRequest).toOption.isSome = true := by decide +kernel
  have fits : sampleStoredLedger.exportBundle respelledPlatform sampleProject sampleRequest ≠
      .error .exportSizeLimitError := by
    intro stopped
    rw [stopped] at exported
    cases exported
  exact export_verifies_iff (referencePlatform_lawful _)
    (hexPlatform_hex respelledTable (by decide +kernel)) sampleStoredLedger sampleProject
    ⟨by decide +kernel, by decide +kernel, by decide +kernel, by decide +kernel⟩
    binding samplePay.evaluatedAt sampleExportTime.val
    (sampleReport 1 ⟨samplePayRecord, samplePayRecord_digest⟩) ⟨by decide +kernel, rfl⟩ sampleRequest
    (.inl rfl) (by decide +kernel) fits

end DecAustrum
