import DecAustrum.BundleBuilding
import DecAustrum.CapturedRecords
import DecAustrum.LedgerBackfill
import DecAustrum.OfflineSoundness

/-!
# Agreement of the verifiers

The live verifier compares the moment of a record's `created_at` with its decision and
hashes the decision's own time; the offline verifier hashes the time of the proof. A ledger
the first accepts is therefore accepted by the second exactly when the two times are read as
one datetime, offset included, and when no two of its records name one decision.
-/
namespace DecAustrum

open Python HashChain Traversal

/-- What an export of a whole project is asked for. -/
structure ExportRequest where
  maximumRecords : Nat
  maximumBytes : Nat
  maximumChainBytes : Nat
  expectedHeadHash : Option Sha256Digest
  capturedAt : UtcDatetime
  generatedAt : UtcDatetime
  exportId : Uuid

section

variable (platform : Platform) (ledger : Ledger) (project : Uuid)

/-- The bundle of a project built without filters from one state of its ledger. -/
def exportProject (request : ExportRequest) : Except PyExc EvidenceBundle := do
  let captured ← ledger.captureRecords platform project (fun _ => true)
    DecisionSearchFilters.all.sort request.maximumRecords request.maximumBytes request.capturedAt
  let chain ← ledger.listChain platform project captured.1.maxSequenceNumber
    request.maximumChainBytes
  buildEvidenceBundle platform captured.1 .all captured.2 chain
    (request.expectedHeadHash.map (·.val)) request.generatedAt.val request.exportId

/-- Each record's time is read as the datetime of its decision. -/
def TimesAgree : Prop :=
  ∀ i ∈ ledger.projectIntegrity project, ∀ d ∈ ledger.decisions, Ledger.matchRow d i = true →
    platform.readDatetime (.str i.createdAt) = platform.readDatetime (.str d.evaluatedAt)

/-- No two records name one decision in different spellings. -/
def DistinctIds : Prop :=
  ∀ i ∈ ledger.projectIntegrity project, ∀ j ∈ ledger.projectIntegrity project,
    platform.readUuid (.str i.decisionId) = platform.readUuid (.str j.decisionId) → i = j

/-- An intact ledger, with its rows as the live verifier checked them. -/
structure Intact (checked : List CheckedRow) : Prop where
  chain : checked.map CheckedRow.integrity = ledger.chain project
  rows : ∀ r ∈ checked, r.decision ∈ ledger.decisions ∧
    r.integrity ∈ ledger.projectIntegrity project ∧ Ledger.matchRow r.decision r.integrity = true
  each : EachAfter (fun seen r => RowAccepted platform (seen.length + 1) (hashAfter none seen) r) []
    checked

end

variable {platform : Platform} {ledger : Ledger} {project : Uuid}

/-! ## Intact ledgers -/

theorem Accepted.each {count : Nat} {last : Option Str} {rest : List CheckedRow}
    (accepted : Accepted platform count last rest) (seen : List CheckedRow)
    (length : seen.length = count) (hash : hashAfter none seen = last) :
    EachAfter (fun seen r => RowAccepted platform (seen.length + 1) (hashAfter none seen) r) seen
      rest := by
  induction accepted generalizing seen with
  | nil => exact .nil
  | cons r row _ ih =>
    refine (EachAfter.cons_iff r).mpr ⟨?_, ih (seen ++ [r]) (by simp [length]) (hashAfter_snoc ..)⟩
    rw [length, hash]
    exact row

theorem Verifies.intact {head : Option Str} {checked : List CheckedRow} (keys : ledger.Keys)
    (verifies : Verifies platform ledger project head checked) :
    Intact platform ledger project checked := by
  have chain := verificationRows_chain ledger project keys verifies.matched
  rw [← verifies.rows, List.map_map] at chain
  refine ⟨chain, fun r member => ?_, verifies.accepted.each [] rfl rfl⟩
  have inRows : r.row ∈ ledger.verificationRows project (ledger.maxSequenceNumber project) := by
    rw [← verifies.rows]
    exact List.mem_map_of_mem member
  exact mem_verificationRows ledger project _ _ inRows

namespace Intact

variable {checked : List CheckedRow} (intact : Intact platform ledger project checked)

include intact

theorem mem_iff (i : IntegrityRow) :
    i ∈ ledger.projectIntegrity project ↔ ∃ r ∈ checked, r.integrity = i := by
  have sorted : i ∈ ledger.chain project ↔ i ∈ ledger.projectIntegrity project :=
    List.mem_insertionSort _
  rw [← sorted, ← intact.chain, List.mem_map]

theorem accepted (r : CheckedRow) (member : r ∈ checked) :
    ∃ seen : List CheckedRow, r.integrity.sequenceNumber ≤ checked.length ∧
      RowAccepted platform (seen.length + 1) (hashAfter none seen) r := by
  obtain ⟨front, back, split⟩ := List.append_of_mem member
  have row := intact.each front r back split
  refine ⟨front, ?_, row⟩
  rw [row.sequence, split]
  simp only [List.nil_append, List.length_append, List.length_cons]
  omega

theorem lastSequence_eq : ledger.lastSequence project = checked.length := by
  rw [Ledger.lastSequence, ← intact.chain]
  rcases List.eq_nil_or_concat checked with rfl | ⟨front, r, rfl⟩
  · rfl
  · have row := intact.each front r [] (by simp)
    simp only [List.concat_eq_append, List.map_append, List.map_cons, List.map_nil,
      List.getLast?_concat, Option.map_some, Option.getD_some, row.sequence, List.length_append,
      List.length_singleton, List.nil_append]

theorem owned (r : CheckedRow) (member : r ∈ checked) :
    r.integrity.projectId = project.str ∧ r.decision.projectId = project.str ∧
      r.decision.decisionId = r.integrity.decisionId := by
  obtain ⟨-, inside, matched⟩ := intact.rows r member
  have mine := of_decide_eq_true (List.mem_filter.mp inside).2
  simp only [Ledger.matchRow, Bool.and_eq_true, decide_eq_true_eq] at matched
  exact ⟨mine, matched.2.trans mine, matched.1⟩

/-- A stored decision joined to a record is the one the verifier joined to it. -/
theorem joined (keys : ledger.Keys) (r : CheckedRow) (member : r ∈ checked) (d : DecisionRow)
    (stored : d ∈ ledger.decisions) (matched : Ledger.matchRow d r.integrity = true) :
    d = r.decision := by
  obtain ⟨present, -, matched'⟩ := intact.rows r member
  simp only [Ledger.matchRow, Bool.and_eq_true, decide_eq_true_eq] at matched matched'
  exact List.inj_on_of_nodup_map keys.decisionId stored present (matched.1.trans matched'.1.symm)

theorem filter_chain : (ledger.chain project).filter (fun i => i.sequenceNumber ≤
    (checked.length : Int)) = ledger.chain project := by
  rw [List.filter_eq_self]
  intro i member
  rw [← intact.chain] at member
  obtain ⟨r, inside, rfl⟩ := List.mem_map.mp member
  obtain ⟨-, below, -⟩ := intact.accepted r inside
  exact decide_eq_true below

end Intact

/-! ## Proofs of an intact ledger -/

/-- The proof a checked row is read as, when the two verifiers agree on it. -/
structure ProofOf (platform : Platform) (project : Uuid) (r : CheckedRow)
    (p : DecisionIntegrityProof) : Prop where
  reads : ReadsAs platform r.integrity p
  fields : p.fields = r.fields
  projectId : p.projectId = project
  decisionProject : r.authorization.projectId = project
  decisionId : p.decisionId = r.authorization.decisionId

theorem EnvelopeHashes.hex (hex : platform.HexDigests) {e : EnvelopeFields} {hash : Str}
    (hashes : EnvelopeHashes platform e hash) : isSha256Digest hash = true := by
  obtain ⟨-, bytes, -, rfl⟩ := (digest_eq_ok_iff platform _ _).mp hashes
  exact hex bytes

/-- The hash a checked row names is the digest of the row before it. -/
theorem Intact.previous_hex (hex : platform.HexDigests) {checked : List CheckedRow}
    (intact : Intact platform ledger project checked) (r : CheckedRow) (member : r ∈ checked) :
    ∀ hash ∈ r.integrity.previousHash, isSha256Digest hash = true := by
  obtain ⟨front, back, split⟩ := List.append_of_mem member
  have row := intact.each front r back split
  rw [row.previous, List.nil_append]
  rcases List.eq_nil_or_concat front with rfl | ⟨seen, s, rfl⟩
  · simp [hashAfter]
  · rw [List.concat_eq_append, hashAfter_snoc]
    rintro hash ⟨⟩
    obtain ⟨_, -, before⟩ := intact.accepted s (by rw [split]; simp)
    exact before.record.hex hex

theorem Intact.exists_proof (lawful : platform.Lawful) (hex : platform.HexDigests)
    {checked : List CheckedRow} (intact : Intact platform ledger project checked)
    (times : TimesAgree platform ledger project) (r : CheckedRow) (member : r ∈ checked) :
    ∃ p, ProofOf platform project r p := by
  obtain ⟨seen, -, row⟩ := intact.accepted r member
  obtain ⟨present, inside, matched⟩ := intact.rows r member
  obtain ⟨mine, mineDecision, sameId⟩ := intact.owned r member
  have reads := rowToAuthorization_reads r.decision r.authorization row.rebuilt
  have payloadForm : isSha256Digest r.integrity.payloadHash = true := by
    obtain ⟨-, hashed⟩ := (payloadHash_eq_ok platform _ _).mp row.payload
    obtain ⟨-, bytes, -, same⟩ := (digest_eq_ok_iff platform _ _).mp hashed
    exact same ▸ hex bytes
  have recordForm := row.record.hex hex
  have previous : ∃ hash : Option Sha256Digest, r.integrity.previousHash = hash.map (·.val) := by
    have previousForm := intact.previous_hex hex r member
    cases previousHash : r.integrity.previousHash with
    | none => exact ⟨none, rfl⟩
    | some hash => exact ⟨some ⟨hash, previousForm hash previousHash⟩, rfl⟩
  obtain ⟨previousHash, previousEq⟩ := previous
  have decisionProject : r.authorization.projectId = project := by
    have read := reads.projectId
    rw [mineDecision, lawful.readUuid_str] at read
    exact (Option.some.inj read).symm
  have created : platform.readDatetime (.str r.integrity.createdAt) =
      some r.authorization.evaluatedAt :=
    (times r.integrity inside r.decision present matched).trans reads.evaluatedAt
  have decisionId : platform.readUuid (.str r.integrity.decisionId) =
      some r.authorization.decisionId := by
    rw [← sameId]
    exact reads.decisionId
  refine ⟨⟨r.authorization.decisionId, project, r.integrity.sequenceNumber, previousHash,
    ⟨_, payloadForm⟩, ⟨_, recordForm⟩, r.authorization.evaluatedAt,
    by rw [row.sequence]; omega⟩, ?_, ?_, rfl, decisionProject, rfl⟩
  · exact
      { decisionId := decisionId
        projectId := by rw [mine]; exact lawful.readUuid_str project
        sequence := lawful.readInt_int _
        previous := previousEq
        payload := rfl
        record := rfl
        algorithm := row.algorithm
        schema := row.schema
        created := created }
  · simp only [DecisionIntegrityProof.fields, CheckedRow.fields, previousEq, decisionProject]

/-- The record of a checked row is digestible as a proof. -/
theorem ProofOf.digestible {r : CheckedRow} {p : DecisionIntegrityProof}
    (proofOf : ProofOf platform project r p) (sequence : Nat) (previousHash : Option Str)
    (row : RowAccepted platform sequence previousHash r) : Digestible p.dump := by
  have envelope := Digestible.of_digest _ _ row.record
  have printable : Digestible (.int r.fields.sequenceNumber) :=
    envelope.member ("sequence_number", .int r.fields.sequenceNumber) (by simp)
  rw [← proofOf.fields] at printable
  exact p.dump_digestible printable

/-! ## What the verifiers agree on -/

/-- The proofs of an exportable ledger pass the offline checks of a chain. -/
theorem Intact.chain_accepted (keys : ledger.Keys) {checked : List CheckedRow}
    (intact : Intact platform ledger project checked) (distinct : DistinctIds platform ledger project)
    (proofs : List DecisionIntegrityProof)
    (related : List.Forall₂ (ProofOf platform project) checked proofs) :
    EachAfter (ProofAccepted platform project) [] proofs := by
  intro front p back split
  rw [split] at related
  obtain ⟨seen, r, rest, whole, fronts, proofOf, -⟩ := forall₂_split _ _ _ _ _ related
  have row := intact.each seen r rest whole
  simp only [List.nil_append] at row ⊢
  refine
    { project := proofOf.projectId
      sequence := ?_
      previous := ?_
      record := ?_
      fresh := ?_ }
  · have sequence := congrArg EnvelopeFields.sequenceNumber proofOf.fields
    rw [← fronts.length_eq]
    exact sequence.trans row.sequence
  · -- the hash before a row is the hash of the proof before it
    have previous : p.previousHash.map (·.val) = hashAfter none seen :=
      (congrArg EnvelopeFields.previousHash proofOf.fields).trans row.previous
    refine Option.map_injective Subtype.val_injective (previous.trans ?_)
    rcases List.eq_nil_or_concat front with rfl | ⟨front', q, rfl⟩
    · cases fronts
      rfl
    · rw [List.concat_eq_append] at fronts ⊢
      obtain ⟨seen', s, tail, rfl, -, here, rest⟩ := forall₂_split _ _ _ _ _ fronts
      cases rest
      rw [hashAfter_snoc, List.getLast?_concat, here.reads.record]
      rfl
  · rw [proofOf.fields, ← proofOf.reads.record]
    exact row.record
  · intro q earlier same
    obtain ⟨front', back', parts⟩ := List.append_of_mem earlier
    rw [parts] at fronts
    obtain ⟨seen', s, seen'', rfl, -, here, -⟩ := forall₂_split _ _ _ _ _ fronts
    -- two records of one id would be one record, but a chain holds each record once
    have mine := (intact.rows r (by rw [whole]; simp)).2.1
    have theirs := (intact.rows s (by rw [whole]; simp)).2.1
    have equal := distinct _ theirs _ mine
      (by rw [here.reads.decisionId, proofOf.reads.decisionId, same])
    have once : (checked.map fun r => r.integrity.decisionId).Nodup := by
      have sorted : (ledger.chain project).Perm (ledger.projectIntegrity project) :=
        List.perm_insertionSort _ _
      have ids := (keys.integrityId.sublist (List.filter_sublist.map _)).perm
        (sorted.map (·.decisionId)).symm
      rw [← intact.chain, List.map_map] at ids
      exact ids
    rw [whole, List.map_append, List.nodup_append] at once
    exact once.2.2 s.integrity.decisionId (List.mem_map_of_mem (by simp)) r.integrity.decisionId
      (by simp) (by rw [equal])

/-- An accepted chain names each decision once. -/
theorem decisionIds_nodup {owner : Uuid} {proofs : List DecisionIntegrityProof}
    (accepted : EachAfter (ProofAccepted platform owner) [] proofs) :
    (proofs.map (·.decisionId)).Nodup := by
  refine accepted.induct (motive := fun proofs => (proofs.map (·.decisionId)).Nodup) .nil
    fun front p distinct passed => ?_
  rw [List.map_append, List.nodup_append]
  refine ⟨distinct, by simp, ?_⟩
  intro id earlier other last
  obtain ⟨q, inside, rfl⟩ := List.mem_map.mp earlier
  obtain rfl := List.mem_singleton.mp last
  exact passed.fresh q inside

/-- A captured record with the checked row and the proof it comes from. -/
def RecordOf (checked : List CheckedRow) (proofs : List DecisionIntegrityProof)
    (row : DecisionRow × IntegrityRow) (record : VerifiableDecisionRecord) : Prop :=
  ∃ r p, (r, p) ∈ checked.zip proofs ∧ r.row = row ∧ record = ⟨r.authorization, p⟩

private theorem zip_related {α β : Type} {R : α → β → Prop} {l : List α} {r : List β}
    (related : List.Forall₂ R l r) (a : α) (b : β) (inside : (a, b) ∈ l.zip r) : R a b :=
  (List.forall₂_iff_zip.mp related).2 inside

theorem Intact.exists_record (lawful : platform.Lawful) (keys : ledger.Keys) {checked : List CheckedRow}
    (intact : Intact platform ledger project checked) (proofs : List DecisionIntegrityProof)
    (related : List.Forall₂ (ProofOf platform project) checked proofs)
    (row : DecisionRow × IntegrityRow) (sort : DecisionSortOrder) (maxSequence : Int)
    (captured : row ∈ ledger.recordRows project (fun _ => true) sort maxSequence) :
    ∃ record, RecordOf checked proofs row record ∧ rowToRecord platform row = .ok record ∧
      Digests record.dump := by
  obtain ⟨owned, -, stored, matched, -⟩ := (Ledger.mem_recordRows ..).mp captured
  obtain ⟨present, mine⟩ := List.mem_filter.mp owned
  have same := matched
  simp only [Ledger.matchRow, Bool.and_eq_true, decide_eq_true_eq] at same
  have inside : row.2 ∈ ledger.projectIntegrity project :=
    List.mem_filter.mpr ⟨stored, by rw [← same.2]; exact mine⟩
  obtain ⟨r, member, integrity⟩ := (intact.mem_iff row.2).mp inside
  have decision := intact.joined keys r member row.1 present (by rw [integrity]; exact matched)
  obtain ⟨p, paired⟩ := exists_zip _ _ _ related r member
  have proofOf := zip_related related r p paired
  obtain ⟨seen, -, accepted⟩ := intact.accepted r member
  have rowEq : r.row = row := by
    rw [CheckedRow.row, integrity, ← decision]
  have proofRead : rowToProof platform { row.2 with decisionId := row.1.decisionId } = .ok p := by
    rw [same.1]
    change rowToProof platform row.2 = .ok p
    rw [← integrity]
    exact (rowToProof_eq_ok_iff _ _).mpr proofOf.reads
  have decisionRead : rowToAuthorization platform row.1 = .ok r.authorization := by
    rw [decision]
    exact accepted.rebuilt
  refine ⟨⟨r.authorization, p⟩, ⟨r, p, paired, rowEq, rfl⟩, ?_, ?_⟩
  · simp [rowToRecord, decisionRead, proofRead, bind, Except.bind, pure, Except.pure]
  · have digests : Digests r.authorization.dump :=
      (payloadHash_defined_iff lawful r.authorization).mp ⟨_, accepted.payload⟩
    exact VerifiableDecisionRecord.digests _ digests (proofOf.digestible _ _ accepted)

theorem Intact.records_accepted {checked : List CheckedRow}
    (intact : Intact platform ledger project checked) (distinct : DistinctIds platform ledger project)
    (proofs : List DecisionIntegrityProof)
    (related : List.Forall₂ (ProofOf platform project) checked proofs)
    (chain : EachAfter (ProofAccepted platform project) [] proofs)
    (rows : List (DecisionRow × IntegrityRow)) (once : (rows.map (·.1.decisionId)).Nodup)
    (records : List VerifiableDecisionRecord)
    (captured : List.Forall₂ (RecordOf checked proofs) rows records) :
    EachAfter (RecordAccepted platform project proofs) [] records := by
  have proofIds := decisionIds_nodup chain
  intro front record back split
  rw [split] at captured
  obtain ⟨before, row, after, whole, fronts, ⟨r, p, paired, rfl, rfl⟩, -⟩ :=
    forall₂_split _ _ _ _ _ captured
  have proofOf := zip_related related r p paired
  obtain ⟨inChecked, inProofs⟩ := List.of_mem_zip paired
  obtain ⟨seen, -, accepted⟩ := intact.accepted r inChecked
  simp only [List.nil_append]
  refine
    { decisionProject := proofOf.decisionProject
      proofProject := proofOf.projectId
      proved := ?_
      decisionId := proofOf.decisionId
      fresh := ?_
      payload := by rw [← proofOf.reads.payload]; exact accepted.payload }
  · have found : (proofs.find? fun other => other.decisionId = r.authorization.decisionId).isSome :=
      List.find?_isSome.mpr ⟨p, inProofs, decide_eq_true proofOf.decisionId⟩
    obtain ⟨q, foundq⟩ := Option.isSome_iff_exists.mp found
    have sameId := List.find?_some foundq
    rw [decide_eq_true_eq] at sameId
    obtain rfl := List.inj_on_of_nodup_map proofIds (List.mem_of_find?_eq_some foundq) inProofs
      (sameId.trans proofOf.decisionId.symm)
    exact ⟨q, foundq, by simp [DecisionIntegrityProof.equal]⟩
  · intro other earlier same
    obtain ⟨front', back', parts⟩ := List.append_of_mem earlier
    rw [parts] at fronts
    obtain ⟨before', row', after', rfl, -, ⟨s, q, paired', rfl, rfl⟩, -⟩ :=
      forall₂_split _ _ _ _ _ fronts
    have theirs := zip_related related s q paired'
    have inChecked' := (List.of_mem_zip paired').1
    have equal := distinct _ (intact.rows s inChecked').2.1 _ (intact.rows r inChecked).2.1
      (by rw [theirs.reads.decisionId, proofOf.reads.decisionId, theirs.decisionId,
        proofOf.decisionId, same])
    rw [whole, List.map_append, List.nodup_append] at once
    refine once.2.2 s.decision.decisionId (List.mem_map.mpr ⟨s.row, by simp, rfl⟩)
      r.decision.decisionId (by simp [CheckedRow.row]) ?_
    rw [(intact.owned s inChecked').2.2, (intact.owned r inChecked).2.2, equal]

/-! ## Exports -/

/-- The snapshot of an intact ledger. -/
theorem Intact.snapshot_eq {checked : List CheckedRow} (intact : Intact platform ledger project checked)
    (proofs : List DecisionIntegrityProof)
    (related : List.Forall₂ (ProofOf platform project) checked proofs) (count : Nat)
    (capturedAt : UtcDatetime) :
    ledger.snapshot project count capturedAt = some ⟨project, capturedAt, checked.length,
      checked.length, proofs.getLast?.map (·.recordHash), count⟩ := by
  rw [Ledger.snapshot, ← intact.chain]
  rcases List.eq_nil_or_concat proofs with rfl | ⟨front, p, rfl⟩
  · cases related
    rfl
  · rw [List.concat_eq_append] at related ⊢
    obtain ⟨seen, r, rest, rfl, -, proofOf, tail⟩ := forall₂_split _ _ _ _ _ related
    cases tail
    have row := intact.each seen r [] rfl
    have sequence := row.sequence
    rw [List.nil_append] at sequence
    have record := (Sha256Digest.validate_eq_some _ _).mpr proofOf.reads.record
    simp only [List.map_append, List.map_cons, List.map_nil, List.getLast?_concat, record, sequence,
      Option.bind_eq_bind, Option.bind_some, Int.natCast_nonneg, if_true, Int.toNat_natCast,
      Option.map_some, List.length_append, List.length_singleton]
    rfl

/-- A count below the number of a printed record can be printed. -/
private theorem digestible_count {checked : List CheckedRow}
    (intact : Intact platform ledger project checked) (count : Nat) (below : count ≤ checked.length) :
    Digestible (.int count) := by
  refine ⟨?_, by simp [Json.strings]⟩
  have printable : Json.withinDigitLimit checked.length = true := by
    rcases List.eq_nil_or_concat checked with rfl | ⟨front, r, rfl⟩
    · rfl
    · have row := intact.each front r [] (by simp)
      have envelope := Digestible.of_digest _ _ row.record
      have number := (envelope.member ("sequence_number", .int r.fields.sequenceNumber)
        (by simp)).encodable
      have sequence : r.fields.sequenceNumber = ((front ++ [r]).length : Nat) := by
        rw [List.length_append]
        exact row.sequence
      rw [List.concat_eq_append, ← sequence]
      exact number
  simp only [Json.encodable, Json.withinDigitLimit, Int.natAbs_natCast, decide_eq_true_eq] at *
  exact (decimal_length_le count checked.length below).trans printable

/-- What the two verifiers are asked to agree on. -/
structure Agreeable (platform : Platform) (ledger : Ledger) (project : Uuid) : Prop where
  times : TimesAgree platform ledger project
  ids : DistinctIds platform ledger project

theorem Intact.export_verifies (lawful : platform.Lawful) (hex : platform.HexDigests)
    (keys : ledger.Keys) {checked : List CheckedRow}
    (intact : Intact platform ledger project checked)
    (counts : (ledger.projectDecisions project).length = checked.length)
    (agreeable : Agreeable platform ledger project) (request : ExportRequest)
    (room : (ledger.projectDecisions project).length ≤ request.maximumRecords)
    (head : Option Str) (isHead : head = hashAfter none checked)
    (expected : request.expectedHeadHash = none ∨ request.expectedHeadHash.map (·.val) = head) :
    exportProject platform ledger project request = .error .exportSizeLimitError ∨
      ∃ bundle, exportProject platform ledger project request = .ok bundle ∧
        BundleVerifies platform bundle head := by
  obtain ⟨proofs, related⟩ := exists_forall₂ _ checked
    (intact.exists_proof lawful hex agreeable.times)
  have chainAccepted := intact.chain_accepted keys agreeable.ids proofs related
  have proofs_digestible : ∀ r p, (r, p) ∈ checked.zip proofs → Digestible p.dump := by
    intro r p inside
    obtain ⟨seen, -, accepted⟩ := intact.accepted r (List.of_mem_zip inside).1
    exact (zip_related related r p inside).digestible _ _ accepted
  obtain ⟨rows, rowsEq⟩ : ∃ rows, ledger.recordRows project (fun _ => true)
      DecisionSearchFilters.all.sort (ledger.lastSequence project) = rows := ⟨_, rfl⟩
  obtain ⟨records, captured⟩ := exists_forall₂ _ rows fun row member =>
    intact.exists_record lawful keys proofs related row _ _ (rowsEq.symm ▸ member)
  have bounded : rows.length ≤ (ledger.projectDecisions project).length :=
    rowsEq ▸ ledger.recordRows_length_le project keys _ _ _
  have small : rows.length ≤ checked.length := bounded.trans counts.le
  have lengths := captured.length_eq
  have proofLengths := related.length_eq
  have hashes : proofs.getLast?.map (·.recordHash.val) = head := by
    rw [isHead]
    rcases List.eq_nil_or_concat proofs with rfl | ⟨front, p, rfl⟩
    · cases related
      rfl
    · rw [List.concat_eq_append] at related ⊢
      obtain ⟨seen, r, rest, rfl, -, proofOf, tail⟩ := forall₂_split _ _ _ _ _ related
      cases tail
      rw [hashAfter_snoc, List.getLast?_concat, proofOf.reads.record]
      rfl
  let snapshot : EvidenceExportSnapshot := ⟨project, request.capturedAt, checked.length,
    checked.length, proofs.getLast?.map (·.recordHash), rows.length⟩
  -- both readers read every row, or pass their limit
  have recordsRead := readWithin_total lawful request.maximumBytes (rowToRecord platform)
    VerifiableDecisionRecord.dump rows records (captured.imp fun _ _ each => each.2) 0
  have chainRead := readWithin_total lawful request.maximumChainBytes (rowToProof platform)
    (fun proof => .ok proof.dump) (checked.map CheckedRow.integrity) proofs
    (List.forall₂_map_left_iff.mpr (List.forall₂_iff_zip.mpr ⟨proofLengths, fun {r p} inside =>
      ⟨(rowToProof_eq_ok_iff _ _).mpr (zip_related related r p inside).reads,
        _, rfl, proofs_digestible r p inside⟩⟩)) 0
  rw [intact.chain] at chainRead
  obtain ⟨bundle, built⟩ := buildEvidenceBundle_total lawful hex snapshot .all records proofs
    request.generatedAt request.expectedHeadHash request.exportId lengths.symm proofLengths.symm rfl
    (fun r member => by
      obtain ⟨row, inside⟩ := exists_zip _ _ _ captured.flip r member
      exact (zip_related captured.flip r row inside).2.2)
    (fun p member => by
      obtain ⟨r, inside⟩ := exists_zip _ _ _ related.flip p member
      obtain ⟨seen, -, accepted⟩ := intact.accepted r (List.of_mem_zip inside).2
      exact (zip_related related.flip p r inside).digestible _ _ accepted)
    DecisionSearchFilters.all_digestible (digestible_count intact _ small) (digestible_count intact _ le_rfl)
  have fields := buildEvidenceBundle_spec built
  have snapshotRead := intact.snapshot_eq proofs related rows.length request.capturedAt
  have roomy : ¬ request.maximumRecords < rows.length := by omega
  have chainRows : ledger.listChain platform project (checked.length : Nat)
      request.maximumChainBytes = readWithin platform request.maximumChainBytes
        (rowToProof platform) (fun proof => .ok proof.dump) 0 (ledger.chain project) := by
    rw [Ledger.listChain, intact.filter_chain]
  rw [exportProject, Ledger.captureRecords, rowsEq, snapshotRead]
  simp only [orRaise, roomy, if_false, bind, Except.bind, pure, Except.pure]
  rcases recordsRead with recordsRead | stopped
  · rcases chainRead with chainRead | stopped
    · refine .inr ⟨bundle, ?_, ?_⟩
      · simp only [recordsRead, chainRows, chainRead]
        exact built
      · have inChain : ∀ hash ∈ head, ∃ proof ∈ proofs, proof.recordHash.val = hash := by
          intro hash isHash
          rw [← hashes, Option.mem_def, Option.map_eq_some_iff] at isHash
          obtain ⟨p, last, same⟩ := isHash
          exact ⟨p, List.mem_of_getLast? last, same⟩
        have projectEq : bundle.manifest.projectId = project := fields.project
        have recordsEq := fields.recordsKept
        have chainEq := fields.chainKept
        exact
          { dumpable := by rw [recordsEq]; exact fields.dumpable
            recordCount := by rw [fields.manifestRecords, recordsEq, fields.recordCount]
            chainCount := by rw [fields.manifestChain, chainEq, fields.chainCount]
            recordsDigest := by rw [recordsEq]; exact fields.recordsDigest
            chainDigest := by rw [chainEq]; exact fields.chainDigest
            bundleDigest := by rw [recordsEq, chainEq]; exact fields.bundleDigest
            chain := by rw [projectEq, chainEq]; exact chainAccepted
            head := by rw [fields.manifestHead, chainEq]
            checkpoints := by
              rw [chainEq, fields.expected]
              intro checkpoint member
              simp only [List.mem_cons, List.not_mem_nil, or_false] at member
              rcases member with rfl | rfl
              · rcases expected with absent | same
                · simp [absent]
                · rw [same]
                  exact inChain
              · exact inChain
            records := by
              rw [projectEq, chainEq, recordsEq]
              exact intact.records_accepted agreeable.ids proofs related chainAccepted rows
                (rowsEq ▸ ledger.recordRows_nodup project keys _ _ _) records
                (captured.imp fun _ _ each => each.1) }
    · simp only [recordsRead, chainRows, stopped]
      exact .inl trivial
  · simp only [stopped]
    exact .inl trivial

/-! ## The other direction -/

theorem exportProject_chain {checked : List CheckedRow}
    (intact : Intact platform ledger project checked) (request : ExportRequest)
    (bundle : EvidenceBundle) (exported : exportProject platform ledger project request = .ok bundle) :
    bundle.manifest.projectId = project ∧
      List.Forall₂ (fun r p => ReadsAs platform r.integrity p) checked bundle.chain := by
  unfold exportProject at exported
  simp only [bind_eq_ok] at exported
  obtain ⟨captured, capturedOk, chain, listed, built⟩ := exported
  obtain ⟨owner, last⟩ := ledger.captureRecords_snapshot project _ _ _ _ _ captured capturedOk
  have fields := buildEvidenceBundle_spec built
  refine ⟨fields.project.trans owner, ?_⟩
  rw [Ledger.listChain, last, intact.lastSequence_eq, intact.filter_chain, ← intact.chain] at listed
  have read := readWithin_spec _ _ _ _ _ _ listed
  rw [List.forall₂_map_left_iff] at read
  rw [fields.chainKept]
  exact read.imp fun _ _ => (rowToProof_eq_ok_iff _ _).mp

/-- A bundle that passes was read from times and ids the verifiers agree on. -/
theorem Intact.agreeable (keys : ledger.Keys) {checked : List CheckedRow}
    (intact : Intact platform ledger project checked)
    (binding : ∀ i ∈ ledger.integrity, ∀ e f, EnvelopeHashes platform e i.recordHash →
      EnvelopeHashes platform f i.recordHash → e = f)
    (chain : List DecisionIntegrityProof)
    (read : List.Forall₂ (fun r p => ReadsAs platform r.integrity p) checked chain)
    (accepted : EachAfter (ProofAccepted platform project) [] chain) :
    Agreeable platform ledger project := by
  refine ⟨?_, ?_⟩
  · intro i inside d stored matched
    obtain ⟨r, member, rfl⟩ := (intact.mem_iff i).mp inside
    obtain ⟨p, paired⟩ := exists_zip _ _ _ read r member
    have reads := zip_related read r p paired
    obtain ⟨seen, -, row⟩ := intact.accepted r member
    obtain ⟨front, back, split⟩ := List.append_of_mem (List.of_mem_zip paired).2
    have record := (accepted front p back split).record
    rw [← reads.record] at record
    -- the stored hash has one envelope behind it, so both verifiers hashed one time
    have same := binding r.integrity (List.mem_of_mem_filter inside) _ _ record row.record
    have time : p.createdAt = r.authorization.evaluatedAt :=
      Datetime.json_inj _ _ (congrArg EnvelopeFields.createdAt same)
    rw [intact.joined keys r member d stored matched, reads.created, time,
      (rowToAuthorization_reads _ _ row.rebuilt).evaluatedAt]
  · intro i inside j inside' same
    obtain ⟨r, member, rfl⟩ := (intact.mem_iff i).mp inside
    obtain ⟨s, member', rfl⟩ := (intact.mem_iff j).mp inside'
    obtain ⟨p, paired⟩ := exists_zip _ _ _ read r member
    obtain ⟨q, paired'⟩ := exists_zip _ _ _ read s member'
    have ids : (chain.map (·.decisionId)).Nodup := decisionIds_nodup accepted
    rw [(zip_related read r p paired).decisionId, (zip_related read s q paired').decisionId,
      Option.some.injEq] at same
    have pairIds : ((checked.zip chain).map fun pair => pair.2.decisionId).Nodup := by
      have split := congrArg (List.map fun p : DecisionIntegrityProof => p.decisionId)
        (List.map_snd_zip read.length_eq.ge)
      rw [List.map_map] at split
      exact split ▸ ids
    have equal := List.inj_on_of_nodup_map pairIds paired paired' same
    rw [Prod.mk.injEq] at equal
    rw [equal.1]

/-- The offline verifier accepts the export of a ledger the live verifier accepts exactly when
the times and the ids of its records agree. -/
theorem plain_export_verifies_iff (lawful : platform.Lawful) (hex : platform.HexDigests)
    (ledger : Ledger) (project : Uuid) (keys : ledger.Keys)
    (binding : ∀ i ∈ ledger.integrity, ∀ e f, EnvelopeHashes platform e i.recordHash →
      EnvelopeHashes platform f i.recordHash → e = f)
    (now later : Datetime) (report : DecisionIntegrityVerification)
    (verified : ledger.verify platform project none now = .ok report ∧ report.verified = true)
    (request : ExportRequest)
    (expected : request.expectedHeadHash = none ∨ request.expectedHeadHash = report.headHash)
    (room : (ledger.projectDecisions project).length ≤ request.maximumRecords)
    (fits : exportProject platform ledger project request ≠ .error .exportSizeLimitError) :
    (∃ bundle offline, exportProject platform ledger project request = .ok bundle ∧
      verifyEvidenceBundle platform bundle (report.headHash.map (·.val)) later = .ok offline ∧
      offline.verified = true) ↔ Agreeable platform ledger project := by
  obtain ⟨checked, headHash, verifies, headRead, rfl⟩ :=
    (verify_verified_iff ledger project none now report).mp verified
  have intact := verifies.intact keys
  constructor
  · rintro ⟨bundle, offline, exported, offlineVerified⟩
    obtain ⟨owner, read⟩ := exportProject_chain intact request bundle exported
    obtain ⟨bundleVerifies, -⟩ :=
      (verifyEvidenceBundle_verified_iff bundle _ later offline).mp offlineVerified
    have accepted := bundleVerifies.chain
    rw [owner] at accepted
    exact intact.agreeable keys binding bundle.chain read accepted
  · intro agreeable
    have head : headHash.map (·.val) = hashAfter none checked :=
      (validateOptional_iff _ _).mp headRead
    have counts : (ledger.projectDecisions project).length = checked.length := by
      have length := congrArg List.length intact.chain
      rw [List.length_map] at length
      rw [← verifies.counts, length]
      exact (List.length_insertionSort _ _).symm
    rcases intact.export_verifies lawful hex keys counts agreeable request room _ head
        (expected.imp_right fun same => by rw [same]; rfl) with stopped | ⟨bundle, exported, accepted⟩
    · exact absurd stopped fits
    · have passed := (verifyEvidenceBundle_verified_iff bundle _ later _).mpr ⟨accepted, rfl⟩
      exact ⟨bundle, _, exported, passed.1, passed.2⟩

end DecAustrum
