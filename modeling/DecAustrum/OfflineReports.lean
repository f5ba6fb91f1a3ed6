import DecAustrum.OfflineTotality
import Mathlib.Algebra.Order.BigOperators.Group.List

/-!
# Reports of the offline verifier

A bundle is reported on when the digests that are compared can be computed. With the files that
can be read this says when `main` ends with a printed report.
-/
namespace DecAustrum.EvidenceVerifier

open Python

variable {platform : Platform} {zip : ZipReader}

/-! ## Bounds -/

theorem withinDigitLimit_of_le (n : Nat) (below : n ≤ maxEvidenceArchiveBytes) :
    Json.withinDigitLimit n = true := by
  have longest : (decimal maxEvidenceArchiveBytes).length ≤ 4300 := by decide +kernel
  rw [Json.withinDigitLimit, Int.natAbs_natCast, decide_eq_true_eq]
  exact (decimal_length_le n _ below).trans longest

theorem NdjsonHolds.length_le {content : Bytes} {values : List Json}
    (holds : NdjsonHolds platform content values) : values.length ≤ content.length := by
  obtain ⟨text, decoded, held⟩ := holds
  calc values.length = (solidLines (splitlines text)).length := held.length_eq.symm
    _ ≤ (splitlines text).length := List.length_filter_le _ _
    _ ≤ text.length := splitlines_length text
    _ ≤ content.length := decodeUtf8_length content text decoded

theorem Opened.content_length {file : Except Str Bytes} {source : Bytes} {infos : List ZipInfo}
    (opened : Opened zip file source infos) {name : Str} {content : Bytes}
    (read : zip.read source name = .ok content) : content.length ≤ maxEvidenceArchiveBytes := by
  obtain ⟨info, listed, -, declared⟩ := zip.bounded source infos name content opened.infolist read
  have part : info.fileSize ≤ totalSize infos :=
    List.single_le_sum (fun _ _ => Nat.zero_le _) _ (List.mem_map_of_mem listed)
  have size := opened.size
  omega

theorem FileHolds.bounded {file : Except Str Bytes} {bundle : EvidenceBundle}
    (holds : FileHolds platform zip file bundle) :
    bundle.records.length ≤ maxEvidenceArchiveBytes ∧
      bundle.chain.length ≤ maxEvidenceArchiveBytes := by
  obtain ⟨source, infos, opened, manifest, records, chain, -, ⟨second, secondRead, recordsHeld⟩,
    ⟨third, thirdRead, chainHeld⟩, valid⟩ := holds
  obtain ⟨recordsLength, chainLength⟩ := EvidenceBundle.validate_length _ _ _ _ valid
  have secondLength := opened.content_length secondRead
  have thirdLength := opened.content_length thirdRead
  have recordsShort := recordsHeld.length_le
  have chainShort := chainHeld.length_le
  omega

/-! ## Bundles -/

def CountsMatch (bundle : EvidenceBundle) : Prop :=
  bundle.manifest.recordCount = bundle.records.length ∧
    bundle.manifest.chainRecordCount = bundle.chain.length

/-- The records can be dumped, and the digests that are compared can be computed: those of the
records where the counts match, those of the chain where the records are the manifest's. -/
structure BundleReadable (platform : Platform) (bundle : EvidenceBundle) : Prop where
  dumpable : ∀ r ∈ bundle.records, r.decision.Dumpable
  records : CountsMatch bundle → ∀ r ∈ bundle.records, Digestible r.dumped
  chain : CountsMatch bundle →
    digest platform (.arr (bundle.records.map (·.dumped))) = .ok bundle.manifest.recordsSha256.val →
    ∀ proof ∈ bundle.chain, Digestible (.int proof.sequenceNumber)

theorem digestible_records_iff (records : List VerifiableDecisionRecord) :
    Digestible (.arr (records.map (·.dumped))) ↔ ∀ r ∈ records, Digestible r.dumped := by
  simp [digestible_arr_iff]

theorem digestible_chain_iff (chain : List DecisionIntegrityProof) :
    Digestible (.arr (chain.map (·.dump))) ↔
      ∀ proof ∈ chain, Digestible (.int proof.sequenceNumber) := by
  simp only [digestible_arr_iff, List.forall_mem_map]
  refine forall₂_congr fun proof _ => ⟨fun digestible => ?_, proof.dump_digestible⟩
  exact digestible.member ("sequence_number", .int proof.sequenceNumber) (by simp)

/-- A failure whose number can be printed. -/
def Printable (failure : EvidenceBundleVerificationFailure) : Prop :=
  ∀ n ∈ failure.sequenceNumber, Json.withinDigitLimit n = true

section Checks

variable (lawful : platform.Lawful)

include lawful

theorem checkProof_reports (project : Uuid) (expectedSequence : Nat)
    (previousHash : Option Sha256Digest) (seen : List DecisionIntegrityProof)
    (proof : DecisionIntegrityProof) (position : Json.withinDigitLimit expectedSequence = true)
    (number : Digestible (.int proof.sequenceNumber)) :
    ∃ outcome, checkProof platform project expectedSequence previousHash seen proof = .ok outcome ∧
      ∀ failure ∈ outcome, Printable failure := by
  obtain ⟨hash, hashed⟩ := (digest_defined_iff lawful _).mpr
    (envelope_digestible proof.createdAt proof.decisionId proof.projectId number proof.previousHash
      proof.payloadHash)
  have calculated : calculateIntegrityProofRecordHash platform proof = .ok hash := hashed
  have printed := number.encodable
  unfold checkProof
  simp only [calculated, bind, Except.bind, pure, Except.pure]
  split
  · exact ⟨_, rfl, by rintro _ ⟨⟩ _ ⟨⟩; exact printed⟩
  split
  · exact ⟨_, rfl, by rintro _ ⟨⟩ _ ⟨⟩; exact position⟩
  split
  · exact ⟨_, rfl, by rintro _ ⟨⟩ _ ⟨⟩; exact printed⟩
  split
  · exact ⟨_, rfl, by rintro _ ⟨⟩ _ ⟨⟩; exact printed⟩
  split
  · exact ⟨_, rfl, by rintro _ ⟨⟩ _ ⟨⟩; exact printed⟩
  · exact ⟨none, rfl, by rintro _ ⟨⟩⟩

theorem verifyChain_reports (project : Uuid) (rest : List DecisionIntegrityProof)
    (numbers : ∀ proof ∈ rest, Digestible (.int proof.sequenceNumber)) :
    ∀ seen previousHash, seen.length + rest.length ≤ maxEvidenceArchiveBytes →
      ∃ outcome, verifyChain platform project seen previousHash rest = .ok outcome ∧
        ∀ failed ∈ outcome, Printable failed.1 ∧ failed.2 ≤ maxEvidenceArchiveBytes := by
  induction rest with
  | nil => exact fun _ _ _ => ⟨none, rfl, by rintro _ ⟨⟩⟩
  | cons proof rest ih =>
    intro seen previousHash bounded
    rw [List.length_cons] at bounded
    obtain ⟨outcome, checked, printable⟩ := checkProof_reports lawful project (seen.length + 1)
      previousHash seen proof (withinDigitLimit_of_le _ (by omega))
      (numbers proof (List.mem_cons_self ..))
    rw [verifyChain, checked]
    cases outcome with
    | some failure =>
      refine ⟨_, rfl, ?_⟩
      rintro _ ⟨⟩
      exact ⟨printable failure rfl, by dsimp only; omega⟩
    | none =>
      apply ih (fun later member => numbers later (List.mem_cons_of_mem _ member))
      rw [List.length_append, List.length_singleton]
      omega

theorem checkRecord_reports (project : Uuid) (chain : List DecisionIntegrityProof)
    (selected : List Uuid) (record : VerifiableDecisionRecord) (digests : Digests record.dump) :
    ∃ outcome, checkRecord platform project chain selected record = .ok outcome ∧
      ∀ failure ∈ outcome, Printable failure := by
  have digestible := (record.digests_iff.mp digests).2
  have integrity := digestible.member ("integrity", record.integrity.dump) (by simp)
  have number := (integrity.member ("sequence_number", .int record.integrity.sequenceNumber)
    (by simp)).encodable
  obtain ⟨hash, calculated⟩ := (payloadHash_defined_iff lawful _).mpr
    (record.decision_digests digests)
  unfold checkRecord
  simp only [calculated, bind, Except.bind, pure, Except.pure]
  split
  · exact ⟨_, rfl, by rintro _ ⟨⟩ _ ⟨⟩⟩
  cases chain.find? fun other => other.decisionId = record.decision.decisionId with
  | none => exact ⟨_, rfl, by rintro _ ⟨⟩ _ ⟨⟩⟩
  | some proof =>
    dsimp only
    split
    · exact ⟨_, rfl, by rintro _ ⟨⟩ _ ⟨⟩; exact number⟩
    split
    · exact ⟨_, rfl, by rintro _ ⟨⟩ _ ⟨⟩; exact number⟩
    · exact ⟨none, rfl, by rintro _ ⟨⟩⟩

theorem verifyRecords_reports (project : Uuid) (chain : List DecisionIntegrityProof)
    (rest : List VerifiableDecisionRecord) (digests : ∀ r ∈ rest, Digests r.dump) :
    ∀ selected : List Uuid, selected.length + rest.length ≤ maxEvidenceArchiveBytes →
      ∃ outcome, verifyRecords platform project chain selected rest = .ok outcome ∧
        ∀ failed ∈ outcome, Printable failed.1 ∧ failed.2 ≤ maxEvidenceArchiveBytes := by
  induction rest with
  | nil => exact fun _ _ => ⟨none, rfl, by rintro _ ⟨⟩⟩
  | cons record rest ih =>
    intro selected bounded
    rw [List.length_cons] at bounded
    obtain ⟨outcome, checked, printable⟩ := checkRecord_reports lawful project chain selected record
      (digests record (List.mem_cons_self ..))
    rw [verifyRecords, checked]
    cases outcome with
    | some failure =>
      refine ⟨_, rfl, ?_⟩
      rintro _ ⟨⟩
      exact ⟨printable failure rfl, by dsimp only; omega⟩
    | none =>
      apply ih (fun later member => digests later (List.mem_cons_of_mem _ member))
      rw [List.length_append, List.length_singleton]
      omega

/-- A report whose numbers can be printed. -/
structure ReportPrintable (report : EvidenceBundleVerification) : Prop where
  checkedRecords : report.checkedRecords ≤ maxEvidenceArchiveBytes
  checkedChainRecords : report.checkedChainRecords ≤ maxEvidenceArchiveBytes
  failure : ∀ failure ∈ report.failure, Printable failure

theorem verifyEvidenceBundle_reports (bundle : EvidenceBundle)
    (readable : BundleReadable platform bundle)
    (recordsBounded : bundle.records.length ≤ maxEvidenceArchiveBytes)
    (chainBounded : bundle.chain.length ≤ maxEvidenceArchiveBytes) (expectedHeadHash : Option Str)
    (now : Datetime) :
    ∃ report, verifyEvidenceBundle platform bundle expectedHeadHash now = .ok report ∧
      ReportPrintable report := by
  have none (failure : EvidenceBundleVerificationFailure) (numberless : failure.sequenceNumber = none) :
      Printable failure := by
    rw [Printable, numberless]
    rintro _ ⟨⟩
  have dumps : bundle.records.mapM (·.dump) = .ok (bundle.records.map (·.dumped)) :=
    (mapM_eq_map_iff VerifiableDecisionRecord.dump_eq_ok _ _).mpr ⟨readable.dumpable, rfl⟩
  unfold verifyEvidenceBundle
  simp only [dumps, bind, Except.bind, pure, Except.pure]
  split
  · exact ⟨_, rfl, Nat.zero_le _, Nat.zero_le _, by rintro _ ⟨⟩; exact none _ rfl⟩
  split
  · exact ⟨_, rfl, Nat.zero_le _, Nat.zero_le _, by rintro _ ⟨⟩; exact none _ rfl⟩
  next recordCount chainCount =>
  rw [ne_eq, not_not] at recordCount chainCount
  have counts : CountsMatch bundle := ⟨recordCount, chainCount⟩
  have records := readable.records counts
  obtain ⟨recordsDigest, recordsHashed⟩ :=
    (digest_defined_iff lawful _).mpr ((digestible_records_iff _).mpr records)
  rw [recordsHashed]
  dsimp only
  split
  · exact ⟨_, rfl, Nat.zero_le _, Nat.zero_le _, by rintro _ ⟨⟩; exact none _ rfl⟩
  next recordsSame =>
  rw [ne_eq, not_not] at recordsSame
  have chain := readable.chain counts (recordsSame ▸ recordsHashed)
  obtain ⟨chainDigest, chainHashed⟩ :=
    (digest_defined_iff lawful _).mpr ((digestible_chain_iff _).mpr chain)
  rw [chainHashed]
  dsimp only
  split
  · exact ⟨_, rfl, Nat.zero_le _, Nat.zero_le _, by rintro _ ⟨⟩; exact none _ rfl⟩
  -- the manifest has filters without surrogates and the two counts
  have manifest : Digestible bundle.manifest.dumpWithoutBundleDigest := by
    apply bundle.manifest.dump_digestible bundle.manifest.criteria.dump_digestible
    · rw [recordCount]
      exact (digestible_int_iff _).mpr (withinDigitLimit_of_le _ recordsBounded)
    · rw [chainCount]
      exact (digestible_int_iff _).mpr (withinDigitLimit_of_le _ chainBounded)
  have whole : Digestible (logicalBundlePayload bundle.manifest.dumpWithoutBundleDigest
      (bundle.records.map (·.dumped)) (bundle.chain.map (·.dump))) := by
    refine .record (by simp only [List.all_cons, List.all_nil]; decide) ?_
    simp only [List.map_cons, List.map_nil, List.mem_cons, List.not_mem_nil, or_false,
      forall_eq_or_imp, forall_eq]
    exact ⟨manifest, (digestible_records_iff _).mpr records, (digestible_chain_iff _).mpr chain⟩
  obtain ⟨bundleDigest, bundleHashed⟩ := (digest_defined_iff lawful _).mpr whole
  rw [bundleHashed]
  dsimp only
  split
  · exact ⟨_, rfl, Nat.zero_le _, Nat.zero_le _, by rintro _ ⟨⟩; exact none _ rfl⟩
  obtain ⟨walked, walks, walkPrintable⟩ := verifyChain_reports lawful bundle.manifest.projectId
    bundle.chain chain [] .none (by simpa using chainBounded)
  rw [walks]
  cases walked with
  | some failed =>
    obtain ⟨printable, checked⟩ := walkPrintable failed rfl
    exact ⟨_, rfl, Nat.zero_le _, checked, by rintro _ ⟨⟩; exact printable⟩
  | none =>
  dsimp only
  split
  · exact ⟨_, rfl, Nat.zero_le _, chainBounded, by rintro _ ⟨⟩; exact none _ rfl⟩
  cases missingCheckpoint bundle.chain
      [bundle.manifest.expectedHeadHash.map (·.val), expectedHeadHash] with
  | some checkpoint =>
    exact ⟨_, rfl, Nat.zero_le _, chainBounded, by rintro _ ⟨⟩; exact none _ rfl⟩
  | none =>
  obtain ⟨selected, selects, selectPrintable⟩ := verifyRecords_reports lawful
    bundle.manifest.projectId bundle.chain bundle.records
    (fun r member => r.digests_iff.mpr ⟨readable.dumpable r member, records r member⟩) []
    (by simpa using recordsBounded)
  dsimp only
  rw [selects]
  cases selected with
  | some failed =>
    obtain ⟨printable, checked⟩ := selectPrintable failed rfl
    exact ⟨_, rfl, checked, chainBounded, by rintro _ ⟨⟩; exact printable⟩
  | none => exact ⟨_, rfl, recordsBounded, chainBounded, by rintro _ ⟨⟩⟩

omit lawful in
theorem bundleReadable_of_report (bundle : EvidenceBundle) (expectedHeadHash : Option Str)
    (now : Datetime) (report : EvidenceBundleVerification)
    (verified : verifyEvidenceBundle platform bundle expectedHeadHash now = .ok report) :
    BundleReadable platform bundle := by
  unfold verifyEvidenceBundle at verified
  rw [bind_eq_ok] at verified
  obtain ⟨recordsData, dumps, verified⟩ := verified
  obtain ⟨dumpable, rfl⟩ := (mapM_eq_map_iff VerifiableDecisionRecord.dump_eq_ok _ _).mp dumps
  simp only [bind, Except.bind, pure, Except.pure] at verified
  split at verified
  next wrong =>
    exact ⟨dumpable, fun counts => absurd counts.1 wrong, fun counts => absurd counts.1 wrong⟩
  split at verified
  next wrong =>
    exact ⟨dumpable, fun counts => absurd counts.2 wrong, fun counts => absurd counts.2 wrong⟩
  cases recordsHashed : digest platform (.arr (bundle.records.map (·.dumped))) with
  | error exc =>
    rw [recordsHashed] at verified
    cases verified
  | ok recordsDigest =>
  have records := (digestible_records_iff _).mp (.of_digest _ _ recordsHashed)
  refine ⟨dumpable, fun _ => records, fun _ same => ?_⟩
  rw [recordsHashed, Except.ok.injEq] at same
  rw [recordsHashed] at verified
  dsimp only at verified
  rw [if_neg (not_not_intro same.symm)] at verified
  cases chainHashed : digest platform (.arr (bundle.chain.map (·.dump))) with
  | error exc =>
    rw [chainHashed] at verified
    cases verified
  | ok chainDigest => exact (digestible_chain_iff _).mp (.of_digest _ _ chainHashed)

end Checks

/-! ## Printing -/

theorem encodable_failure (failure : EvidenceBundleVerificationFailure)
    (printable : Printable failure) : failure.dump.encodable = true := by
  have optional {α : Type} (dump : α → Json) (value : Option α)
      (each : ∀ a ∈ value, (dump a).encodable = true) : (dumpOptional dump value).encodable = true := by
    cases value with
    | none => rfl
    | some a => exact each a rfl
  refine (Json.encodableFields_iff _).mpr ?_
  simp only [List.mem_cons, List.not_mem_nil, or_false, forall_eq_or_imp, forall_eq]
  exact ⟨rfl, rfl, optional _ _ fun _ _ => rfl, optional _ _ printable, optional _ _ fun _ _ => rfl,
    optional _ _ fun _ _ => rfl⟩

theorem ReportPrintable.encodable {report : EvidenceBundleVerification}
    (printable : ReportPrintable report) : report.dump.encodable = true := by
  have checkedRecords := withinDigitLimit_of_le _ printable.checkedRecords
  have checkedChainRecords := withinDigitLimit_of_le _ printable.checkedChainRecords
  refine (Json.encodableFields_iff _).mpr ?_
  simp only [List.mem_cons, List.not_mem_nil, or_false, forall_eq_or_imp, forall_eq]
  refine ⟨rfl, rfl, checkedRecords, checkedChainRecords, ?_, rfl, ?_⟩
  · cases report.headHash <;> rfl
  · cases failed : report.failure with
    | none => rfl
    | some failure => exact encodable_failure failure (printable.failure failure failed)

theorem printed_of_encodable (v : Json) (accepted : v.encodable = true) :
    ∃ text, printed platform v = .ok text := by
  rw [printed, if_pos accepted]
  exact ⟨_, rfl⟩

/-! ## The process -/

/-- What the process promises of a file: a bundle or the loader's error, a report on every bundle,
and an exit code with a printed report. -/
structure ReportsOn (platform : Platform) (zip : ZipReader) (file : Except Str Bytes)
    (expectedHeadHash : Option Sha256Digest) (now : Datetime) : Prop where
  loaded : (∃ bundle, loadArchive platform zip file = .ok bundle) ∨
    ∃ message, loadArchive platform zip file = .error (.python (.archiveError message))
  verified : ∀ bundle, loadArchive platform zip file = .ok bundle →
    ∃ report, verifyEvidenceBundle platform bundle (expectedHeadHash.map (·.val)) now = .ok report
  ended : ∃ code report text, main platform zip file expectedHeadHash now = .ok ⟨code, text⟩ ∧
    printed platform report = .ok text ∧
    ((code = 2 ∧ ∃ message, report = archiveInvalid message) ∨
      ∃ verification : EvidenceBundleVerification, report = verification.dump ∧
        code = if verification.verified then 0 else 1)

/-- `main` reports on exactly the files whose members can be read and whose bundle, if they hold
one, has the digests the verifier compares. -/
theorem main_reports_iff (lawful : platform.Lawful) (zip : ZipReader) (file : Except Str Bytes)
    (expectedHeadHash : Option Sha256Digest) (now : Datetime) :
    ReportsOn platform zip file expectedHeadHash now ↔
      FileReadable platform zip file ∧
        ∀ bundle, FileHolds platform zip file bundle → BundleReadable platform bundle := by
  constructor
  · intro reports
    constructor
    · rw [← handled_loadArchive_iff]
      intro exc raised
      rcases reports.loaded with ⟨bundle, loads⟩ | ⟨message, invalid⟩
      · rw [loads] at raised
        cases raised
      · rw [invalid] at raised
        cases raised
        exact ⟨message, rfl⟩
    · intro bundle holds
      obtain ⟨report, verified⟩ := reports.verified bundle ((loadArchive_eq_ok_iff _ _).mpr holds)
      exact bundleReadable_of_report bundle _ now report verified
  · rintro ⟨readable, bundles⟩
    cases loads : loadArchive platform zip file with
    | error exc =>
      obtain ⟨message, rfl⟩ := (handled_loadArchive_iff file).mpr readable exc loads
      obtain ⟨text, prints⟩ : ∃ text, printed platform (archiveInvalid message) = .ok text :=
        printed_of_encodable _ rfl
      refine ⟨.inr ⟨message, loads⟩, ?_, 2, archiveInvalid message, text, ?_, prints,
        .inl ⟨rfl, message, rfl⟩⟩
      · intro bundle held
        rw [loads] at held
        cases held
      · rw [main, loads]
        simp only [prints, ofPython, bind, Except.bind, pure, Except.pure]
    | ok bundle =>
      have holds := (loadArchive_eq_ok_iff file bundle).mp loads
      obtain ⟨report, verified, printable⟩ := verifyEvidenceBundle_reports lawful bundle
        (bundles bundle holds) holds.bounded.1 holds.bounded.2 (expectedHeadHash.map (·.val)) now
      obtain ⟨text, prints⟩ : ∃ text, printed platform report.dump = .ok text :=
        printed_of_encodable _ printable.encodable
      refine ⟨.inl ⟨bundle, loads⟩, ?_, _, report.dump, text, ?_, prints, .inr ⟨report, rfl, rfl⟩⟩
      · intro other held
        rw [loads] at held
        cases held
        exact ⟨report, verified⟩
      · rw [main, loads]
        simp only [verified, prints, ofPython, bind, Except.bind, pure, Except.pure]

/-- A reader of an archive of these members, none of them compressed. -/
def storedReader (members : List (Str × Bytes)) : ZipReader where
  infolist _ := .ok (members.map fun member => ⟨member.1, member.2.length⟩)
  read _ name :=
    match members.find? fun member => member.1 = name with
    | some member => .ok member.2
    | none => .error .runtimeError
  bounded := by
    rintro _ _ name content ⟨⟩ read
    split at read
    next member found =>
      cases read
      exact ⟨_, List.mem_map_of_mem (List.mem_of_find?_eq_some found),
        by simpa using List.find?_some found, Nat.le_refl _⟩
    next => cases read

/-- An archive whose manifest is this content. -/
def manifestArchive (content : Bytes) : ZipReader :=
  storedReader [(manifestFile, content), (recordsFile, []), (chainFile, [])]

/-- A manifest that is an opening brace. -/
theorem main_reports_truncated :
    ReportsOn samplePlatform (manifestArchive [0x7b]) (.ok []) none sampleVerifiedAt := by
  apply (main_reports_iff (referencePlatform_lawful _) (manifestArchive [0x7b]) (.ok []) none
    sampleVerifiedAt).mpr
  refine ⟨⟨?_, ?_⟩, ?_⟩
  · rintro source ⟨⟩ - exc ⟨⟩
  · rintro source infos ⟨⟨⟩, -, ⟨⟩, -, -⟩
    have noValue : ¬ ∃ v, MemberHolds ((manifestArchive [0x7b]).read [] manifestFile)
        (ManifestHolds samplePlatform) v := by
      rintro ⟨v, content, ⟨⟩, text, ⟨⟩, read⟩
      cases read
    refine ⟨⟨by rintro exc ⟨⟩, ?_⟩, fun held => absurd held noValue, fun held => absurd held noValue,
      fun v held => absurd ⟨v, held⟩ noValue⟩
    rintro content ⟨⟩ text ⟨⟩ read
    cases read
  · rintro bundle ⟨_, _, ⟨⟨⟩, -, -, -, -⟩, manifest, _, _, ⟨content, ⟨⟩, text, ⟨⟩, read⟩, -⟩
    cases read

/-- The error of `json.loads` on an integer over the digit limit is no `JSONDecodeError`. -/
theorem main_escapes_of_intDigits (content : Bytes) (text : Str)
    (short : content.length ≤ maxEvidenceArchiveBytes) (decoded : decodeUtf8 content = some text)
    (loads : Json.loads platform.floats text = .error .intDigits)
    (expectedHeadHash : Option Sha256Digest) (now : Datetime) :
    loadArchive platform (manifestArchive content) (.ok []) = .error (.python .valueError) ∧
      main platform (manifestArchive content) (.ok []) expectedHeadHash now =
        .error (.python .valueError) := by
  have manifest : parseManifest platform content = .error .valueError := by
    simp [parseManifest, decoded, orRaise, loads, bind, Except.bind, throw, throwThe,
      MonadExceptOf.throw]
  have escapes : loadArchive platform (manifestArchive content) (.ok []) =
      .error (.python .valueError) := by
    have layout : checkLayout [⟨manifestFile, content.length⟩, ⟨recordsFile, 0⟩, ⟨chainFile, 0⟩] =
        .ok () :=
      (checkLayout_eq_ok_iff _ _).mpr ⟨by simp only [Layout, List.map_cons]; decide, by simpa [totalSize] using short⟩
    have source : readArchiveBytes (.ok []) = .ok [] := rfl
    simp only [loadArchive, source, manifestArchive, storedReader, ofPython, ofZip, bind, Except.bind,
      List.map_cons, List.map_nil, List.length_nil, layout, List.find?_cons_of_pos, decide_true, manifest]
  refine ⟨escapes, ?_⟩
  rw [main, escapes]

theorem decodeUtf8_ones (n : Nat) :
    decodeUtf8 (List.replicate n 0x31) = some (List.replicate n 0x31) := by
  induction n with
  | zero => rfl
  | succ n ih =>
    rw [List.replicate_succ, List.replicate_succ, decodeUtf8.eq_def]
    dsimp only
    rw [if_pos (by decide), ih]
    rfl

/-- The reader stops at the digit limit. -/
def stopsAtDigits : Except LoadsError Json → Bool
  | .ok _ => false
  | .error .decode => false
  | .error .intDigits => true

theorem eq_intDigits {outcome : Except LoadsError Json} (stops : stopsAtDigits outcome = true) :
    outcome = .error .intDigits := by
  rcases outcome with (_ | _) | _
  · cases stops
  · rfl
  · cases stops

/-- A manifest of one integer with 4301 digits. -/
theorem long_integer_escapes :
    loadArchive samplePlatform (manifestArchive (List.replicate 4301 0x31)) (.ok []) =
        .error (.python .valueError) ∧
      main samplePlatform (manifestArchive (List.replicate 4301 0x31)) (.ok []) none sampleVerifiedAt =
        .error (.python .valueError) := by
  apply main_escapes_of_intDigits _ (List.replicate 4301 0x31)
  · rw [List.length_replicate]
    decide
  · exact decodeUtf8_ones 4301
  · exact eq_intDigits (by decide +kernel)

end DecAustrum.EvidenceVerifier
