import DecAustrum.Integrity
import Mathlib.Data.List.DropRight

/-!
# Evidence bundles

The records of an export: search filters, the manifest, and the bundle of a manifest, the
selected decisions with their proofs, and the chain of a project.
-/
namespace DecAustrum

open Python

/-! ## Constrained text -/

/-- The characters `strip_whitespace` removes. -/
def isWhiteSpace (c : CodePoint) : Bool :=
  (0x09 ≤ c && c ≤ 0x0d) || c = 0x20 || c = 0x85 || c = 0xa0 || c = 0x1680 ||
  (0x2000 ≤ c && c ≤ 0x200a) || c = 0x2028 || c = 0x2029 || c = 0x202f || c = 0x205f || c = 0x3000

def strip (s : Str) : Str := (s.dropWhile isWhiteSpace).rdropWhile isWhiteSpace

/-- Stripped text of 1 to 200 characters: `SearchText` and `ExactSearchValue`. -/
structure SearchText where
  text : Str
  stripped : strip text = text
  length : 1 ≤ text.length ∧ text.length ≤ 200
  encodable : text.any isSurrogate = false
  deriving DecidableEq

theorem strip_strip (s : Str) : strip (strip s) = strip s := by
  have leading (t : Str) (head : t = [] ∨ ∃ c rest, t = c :: rest ∧ isWhiteSpace c = false) :
      (t.rdropWhile isWhiteSpace).dropWhile isWhiteSpace = t.rdropWhile isWhiteSpace := by
    rcases head with rfl | ⟨c, rest, rfl, solid⟩
    · rfl
    · rcases List.rdropWhile_prefix isWhiteSpace (l := c :: rest) with ⟨removed, whole⟩
      cases kept : (c :: rest).rdropWhile isWhiteSpace with
      | nil => rfl
      | cons d kept' =>
        rw [kept, List.cons_append, List.cons.injEq] at whole
        rw [List.dropWhile_cons_of_neg (by rw [whole.1, solid]; decide)]
  have opened : s.dropWhile isWhiteSpace = [] ∨
      ∃ c rest, s.dropWhile isWhiteSpace = c :: rest ∧ isWhiteSpace c = false := by
    cases dropped : s.dropWhile isWhiteSpace with
    | nil => exact .inl rfl
    | cons c rest =>
      refine .inr ⟨c, rest, rfl, ?_⟩
      have head := List.head?_dropWhile_not isWhiteSpace s
      rw [dropped] at head
      simpa using head
  unfold strip
  rw [leading _ opened, List.rdropWhile_idempotent]

/-- The constrained-text reader: strip, then check. -/
def SearchText.validate : Json → Option SearchText
  | .str s =>
    if checked : (1 ≤ (strip s).length ∧ (strip s).length ≤ 200) ∧
        (strip s).any isSurrogate = false then
      some ⟨strip s, strip_strip s, checked.1, checked.2⟩
    else none
  | _ => none

theorem SearchText.validate_text (t : SearchText) : validate (.str t.text) = some t := by
  have checked : (1 ≤ (strip t.text).length ∧ (strip t.text).length ≤ 200) ∧
      (strip t.text).any isSurrogate = false := by
    rw [t.stripped]
    exact ⟨t.length, t.encodable⟩
  rw [validate, dif_pos checked]
  cases t
  simp_all

/-- A datetime in UTC, what `_utc` leaves. -/
abbrev UtcDatetime := { d : Datetime // d.offset = some 0 }

theorem make?_offset {year month day hour minute second microsecond : Nat} {offset : Option Int}
    {d : Datetime}
    (made : Datetime.make? year month day hour minute second microsecond offset = some d) :
    d.offset = offset := by
  unfold Datetime.make? at made
  split at made
  · cases made
    rfl
  · cases made

theorem astimezoneUtc_offset (d u : Datetime) (converted : d.astimezoneUtc = some u) :
    u.offset = some 0 := by
  unfold Datetime.astimezoneUtc at converted
  split at converted
  · cases converted
  next offset zone =>
  split at converted
  next utc =>
    cases converted
    rw [zone, utc]
  · rw [Datetime.ofClock] at converted
    split at converted
    · cases converted
    · exact make?_offset converted

/-- `_utc`: a zone is required, and `astimezone` overflows outside the years of a datetime. -/
def UtcDatetime.of (d : Datetime) : Except PyExc UtcDatetime :=
  if d.offset = none then .error .validationError
  else
    match converted : d.astimezoneUtc with
    | none => .error .overflowError
    | some u => .ok ⟨u, astimezoneUtc_offset d u converted⟩

@[simp] theorem UtcDatetime.of_val (d : UtcDatetime) : UtcDatetime.of d.val = .ok d := by
  have same : d.val.astimezoneUtc = some d.val := by
    rw [Datetime.astimezoneUtc, d.property]
    rfl
  rw [UtcDatetime.of, if_neg (by rw [d.property]; simp)]
  split
  next unconverted =>
    rw [same] at unconverted
    cases unconverted
  next u converted =>
    rw [same, Option.some.injEq] at converted
    exact congrArg _ (Subtype.ext converted.symm)

/-! ## Filters -/

inductive EvidenceApprovalStatus where
  | pending
  | approved
  | rejected
  | expired
  | none
  deriving DecidableEq, Repr

def EvidenceApprovalStatus.text : EvidenceApprovalStatus → Str
  | .pending => "PENDING"
  | .approved => "APPROVED"
  | .rejected => "REJECTED"
  | .expired => "EXPIRED"
  | .none => "NONE"

inductive DecisionSortOrder where
  | asc
  | desc
  deriving DecidableEq, Repr

def DecisionSortOrder.text : DecisionSortOrder → Str
  | .asc => "asc"
  | .desc => "desc"

/-- `DecisionSearchFilters`, with what its model validator checks. -/
structure DecisionSearchFilters where
  decision : Option Decision
  agent : Option SearchText
  action : Option SearchText
  policyId : Option SearchText
  hasPolicy : Option Bool
  approvalStatus : Option EvidenceApprovalStatus
  evaluatedAfter : Option UtcDatetime
  evaluatedBefore : Option UtcDatetime
  query : Option SearchText
  sort : DecisionSortOrder
  combination : ¬ (policyId.isSome = true ∧ hasPolicy = some false)
  period : ∀ a ∈ evaluatedAfter, ∀ b ∈ evaluatedBefore, a.val.clock ≤ b.val.clock
  deriving DecidableEq

/-- `DecisionSearchFilters()`. -/
def DecisionSearchFilters.all : DecisionSearchFilters :=
  ⟨none, none, none, none, none, none, none, none, none, .desc, by simp, by simp⟩

def DecisionSearchFilters.dump (f : DecisionSearchFilters) : Json :=
  .obj [("decision", dumpOptional (fun d => .str d.text) f.decision),
    ("agent", dumpOptional (fun t => .str t.text) f.agent),
    ("action", dumpOptional (fun t => .str t.text) f.action),
    ("policy_id", dumpOptional (fun t => .str t.text) f.policyId),
    ("has_policy", dumpOptional .bool f.hasPolicy),
    ("approval_status", dumpOptional (fun s => .str s.text) f.approvalStatus),
    ("evaluated_after", dumpOptional (fun d => .str d.val.json) f.evaluatedAfter),
    ("evaluated_before", dumpOptional (fun d => .str d.val.json) f.evaluatedBefore),
    ("query", dumpOptional (fun t => .str t.text) f.query), ("sort", .str f.sort.text)]

/-! ## Bundles -/

structure EvidenceExportSnapshot where
  projectId : Uuid
  capturedAt : UtcDatetime
  maxSequenceNumber : Nat
  chainRecordCount : Nat
  chainHeadHash : Option Sha256Digest
  recordCount : Nat

/-- `EvidenceBundleManifest`; its `schema_version` has one value. -/
structure EvidenceBundleManifest where
  exportId : Uuid
  generatedAt : UtcDatetime
  snapshotAt : UtcDatetime
  projectId : Uuid
  criteria : DecisionSearchFilters
  recordCount : Nat
  chainRecordCount : Nat
  chainHeadHash : Option Sha256Digest
  expectedHeadHash : Option Sha256Digest
  recordsSha256 : Sha256Digest
  chainSha256 : Sha256Digest
  bundleSha256 : Sha256Digest

structure VerifiableDecisionRecord where
  decision : AuthorizationResponse
  integrity : DecisionIntegrityProof

structure EvidenceBundle where
  manifest : EvidenceBundleManifest
  records : List VerifiableDecisionRecord
  chain : List DecisionIntegrityProof

def dumpDigest (d : Sha256Digest) : Json := .str d.val

def DecisionIntegrityProof.dump (p : DecisionIntegrityProof) : Json :=
  .obj [("decision_id", .str p.decisionId.str), ("project_id", .str p.projectId.str),
    ("sequence_number", .int p.sequenceNumber),
    ("previous_hash", dumpOptional dumpDigest p.previousHash),
    ("payload_hash", dumpDigest p.payloadHash), ("record_hash", dumpDigest p.recordHash),
    ("algorithm", .str integrityAlgorithm), ("schema_version", .int integritySchemaVersion),
    ("created_at", .str p.createdAt.json)]

def VerifiableDecisionRecord.dumped (r : VerifiableDecisionRecord) : Json :=
  .obj [("decision", r.decision.dumped), ("integrity", r.integrity.dump)]

def VerifiableDecisionRecord.dump (r : VerifiableDecisionRecord) : Except PyExc Json := do
  let _ ← r.decision.dump
  return r.dumped

theorem VerifiableDecisionRecord.dump_eq_ok (r : VerifiableDecisionRecord) (v : Json) :
    r.dump = .ok v ↔ r.decision.Dumpable ∧ v = r.dumped := by
  simp only [dump, bind_eq_ok, AuthorizationResponse.dump_eq_ok, pure, Except.pure, Except.ok.injEq]
  constructor
  · rintro ⟨_, ⟨dumpable, -⟩, rfl⟩
    exact ⟨dumpable, rfl⟩
  · rintro ⟨dumpable, rfl⟩
    exact ⟨_, ⟨dumpable, rfl⟩, rfl⟩

/-- The record that the dump is read back as. -/
def VerifiableDecisionRecord.written (r : VerifiableDecisionRecord) : VerifiableDecisionRecord :=
  { r with decision := r.decision.written }

/-- The record with the context of its decision in key order. -/
def VerifiableDecisionRecord.canonical (r : VerifiableDecisionRecord) : VerifiableDecisionRecord :=
  { r with decision := r.decision.canonical }

def EvidenceBundle.written (b : EvidenceBundle) : EvidenceBundle :=
  { b with records := b.records.map (·.written) }

def EvidenceBundle.canonical (b : EvidenceBundle) : EvidenceBundle :=
  { b with records := b.records.map (·.canonical) }

/-- The manifest's fields without `bundle_sha256`. -/
def EvidenceBundleManifest.fields (m : EvidenceBundleManifest) : List (Str × Json) :=
  [("schema_version", .int 1), ("export_id", .str m.exportId.str),
    ("generated_at", .str m.generatedAt.val.json), ("snapshot_at", .str m.snapshotAt.val.json),
    ("project_id", .str m.projectId.str), ("criteria", m.criteria.dump),
    ("record_count", .int m.recordCount), ("chain_record_count", .int m.chainRecordCount),
    ("chain_head_hash", dumpOptional dumpDigest m.chainHeadHash),
    ("expected_head_hash", dumpOptional dumpDigest m.expectedHeadHash),
    ("records_sha256", dumpDigest m.recordsSha256), ("chain_sha256", dumpDigest m.chainSha256)]

def EvidenceBundleManifest.dump (m : EvidenceBundleManifest) : Json :=
  .obj (m.fields ++ [(ofString "bundle_sha256", dumpDigest m.bundleSha256)])

/-- `_manifest_without_bundle_digest`. -/
def EvidenceBundleManifest.dumpWithoutBundleDigest (m : EvidenceBundleManifest) : Json :=
  .obj m.fields

/-! ## Readers -/

def readDigest : Json → Option Sha256Digest
  | .str s => Sha256Digest.validate s
  | _ => none

@[simp] theorem readDigest_dump (d : Sha256Digest) : readDigest (dumpDigest d) = some d :=
  Sha256Digest.validate_val d

/-- `Literal[1]`, which `True` and `1.0` are equal to. -/
def readSchemaVersion : Json → Option Unit
  | .int n => if n = 1 then some () else none
  | .bool b => if b then some () else none
  | .float x => if x.bits = 0x3ff0000000000000#64 then some () else none
  | _ => none

/-- `Literal["SHA-256"]`. -/
def readAlgorithm : Json → Option Unit
  | .str s => if s = integrityAlgorithm then some () else none
  | _ => none

def readApprovalStatus : Json → Option EvidenceApprovalStatus :=
  readLiteral [.pending, .approved, .rejected, .expired, .none] EvidenceApprovalStatus.text

def readSortOrder : Json → Option DecisionSortOrder := readLiteral [.asc, .desc] DecisionSortOrder.text

@[simp] theorem readApprovalStatus_text (s : EvidenceApprovalStatus) :
    readApprovalStatus (.str s.text) = some s := by
  cases s <;> rfl

@[simp] theorem readSortOrder_text (o : DecisionSortOrder) : readSortOrder (.str o.text) = some o := by
  cases o <;> rfl

section Readers

variable (platform : Platform)

/-- A datetime that `_utc` converts. `none` is an error of validation; an overflow of `astimezone`
is no such error and leaves the model at once. -/
def readTimezone (v : Json) : Except PyExc (Option UtcDatetime) :=
  match platform.readDatetime v with
  | none => .ok none
  | some d =>
    match UtcDatetime.of d with
    | .ok u => .ok (some u)
    | .error .validationError => .ok none
    | .error exc => .error exc

/-- The same of `datetime | None`. -/
def readTimezoneOptional : Json → Except PyExc (Option (Option UtcDatetime))
  | .null => .ok (some none)
  | v => (readTimezone platform v).map fun read => read.map some

/-- `Field(ge=0)`. -/
def readCount (v : Json) : Option Nat :=
  (platform.readInt v).bind fun n => if 0 ≤ n then some n.toNat else none

def DecisionIntegrityProof.validate (v : Json) : Option DecisionIntegrityProof := do
  let decisionId ← requiredField "decision_id" platform.readUuid v
  let projectId ← requiredField "project_id" platform.readUuid v
  let sequenceNumber ← requiredField "sequence_number" platform.readInt v
  let previousHash ← defaultField "previous_hash" none (readOptional readDigest) v
  let payloadHash ← requiredField "payload_hash" readDigest v
  let recordHash ← requiredField "record_hash" readDigest v
  let _ ← defaultField "algorithm" () readAlgorithm v
  let _ ← defaultField "schema_version" () readSchemaVersion v
  let createdAt ← requiredField "created_at" platform.readDatetime v
  if positive : 1 ≤ sequenceNumber then
    return ⟨decisionId, projectId, sequenceNumber, previousHash, payloadHash, recordHash, createdAt,
      positive⟩
  else none

def VerifiableDecisionRecord.validate (v : Json) : Option VerifiableDecisionRecord := do
  let decision ← requiredField "decision" (AuthorizationResponse.validate platform) v
  let integrity ← requiredField "integrity" (DecisionIntegrityProof.validate platform) v
  return ⟨decision, integrity⟩

/-- A field whose reader can leave the model at once, and what a missing field reads as. -/
def raisingField {α : Type} (key : Str) (missing : Option α)
    (read : Json → Except PyExc (Option α)) (v : Json) : Except PyExc (Option α) :=
  match v.get? key with
  | none => .ok missing
  | some w => read w

/-- What the other fields and the model validator of `DecisionSearchFilters` make of its times. -/
def DecisionSearchFilters.validateWith (after before : Option (Option UtcDatetime)) (v : Json) :
    Option DecisionSearchFilters := do
  let decision ← defaultField "decision" none (readOptional readDecision) v
  let agent ← defaultField "agent" none (readOptional SearchText.validate) v
  let action ← defaultField "action" none (readOptional SearchText.validate) v
  let policyId ← defaultField "policy_id" none (readOptional SearchText.validate) v
  let hasPolicy ← defaultField "has_policy" none (readOptional platform.readBool) v
  let approvalStatus ← defaultField "approval_status" none (readOptional readApprovalStatus) v
  let evaluatedAfter ← after
  let evaluatedBefore ← before
  let query ← defaultField "query" none (readOptional SearchText.validate) v
  let sort ← defaultField "sort" .desc readSortOrder v
  if combination : ¬ (policyId.isSome = true ∧ hasPolicy = some false) then
    if period : ∀ a ∈ evaluatedAfter, ∀ b ∈ evaluatedBefore, a.val.clock ≤ b.val.clock then
      return ⟨decision, agent, action, policyId, hasPolicy, approvalStatus, evaluatedAfter,
        evaluatedBefore, query, sort, combination, period⟩
    else none
  else none

/-- `DecisionSearchFilters`: every field has a default, so only the shape is required. -/
def DecisionSearchFilters.validate : Json → Except PyExc (Option DecisionSearchFilters)
  | .obj fields => do
    let after ← raisingField "evaluated_after" (some none) (readTimezoneOptional platform)
      (.obj fields)
    let before ← raisingField "evaluated_before" (some none) (readTimezoneOptional platform)
      (.obj fields)
    return DecisionSearchFilters.validateWith platform after before (.obj fields)
  | _ => .ok none

/-- What the other fields of a manifest make of its times and its criteria. -/
def EvidenceBundleManifest.validateWith (generated snapshot : Option UtcDatetime)
    (filters : Option DecisionSearchFilters) (v : Json) : Option EvidenceBundleManifest := do
  let _ ← defaultField "schema_version" () readSchemaVersion v
  let exportId ← requiredField "export_id" platform.readUuid v
  let generatedAt ← generated
  let snapshotAt ← snapshot
  let projectId ← requiredField "project_id" platform.readUuid v
  let criteria ← filters
  let recordCount ← requiredField "record_count" (readCount platform) v
  let chainRecordCount ← requiredField "chain_record_count" (readCount platform) v
  let chainHeadHash ← defaultField "chain_head_hash" none (readOptional readDigest) v
  let expectedHeadHash ← defaultField "expected_head_hash" none (readOptional readDigest) v
  let recordsSha256 ← requiredField "records_sha256" readDigest v
  let chainSha256 ← requiredField "chain_sha256" readDigest v
  let bundleSha256 ← requiredField "bundle_sha256" readDigest v
  return ⟨exportId, generatedAt, snapshotAt, projectId, criteria, recordCount, chainRecordCount,
    chainHeadHash, expectedHeadHash, recordsSha256, chainSha256, bundleSha256⟩

def EvidenceBundleManifest.validate (v : Json) : Except PyExc (Option EvidenceBundleManifest) := do
  let generated ← raisingField "generated_at" none (readTimezone platform) v
  let snapshot ← raisingField "snapshot_at" none (readTimezone platform) v
  let filters ← raisingField "criteria" none (DecisionSearchFilters.validate platform) v
  return EvidenceBundleManifest.validateWith platform generated snapshot filters v

def EvidenceBundle.validate (v : Json) : Except PyExc EvidenceBundle := do
  let read ← raisingField "manifest" none (EvidenceBundleManifest.validate platform) v
  orRaise .validationError do
    let manifest ← read
    let records ← requiredField "records" (readList (VerifiableDecisionRecord.validate platform)) v
    let chain ← requiredField "chain" (readList (DecisionIntegrityProof.validate platform)) v
    return ⟨manifest, records, chain⟩

end Readers

end DecAustrum
