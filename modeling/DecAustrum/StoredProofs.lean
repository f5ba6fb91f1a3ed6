import DecAustrum.Storage.Evidence

/-!
# Stored proofs

When a record is read as a proof, and that a proof is read back from its row.
-/
namespace DecAustrum

open Python

variable {platform : Platform}

/-- The columns of a record, read one by one, are the fields of the proof. -/
structure ReadsAs (platform : Platform) (i : IntegrityRow) (p : DecisionIntegrityProof) : Prop where
  decisionId : platform.readUuid (.str i.decisionId) = some p.decisionId
  projectId : platform.readUuid (.str i.projectId) = some p.projectId
  sequence : platform.readInt (.int i.sequenceNumber) = some p.sequenceNumber
  previous : i.previousHash = p.previousHash.map (·.val)
  payload : i.payloadHash = p.payloadHash.val
  record : i.recordHash = p.recordHash.val
  algorithm : i.algorithm = integrityAlgorithm
  schema : i.schemaVersion = integritySchemaVersion
  created : platform.readDatetime (.str i.createdAt) = some p.createdAt

private theorem readPrevious_iff (text : Option Str) (hash : Option Sha256Digest) :
    readOptional readDigest (dumpOptional .str text) = some hash ↔ text = hash.map (·.val) := by
  cases text with
  | none => cases hash <;> simp [readOptional, dumpOptional]
  | some s =>
    have read : readOptional readDigest (dumpOptional .str (some s)) =
        (Sha256Digest.validate s).map some := rfl
    rw [read]
    cases hash with
    | none => simp
    | some d => simp [Sha256Digest.validate_eq_some]

private theorem readAlgorithm_iff (s : Str) :
    readAlgorithm (.str s) = some () ↔ s = integrityAlgorithm := by
  rw [readAlgorithm]
  split <;> simp_all

private theorem readSchemaVersion_iff (n : Int) :
    readSchemaVersion (.int n) = some () ↔ n = integritySchemaVersion := by
  rw [readSchemaVersion, integritySchemaVersion]
  split <;> simp_all

theorem rowToProof_eq_ok_iff (i : IntegrityRow) (p : DecisionIntegrityProof) :
    rowToProof platform i = .ok p ↔ ReadsAs platform i p := by
  have decisionId : requiredField "decision_id" platform.readUuid (proofFields i) =
      platform.readUuid (.str i.decisionId) := rfl
  have projectId : requiredField "project_id" platform.readUuid (proofFields i) =
      platform.readUuid (.str i.projectId) := rfl
  have sequence : requiredField "sequence_number" platform.readInt (proofFields i) =
      platform.readInt (.int i.sequenceNumber) := rfl
  have previous : defaultField "previous_hash" none (readOptional readDigest) (proofFields i) =
      readOptional readDigest (dumpOptional .str i.previousHash) := rfl
  have payload : requiredField "payload_hash" readDigest (proofFields i) =
      Sha256Digest.validate i.payloadHash := rfl
  have record : requiredField "record_hash" readDigest (proofFields i) =
      Sha256Digest.validate i.recordHash := rfl
  have algorithm : defaultField "algorithm" () readAlgorithm (proofFields i) =
      readAlgorithm (.str i.algorithm) := rfl
  have schema : defaultField "schema_version" () readSchemaVersion (proofFields i) =
      readSchemaVersion (.int i.schemaVersion) := rfl
  have created : requiredField "created_at" platform.readDatetime (proofFields i) =
      platform.readDatetime (.str i.createdAt) := rfl
  rw [rowToProof, orRaise_eq_ok, DecisionIntegrityProof.validate, decisionId, projectId, sequence,
    previous, payload, record, algorithm, schema, created]
  simp only [Option.bind_eq_bind, Option.bind_eq_some_iff]
  constructor
  · rintro ⟨_, readId, _, readProject, _, readSequence, _, readPrevious, _, readPayload, _,
      readRecord, _, readAlgorithm_, _, readSchema, _, readCreated, made⟩
    split at made
    · cases made
      exact ⟨readId, readProject, readSequence, (readPrevious_iff _ _).mp readPrevious,
        (Sha256Digest.validate_eq_some _ _).mp readPayload,
        (Sha256Digest.validate_eq_some _ _).mp readRecord, (readAlgorithm_iff _).mp readAlgorithm_,
        (readSchemaVersion_iff _).mp readSchema, readCreated⟩
    · cases made
  · intro reads
    refine ⟨_, reads.decisionId, _, reads.projectId, _, reads.sequence, _,
      (readPrevious_iff _ _).mpr reads.previous, _,
      (Sha256Digest.validate_eq_some _ _).mpr reads.payload, _,
      (Sha256Digest.validate_eq_some _ _).mpr reads.record, _,
      (readAlgorithm_iff _).mpr reads.algorithm, _, (readSchemaVersion_iff _).mpr reads.schema, _,
      reads.created, ?_⟩
    rw [dif_pos p.positive]
    rfl

theorem rowToProof_integrityRow (lawful : platform.Lawful) (p : DecisionIntegrityProof) :
    rowToProof platform (integrityRow p) = .ok p :=
  (rowToProof_eq_ok_iff _ _).mpr
    { decisionId := lawful.readUuid_str _
      projectId := lawful.readUuid_str _
      sequence := lawful.readInt_int _
      previous := rfl
      payload := rfl
      record := rfl
      algorithm := rfl
      schema := rfl
      created := lawful.readDatetime_isoformat _ }

end DecAustrum
