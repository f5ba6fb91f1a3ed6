import DecAustrum.Models

/-!
# Integrity proofs

The payload of a decision, the envelope of its integrity record, and their digests.
-/
namespace DecAustrum

open Python

abbrev Sha256Digest := { s : Str // isSha256Digest s = true }

def Sha256Digest.validate (s : Str) : Option Sha256Digest :=
  if pattern : isSha256Digest s = true then some ⟨s, pattern⟩ else none

@[simp] theorem Sha256Digest.validate_val (d : Sha256Digest) : validate d.val = some d := by
  rw [validate, dif_pos d.property]

theorem Sha256Digest.validate_eq_some (s : Str) (d : Sha256Digest) :
    validate s = some d ↔ s = d.val := by
  constructor
  · intro validated
    unfold validate at validated
    split at validated
    · cases validated
      rfl
    · cases validated
  · rintro rfl
    exact validate_val d

/-- `Sha256Digest | None`. -/
def Sha256Digest.validateOptional : Option Str → Option (Option Sha256Digest)
  | none => some none
  | some s => (validate s).map some

/-- `DecisionIntegrityProof`; its `algorithm` and `schema_version` have one value each. -/
structure DecisionIntegrityProof where
  decisionId : Uuid
  projectId : Uuid
  sequenceNumber : Int
  previousHash : Option Sha256Digest
  payloadHash : Sha256Digest
  recordHash : Sha256Digest
  createdAt : Datetime
  positive : 1 ≤ sequenceNumber
  deriving DecidableEq

def integrityAlgorithm : Str := "SHA-256"

def integritySchemaVersion : Int := 1

def conditionPayload (c : ConditionEvidence) : Json :=
  .obj [("field", .str c.field), ("operator", .str c.operator.text),
    ("actual_value", c.actualValue.json), ("expected_value", c.expectedValue.json),
    ("matched", .bool c.matched)]

def evidencePayload (e : PolicyEvidence) : Json :=
  .obj [("match", .str e.matchMode.text), ("conditions", .arr (e.conditions.map conditionPayload))]

def tracePayload (t : PolicyTraceEntry) : Json :=
  .obj [("policy_id", .str t.policyId), ("policy_version", .int t.policyVersion),
    ("decision", .str t.decision.text), ("reason", .str t.reason), ("matched", .bool t.matched),
    ("evidence", evidencePayload t.evidence)]

/-- What `authorization_payload_v1` returns. -/
def AuthorizationResponse.payload (a : AuthorizationResponse) : Json :=
  .obj [("decision_id", .str a.decisionId.str), ("project_id", .str a.projectId.str),
    ("evaluated_at", .str a.evaluatedAt.json), ("decision", .str a.decision.text),
    ("policy", dumpOptional .str a.policy), ("policy_version", dumpOptional .int a.policyVersion),
    ("reason", .str a.reason), ("evidence", dumpOptional evidencePayload a.evidence),
    ("agent", .str a.agent), ("action", .str a.action), ("context", a.context.dumped),
    ("trace", .arr (a.trace.map tracePayload))]

/-- The dump of the decision comes first. Those of its evidence and its trace, which the payload
repeats, are parts of it. -/
def authorizationPayloadV1 (a : AuthorizationResponse) : Except PyExc Json := do
  let _ ← a.dump
  return a.payload

def integrityRecordEnvelope (algorithm : Str) (createdAt : Str) (decisionId : Uuid)
    (payloadHash : Str) (previousHash : Option Str) (projectId : Uuid) (schemaVersion : Int)
    (sequenceNumber : Int) : Json :=
  .obj [("algorithm", .str algorithm), ("created_at", .str createdAt),
    ("decision_id", .str decisionId.str), ("payload_hash", .str payloadHash),
    ("previous_hash", dumpOptional .str previousHash), ("project_id", .str projectId.str),
    ("schema_version", .int schemaVersion), ("sequence_number", .int sequenceNumber)]

section Digests

variable (platform : Platform)

def canonicalJson (v : Json) : Except PyExc Str :=
  orRaise .valueError (v.dumps platform.floats .canonical)

def sha256Digest (text : Str) : Except PyExc Str :=
  (orRaise .unicodeEncodeError (encodeUtf8 text)).map platform.sha256

/-- `sha256_digest(canonical_json(v))`. -/
def digest (v : Json) : Except PyExc Str := do
  let text ← canonicalJson platform v
  sha256Digest platform text

def calculateAuthorizationPayloadHash (a : AuthorizationResponse) : Except PyExc Str :=
  (authorizationPayloadV1 a).bind (digest platform)

def calculateIntegrityRecordHash (a : AuthorizationResponse) (sequenceNumber : Int)
    (previousHash : Option Str) (payloadHash : Str) : Except PyExc Str := do
  let _ ← authorizationPayloadV1 a
  digest platform (integrityRecordEnvelope integrityAlgorithm a.evaluatedAt.json a.decisionId
    payloadHash previousHash a.projectId integritySchemaVersion sequenceNumber)

def calculateIntegrityProofRecordHash (proof : DecisionIntegrityProof) : Except PyExc Str :=
  digest platform (integrityRecordEnvelope integrityAlgorithm proof.createdAt.json
    proof.decisionId proof.payloadHash.val (proof.previousHash.map (·.val)) proof.projectId
    integritySchemaVersion proof.sequenceNumber)

/-- The `DecisionIntegrityProof` constructor on hashes as text. -/
def DecisionIntegrityProof.make (decisionId projectId : Uuid) (sequenceNumber : Int)
    (previousHash : Option Str) (payloadHash recordHash : Str) (createdAt : Datetime) :
    Option DecisionIntegrityProof := do
  let previous ← Sha256Digest.validateOptional previousHash
  let payload ← Sha256Digest.validate payloadHash
  let record ← Sha256Digest.validate recordHash
  if positive : 1 ≤ sequenceNumber then
    return ⟨decisionId, projectId, sequenceNumber, previous, payload, record, createdAt, positive⟩
  else none

def buildDecisionIntegrityProof (a : AuthorizationResponse) (sequenceNumber : Int)
    (previousHash : Option Str) : Except PyExc DecisionIntegrityProof := do
  let payloadHash ← calculateAuthorizationPayloadHash platform a
  let recordHash ← calculateIntegrityRecordHash platform a sequenceNumber previousHash payloadHash
  orRaise .validationError (DecisionIntegrityProof.make a.decisionId a.projectId sequenceNumber
    previousHash payloadHash recordHash a.evaluatedAt)

/-- SHA-256 composed with canonical JSON is injective: values of one digest are equal,
key order apart. -/
def CollisionFree : Prop :=
  ∀ v w h, digest platform v = .ok h → digest platform w = .ok h → v.sortKeys = w.sortKeys

end Digests

/-! ## Digests -/

theorem digest_eq_ok_iff (platform : Platform) (v : Json) (hash : Str) :
    digest platform v = .ok hash ↔ v.encodable = true ∧ ∃ bytes,
      encodeUtf8 (v.sortKeys.text platform.floats .canonical) = some bytes ∧
        platform.sha256 bytes = hash := by
  unfold digest canonicalJson sha256Digest Json.dumps
  by_cases accepted : v.encodable = true
  · cases encoded : encodeUtf8 (v.sortKeys.text platform.floats .canonical) <;>
      simp [accepted, encoded, orRaise, bind, Except.bind, Except.map]
  · simp [accepted, orRaise, bind, Except.bind]

/-- Canonical JSON and UTF-8 are injective, so a digest with one preimage has one value. -/
theorem digest_inj (platform : Platform) (floats : platform.floats.Lawful) (hash : Str)
    (single : ∀ x y, platform.sha256 x = hash → platform.sha256 y = hash → x = y) (v w : Json)
    (vHashed : digest platform v = .ok hash) (wHashed : digest platform w = .ok hash) :
    v.sortKeys = w.sortKeys := by
  rcases (digest_eq_ok_iff platform v hash).mp vHashed with ⟨vAccepted, vBytes, vEncoded, vHash⟩
  rcases (digest_eq_ok_iff platform w hash).mp wHashed with ⟨wAccepted, wBytes, wEncoded, wHash⟩
  obtain rfl := single vBytes wBytes vHash wHash
  have texts := (decodeUtf8_encodeUtf8 _ _ vEncoded).symm.trans (decodeUtf8_encodeUtf8 _ _ wEncoded)
  exact Json.text_inj platform.floats .canonical floats Style.canonical_lawful _ _
    (by rw [Json.encodable_sortKeys, vAccepted]) (by rw [Json.encodable_sortKeys, wAccepted])
    (Json.readable_raw _) (Json.readable_raw _) (Option.some.inj texts)

theorem collisionFree_of_injective (platform : Platform) (floats : platform.floats.Lawful)
    (injective : ∀ x y, platform.sha256 x = platform.sha256 y → x = y) : CollisionFree platform :=
  fun v w hash => digest_inj platform floats hash
    (fun x y xHash yHash => injective x y (xHash.trans yHash.symm)) v w

/-! ## What is hashed of a decision -/

/-- The payload of a decision is its dump. -/
theorem AuthorizationResponse.payload_eq_dumped (a : AuthorizationResponse) :
    a.payload = a.dumped := rfl

theorem authorizationPayloadV1_eq_ok (a : AuthorizationResponse) (v : Json) :
    authorizationPayloadV1 a = .ok v ↔ a.Dumpable ∧ v = a.payload := by
  simp only [authorizationPayloadV1, bind_eq_ok, AuthorizationResponse.dump_eq_ok, pure, Except.pure,
    Except.ok.injEq]
  constructor
  · rintro ⟨_, ⟨dumpable, -⟩, rfl⟩
    exact ⟨dumpable, rfl⟩
  · rintro ⟨dumpable, rfl⟩
    exact ⟨_, ⟨dumpable, rfl⟩, rfl⟩

theorem payloadHash_eq_ok (platform : Platform) (a : AuthorizationResponse) (hash : Str) :
    calculateAuthorizationPayloadHash platform a = .ok hash ↔
      a.Dumpable ∧ digest platform a.payload = .ok hash := by
  refine (bind_eq_ok (authorizationPayloadV1 a) (digest platform) hash).trans ?_
  simp only [authorizationPayloadV1_eq_ok]
  constructor
  · rintro ⟨_, ⟨dumpable, rfl⟩, hashed⟩
    exact ⟨dumpable, hashed⟩
  · rintro ⟨dumpable, hashed⟩
    exact ⟨_, ⟨dumpable, rfl⟩, hashed⟩

theorem recordHash_eq_ok (platform : Platform) (a : AuthorizationResponse) (sequenceNumber : Int)
    (previousHash : Option Str) (payloadHash hash : Str) :
    calculateIntegrityRecordHash platform a sequenceNumber previousHash payloadHash = .ok hash ↔
      a.Dumpable ∧ digest platform (integrityRecordEnvelope integrityAlgorithm a.evaluatedAt.json
        a.decisionId payloadHash previousHash a.projectId integritySchemaVersion sequenceNumber) =
          .ok hash := by
  simp only [calculateIntegrityRecordHash, bind_eq_ok, authorizationPayloadV1_eq_ok]
  constructor
  · rintro ⟨_, ⟨dumpable, -⟩, hashed⟩
    exact ⟨dumpable, hashed⟩
  · rintro ⟨dumpable, hashed⟩
    exact ⟨_, ⟨dumpable, rfl⟩, hashed⟩

/-! ## What an envelope commits to -/

/-- A sorted object determines its members. -/
theorem get?_of_sortKeys_eq (key : Str) (v w : Json) (vUnique : v.uniqueKeys = true)
    (wUnique : w.uniqueKeys = true) (same : v.sortKeys = w.sortKeys) :
    (v.get? key).map Json.sortKeys = (w.get? key).map Json.sortKeys := by
  rw [← Json.get?_sortKeys key v vUnique, ← Json.get?_sortKeys key w wUnique, same]

theorem integrityRecordEnvelope_unique (algorithm createdAt : Str) (decisionId : Uuid)
    (payloadHash : Str) (previousHash : Option Str) (projectId : Uuid) (schema sequence : Int) :
    (integrityRecordEnvelope algorithm createdAt decisionId payloadHash previousHash projectId
      schema sequence).uniqueKeys = true := by
  cases previousHash <;> rfl

/-- The fields of an envelope that a ledger chains. -/
structure EnvelopeFields where
  createdAt : Str
  decisionId : Uuid
  payloadHash : Str
  previousHash : Option Str
  projectId : Uuid
  sequenceNumber : Int
  deriving DecidableEq

def EnvelopeFields.envelope (e : EnvelopeFields) : Json :=
  integrityRecordEnvelope integrityAlgorithm e.createdAt e.decisionId e.payloadHash e.previousHash
    e.projectId integritySchemaVersion e.sequenceNumber

theorem EnvelopeFields.envelope_inj (e f : EnvelopeFields)
    (same : e.envelope.sortKeys = f.envelope.sortKeys) : e = f := by
  have member (key : Str) := get?_of_sortKeys_eq key e.envelope f.envelope
    (integrityRecordEnvelope_unique ..) (integrityRecordEnvelope_unique ..) same
  have createdAt : some (Json.str e.createdAt) = some (.str f.createdAt) := member "created_at"
  have decisionId : some (Json.str e.decisionId.str) = some (.str f.decisionId.str) :=
    member "decision_id"
  have payloadHash : some (Json.str e.payloadHash) = some (.str f.payloadHash) :=
    member "payload_hash"
  have previousHash : some (dumpOptional Json.str e.previousHash).sortKeys =
      some (dumpOptional Json.str f.previousHash).sortKeys := member "previous_hash"
  have projectId : some (Json.str e.projectId.str) = some (.str f.projectId.str) :=
    member "project_id"
  have sequence : some (Json.int e.sequenceNumber) = some (.int f.sequenceNumber) :=
    member "sequence_number"
  have previous : e.previousHash = f.previousHash := by
    cases eHash : e.previousHash <;> cases fHash : f.previousHash <;>
      simp_all [dumpOptional, Json.sortKeys]
  simp only [Option.some.injEq, Json.str.injEq, Json.int.injEq] at *
  cases e
  cases f
  simp_all only [EnvelopeFields.mk.injEq, true_and, and_true]
  exact ⟨Uuid.str_inj _ _ decisionId, Uuid.str_inj _ _ projectId⟩

end DecAustrum
