import DecAustrum.Policies
import DecAustrum.Storage.ApprovalTables

/-!
# Resources

The records that the administrative operations read and write, and the form of each that audit
events and webhooks carry. Times of the store are in UTC, where the order of the stored texts is
the order of the moments.
-/
namespace DecAustrum

open Python

namespace UtcDatetime

instance : LT UtcDatetime := ⟨fun a b => a.val.clock < b.val.clock⟩

instance : LE UtcDatetime := ⟨fun a b => a.val.clock ≤ b.val.clock⟩

theorem lt_iff (a b : UtcDatetime) : a < b ↔ a.val.clock < b.val.clock := Iff.rfl

theorem le_iff (a b : UtcDatetime) : a ≤ b ↔ a.val.clock ≤ b.val.clock := Iff.rfl

theorem not_le (a b : UtcDatetime) : ¬a ≤ b ↔ b < a := Int.not_le

theorem not_lt (a b : UtcDatetime) : ¬a < b ↔ b ≤ a := Int.not_lt

theorem le_refl (a : UtcDatetime) : a ≤ a := Int.le_refl _

theorem le_trans {a b c : UtcDatetime} (first : a ≤ b) (second : b ≤ c) : a ≤ c :=
  Int.le_trans first second

instance : DecidableLT UtcDatetime := fun a b => inferInstanceAs (Decidable (a.val.clock < b.val.clock))

instance : DecidableLE UtcDatetime := fun a b => inferInstanceAs (Decidable (a.val.clock ≤ b.val.clock))

/-- `d + timedelta(seconds=n)`; `none` is an overflow. -/
def addSeconds (d : UtcDatetime) (n : Int) : Option UtcDatetime :=
  (Datetime.ofClock (d.val.clock + n * 1000000)).bind fun sum => (of sum).toOption

end UtcDatetime

def dumpUtc (d : UtcDatetime) : Json := .str d.val.json

/-! ## Projects and keys -/

inductive ProjectStatus where
  | active
  | disabled
  deriving DecidableEq, Repr

def ProjectStatus.text : ProjectStatus → Str
  | .active => "ACTIVE"
  | .disabled => "DISABLED"

structure Project where
  projectId : Uuid
  name : Str
  status : ProjectStatus
  createdAt : UtcDatetime
  updatedAt : UtcDatetime
  deriving DecidableEq

def Project.dump (p : Project) : Json :=
  .obj [("project_id", .str p.projectId.str), ("name", .str p.name), ("status", .str p.status.text),
    ("created_at", dumpUtc p.createdAt), ("updated_at", dumpUtc p.updatedAt)]

inductive ProjectApiKeyRole where
  | runtime
  | reviewer
  deriving DecidableEq, Repr

def ProjectApiKeyRole.text : ProjectApiKeyRole → Str
  | .runtime => "RUNTIME"
  | .reviewer => "REVIEWER"

structure ProjectApiKeyMetadata where
  apiKeyId : Uuid
  projectId : Uuid
  keyPrefix : Str
  role : ProjectApiKeyRole
  createdAt : UtcDatetime
  revokedAt : Option UtcDatetime
  deriving DecidableEq

/-- A key as stored: its metadata and the hash of the key. -/
structure ProjectApiKeyRecord extends ProjectApiKeyMetadata where
  keyHash : Str
  deriving DecidableEq

def ProjectApiKeyMetadata.dump (k : ProjectApiKeyMetadata) : Json :=
  .obj [("api_key_id", .str k.apiKeyId.str), ("project_id", .str k.projectId.str),
    ("key_prefix", .str k.keyPrefix), ("role", .str k.role.text),
    ("created_at", dumpUtc k.createdAt), ("revoked_at", dumpOptional dumpUtc k.revokedAt)]

/-! ## Policies -/

structure ProjectPolicyConfiguration where
  projectId : Uuid
  policy : Policy
  enabled : Bool
  updatedAt : UtcDatetime

/-- A policy that is configured has been written before, so writing it again does not raise. -/
def ProjectPolicyConfiguration.dump (c : ProjectPolicyConfiguration) : Json :=
  .obj [("project_id", .str c.projectId.str), ("policy", c.policy.dumped),
    ("enabled", .bool c.enabled), ("updated_at", dumpUtc c.updatedAt)]

inductive PolicyVersionChangeType where
  | created
  | updated
  | rollback
  | migrated
  deriving DecidableEq, Repr

/-- `validate_version_identity`. -/
def validVersionIdentity (policyId : Str) (version : Int) (policy : Policy)
    (changeType : PolicyVersionChangeType) (sourceVersion : Option Int) : Bool :=
  policy.id = policyId && policy.version = version &&
    (changeType = .rollback) == sourceVersion.isSome

structure ProjectPolicyVersion where
  projectId : Uuid
  policyId : Str
  version : Int
  policy : Policy
  changeType : PolicyVersionChangeType
  sourceVersion : Option Int
  createdAt : UtcDatetime
  identity : validVersionIdentity policyId version policy changeType sourceVersion = true

/-! ## Approvals and grants -/

def ApprovalStatus.text : ApprovalStatus → Str
  | .pending => "PENDING"
  | .approved => "APPROVED"
  | .rejected => "REJECTED"
  | .expired => "EXPIRED"

/-- `validate_lifecycle` of an approval. -/
def validApprovalLifecycle (status : ApprovalStatus) (requestedAt : UtcDatetime)
    (expiresAt resolvedAt : Option UtcDatetime) (resolvedBy : Option Str) : Bool :=
  (expiresAt.all fun expires => requestedAt < expires) &&
    (if status = .pending then resolvedAt.isNone && resolvedBy.isNone
      else resolvedAt.isSome && resolvedBy.isSome) &&
    (resolvedAt.all fun resolved => requestedAt ≤ resolved) &&
    (status ≠ .expired ||
      expiresAt.all fun expires => resolvedAt.all fun resolved => expires ≤ resolved)

structure ApprovalRecord where
  decisionId : Uuid
  status : ApprovalStatus
  requestedAt : UtcDatetime
  expiresAt : Option UtcDatetime
  resolvedAt : Option UtcDatetime
  resolvedBy : Option Str
  lifecycle : validApprovalLifecycle status requestedAt expiresAt resolvedAt resolvedBy = true
  deriving DecidableEq

def ApprovalRecord.dump (a : ApprovalRecord) : Json :=
  .obj [("decision_id", .str a.decisionId.str), ("status", .str a.status.text),
    ("requested_at", dumpUtc a.requestedAt), ("expires_at", dumpOptional dumpUtc a.expiresAt),
    ("resolved_at", dumpOptional dumpUtc a.resolvedAt),
    ("resolved_by", dumpOptional .str a.resolvedBy)]

def GrantStatus.text : GrantStatus → Str
  | .active => "ACTIVE"
  | .consumed => "CONSUMED"
  | .expired => "EXPIRED"

structure ExecutionGrantPayload where
  grantId : Uuid
  decisionId : Uuid
  projectId : Uuid
  requestFingerprint : Sha256Digest
  issuedAt : UtcDatetime
  expiresAt : UtcDatetime
  expiry : issuedAt < expiresAt
  deriving DecidableEq

/-- `validate_status` of a grant. -/
def validGrantStatus (status : GrantStatus) (expiresAt : UtcDatetime)
    (consumedAt : Option UtcDatetime) (consumedBy : Option SearchText) : Bool :=
  if status = .consumed then
    consumedBy.isSome && consumedAt.any fun consumed => consumed < expiresAt
  else consumedAt.isNone && consumedBy.isNone

structure ExecutionGrantRecord extends ExecutionGrantPayload where
  status : GrantStatus
  tokenHash : Sha256Digest
  consumedAt : Option UtcDatetime
  consumedBy : Option SearchText
  consumption : validGrantStatus status expiresAt consumedAt consumedBy = true
  deriving DecidableEq

/-- The fingerprint and the hash of the token are excluded. -/
def ExecutionGrantRecord.dump (g : ExecutionGrantRecord) : Json :=
  .obj [("version", .int 1), ("grant_id", .str g.grantId.str),
    ("decision_id", .str g.decisionId.str), ("project_id", .str g.projectId.str),
    ("issued_at", dumpUtc g.issuedAt), ("expires_at", dumpUtc g.expiresAt),
    ("status", .str g.status.text), ("consumed_at", dumpOptional dumpUtc g.consumedAt),
    ("consumed_by", dumpOptional (fun t : SearchText => .str t.text) g.consumedBy)]

structure IdempotencyRecord where
  projectId : Uuid
  idempotencyKey : Str
  requestFingerprint : Str
  decisionId : Uuid
  createdAt : Datetime
  deriving DecidableEq

end DecAustrum
