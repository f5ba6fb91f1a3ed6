import DecAustrum.Storage.Approvals
import DecAustrum.Storage.Idempotency

/-!
# Authorizations, approvals and grants of the store

A decision is saved with its integrity record, its approval, its idempotency record and its
events in one connection. Approvals are swept for expired ones before they are resolved.
-/
namespace DecAustrum

open Python Transaction

namespace EvidenceStore

variable (platform : Platform)

/-! ## Decisions -/

/-- The decision and its integrity record. -/
def recordDecision (authorization : AuthorizationResponse) : Body DecisionIntegrityProof := do
  AuthorizationDecisionRepository.insert platform authorization
  DecisionIntegrityRepository.insert platform authorization

/-- The event `authorization.created`. -/
def publishAuthorization (authorization : AuthorizationResponse) : Body Unit := do
  let dumped ← ofPython authorization.dump
  let eventId ← Block.fresh
  let occurredAt ← ofPython (UtcDatetime.of authorization.evaluatedAt)
  let event ← ofPython (buildWebhookEvent eventId authorization.projectId .authorizationCreated
    occurredAt .authorizationDecision authorization.decisionId.str
    [("authorization", dumped)])
  enqueueWebhookEvent platform event

/-- The event `approval.requested`. -/
def publishApproval (projectId : Uuid) (approval : ApprovalRecord) : Body Unit := do
  let eventId ← Block.fresh
  let event ← ofPython (buildWebhookEvent eventId projectId .approvalRequested approval.requestedAt
    .approval approval.decisionId.str [("approval", approval.dump)])
  enqueueWebhookEvent platform event

/-- The body of `save`. -/
def saveBody (authorization : AuthorizationResponse) : Body Unit := do
  let _ ← recordDecision platform authorization
  publishAuthorization platform authorization

def insertOptional {α : Type} (insert : α → Body Unit) : Option α → Body Unit
  | none => return ()
  | some a => insert a

/-- The body of `save_authorization_with_approval`. -/
def saveAuthorizationBody (authorization : AuthorizationResponse) (approval : Option ApprovalRecord)
    (idempotencyRecord : Option IdempotencyRecord) : Body Unit := do
  let _ ← recordDecision platform authorization
  insertOptional ApprovalRepository.insert approval
  insertOptional IdempotencyRepository.insert idempotencyRecord
  publishAuthorization platform authorization
  insertOptional (publishApproval platform authorization.projectId) approval

def mismatchedApproval : Str := "Approval decision_id must match authorization decision_id."

def mismatchedProject : Str :=
  "Idempotency record project_id must match authorization project_id."

def mismatchedDecision : Str :=
  "Idempotency record decision_id must match authorization decision_id."

/-- What `save_authorization_with_approval` checks before it connects. -/
def checkRecords (authorization : AuthorizationResponse) (approval : Option ApprovalRecord)
    (idempotencyRecord : Option IdempotencyRecord) : Except StoreExc Unit :=
  if approval.any fun a => a.decisionId ≠ authorization.decisionId then
    .error (.valueError mismatchedApproval)
  else if idempotencyRecord.any fun r => r.projectId ≠ authorization.projectId then
    .error (.valueError mismatchedProject)
  else if idempotencyRecord.any fun r => r.decisionId ≠ authorization.decisionId then
    .error (.valueError mismatchedDecision)
  else .ok ()

/-! ## Approvals -/

def systemActor : SearchText := ⟨ApprovalRepository.expirationActor, by decide, by decide, by decide⟩

def systemContext (reason : Str) : AuditContext := ⟨.system, systemActor, some reason⟩

def recordExpirations (projectId : Uuid) (expiredAt : UtcDatetime) :
    List (ApprovalRecord × ApprovalRecord) → Body Unit
  | [] => return ()
  | (previous, expired) :: rest => do
    recordAudit platform expiredAt projectId (systemContext "Approval validity period elapsed.")
      .approvalExpired .approval expired.decisionId.str (some previous.dump) (some expired.dump)
      [("expires_at", dumpOptional (fun t : UtcDatetime => .str t.val.isoformat) expired.expiresAt)]
    recordExpirations projectId expiredAt rest

/-- The body of `expire_due_approvals`. -/
def expireDueBody (projectId : Uuid) (expiredAt : UtcDatetime) : Body (List ApprovalRecord) := do
  let expiredPairs ← ApprovalRepository.expireDueWithConnection projectId expiredAt
  recordExpirations platform projectId expiredAt expiredPairs
  return expiredPairs.map (·.2)

def recordResolution (decisionId projectId : Uuid) (status : ApprovalRepository.Resolution)
    (resolvedAt : UtcDatetime) (previous : Option ApprovalRecord) (resolved : ApprovalRecord) :
    Option AuditContext → Body Unit
  | none => return ()
  | some context =>
    recordAudit platform resolvedAt projectId context .approvalResolved .approval decisionId.str
      (previous.map (·.dump)) (some resolved.dump) [("resolution", .str status.status.text)]

/-- The connection of `resolve_approval` that resolves. -/
def resolveBody (decisionId projectId : Uuid) (status : ApprovalRepository.Resolution)
    (resolvedBy : Str) (resolvedAt : UtcDatetime) (auditContext : Option AuditContext) :
    Body ApprovalRecord := do
  let previous ← ApprovalRepository.getWithConnection decisionId projectId
  if previous.any fun a => a.status = .expired then
    .raise (.approvalExpired decisionId)
  else do
    let resolved ← ApprovalRepository.resolveWithConnection decisionId projectId status resolvedBy
      resolvedAt
    recordResolution platform decisionId projectId status resolvedAt previous resolved auditContext
    return resolved

/-- The writes of `approve_approval_with_grant`. -/
def issueGrant (decisionId projectId : Uuid) (resolvedBy : Str) (resolvedAt : UtcDatetime)
    (grant : ExecutionGrantRecord) (context : AuditContext) (previous : ApprovalRecord) :
    Body (ApprovalRecord × ExecutionGrantRecord) := do
  ExecutionGrantRepository.insert grant
  let approved ← ApprovalRepository.resolveWithConnection decisionId projectId .approved resolvedBy
    resolvedAt
  recordAudit platform resolvedAt projectId context .approvalResolved .approval decisionId.str
    (some previous.dump) (some approved.dump) [("resolution", .str "APPROVED")]
  recordAudit platform grant.issuedAt projectId context .executionGrantIssued .executionGrant
    grant.grantId.str none (some grant.dump)
    [("decision_id", .str decisionId.str), ("expires_at", .str grant.expiresAt.val.isoformat)]
  return (approved, grant)

/-- The connection of `approve_approval_with_grant` that approves. -/
def approveBody (decisionId projectId : Uuid) (resolvedBy : Str) (resolvedAt : UtcDatetime)
    (grant : ExecutionGrantRecord) (context : AuditContext) :
    Body (ApprovalRecord × ExecutionGrantRecord) := do
  match ← ApprovalRepository.getWithConnection decisionId projectId with
  | none => .raise (.approvalNotFound decisionId)
  | some previous =>
    match previous.status with
    | .expired => .raise (.approvalExpired decisionId)
    | .approved => do
      match ← ExecutionGrantRepository.getByDecisionWithConnection decisionId projectId with
      | none => .raise (.runtimeError "Approved request has no execution grant.")
      | some existingGrant => return (previous, existingGrant)
    | .rejected => .raise (.approvalAlreadyResolved decisionId .rejected)
    | .pending => do
      let authorization ← AuthorizationDecisionRepository.getWithConnection platform decisionId
        projectId
      if authorization.all fun a => a.decision ≠ .requireApproval then
        .raise (.runtimeError "Approval references an invalid authorization.")
      else issueGrant platform decisionId projectId resolvedBy resolvedAt grant context previous

/-! ## Grants -/

/-- `secrets.compare_digest` on texts: both have to be ASCII. -/
def compareDigest (a b : Str) : Except PyExc Bool :=
  if (a ++ b).all fun c => c.val < 128 then .ok (a = b) else .error .typeError

/-- The grant that a token presents, or the reason it is refused. -/
def presentedGrant (payload : ExecutionGrantPayload) (tokenHash requestFingerprint : Str) :
    Option ExecutionGrantRecord → Except StoreExc ExecutionGrantRecord
  | none => .error .invalidExecutionGrant
  | some current => do
    let authentic ← (compareDigest current.tokenHash.val tokenHash).mapError .python
    if authentic = false then
      throw .invalidExecutionGrant
    if current.decisionId ≠ payload.decisionId ∨ current.projectId ≠ payload.projectId ∨
        current.issuedAt ≠ payload.issuedAt ∨ current.expiresAt ≠ payload.expiresAt ∨
        current.requestFingerprint ≠ payload.requestFingerprint then
      throw .invalidExecutionGrant
    let matching ← (compareDigest current.requestFingerprint.val requestFingerprint).mapError .python
    if matching = false then
      throw (.executionGrantMismatch payload.grantId)
    match current.status with
    | .consumed => throw (.executionGrantAlreadyConsumed payload.grantId)
    | .expired => throw (.executionGrantExpired payload.grantId)
    | .active => return current

/-- Why a consumption found no row to update. -/
def lostGrant (grantId : Uuid) : Option ExecutionGrantRecord → StoreExc
  | none => .invalidExecutionGrant
  | some latest =>
    match latest.status with
    | .consumed => .executionGrantAlreadyConsumed grantId
    | .expired => .executionGrantExpired grantId
    | .active => .runtimeError "Execution grant atomic update failed."

def recordGrantChange (payload : ExecutionGrantPayload) (projectId : Uuid) (occurredAt : UtcDatetime)
    (context : AuditContext) (action : AuditAction) (current changed : ExecutionGrantRecord) :
    Body Unit :=
  recordAudit platform occurredAt projectId context action .executionGrant payload.grantId.str
    (some current.dump) (some changed.dump) [("decision_id", .str payload.decisionId.str)]

/-- The connection of `consume_execution_grant`. A grant found expired is marked, and the error is
raised once that is committed. -/
def consumeBody (payload : ExecutionGrantPayload) (projectId : Uuid)
    (tokenHash requestFingerprint : Str) (consumedAt : UtcDatetime) (consumedBy : Str)
    (context : AuditContext) : Body (Except StoreExc ExecutionGrantRecord) := do
  let found ← ExecutionGrantRepository.getWithConnection payload.grantId projectId
  let current ← Block.check (presentedGrant payload tokenHash requestFingerprint found)
  if current.expiresAt ≤ consumedAt then do
    match ← ExecutionGrantRepository.expireWithConnection payload.grantId projectId consumedAt with
    | none => .raise (.runtimeError "Execution grant expiration failed.")
    | some expired => do
      recordGrantChange platform payload projectId consumedAt
        (systemContext "Execution grant validity period elapsed.") .executionGrantExpired current
        expired
      return .error (.executionGrantExpired payload.grantId)
  else do
    match ← ExecutionGrantRepository.consumeWithConnection payload.grantId projectId tokenHash
        consumedAt consumedBy with
    | none => do
      let latest ← ExecutionGrantRepository.getWithConnection payload.grantId projectId
      .raise (lostGrant payload.grantId latest)
    | some consumed => do
      recordGrantChange platform payload projectId consumedAt context .executionGrantConsumed current
        consumed
      return .ok consumed

/-! ## Calls -/

section Calls

variable {ω : Type}

def saveAuthorizationWithApproval (authorization : AuthorizationResponse)
    (approval : Option ApprovalRecord) (idempotencyRecord : Option IdempotencyRecord) :
    Session Database Uuid ω StoreExc Unit :=
  match checkRecords authorization approval idempotencyRecord with
  | .error exc => .raise exc
  | .ok () => .within (saveAuthorizationBody platform authorization approval idempotencyRecord)

def resolveApproval (decisionId projectId : Uuid) (status : ApprovalRepository.Resolution)
    (resolvedBy : Str) (resolvedAt : UtcDatetime) (auditContext : Option AuditContext) :
    Session Database Uuid ω StoreExc ApprovalRecord := do
  let _ ← .within (expireDueBody platform projectId resolvedAt)
  if status = .approved then
    .raise (.valueError "Approvals must be approved with an execution grant.")
  else
    .within (resolveBody platform decisionId projectId status resolvedBy resolvedAt auditContext)

def approveApprovalWithGrant (decisionId projectId : Uuid) (resolvedBy : Str)
    (resolvedAt : UtcDatetime) (grant : ExecutionGrantRecord) (context : AuditContext) :
    Session Database Uuid ω StoreExc (ApprovalRecord × ExecutionGrantRecord) := do
  let _ ← .within (expireDueBody platform projectId resolvedAt)
  if grant.decisionId ≠ decisionId ∨ grant.projectId ≠ projectId then
    .raise (.valueError "Execution grant scope must match the approval.")
  else .within (approveBody platform decisionId projectId resolvedBy resolvedAt grant context)

/-- What a body returned, raised where it is an exception. -/
def raiseCommitted {α : Type} : Except StoreExc α → Session Database Uuid ω StoreExc α
  | .ok a => .ret a
  | .error exc => .raise exc

def consumeExecutionGrant (payload : ExecutionGrantPayload) (projectId : Uuid)
    (tokenHash requestFingerprint : Str) (consumedAt : UtcDatetime) (consumedBy : Str)
    (context : AuditContext) : Session Database Uuid ω StoreExc ExecutionGrantRecord :=
  if payload.projectId ≠ projectId then .raise .invalidExecutionGrant
  else do
    let result ← .within (consumeBody platform payload projectId tokenHash requestFingerprint
      consumedAt consumedBy context)
    raiseCommitted result

end Calls

end EvidenceStore

end DecAustrum
