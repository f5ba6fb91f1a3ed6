import DecAustrum.ExecutionGrants
import DecAustrum.Services.Authorization

/-!
# Resolution of an approval

`approve_approval_request` and `resolve_approval_request`. An approval is answered with the token
of its grant: a new one, or the one of the grant that is found.
-/
namespace DecAustrum

open Python Transaction

/-- An approval with the token of its grant. -/
structure ApprovalGrantResponse extends ApprovalRecord where
  executionGrant : Str
  grantId : Uuid
  grantExpiresAt : UtcDatetime

namespace ApprovalService

/-! ## Refusals -/

def ofApproval (decisionId : Uuid) (outcome : Str) : Str :=
  ofString "Approval for decision '" ++ decisionId.str ++ outcome

def approvalNotFound (decisionId : Uuid) : DetailedException :=
  ⟨⟨404, "approval_not_found", ofApproval decisionId "' was not found."⟩, []⟩

def approvalExpired (decisionId : Uuid) : DetailedException :=
  ⟨⟨409, "approval_expired", ofApproval decisionId "' has expired."⟩, []⟩

def approvalAlreadyResolved (decisionId : Uuid) (status : ApprovalStatus) : DetailedException :=
  ⟨⟨409, "approval_already_resolved",
    ofApproval decisionId (ofString "' is already " ++ status.text ++ ofString ".")⟩,
    [("current_status", status.text)]⟩

/-- The answer to an exception of the store; `none` is one that leaves the service. -/
def refusal : StoreExc → Option DetailedException
  | .approvalNotFound decisionId => some (approvalNotFound decisionId)
  | .approvalExpired decisionId => some (approvalExpired decisionId)
  | .approvalAlreadyResolved decisionId status => some (approvalAlreadyResolved decisionId status)
  | _ => none

def missingAuthorization : StoreExc :=
  .runtimeError "Approval references a missing authorization decision."

def unregenerated : StoreExc := .runtimeError "Persisted execution grant cannot be regenerated."

/-! ## Grants -/

/-- The payload of a new grant. -/
def grantPayload (grantId decisionId projectId : Uuid) (requestFingerprint : Str)
    (issuedAt : UtcDatetime) (ttlSeconds : Int) : Except PyExc ExecutionGrantPayload := do
  let expiresAt ← orRaise .overflowError (issuedAt.addSeconds ttlSeconds)
  let requestFingerprint ← orRaise .validationError (Sha256Digest.validate requestFingerprint)
  if expiry : issuedAt < expiresAt then
    return ⟨grantId, decisionId, projectId, requestFingerprint, issuedAt, expiresAt, expiry⟩
  else throw .validationError

/-- The record of a new grant. -/
def activeGrant (payload : ExecutionGrantPayload) (tokenHash : Str) :
    Except PyExc ExecutionGrantRecord := do
  let tokenHash ← orRaise .validationError (Sha256Digest.validate tokenHash)
  return { payload with
    status := .active, tokenHash, consumedAt := none, consumedBy := none, consumption := rfl }

def grantResponse (approval : ApprovalRecord) (token : Str) (grant : ExecutionGrantRecord) :
    ApprovalGrantResponse :=
  { approval with executionGrant := token, grantId := grant.grantId, grantExpiresAt := grant.expiresAt }

/-- The grant found can be used at the time. -/
def usable (effectiveTime : UtcDatetime) : Option ExecutionGrantRecord → Option ExecutionGrantRecord
  | none => none
  | some grant =>
    if grant.status = .active ∧ effectiveTime < grant.expiresAt then some grant else none

section

variable {ω : Type} (platform : Platform) (hmac : HmacSha256)

/-- `store.get_approval`: what is due at the clock of the store is swept first. -/
def getApproval (decisionId projectId : Uuid) (sweptAt : UtcDatetime) :
    Service ω (Option ApprovalRecord) := do
  let _ ← .within (EvidenceStore.expireDueBody platform projectId sweptAt)
  .within (ApprovalRepository.getWithConnection decisionId projectId)

def getGrantForDecision (decisionId projectId : Uuid) : Service ω (Option ExecutionGrantRecord) :=
  .within (ExecutionGrantRepository.getByDecisionWithConnection decisionId projectId)

/-- The token of a stored grant, once it is seen to be the one that was issued. -/
def regenerate (secret : Str) (approved : ApprovalRecord) (grant : ExecutionGrantRecord) :
    Service ω (DetailedAnswer ApprovalGrantResponse) := do
  let token ← .check (buildExecutionGrantToken platform hmac grant.toExecutionGrantPayload secret)
  let tokenHash ← .check (hashExecutionGrantToken platform token)
  let issued ← .check ((EvidenceStore.compareDigest grant.tokenHash.val tokenHash).mapError .python)
  if issued then .ret (.ok (grantResponse approved token grant)) else .raise unregenerated

/-- An approval that was approved before. -/
def alreadyApproved (decisionId projectId : Uuid) (secret : Str) (effectiveTime : UtcDatetime)
    (approval : ApprovalRecord) : Service ω (DetailedAnswer ApprovalGrantResponse) := do
  let existing ← getGrantForDecision decisionId projectId
  match usable effectiveTime existing with
  | some grant => do
    let token ← .check (buildExecutionGrantToken platform hmac grant.toExecutionGrantPayload secret)
    .ret (.ok (grantResponse approval token grant))
  | none => .ret (.error (approvalAlreadyResolved decisionId .approved))

/-- The answer where the grant of a concurrent call is in the way. -/
def concurrentlyApproved (decisionId projectId : Uuid) (secret : Str)
    (effectiveTime rereadAt : UtcDatetime) : Service ω (DetailedAnswer ApprovalGrantResponse) := do
  let approval ← getApproval platform decisionId projectId rereadAt
  let grant ← getGrantForDecision decisionId projectId
  match approval with
  | none => .raise integrityError
  | some approval =>
    if approval.status = .expired then .ret (.error (approvalExpired decisionId))
    else if approval.status ≠ .approved then
      .ret (.error (approvalAlreadyResolved decisionId approval.status))
    else
      match usable effectiveTime grant with
      | none => .ret (.error (approvalAlreadyResolved decisionId approval.status))
      | some grant => regenerate platform hmac secret approval grant

/-- A pending approval is approved with a new grant. -/
def approvePending (decisionId projectId : Uuid) (resolverId : SearchText) (reason : Option Str)
    (secret : Str) (ttlSeconds : Int) (effectiveTime rereadAt : UtcDatetime) :
    Service ω (DetailedAnswer ApprovalGrantResponse) := do
  match ← .within (AuthorizationDecisionRepository.getWithConnection platform decisionId
      projectId) with
  | none => .raise missingAuthorization
  | some authorization => do
    let requestFingerprint ← .check ((immutableFingerprint platform authorization).mapError .python)
    let grantId ← .within Block.fresh
    let payload ← .check ((grantPayload grantId decisionId projectId requestFingerprint effectiveTime
      ttlSeconds).mapError .python)
    let token ← .check (buildExecutionGrantToken platform hmac payload secret)
    let tokenHash ← .check (hashExecutionGrantToken platform token)
    let grant ← .check ((activeGrant payload tokenHash).mapError .python)
    match ← (EvidenceStore.approveApprovalWithGrant platform decisionId projectId resolverId.text
        effectiveTime grant ⟨.project, resolverId, reason⟩).attempt with
    | .ok (approved, persisted) => regenerate platform hmac secret approved persisted
    | .error exc =>
      if exc = integrityError then
        concurrentlyApproved platform hmac decisionId projectId secret effectiveTime rereadAt
      else
        match refusal exc with
        | some answer => .ret (.error answer)
        | none => .raise exc

/-- `approve_approval_request`. The clocks are those of the call and of its reads. -/
def approveApprovalRequest (decisionId projectId : Uuid) (resolverId : SearchText)
    (reason : Option Str) (secret : Str) (ttlSeconds : Int)
    (effectiveTime readAt rereadAt : UtcDatetime) :
    Service ω (DetailedAnswer ApprovalGrantResponse) := do
  match ← getApproval platform decisionId projectId readAt with
  | none => .ret (.error (approvalNotFound decisionId))
  | some approval =>
    match approval.status with
    | .expired => .ret (.error (approvalExpired decisionId))
    | .approved => alreadyApproved platform hmac decisionId projectId secret effectiveTime approval
    | .rejected => .ret (.error (approvalAlreadyResolved decisionId .rejected))
    | .pending =>
      approvePending platform hmac decisionId projectId resolverId reason secret ttlSeconds
        effectiveTime rereadAt

/-- `resolve_approval_request`. -/
def resolveApprovalRequest (decisionId projectId : Uuid) (resolverId : SearchText)
    (reason : Option Str) (status : ApprovalRepository.Resolution) (resolvedAt : UtcDatetime) :
    Service ω (DetailedAnswer ApprovalRecord) := do
  match ← (EvidenceStore.resolveApproval platform decisionId projectId status resolverId.text
      resolvedAt (some ⟨.project, resolverId, reason⟩)).attempt with
  | .ok resolved => .ret (.ok resolved)
  | .error exc =>
    match refusal exc with
    | some answer => .ret (.error answer)
    | none => .raise exc

end

end ApprovalService

end DecAustrum
