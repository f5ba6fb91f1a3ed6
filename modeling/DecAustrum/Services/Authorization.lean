import DecAustrum.PolicyEngine
import DecAustrum.Services.Requests
import DecAustrum.Storage.Policies

/-!
# Authorization of a request

`authorize_request`: the decision of the policies is stored with its approval and under its
idempotency key. A key that is in use answers with the decision stored under it.
-/
namespace DecAustrum

open Python Transaction

/-- `HTTPException` whose detail has more than a code and a message. -/
structure DetailedException extends HttpException where
  detail : List (Str × Str)
  deriving DecidableEq

/-- What a service answers, with the details of its refusals. -/
abbrev DetailedAnswer := Except DetailedException

namespace AuthorizationService

def keyConflict : DetailedException :=
  ⟨⟨409, "idempotency_key_conflict",
    "Idempotency key has already been used with a different request."⟩, []⟩

def missingDecision : StoreExc :=
  .runtimeError "Idempotency record references a missing authorization decision."

/-- The answer to an evaluation that fails. -/
def contextRefusal : PolicyContextError → DetailedException
  | .invalid field operator =>
    ⟨⟨422, "invalid_policy_context", ofString "Context field '" ++ field ++
      ofString "' is incompatible with operator '" ++ operator.text ++ ofString "'."⟩,
      [("field", field), ("operator", operator.text)]⟩
  | .missing field policyId =>
    ⟨⟨422, "missing_policy_context", ofString "Context field '" ++ field ++
      ofString "' is required by policy '" ++ policyId ++ ofString "' and cannot be null."⟩,
      [("field", field), ("policy", policyId)]⟩

/-- The approval a decision waits for. -/
def pendingApproval (decisionId : Uuid) (requestedAt : UtcDatetime) (ttlSeconds : Int) :
    Except PyExc ApprovalRecord := do
  let expiresAt ← orRaise .overflowError (requestedAt.addSeconds ttlSeconds)
  if lifecycle : validApprovalLifecycle .pending requestedAt (some expiresAt) none none = true then
    return ⟨decisionId, .pending, requestedAt, some expiresAt, none, none, lifecycle⟩
  else throw .validationError

/-- The approval of a decision that requires one. -/
def approvalOf (authorization : AuthorizationResponse) (requestedAt : UtcDatetime)
    (ttlSeconds : Int) : Except PyExc (Option ApprovalRecord) :=
  if authorization.decision = .requireApproval then
    (pendingApproval authorization.decisionId requestedAt ttlSeconds).map some
  else .ok none

/-- The record of a key, if one was given. -/
def recordOf (authorization : AuthorizationResponse) :
    Option (Str × Str) → Option IdempotencyRecord
  | none => none
  | some (idempotencyKey, requestFingerprint) =>
    some ⟨authorization.projectId, idempotencyKey, requestFingerprint, authorization.decisionId,
      authorization.evaluatedAt⟩

section

variable {ω : Type} (platform : Platform)

/-- `get_idempotent_authorization`. -/
def getIdempotentAuthorization (idempotencyKey requestFingerprint : Str) (projectId : Uuid) :
    Service ω (DetailedAnswer (Option AuthorizationResponse)) := do
  match ← .within (IdempotencyRepository.get projectId idempotencyKey) with
  | none => .ret (.ok none)
  | some existing =>
    if existing.requestFingerprint ≠ requestFingerprint then .ret (.error keyConflict)
    else do
      match ← .within (AuthorizationDecisionRepository.getWithConnection platform
          existing.decisionId projectId) with
      | none => .raise missingDecision
      | some authorization => .ret (.ok (some authorization))

/-- What is done when a save finds a key, or another identifier, in use. -/
def replay (projectId : Uuid) : Option (Str × Str) →
    Service ω (DetailedAnswer AuthorizationResponse)
  | none => .raise integrityError
  | some (idempotencyKey, requestFingerprint) => do
    match ← getIdempotentAuthorization platform idempotencyKey requestFingerprint projectId with
    | .error refusal => .ret (.error refusal)
    | .ok none => .raise integrityError
    | .ok (some authorization) => .ret (.ok authorization)

/-- The decision of an evaluation is stored with what belongs to it. -/
def saveDecision (key : Option (Str × Str)) (authorization : AuthorizationResponse)
    (approval : Option ApprovalRecord) : Service ω (DetailedAnswer AuthorizationResponse) := do
  match ← (EvidenceStore.saveAuthorizationWithApproval platform authorization approval
      (recordOf authorization key)).attempt with
  | .ok () => .ret (.ok authorization)
  | .error exc =>
    if exc = integrityError then replay platform authorization.projectId key else .raise exc

/-- The policies decide on a request whose key, if any, is not found in use. -/
def evaluateAndSave (request : AuthorizationRequest) (key : Option (Str × Str)) (projectId : Uuid)
    (ttlSeconds : Int) (evaluatedAt : UtcDatetime) :
    Service ω (DetailedAnswer AuthorizationResponse) := do
  let policies ← .within (Block.query (·.activePolicies projectId))
  match evaluatePolicy request.action.text request.context policies with
  | .error error => .ret (.error (contextRefusal error))
  | .ok evaluation => do
    let decisionId ← .within Block.fresh
    let authorization := authorizationOf decisionId projectId evaluatedAt request evaluation
    let approval ← .check ((approvalOf authorization evaluatedAt ttlSeconds).mapError .python)
    saveDecision platform key authorization approval

/-- `authorize_request`. -/
def authorizeRequest (request : AuthorizationRequest) (idempotencyKey : Option Str)
    (projectId : Uuid) (ttlSeconds : Int) (evaluatedAt : UtcDatetime) :
    Service ω (DetailedAnswer AuthorizationResponse) :=
  match idempotencyKey with
  | none => evaluateAndSave platform request none projectId ttlSeconds evaluatedAt
  | some idempotencyKey => do
    let requestFingerprint ← .check ((buildRequestFingerprint platform request).mapError .python)
    match ← getIdempotentAuthorization platform idempotencyKey requestFingerprint projectId with
    | .error refusal => .ret (.error refusal)
    | .ok (some authorization) => .ret (.ok authorization)
    | .ok none =>
      evaluateAndSave platform request (some (idempotencyKey, requestFingerprint)) projectId
        ttlSeconds evaluatedAt

end

end AuthorizationService

end DecAustrum
