import DecAustrum.ExecutionGrants
import DecAustrum.Services.Requests

/-!
# Consumption of an execution grant

`consume_execution_grant_request`: the token is read, bound to the project and to the decision it
names, and its grant is consumed. What is wrong with a token is never told.
-/
namespace DecAustrum

open Python Transaction

/-- The token of a request: a string of 1 to 4096 characters. -/
structure PresentedToken where
  text : Str
  length : 1 ≤ text.length ∧ text.length ≤ 4096
  encodable : text.any isSurrogate = false

structure ExecutionGrantConsumptionRequest where
  executionGrant : PresentedToken
  agent : NonEmptyString
  action : NonEmptyString
  context : StrictObject
  consumedBy : SearchText

/-- The request whose execution is asked for. -/
def ExecutionGrantConsumptionRequest.authorization (r : ExecutionGrantConsumptionRequest) :
    AuthorizationRequest := ⟨r.agent, r.action, r.context⟩

structure ExecutionGrantConsumptionResponse where
  grantId : Uuid
  decisionId : Uuid
  consumedAt : UtcDatetime
  consumedBy : SearchText
  agent : Str
  action : Str

namespace ExecutionGrantService

/-- `_invalid_grant`. -/
def invalidGrant : HttpException :=
  ⟨401, "invalid_execution_grant", "Execution grant is invalid."⟩

/-- `except (InvalidExecutionGrantError, ValueError)`. -/
def unreadable : StoreExc → Bool
  | .invalidExecutionGrant | .valueError _ => true
  | .python exc => exc.isValueError
  | _ => false

def quoted (before : Str) (grantId : Uuid) (after : Str) : Str := before ++ grantId.str ++ after

/-- The answer to an exception of the store; `none` is one that leaves the service. -/
def refusal : StoreExc → Option HttpException
  | .invalidExecutionGrant => some invalidGrant
  | .executionGrantMismatch grantId => some ⟨409, "execution_grant_mismatch",
      quoted "Execution grant '" grantId "' does not match the request."⟩
  | .executionGrantAlreadyConsumed grantId => some ⟨409, "execution_grant_already_consumed",
      quoted "Execution grant '" grantId "' has already been consumed."⟩
  | .executionGrantExpired grantId => some ⟨409, "execution_grant_expired",
      quoted "Execution grant '" grantId "' has expired."⟩
  | _ => none

def missingMetadata : StoreExc :=
  .runtimeError "Consumed execution grant is missing resolution metadata."

section

variable {ω : Type} (platform : Platform) (hmac : HmacSha256)

/-- The response of a consumed grant. -/
def consumptionResponse (request : ExecutionGrantConsumptionRequest)
    (consumed : ExecutionGrantRecord) : Service ω (Answer ExecutionGrantConsumptionResponse) :=
  match consumed.consumedAt, consumed.consumedBy with
  | some consumedAt, some consumedBy =>
    respond ⟨consumed.grantId, consumed.decisionId, consumedAt, consumedBy, request.agent.text,
      request.action.text⟩
  | _, _ => .raise missingMetadata

/-- The call of the store and the answers to its exceptions. -/
def consumePresented (request : ExecutionGrantConsumptionRequest) (projectId : Uuid)
    (payload : ExecutionGrantPayload) (requestFingerprint : Str) (consumedAt : UtcDatetime) :
    Service ω (Answer ExecutionGrantConsumptionResponse) := do
  let tokenHash ← .check (hashExecutionGrantToken platform request.executionGrant.text)
  let outcome ← (EvidenceStore.consumeExecutionGrant platform payload projectId tokenHash
    requestFingerprint consumedAt request.consumedBy.text
    ⟨.project, request.consumedBy, some "Approved action execution consumed."⟩).attempt
  match outcome with
  | .ok consumed => consumptionResponse request consumed
  | .error exc =>
    match refusal exc with
    | some http => refuse http
    | none => .raise exc

/-- What follows once the decision of the token is found. -/
def consumeBound (request : ExecutionGrantConsumptionRequest) (projectId : Uuid)
    (payload : ExecutionGrantPayload) (consumedAt : UtcDatetime)
    (authorization : AuthorizationResponse) :
    Service ω (Answer ExecutionGrantConsumptionResponse) := do
  let immutable ← .check ((immutableFingerprint platform authorization).mapError .python)
  let bound ← .check ((EvidenceStore.compareDigest immutable
    payload.requestFingerprint.val).mapError .python)
  if bound then do
    let presented ← .check
      ((buildRequestFingerprint platform request.authorization).mapError .python)
    consumePresented platform request projectId payload presented consumedAt
  else refuse invalidGrant

/-- `consume_execution_grant_request`. -/
def consumeExecutionGrantRequest (request : ExecutionGrantConsumptionRequest) (projectId : Uuid)
    (secret : Str) (consumedAt : UtcDatetime) :
    Service ω (Answer ExecutionGrantConsumptionResponse) :=
  match parseExecutionGrantToken platform hmac request.executionGrant.text secret with
  | .error exc => if unreadable exc then refuse invalidGrant else .raise exc
  | .ok payload =>
    if payload.projectId ≠ projectId then refuse invalidGrant
    else do
      match ← .within (AuthorizationDecisionRepository.getWithConnection platform
          payload.decisionId projectId) with
      | none => refuse invalidGrant
      | some authorization =>
        consumeBound platform request projectId payload consumedAt authorization

end

end ExecutionGrantService

end DecAustrum
