import DecAustrum.PolicyRuns
import DecAustrum.Services.Approvals
import DecAustrum.Services.ExecutionGrants

/-!
# Calls of the services

The calls that authorize requests, resolve approvals and consume grants, and those that change
projects, keys and policies in between, with what they answer. Their bodies are composed of the
units of the services.
-/
namespace DecAustrum

open Python Transaction

/-- `execute_approved` of the guard: the operation starts once the answer that the grant is consumed
has arrived. -/
def executeApproved (platform : Platform) (hmac : HmacSha256)
    (request : ExecutionGrantConsumptionRequest) (projectId : Uuid) (secret : Str)
    (consumedAt : UtcDatetime) : Service Bool (Option ExecutionGrantConsumptionResponse) := do
  match ← ExecutionGrantService.consumeExecutionGrantRequest platform hmac request projectId secret
      consumedAt with
  | .error _ => .ret none
  | .ok consumption => .ask fun arrives => .ret (if arrives then some consumption else none)

/-- A call that changes projects, keys or policies. -/
inductive AdministrationCall where
  | policy (call : PolicyCall)
  | updateProjectStatus (projectId : Uuid) (status : ProjectStatus) (updatedAt : UtcDatetime)
      (auditContext : Option AuditContext)
  | saveProjectApiKey (apiKey : ProjectApiKeyRecord) (auditContext : Option AuditContext)
  | revokeProjectApiKey (projectId apiKeyId : Uuid) (revokedAt : UtcDatetime)
      (auditContext : Option AuditContext)

def AdministrationCall.operation : AdministrationCall → Operation
  | policy call => call.operation
  | updateProjectStatus projectId status updatedAt auditContext =>
    .updateProjectStatus projectId status updatedAt auditContext
  | saveProjectApiKey apiKey auditContext => .saveProjectApiKey apiKey auditContext
  | revokeProjectApiKey projectId apiKeyId revokedAt auditContext =>
    .revokeProjectApiKey projectId apiKeyId revokedAt auditContext

/-- A call of a service, of the guard, or of the store where it is called directly. -/
inductive ServiceCall where
  | authorize (request : AuthorizationRequest) (idempotencyKey : Option Str) (projectId : Uuid)
      (ttlSeconds : Int) (evaluatedAt : UtcDatetime)
  | approve (decisionId projectId : Uuid) (resolverId : SearchText) (reason : Option Str)
      (secret : Str) (ttlSeconds : Int) (effectiveTime readAt rereadAt : UtcDatetime)
  | resolve (decisionId projectId : Uuid) (status : ApprovalRepository.Resolution)
      (resolvedBy : Str) (resolvedAt : UtcDatetime) (auditContext : Option AuditContext)
  | resolveRequest (decisionId projectId : Uuid) (resolverId : SearchText) (reason : Option Str)
      (status : ApprovalRepository.Resolution) (resolvedAt : UtcDatetime)
  | sweep (projectId : Uuid) (expiredAt : UtcDatetime)
  | consumeRequest (request : ExecutionGrantConsumptionRequest) (projectId : Uuid) (secret : Str)
      (consumedAt : UtcDatetime)
  | executeApproved (request : ExecutionGrantConsumptionRequest) (projectId : Uuid) (secret : Str)
      (consumedAt : UtcDatetime)
  | consume (payload : ExecutionGrantPayload) (projectId : Uuid)
      (tokenHash requestFingerprint : Str) (consumedAt : UtcDatetime) (consumedBy : Str)
      (context : AuditContext)
  | administer (call : AdministrationCall)

/-- What a call answers; the guard answers with the consumption if the operation started. -/
inductive ServiceAnswer where
  | authorized (answer : DetailedAnswer AuthorizationResponse)
  | approved (answer : DetailedAnswer ApprovalGrantResponse)
  | resolved (approval : ApprovalRecord)
  | resolutionAnswered (answer : DetailedAnswer ApprovalRecord)
  | swept (expired : List ApprovalRecord)
  | executed (answer : Answer ExecutionGrantConsumptionResponse)
  | guarded (started : Option ExecutionGrantConsumptionResponse)
  | consumed (grant : ExecutionGrantRecord)
  | administered

/-- The decision whose grant an answer reports consumed. -/
def ServiceAnswer.consumes : ServiceAnswer → Option Uuid
  | executed (.ok response) => some response.decisionId
  | guarded (some response) => some response.decisionId
  | consumed grant => some grant.decisionId
  | _ => none

variable (platform : Platform) (hmac : HmacSha256)

def ServiceCall.session : ServiceCall → Service Bool ServiceAnswer
  | authorize request idempotencyKey projectId ttlSeconds evaluatedAt =>
    .authorized <$> AuthorizationService.authorizeRequest platform request idempotencyKey projectId
      ttlSeconds evaluatedAt
  | approve decisionId projectId resolverId reason secret ttlSeconds effectiveTime readAt rereadAt =>
    .approved <$> ApprovalService.approveApprovalRequest platform hmac decisionId projectId resolverId
      reason secret ttlSeconds effectiveTime readAt rereadAt
  | resolve decisionId projectId status resolvedBy resolvedAt auditContext =>
    .resolved <$> EvidenceStore.resolveApproval platform decisionId projectId status resolvedBy
      resolvedAt auditContext
  | resolveRequest decisionId projectId resolverId reason status resolvedAt =>
    .resolutionAnswered <$> ApprovalService.resolveApprovalRequest platform decisionId projectId
      resolverId reason status resolvedAt
  | sweep projectId expiredAt =>
    .swept <$> Session.within (EvidenceStore.expireDueBody platform projectId expiredAt)
  | consumeRequest request projectId secret consumedAt =>
    .executed <$> ExecutionGrantService.consumeExecutionGrantRequest platform hmac request projectId
      secret consumedAt
  | executeApproved request projectId secret consumedAt =>
    .guarded <$> DecAustrum.executeApproved platform hmac request projectId secret consumedAt
  | consume payload projectId tokenHash requestFingerprint consumedAt consumedBy context =>
    .consumed <$> EvidenceStore.consumeExecutionGrant platform payload projectId tokenHash
      requestFingerprint consumedAt consumedBy context
  | administer call => (fun _ => .administered) <$> call.operation.session platform

/-! ## Their bodies -/

/-- A decision has an approval that waits exactly if it requires one. -/
def Matches (authorization : AuthorizationResponse) : Option ApprovalRecord → Prop
  | none => authorization.decision ≠ .requireApproval
  | some approval => authorization.decision = .requireApproval ∧
      approval.decisionId = authorization.decisionId ∧ approval.status = .pending ∧
      ∃ expiresAt, approval.expiresAt = some expiresAt

/-- The record of a key names the decision and the fingerprint of its request. -/
structure RecordedFor (platform : Platform) (authorization : AuthorizationResponse)
    (r : IdempotencyRecord) : Prop where
  projectId : r.projectId = authorization.projectId
  decisionId : r.decisionId = authorization.decisionId
  fingerprint : immutableFingerprint platform authorization = .ok r.requestFingerprint

/-- An unspent grant with the hash of the token of its payload under the secret. -/
structure SignedUnder (secret : Str) (grant : ExecutionGrantRecord) : Prop where
  active : grant.status = .active
  token : ∃ token,
    buildExecutionGrantToken platform hmac grant.toExecutionGrantPayload secret = .ok token ∧
      hashExecutionGrantToken platform token = .ok grant.tokenHash.val

/-- What the services save and issue, where all that they issue is `minted`. -/
def serviceScope (platform : Platform) (minted : ExecutionGrantRecord → Prop) : ServiceScope where
  saves authorization approval idempotencyRecord := Matches authorization approval ∧
    ∀ r ∈ idempotencyRecord, RecordedFor platform authorization r
  issues decisionId resolvedAt grant :=
    grant.decisionId = decisionId ∧ grant.issuedAt = resolvedAt ∧ minted grant

/-- The secret that a call signs grants with. -/
def ServiceCall.signsWith : ServiceCall → Option Str
  | approve _ _ _ _ secret _ _ _ _ => some secret
  | _ => none

/-- What a call issues is minted. -/
def ServiceCall.Mints (minted : ExecutionGrantRecord → Prop) (call : ServiceCall) : Prop :=
  ∀ secret ∈ call.signsWith, ∀ grant, SignedUnder platform hmac secret grant → minted grant

namespace ServiceCall

open Session (bodies_within bodies_check_bind)

variable {minted : ExecutionGrantRecord → Prop}

theorem matches_approvalOf {authorization : AuthorizationResponse} {requestedAt : UtcDatetime}
    {ttlSeconds : Int} {approval : Option ApprovalRecord}
    (made : AuthorizationService.approvalOf authorization requestedAt ttlSeconds = .ok approval) :
    Matches authorization approval := by
  unfold AuthorizationService.approvalOf at made
  split at made
  next required =>
    cases isPending : AuthorizationService.pendingApproval authorization.decisionId requestedAt
        ttlSeconds with
    | error exc =>
      rw [isPending] at made
      cases made
    | ok pending =>
      rw [isPending] at made
      cases made
      unfold AuthorizationService.pendingApproval at isPending
      rw [bind_eq_ok] at isPending
      obtain ⟨expiresAt, -, isPending⟩ := isPending
      split at isPending
      · cases isPending
        exact ⟨required, rfl, rfl, expiresAt, rfl⟩
      · cases isPending
  next unrequired =>
    cases made
    exact unrequired

theorem issues_activeGrant {grantId decisionId projectId : Uuid}
    {requestFingerprint token tokenHash secret : Str} {issuedAt : UtcDatetime} {ttlSeconds : Int}
    {payload : ExecutionGrantPayload} {grant : ExecutionGrantRecord}
    (mints : ∀ grant, SignedUnder platform hmac secret grant → minted grant)
    (payloadMade : ApprovalService.grantPayload grantId decisionId projectId requestFingerprint
      issuedAt ttlSeconds = .ok payload)
    (built : buildExecutionGrantToken platform hmac payload secret = .ok token)
    (hashed : hashExecutionGrantToken platform token = .ok tokenHash)
    (grantMade : ApprovalService.activeGrant payload tokenHash = .ok grant) :
    (serviceScope platform minted).issues decisionId issuedAt grant := by
  unfold ApprovalService.activeGrant at grantMade
  rw [bind_eq_ok] at grantMade
  obtain ⟨hash, validated, grantMade⟩ := grantMade
  rw [orRaise_eq_ok, Sha256Digest.validate_eq_some] at validated
  subst validated
  cases grantMade
  unfold ApprovalService.grantPayload at payloadMade
  simp only [bind_eq_ok] at payloadMade
  obtain ⟨expiresAt, -, fingerprint, -, payloadMade⟩ := payloadMade
  split at payloadMade
  · cases payloadMade
    refine ⟨rfl, rfl, mints _ ?_⟩
    exact ⟨rfl, token, built, hashed⟩
  · cases payloadMade

/-! ### Authorization -/

section

variable {ω : Type}

theorem bodies_getIdempotentAuthorization (idempotencyKey requestFingerprint : Str)
    (projectId : Uuid) :
    (AuthorizationService.getIdempotentAuthorization platform idempotencyKey requestFingerprint
      projectId : Service ω _).Bodies (ServiceBody platform (serviceScope platform minted)) := by
  refine (bodies_within (.query _)).bind fun found => ?_
  cases found with
  | none => trivial
  | some existing =>
    dsimp only
    split
    · trivial
    · refine (bodies_within (ServiceBody.getDecision platform _ _)).bind fun authorization => ?_
      cases authorization <;> trivial

/-- The fingerprint of a decision is that of the request it was made for. -/
theorem immutableFingerprint_authorizationOf (decisionId projectId : Uuid)
    (evaluatedAt : UtcDatetime) (request : AuthorizationRequest) (evaluation : PolicyEvaluation) :
    immutableFingerprint platform
      (authorizationOf decisionId projectId evaluatedAt request evaluation) =
        buildRequestFingerprint platform request := by
  have same : (authorizationOf decisionId projectId evaluatedAt request evaluation).request =
      .ok request := by
    simp only [AuthorizationResponse.request, authorizationOf, NonEmptyString.validate_text]
    rfl
  unfold immutableFingerprint
  rw [same]
  rfl

theorem recordedFor_recordOf {key : Option (Str × Str)} {authorization : AuthorizationResponse}
    (fingerprint : ∀ k ∈ key, immutableFingerprint platform authorization = .ok k.2) :
    ∀ r ∈ AuthorizationService.recordOf authorization key, RecordedFor platform authorization r := by
  intro r isRecord
  cases key with
  | none => cases isRecord
  | some key =>
    cases isRecord
    exact ⟨rfl, rfl, fingerprint key rfl⟩

theorem bodies_saveDecision (key : Option (Str × Str)) {authorization : AuthorizationResponse}
    {approval : Option ApprovalRecord} (isMatch : Matches authorization approval)
    (fingerprint : ∀ k ∈ key, immutableFingerprint platform authorization = .ok k.2) :
    (AuthorizationService.saveDecision platform key authorization approval : Service ω _).Bodies
      (ServiceBody platform (serviceScope platform minted)) := by
  refine Session.Bodies.bind (Session.Bodies.attempt ?_) fun outcome => ?_
  · unfold EvidenceStore.saveAuthorizationWithApproval
    split
    · trivial
    · exact bodies_within (ServiceBody.saveAuthorization platform _ _ _
        ⟨isMatch, recordedFor_recordOf platform fingerprint⟩)
  · cases outcome with
    | ok _ => trivial
    | error exc =>
      dsimp only
      split
      · -- the key is looked up once more
        cases key with
        | none => trivial
        | some key =>
          refine (bodies_getIdempotentAuthorization platform _ _ _).bind fun found => ?_
          rcases found with refusal | _ | authorization <;> trivial
      · trivial

theorem bodies_evaluateAndSave (request : AuthorizationRequest) (key : Option (Str × Str))
    (projectId : Uuid) (ttlSeconds : Int) (evaluatedAt : UtcDatetime)
    (fingerprint : ∀ k ∈ key, buildRequestFingerprint platform request = .ok k.2) :
    (AuthorizationService.evaluateAndSave platform request key projectId ttlSeconds evaluatedAt :
      Service ω _).Bodies (ServiceBody platform (serviceScope platform minted)) := by
  refine (bodies_within (.query _)).bind fun policies => ?_
  split
  · trivial
  · refine (bodies_within .fresh).bind fun decisionId => bodies_check_bind fun approval made => ?_
    refine bodies_saveDecision platform key (matches_approvalOf (mapError_eq_ok.mp made)) ?_
    rw [immutableFingerprint_authorizationOf]
    exact fingerprint

theorem bodies_authorizeRequest (request : AuthorizationRequest) (idempotencyKey : Option Str)
    (projectId : Uuid) (ttlSeconds : Int) (evaluatedAt : UtcDatetime) :
    (AuthorizationService.authorizeRequest platform request idempotencyKey projectId ttlSeconds
      evaluatedAt : Service ω _).Bodies (ServiceBody platform (serviceScope platform minted)) := by
  cases idempotencyKey with
  | none => exact bodies_evaluateAndSave platform _ _ _ _ _ fun _ none => by cases none
  | some idempotencyKey =>
    refine bodies_check_bind fun requestFingerprint built => ?_
    refine (bodies_getIdempotentAuthorization platform _ _ _).bind fun found => ?_
    rcases found with refusal | _ | authorization
    · trivial
    · apply bodies_evaluateAndSave
      rintro _ ⟨⟩
      exact mapError_eq_ok.mp built
    · trivial

end

/-! ### Resolution -/

section

variable {ω : Type}

theorem bodies_getApproval (decisionId projectId : Uuid) (sweptAt : UtcDatetime) :
    (ApprovalService.getApproval platform decisionId projectId sweptAt : Service ω _).Bodies
      (ServiceBody platform (serviceScope platform minted)) :=
  (bodies_within (ServiceBody.expireDue platform _ _)).bind fun _ =>
    bodies_within (ServiceBody.getApproval platform _ _)

theorem bodies_getGrantForDecision (decisionId projectId : Uuid) :
    (ApprovalService.getGrantForDecision decisionId projectId : Service ω _).Bodies
      (ServiceBody platform (serviceScope platform minted)) :=
  bodies_within (ServiceBody.getGrant platform _)

theorem bodies_regenerate (secret : Str) (approved : ApprovalRecord) (grant : ExecutionGrantRecord) :
    (ApprovalService.regenerate platform hmac secret approved grant : Service ω _).Bodies
      (ServiceBody platform (serviceScope platform minted)) := by
  refine bodies_check_bind fun token _ => bodies_check_bind fun tokenHash _ =>
    bodies_check_bind fun issued _ => ?_
  split <;> trivial

theorem bodies_concurrentlyApproved (decisionId projectId : Uuid) (secret : Str)
    (effectiveTime rereadAt : UtcDatetime) :
    (ApprovalService.concurrentlyApproved platform hmac decisionId projectId secret effectiveTime
      rereadAt : Service ω _).Bodies (ServiceBody platform (serviceScope platform minted)) := by
  refine (bodies_getApproval platform _ _ _).bind fun approval =>
    (bodies_getGrantForDecision platform _ _).bind fun grant => ?_
  cases approval with
  | none => trivial
  | some approval =>
    dsimp only
    split
    · trivial
    · split
      · trivial
      · split
        · trivial
        · exact bodies_regenerate platform hmac _ _ _

theorem bodies_approvePending (decisionId projectId : Uuid) (resolverId : SearchText)
    (reason : Option Str) (secret : Str) (ttlSeconds : Int) (effectiveTime rereadAt : UtcDatetime)
    (mints : ∀ grant, SignedUnder platform hmac secret grant → minted grant) :
    (ApprovalService.approvePending platform hmac decisionId projectId resolverId reason secret
      ttlSeconds effectiveTime rereadAt : Service ω _).Bodies
      (ServiceBody platform (serviceScope platform minted)) := by
  refine (bodies_within (ServiceBody.getDecision platform _ _)).bind fun authorization => ?_
  cases authorization with
  | none => trivial
  | some authorization =>
    refine bodies_check_bind fun requestFingerprint _ => (bodies_within .fresh).bind fun grantId =>
      bodies_check_bind fun payload payloadMade => bodies_check_bind fun token built =>
        bodies_check_bind fun tokenHash hashed => bodies_check_bind fun grant grantMade => ?_
    have issued := issues_activeGrant platform hmac mints (mapError_eq_ok.mp payloadMade) built hashed
      (mapError_eq_ok.mp grantMade)
    refine Session.Bodies.bind (Session.Bodies.attempt ?_) fun outcome => ?_
    · refine (bodies_within (ServiceBody.expireDue platform _ _)).bind fun _ => ?_
      split
      · trivial
      · exact bodies_within (ServiceBody.approve platform _ _ _ _ _ _ issued)
    · cases outcome with
      | ok approved => exact bodies_regenerate platform hmac _ _ _
      | error exc =>
        dsimp only
        split
        · exact bodies_concurrentlyApproved platform hmac _ _ _ _ _
        · split <;> trivial

theorem bodies_approveApprovalRequest (decisionId projectId : Uuid) (resolverId : SearchText)
    (reason : Option Str) (secret : Str) (ttlSeconds : Int)
    (effectiveTime readAt rereadAt : UtcDatetime)
    (mints : ∀ grant, SignedUnder platform hmac secret grant → minted grant) :
    (ApprovalService.approveApprovalRequest platform hmac decisionId projectId resolverId reason
      secret ttlSeconds effectiveTime readAt rereadAt : Service ω _).Bodies
      (ServiceBody platform (serviceScope platform minted)) := by
  refine (bodies_getApproval platform _ _ _).bind fun approval => ?_
  cases approval with
  | none => trivial
  | some approval =>
    dsimp only
    split
    · trivial
    · refine (bodies_getGrantForDecision platform _ _).bind fun existing => ?_
      split
      · exact bodies_check_bind fun token _ => trivial
      · trivial
    · trivial
    · exact bodies_approvePending platform hmac _ _ _ _ _ _ _ _ mints

theorem bodies_resolveApproval (decisionId projectId : Uuid) (status : ApprovalRepository.Resolution)
    (resolvedBy : Str) (resolvedAt : UtcDatetime) (auditContext : Option AuditContext) :
    (EvidenceStore.resolveApproval platform decisionId projectId status resolvedBy resolvedAt
      auditContext : Service ω _).Bodies (ServiceBody platform (serviceScope platform minted)) := by
  refine (bodies_within (ServiceBody.expireDue platform _ _)).bind fun _ => ?_
  split
  · trivial
  · exact bodies_within (ServiceBody.resolve platform _ _ _ _ _ _)

theorem bodies_resolveApprovalRequest (decisionId projectId : Uuid) (resolverId : SearchText)
    (reason : Option Str) (status : ApprovalRepository.Resolution) (resolvedAt : UtcDatetime) :
    (ApprovalService.resolveApprovalRequest platform decisionId projectId resolverId reason status
      resolvedAt : Service ω _).Bodies (ServiceBody platform (serviceScope platform minted)) := by
  refine Session.Bodies.bind (bodies_resolveApproval platform ..).attempt fun outcome => ?_
  cases outcome with
  | ok resolved => trivial
  | error exc =>
    dsimp only
    split <;> trivial

/-! ### Consumption -/

theorem bodies_consumeExecutionGrant (payload : ExecutionGrantPayload) (projectId : Uuid)
    (tokenHash requestFingerprint : Str) (consumedAt : UtcDatetime) (consumedBy : Str)
    (context : AuditContext) :
    (EvidenceStore.consumeExecutionGrant platform payload projectId tokenHash requestFingerprint
      consumedAt consumedBy context : Service ω _).Bodies (ServiceBody platform (serviceScope platform minted)) := by
  unfold EvidenceStore.consumeExecutionGrant
  split
  · trivial
  · refine (bodies_within (ServiceBody.consume platform _ _ _ _ _ _ _)).bind fun result => ?_
    cases result <;> trivial

theorem bodies_consumeExecutionGrantRequest (request : ExecutionGrantConsumptionRequest)
    (projectId : Uuid) (secret : Str) (consumedAt : UtcDatetime) :
    (ExecutionGrantService.consumeExecutionGrantRequest platform hmac request projectId secret
      consumedAt : Service ω _).Bodies (ServiceBody platform (serviceScope platform minted)) := by
  unfold ExecutionGrantService.consumeExecutionGrantRequest
  split
  · split <;> trivial
  · split
    · trivial
    · refine (bodies_within (ServiceBody.getDecision platform _ _)).bind fun authorization => ?_
      cases authorization with
      | none => trivial
      | some authorization =>
        refine bodies_check_bind fun immutable _ => bodies_check_bind fun bound _ => ?_
        split
        · refine bodies_check_bind fun presented _ => bodies_check_bind fun tokenHash _ => ?_
          refine Session.Bodies.bind (bodies_consumeExecutionGrant platform ..).attempt
            fun outcome => ?_
          cases outcome with
          | ok consumed =>
            dsimp only
            unfold ExecutionGrantService.consumptionResponse
            split <;> trivial
          | error exc =>
            dsimp only
            split <;> trivial
        · trivial

end

theorem bodies_policy (call : PolicyCall) :
    (call.operation.session platform : Service Bool Unit).Bodies
      (ServiceBody platform (serviceScope platform minted)) := by
  cases call with
  | seed projectId policies seededAt auditContext =>
    exact bodies_within (ServiceBody.ofPolicy (PolicyBody.seedProjectPolicies platform _ _ _ _))
  | saveProject project apiKey policies auditContext =>
    simp only [PolicyCall.operation, Operation.session]
    split
    · trivial
    · exact bodies_within (ServiceBody.ofPolicy (PolicyBody.saveProject platform _ _ _ _))
  | save projectId policy updatedAt auditContext =>
    exact bodies_forget (bodies_within
      (ServiceBody.ofPolicy (PolicyBody.saveProjectPolicy platform _ _ _ _)))
  | rollback projectId policyId sourceVersion updatedAt auditContext =>
    exact bodies_forget (bodies_within
      (ServiceBody.ofPolicy (PolicyBody.rollbackProjectPolicy platform _ _ _ _ _)))
  | disable projectId policyId updatedAt auditContext =>
    exact bodies_forget (bodies_within
      (ServiceBody.ofPolicy (PolicyBody.disableProjectPolicy platform _ _ _ _)))

theorem bodies_administer (call : AdministrationCall) :
    (call.operation.session platform : Service Bool Unit).Bodies
      (ServiceBody platform (serviceScope platform minted)) := by
  cases call with
  | policy call => exact bodies_policy platform call
  | updateProjectStatus projectId status updatedAt auditContext =>
    exact bodies_forget (bodies_within
      (ServiceBody.ofPolicy (PolicyBody.updateProjectStatus platform _ _ _ _)))
  | saveProjectApiKey apiKey auditContext =>
    exact bodies_within (ServiceBody.ofPolicy (PolicyBody.saveProjectApiKey platform _ _))
  | revokeProjectApiKey projectId apiKeyId revokedAt auditContext =>
    exact bodies_forget (bodies_within
      (ServiceBody.ofPolicy (PolicyBody.revokeProjectApiKey platform _ _ _ _)))

theorem bodies (call : ServiceCall) (mints : call.Mints platform hmac minted) :
    (call.session platform hmac).Bodies (ServiceBody platform (serviceScope platform minted)) := by
  cases call with
  | authorize => exact (bodies_authorizeRequest platform _ _ _ _ _).map _
  | approve => exact (bodies_approveApprovalRequest platform hmac _ _ _ _ _ _ _ _ _ (mints _ rfl)).map _
  | resolve => exact (bodies_resolveApproval platform _ _ _ _ _ _).map _
  | resolveRequest => exact (bodies_resolveApprovalRequest platform _ _ _ _ _ _).map _
  | sweep => exact (bodies_within (ServiceBody.expireDue platform _ _)).map _
  | consumeRequest => exact (bodies_consumeExecutionGrantRequest platform hmac _ _ _ _).map _
  | executeApproved =>
    refine Session.Bodies.map ((bodies_consumeExecutionGrantRequest platform hmac _ _ _ _).bind
      fun answer => ?_) _
    cases answer with
    | error refusal => trivial
    | ok consumption => exact fun arrives => trivial
  | consume => exact (bodies_consumeExecutionGrant platform _ _ _ _ _ _ _).map _
  | administer call => exact (bodies_administer platform call).map _

end ServiceCall

end DecAustrum
