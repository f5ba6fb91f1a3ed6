import DecAustrum.EvidenceStore.ServiceUnits
import DecAustrum.Transaction.Schedule

/-!
# The operations of the store

Every call that writes, and the units that the bodies of their connections are composed of.
-/
namespace DecAustrum

open Python Transaction

/-- A call of the store that writes. -/
inductive Operation where
  | saveProject (project : Project)
  | updateProjectStatus (projectId : Uuid) (status : ProjectStatus) (updatedAt : UtcDatetime)
      (auditContext : Option AuditContext)
  | saveProjectWithApiKey (project : Project) (apiKey : ProjectApiKeyRecord)
      (policies : List Policy) (auditContext : Option AuditContext)
  | saveProjectApiKey (apiKey : ProjectApiKeyRecord) (auditContext : Option AuditContext)
  | revokeProjectApiKey (projectId apiKeyId : Uuid) (revokedAt : UtcDatetime)
      (auditContext : Option AuditContext)
  | saveWebhookSubscription (subscription : WebhookSubscription) (context : AuditContext)
  | disableWebhookSubscription (projectId subscriptionId : Uuid) (disabledAt : UtcDatetime)
      (context : AuditContext)
  | rotateWebhookSecret (projectId subscriptionId : Uuid) (rotatedAt : UtcDatetime)
      (context : AuditContext)
  | requestWebhookRedelivery (projectId deliveryId : Uuid) (requestedAt : UtcDatetime)
      (context : AuditContext)
  | claimDueWebhookDeliveries (now : UtcDatetime) (limit : Nat) (leaseSeconds : Int)
  | recordWebhookDeliveryResult (policy : WebhookRepository.RetryPolicy)
      (projectId deliveryId : Uuid) (attemptedAt completedAt : UtcDatetime)
      (outcome : WebhookDeliveryOutcome) (statusCode : Option Int) (error : Option Str)
  | cancelWebhookDelivery (projectId deliveryId : Uuid) (cancelledAt : UtcDatetime) (reason : Str)
  | seedProjectPolicies (projectId : Uuid) (policies : List Policy) (seededAt : UtcDatetime)
      (auditContext : Option AuditContext)
  | saveProjectPolicy (projectId : Uuid) (policy : Policy) (updatedAt : UtcDatetime)
      (auditContext : Option AuditContext)
  | rollbackProjectPolicy (projectId : Uuid) (policyId : Str) (sourceVersion : Int)
      (updatedAt : UtcDatetime) (auditContext : Option AuditContext)
  | disableProjectPolicy (projectId : Uuid) (policyId : Str) (updatedAt : UtcDatetime)
      (auditContext : Option AuditContext)
  | save (authorization : AuthorizationResponse)
  | saveAuthorizationWithApproval (authorization : AuthorizationResponse)
      (approval : Option ApprovalRecord) (idempotencyRecord : Option IdempotencyRecord)
  | saveApproval (approval : ApprovalRecord)
  | expireDueApprovals (projectId : Uuid) (expiredAt : UtcDatetime)
  | resolveApproval (decisionId projectId : Uuid) (status : ApprovalRepository.Resolution)
      (resolvedBy : Str) (resolvedAt : UtcDatetime) (auditContext : Option AuditContext)
  | approveApprovalWithGrant (decisionId projectId : Uuid) (resolvedBy : Str)
      (resolvedAt : UtcDatetime) (grant : ExecutionGrantRecord) (context : AuditContext)
  | consumeExecutionGrant (payload : ExecutionGrantPayload) (projectId : Uuid)
      (tokenHash requestFingerprint : Str) (consumedAt : UtcDatetime) (consumedBy : Str)
      (context : AuditContext)

section

variable (platform : Platform) {ω : Type}

/-- A call, without its result. -/
def forget {α : Type} (call : Session Database Uuid ω StoreExc α) :
    Session Database Uuid ω StoreExc Unit := do
  let _ ← call

open EvidenceStore WebhookRepository in
def Operation.session : Operation → Session Database Uuid ω StoreExc Unit
  | saveProject project => .within (ProjectRepository.insert project)
  | updateProjectStatus projectId status updatedAt auditContext =>
    forget (.within (EvidenceStore.updateProjectStatus platform projectId status updatedAt auditContext))
  | saveProjectWithApiKey project apiKey policies auditContext =>
    if apiKey.projectId ≠ project.projectId then
      .raise (.valueError "API key project_id must match project project_id.")
    else .within (saveProjectBody platform project apiKey policies auditContext)
  | saveProjectApiKey apiKey auditContext =>
    .within (EvidenceStore.saveProjectApiKey platform apiKey auditContext)
  | revokeProjectApiKey projectId apiKeyId revokedAt auditContext =>
    forget (.within (EvidenceStore.revokeProjectApiKey platform projectId apiKeyId revokedAt
      auditContext))
  | saveWebhookSubscription subscription context =>
    .within (EvidenceStore.saveWebhookSubscription platform subscription context)
  | disableWebhookSubscription projectId subscriptionId disabledAt context =>
    forget (.within (EvidenceStore.disableWebhookSubscription platform projectId subscriptionId
      disabledAt context))
  | rotateWebhookSecret projectId subscriptionId rotatedAt context =>
    forget (.within (EvidenceStore.rotateWebhookSecret platform projectId subscriptionId rotatedAt
      context))
  | requestWebhookRedelivery projectId deliveryId requestedAt context =>
    forget (.within (EvidenceStore.requestWebhookRedelivery platform projectId deliveryId requestedAt
      context))
  | claimDueWebhookDeliveries now limit leaseSeconds =>
    forget (claimDueDeliveries now limit leaseSeconds)
  | recordWebhookDeliveryResult policy projectId deliveryId attemptedAt completedAt outcome
      statusCode error =>
    forget (recordDeliveryResult policy projectId deliveryId attemptedAt completedAt outcome
      statusCode error)
  | cancelWebhookDelivery projectId deliveryId cancelledAt reason =>
    forget (cancelProcessingDelivery projectId deliveryId cancelledAt reason)
  | seedProjectPolicies projectId policies seededAt auditContext =>
    .within (EvidenceStore.seedProjectPolicies platform projectId seededAt auditContext policies)
  | saveProjectPolicy projectId policy updatedAt auditContext =>
    forget (.within (EvidenceStore.saveProjectPolicy platform projectId policy updatedAt auditContext))
  | rollbackProjectPolicy projectId policyId sourceVersion updatedAt auditContext =>
    forget (.within (EvidenceStore.rollbackProjectPolicy platform projectId policyId sourceVersion
      updatedAt auditContext))
  | disableProjectPolicy projectId policyId updatedAt auditContext =>
    forget (.within (EvidenceStore.disableProjectPolicy platform projectId policyId updatedAt
      auditContext))
  | save authorization => .within (saveBody platform authorization)
  | saveAuthorizationWithApproval authorization approval idempotencyRecord =>
    EvidenceStore.saveAuthorizationWithApproval platform authorization approval idempotencyRecord
  | saveApproval approval => .within (ApprovalRepository.insert approval)
  | expireDueApprovals projectId expiredAt =>
    forget (.within (expireDueBody platform projectId expiredAt))
  | resolveApproval decisionId projectId status resolvedBy resolvedAt auditContext =>
    forget (EvidenceStore.resolveApproval platform decisionId projectId status resolvedBy resolvedAt
      auditContext)
  | approveApprovalWithGrant decisionId projectId resolvedBy resolvedAt grant context =>
    forget (EvidenceStore.approveApprovalWithGrant platform decisionId projectId resolvedBy resolvedAt
      grant context)
  | consumeExecutionGrant payload projectId tokenHash requestFingerprint consumedAt consumedBy
      context =>
    forget (EvidenceStore.consumeExecutionGrant platform payload projectId tokenHash
      requestFingerprint consumedAt consumedBy context)

end

/-- What a call may do beside the rest: request a redelivery, and save decisions. -/
structure StoreScope where
  redelivers : Bool
  saves : AuthorizationResponse → Prop

/-- The operation requests a redelivery. -/
def Operation.redelivers : Operation → Bool
  | requestWebhookRedelivery _ _ _ _ => true
  | _ => false

/-- The decision that the operation saves. -/
def Operation.saved : Operation → Option AuthorizationResponse
  | save authorization => some authorization
  | saveAuthorizationWithApproval authorization _ _ => some authorization
  | _ => none

def Operation.scope (operation : Operation) : StoreScope :=
  ⟨operation.redelivers, fun a => operation.saved = some a⟩

/-! ## Units -/

section

open WebhookRepository

/-- The smallest parts of the bodies that matter as a whole. Only some operations redeliver, and
each saves no decision but its own. -/
inductive StoreUnit (platform : Platform) (scope : StoreScope) : (β : Type) → Body β → Prop
  | insertProject (project : Project) :
      StoreUnit platform scope _ (ProjectRepository.insert project)
  | updateStatus (projectId : Uuid) (status : ProjectStatus) (updatedAt : UtcDatetime) :
      StoreUnit platform scope _ (ProjectRepository.updateStatusWithConnection projectId status updatedAt)
  | insertKey (apiKey : ProjectApiKeyRecord) :
      StoreUnit platform scope _ (ProjectApiKeyRepository.insert apiKey)
  | revokeKey (projectId apiKeyId : Uuid) (revokedAt : UtcDatetime) :
      StoreUnit platform scope _ (ProjectApiKeyRepository.revokeWithConnection projectId apiKeyId revokedAt)
  | insertSeed (projectId : Uuid) (policy : Policy) (updatedAt : UtcDatetime) :
      StoreUnit platform scope _ (ProjectPolicyRepository.insertSeed projectId policy updatedAt)
  | writeVersion (projectId : Uuid) (policy : Policy) (updatedAt : UtcDatetime)
      (changeType : PolicyVersionChangeType) (sourceVersion : Option Int)
      (current : Option PolicyRow) :
      StoreUnit platform scope _ (ProjectPolicyRepository.writeVersion projectId policy updatedAt changeType
        sourceVersion current)
  | disablePolicy (projectId : Uuid) (policyId : Str) (updatedAt : UtcDatetime) :
      StoreUnit platform scope _ (ProjectPolicyRepository.disableRows projectId policyId updatedAt)
  | insertAudit (event : AdministrativeAuditEvent) :
      StoreUnit platform scope _ (AdministrativeAuditRepository.insert event)
  | insertEvent (event : WebhookEvent) :
      StoreUnit platform scope _ (insertEventWithDeliveries platform event)
  | insertSubscription (subscription : WebhookSubscription) :
      StoreUnit platform scope _ (insertSubscription subscription)
  | disableSubscription (projectId subscriptionId : Uuid) (disabledAt : UtcDatetime) :
      StoreUnit platform scope _ (disableRows projectId subscriptionId disabledAt)
  | rotateSecret (projectId subscriptionId : Uuid) (rotatedAt : UtcDatetime) :
      StoreUnit platform scope _ (rotateRows projectId subscriptionId rotatedAt)
  | claim (now leaseExpiresAt : UtcDatetime) (limit : Nat) :
      StoreUnit platform scope _ (claimBody now leaseExpiresAt limit)
  | record (policy : RetryPolicy) (projectId deliveryId : Uuid)
      (attemptedAt completedAt : UtcDatetime) (outcome : WebhookDeliveryOutcome)
      (statusCode : Option Int) (error : Option Str) :
      StoreUnit platform scope _ (recordBody policy projectId deliveryId attemptedAt completedAt
        outcome statusCode error)
  | cancel (projectId deliveryId : Uuid) (cancelledAt : UtcDatetime) (reason : Str) :
      StoreUnit platform scope _ (cancelBody projectId deliveryId cancelledAt reason)
  | redeliver (projectId deliveryId : Uuid) (requestedAt : UtcDatetime) (does : scope.redelivers = true) :
      StoreUnit platform scope _ (requestRedeliveryWithConnection projectId deliveryId requestedAt)
  | recordDecision (authorization : AuthorizationResponse) (saved : scope.saves authorization) :
      StoreUnit platform scope _ (EvidenceStore.recordDecision platform authorization)
  | insertApproval (approval : ApprovalRecord) :
      StoreUnit platform scope _ (ApprovalRepository.insert approval)
  | resolve (decisionId projectId : Uuid) (status : ApprovalRepository.Resolution)
      (resolvedBy : Str) (resolvedAt : UtcDatetime) :
      StoreUnit platform scope _ (ApprovalRepository.resolveWithConnection decisionId projectId status
        resolvedBy resolvedAt)
  | expireApproval (decisionId : Uuid) (expiredAt : UtcDatetime) :
      StoreUnit platform scope _ (ApprovalRepository.expireRow decisionId expiredAt)
  | insertGrant (grant : ExecutionGrantRecord) :
      StoreUnit platform scope _ (ExecutionGrantRepository.insert grant)
  | consumeGrant (grantId projectId : Uuid) (tokenHash : Str) (consumedAt : UtcDatetime)
      (consumedBy : Str) :
      StoreUnit platform scope _ (ExecutionGrantRepository.consumeWithConnection grantId projectId tokenHash
        consumedAt consumedBy)
  | expireGrant (grantId projectId : Uuid) (expiredAt : UtcDatetime) :
      StoreUnit platform scope _ (ExecutionGrantRepository.expireWithConnection grantId projectId expiredAt)
  | insertIdempotency (record : IdempotencyRecord) :
      StoreUnit platform scope _ (IdempotencyRepository.insert record)

end

/-! ## The bodies are composed of units -/

section

variable (platform : Platform) {scope : StoreScope}

abbrev StoreBody (scope : StoreScope) (β : Type) (x : Body β) : Prop :=
  Block.Composed (StoreUnit platform scope) β x

open Block (Composed)

namespace StoreBody

variable {platform}

theorem ofPolicy {β : Type} {x : Body β} (composed : PolicyBody platform β x) :
    StoreBody platform scope β x := by
  refine composed.flatten fun γ y unit => .unit ?_
  cases unit with
  | insertProject project => exact .insertProject project
  | updateStatus projectId status updatedAt => exact .updateStatus projectId status updatedAt
  | insertKey apiKey => exact .insertKey apiKey
  | revokeKey projectId apiKeyId revokedAt => exact .revokeKey projectId apiKeyId revokedAt
  | insertSeed projectId policy updatedAt => exact .insertSeed projectId policy updatedAt
  | writeVersion projectId policy updatedAt changeType sourceVersion current =>
    exact .writeVersion projectId policy updatedAt changeType sourceVersion current
  | disablePolicy projectId policyId updatedAt => exact .disablePolicy projectId policyId updatedAt
  | insertAudit event => exact .insertAudit event
  | insertEvent event => exact .insertEvent event

theorem insertOptional {α : Type} {insert : α → Body Unit} (a : Option α)
    (inserts : ∀ a, StoreBody platform scope Unit (insert a)) :
    StoreBody platform scope Unit (EvidenceStore.insertOptional insert a) := by
  cases a with
  | none => exact .ret ()
  | some a => exact inserts a

theorem ofService {β : Type} {x : Body β}
    (composed : ServiceBody platform ⟨fun a _ _ => scope.saves a, fun _ _ _ => True⟩ β x) :
    StoreBody platform scope β x := by
  refine composed.flatten fun γ y unit => ?_
  cases unit with
  | policy unit => exact ofPolicy (.unit unit)
  | storeDecision authorization approval idempotencyRecord saved =>
    exact .bind (.unit (.recordDecision authorization saved)) fun _ =>
      .bind (insertOptional approval fun a => .unit (.insertApproval a)) fun _ =>
        insertOptional idempotencyRecord fun r => .unit (.insertIdempotency r)
  | storeGrant decisionId projectId resolvedBy resolvedAt grant =>
    exact .bind (.unit (.insertGrant grant)) fun _ => .unit (.resolve _ _ _ _ _)
  | resolve decisionId projectId status resolvedBy resolvedAt =>
    exact .unit (.resolve decisionId projectId status resolvedBy resolvedAt)
  | expireApproval decisionId expiredAt => exact .unit (.expireApproval decisionId expiredAt)
  | consumeGrant grantId projectId tokenHash consumedAt consumedBy =>
    exact .unit (.consumeGrant grantId projectId tokenHash consumedAt consumedBy)
  | expireGrant grantId projectId expiredAt => exact .unit (.expireGrant grantId projectId expiredAt)

variable (platform)

theorem recordAudit (occurredAt : UtcDatetime) (projectId : Uuid) (context : AuditContext)
    (action : AuditAction) (resourceType : AuditResourceType) (resourceId : Str)
    (before after : Option Json) (metadata : List (Str × Json)) :
    StoreBody platform scope Unit (DecAustrum.recordAudit platform occurredAt projectId context
      action resourceType resourceId before after metadata) :=
  ofPolicy (PolicyBody.recordAudit platform ..)

/-! ### Webhooks -/

theorem saveWebhookSubscription (subscription : WebhookSubscription) (context : AuditContext) :
    StoreBody platform scope _
      (EvidenceStore.saveWebhookSubscription platform subscription context) :=
  .bind (.unit (.insertSubscription _)) fun _ => recordAudit platform _ _ _ _ _ _ _ _ _

theorem disableSubscription (projectId subscriptionId : Uuid) (disabledAt : UtcDatetime) :
    StoreBody platform scope _ (WebhookRepository.disableSubscriptionWithConnection projectId
      subscriptionId disabledAt) := by
  refine .bind (.query _) fun current => ?_
  cases current with
  | none => exact .raise _
  | some current =>
    dsimp only
    split
    · exact .ret current
    · refine .bind (.unit (.disableSubscription _ _ _)) fun _ => .bind (.query _) fun updated => ?_
      cases updated with
      | none => exact .raise _
      | some updated => exact .ret updated

theorem disableWebhookSubscription (projectId subscriptionId : Uuid) (disabledAt : UtcDatetime)
    (context : AuditContext) :
    StoreBody platform scope _ (EvidenceStore.disableWebhookSubscription platform projectId subscriptionId
      disabledAt context) := by
  refine .bind (.query _) fun previous => .bind (disableSubscription platform _ _ _) fun disabled =>
    .bind ?_ fun _ => .ret disabled
  unfold EvidenceStore.recordDisabling
  split
  · split
    · exact recordAudit platform _ _ _ _ _ _ _ _ _
    · exact .ret ()
  · exact .ret ()

theorem rotateSecret (projectId subscriptionId : Uuid) (rotatedAt : UtcDatetime) :
    StoreBody platform scope _ (WebhookRepository.rotateSubscriptionSecretWithConnection projectId
      subscriptionId rotatedAt) := by
  refine .bind (.query _) fun current => ?_
  cases current with
  | none => exact .raise _
  | some current =>
    dsimp only
    split
    · exact .raise _
    · refine .bind (.unit (.rotateSecret _ _ _)) fun _ => .bind (.query _) fun updated => ?_
      cases updated with
      | none => exact .raise _
      | some updated => exact .ret updated

theorem rotateWebhookSecret (projectId subscriptionId : Uuid) (rotatedAt : UtcDatetime)
    (context : AuditContext) :
    StoreBody platform scope _ (EvidenceStore.rotateWebhookSecret platform projectId subscriptionId
      rotatedAt context) :=
  .bind (.query _) fun _ => .bind (rotateSecret platform _ _ _) fun rotated =>
    .bind (recordAudit platform _ _ _ _ _ _ _ _ _) fun _ => .ret rotated

theorem requestWebhookRedelivery (projectId deliveryId : Uuid) (requestedAt : UtcDatetime)
    (context : AuditContext) (does : scope.redelivers = true) :
    StoreBody platform scope _ (EvidenceStore.requestWebhookRedelivery platform projectId deliveryId
      requestedAt context) :=
  .bind (.query _) fun _ => .bind (.unit (.redeliver _ _ _ does)) fun redelivery =>
    .bind (recordAudit platform _ _ _ _ _ _ _ _ _) fun _ => .ret redelivery

end StoreBody

/-! ### Calls -/

open Session (bodies_within)

theorem bodies_forget {ω α : Type} {P : (β : Type) → Body β → Prop}
    {call : Session Database Uuid ω StoreExc α} (bodies : call.Bodies P) :
    (forget call).Bodies P :=
  bodies.bind fun _ => trivial

theorem bodies_orNotFound {ω : Type} {P : (β : Type) → Body β → Prop}
    (projectId deliveryId : Uuid) (d : Option WebhookDelivery) :
    (WebhookRepository.orNotFound projectId deliveryId d :
      Session Database Uuid ω StoreExc WebhookDelivery).Bodies P := by
  cases d <;> trivial

theorem Operation.bodies {ω : Type} (operation : Operation) :
    (operation.session platform : Session Database Uuid ω StoreExc Unit).Bodies
      (StoreBody platform operation.scope) := by
  cases operation with
  | saveProject project => exact bodies_within (.unit (.insertProject project))
  | updateProjectStatus =>
    exact bodies_forget (bodies_within (StoreBody.ofPolicy (PolicyBody.updateProjectStatus platform _ _ _ _)))
  | saveProjectWithApiKey =>
    simp only [Operation.session]
    split
    · trivial
    · exact bodies_within (StoreBody.ofPolicy (PolicyBody.saveProject platform _ _ _ _))
  | saveProjectApiKey => exact bodies_within (StoreBody.ofPolicy (PolicyBody.saveProjectApiKey platform _ _))
  | revokeProjectApiKey =>
    exact bodies_forget (bodies_within (StoreBody.ofPolicy (PolicyBody.revokeProjectApiKey platform _ _ _ _)))
  | saveWebhookSubscription => exact bodies_within (StoreBody.saveWebhookSubscription platform _ _)
  | disableWebhookSubscription =>
    exact bodies_forget (bodies_within (StoreBody.disableWebhookSubscription platform _ _ _ _))
  | rotateWebhookSecret =>
    exact bodies_forget (bodies_within (StoreBody.rotateWebhookSecret platform _ _ _ _))
  | requestWebhookRedelivery =>
    exact bodies_forget (bodies_within (StoreBody.requestWebhookRedelivery platform _ _ _ _ rfl))
  | claimDueWebhookDeliveries now limit leaseSeconds =>
    refine bodies_forget ?_
    unfold WebhookRepository.claimDueDeliveries
    split
    · trivial
    · exact bodies_within (.unit (.claim _ _ _))
  | recordWebhookDeliveryResult =>
    exact bodies_forget ((bodies_within (.unit (.record _ _ _ _ _ _ _ _))).bind
      fun d => bodies_orNotFound _ _ d)
  | cancelWebhookDelivery =>
    exact bodies_forget ((bodies_within (.unit (.cancel _ _ _ _))).bind
      fun d => bodies_orNotFound _ _ d)
  | seedProjectPolicies => exact bodies_within (StoreBody.ofPolicy (PolicyBody.seedProjectPolicies platform _ _ _ _))
  | saveProjectPolicy =>
    exact bodies_forget (bodies_within (StoreBody.ofPolicy (PolicyBody.saveProjectPolicy platform _ _ _ _)))
  | rollbackProjectPolicy =>
    exact bodies_forget (bodies_within (StoreBody.ofPolicy (PolicyBody.rollbackProjectPolicy platform _ _ _ _ _)))
  | disableProjectPolicy =>
    exact bodies_forget (bodies_within (StoreBody.ofPolicy (PolicyBody.disableProjectPolicy platform _ _ _ _)))
  | save => exact bodies_within (.bind (.unit (.recordDecision _ rfl)) fun _ =>
      StoreBody.ofPolicy (PolicyBody.publishAuthorization platform _))
  | saveAuthorizationWithApproval =>
    simp only [Operation.session, EvidenceStore.saveAuthorizationWithApproval]
    split
    · trivial
    · exact bodies_within (StoreBody.ofService (ServiceBody.saveAuthorization platform _ _ _ rfl))
  | saveApproval approval => exact bodies_within (.unit (.insertApproval approval))
  | expireDueApprovals => exact bodies_forget (bodies_within (StoreBody.ofService (ServiceBody.expireDue platform _ _)))
  | resolveApproval =>
    refine bodies_forget ((bodies_within (StoreBody.ofService (ServiceBody.expireDue platform _ _))).bind fun _ => ?_)
    split
    · trivial
    · exact bodies_within (StoreBody.ofService (ServiceBody.resolve platform _ _ _ _ _ _))
  | approveApprovalWithGrant =>
    refine bodies_forget ((bodies_within (StoreBody.ofService (ServiceBody.expireDue platform _ _))).bind fun _ => ?_)
    split
    · trivial
    · exact bodies_within (StoreBody.ofService (ServiceBody.approve platform _ _ _ _ _ _ trivial))
  | consumeExecutionGrant =>
    refine bodies_forget ?_
    unfold EvidenceStore.consumeExecutionGrant
    split
    · trivial
    · refine (bodies_within (StoreBody.ofService (ServiceBody.consume platform _ _ _ _ _ _ _))).bind fun result => ?_
      cases result <;> trivial

end

/-! ## Schedules -/

/-- The turns of clients, each with a fresh identifier. -/
def turns {C ω : Type} (answer : ω) (clients : List C) : List (Turn C Uuid ω) :=
  clients.zipIdx.map fun p => ⟨p.1, ⟨Fin.ofNat _ (p.2 + 16)⟩, answer⟩

def sampleContext : AuditContext := ⟨.admin, ⟨[0x61], by decide, by decide, by decide⟩, none⟩

end DecAustrum
