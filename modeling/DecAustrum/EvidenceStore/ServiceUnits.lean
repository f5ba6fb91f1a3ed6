import DecAustrum.EvidenceStore.Administration
import DecAustrum.EvidenceStore.Authorizations
import DecAustrum.Transaction.Invariants

/-!
# Units of the services

The bodies that authorize requests, resolve approvals, consume grants and change policies, composed
of units. A decision is one unit with all that is stored with it, and a grant is one with the
approval that it is issued for.
-/
namespace DecAustrum

open Python Transaction

namespace EvidenceStore

/-- A decision with its integrity record, its approval and its key. -/
def storeDecision (platform : Platform) (authorization : AuthorizationResponse)
    (approval : Option ApprovalRecord) (idempotencyRecord : Option IdempotencyRecord) :
    Body Unit := do
  let _ ← recordDecision platform authorization
  insertOptional ApprovalRepository.insert approval
  insertOptional IdempotencyRepository.insert idempotencyRecord

/-- The events of a decision and its approval. -/
def publishDecision (platform : Platform) (authorization : AuthorizationResponse)
    (approval : Option ApprovalRecord) : Body Unit := do
  publishAuthorization platform authorization
  insertOptional (publishApproval platform authorization.projectId) approval

theorem saveAuthorizationBody_eq (platform : Platform) (authorization : AuthorizationResponse)
    (approval : Option ApprovalRecord) (idempotencyRecord : Option IdempotencyRecord) :
    saveAuthorizationBody platform authorization approval idempotencyRecord =
      storeDecision platform authorization approval idempotencyRecord >>= fun _ =>
        publishDecision platform authorization approval := by
  simp only [saveAuthorizationBody, storeDecision, publishDecision, bind_assoc]

/-- A grant with the approval it is issued for. -/
def storeGrant (decisionId projectId : Uuid) (resolvedBy : Str) (resolvedAt : UtcDatetime)
    (grant : ExecutionGrantRecord) : Body ApprovalRecord := do
  ExecutionGrantRepository.insert grant
  ApprovalRepository.resolveWithConnection decisionId projectId .approved resolvedBy resolvedAt

end EvidenceStore

/-- What is saved together, and which grants are issued at which approval. -/
structure ServiceScope where
  saves : AuthorizationResponse → Option ApprovalRecord → Option IdempotencyRecord → Prop
  issues : Uuid → UtcDatetime → ExecutionGrantRecord → Prop

/-- The units that change projects, keys and policies, and those of the audit trail. -/
inductive PolicyUnit (platform : Platform) : (β : Type) → Body β → Prop
  | insertProject (project : Project) : PolicyUnit platform _ (ProjectRepository.insert project)
  | updateStatus (projectId : Uuid) (status : ProjectStatus) (updatedAt : UtcDatetime) :
      PolicyUnit platform _ (ProjectRepository.updateStatusWithConnection projectId status updatedAt)
  | insertKey (apiKey : ProjectApiKeyRecord) :
      PolicyUnit platform _ (ProjectApiKeyRepository.insert apiKey)
  | revokeKey (projectId apiKeyId : Uuid) (revokedAt : UtcDatetime) :
      PolicyUnit platform _
        (ProjectApiKeyRepository.revokeWithConnection projectId apiKeyId revokedAt)
  | insertSeed (projectId : Uuid) (policy : Policy) (updatedAt : UtcDatetime) :
      PolicyUnit platform _ (ProjectPolicyRepository.insertSeed projectId policy updatedAt)
  | writeVersion (projectId : Uuid) (policy : Policy) (updatedAt : UtcDatetime)
      (changeType : PolicyVersionChangeType) (sourceVersion : Option Int)
      (current : Option PolicyRow) :
      PolicyUnit platform _ (ProjectPolicyRepository.writeVersion projectId policy updatedAt
        changeType sourceVersion current)
  | disablePolicy (projectId : Uuid) (policyId : Str) (updatedAt : UtcDatetime) :
      PolicyUnit platform _ (ProjectPolicyRepository.disableRows projectId policyId updatedAt)
  | insertAudit (event : AdministrativeAuditEvent) :
      PolicyUnit platform _ (AdministrativeAuditRepository.insert event)
  | insertEvent (event : WebhookEvent) :
      PolicyUnit platform _ (WebhookRepository.insertEventWithDeliveries platform event)

/-- The units of the services. -/
inductive ServiceUnit (platform : Platform) (scope : ServiceScope) : (β : Type) → Body β → Prop
  | policy {β : Type} {x : Body β} (unit : PolicyUnit platform β x) :
      ServiceUnit platform scope β x
  | storeDecision (authorization : AuthorizationResponse) (approval : Option ApprovalRecord)
      (idempotencyRecord : Option IdempotencyRecord)
      (saved : scope.saves authorization approval idempotencyRecord) :
      ServiceUnit platform scope _
        (EvidenceStore.storeDecision platform authorization approval idempotencyRecord)
  | storeGrant (decisionId projectId : Uuid) (resolvedBy : Str) (resolvedAt : UtcDatetime)
      (grant : ExecutionGrantRecord) (issued : scope.issues decisionId resolvedAt grant) :
      ServiceUnit platform scope _
        (EvidenceStore.storeGrant decisionId projectId resolvedBy resolvedAt grant)
  | resolve (decisionId projectId : Uuid) (status : ApprovalRepository.Resolution)
      (resolvedBy : Str) (resolvedAt : UtcDatetime) :
      ServiceUnit platform scope _ (ApprovalRepository.resolveWithConnection decisionId projectId
        status resolvedBy resolvedAt)
  | expireApproval (decisionId : Uuid) (expiredAt : UtcDatetime) :
      ServiceUnit platform scope _ (ApprovalRepository.expireRow decisionId expiredAt)
  | consumeGrant (grantId projectId : Uuid) (tokenHash : Str) (consumedAt : UtcDatetime)
      (consumedBy : Str) :
      ServiceUnit platform scope _ (ExecutionGrantRepository.consumeWithConnection grantId projectId
        tokenHash consumedAt consumedBy)
  | expireGrant (grantId projectId : Uuid) (expiredAt : UtcDatetime) :
      ServiceUnit platform scope _ (ExecutionGrantRepository.expireWithConnection grantId projectId
        expiredAt)

abbrev PolicyBody (platform : Platform) (β : Type) (x : Body β) : Prop :=
  Block.Composed (PolicyUnit platform) β x

abbrev ServiceBody (platform : Platform) (scope : ServiceScope) (β : Type) (x : Body β) : Prop :=
  Block.Composed (ServiceUnit platform scope) β x

/-! ## Projects, keys and policies -/

variable (platform : Platform)

open Block (Composed)

namespace PolicyBody

theorem enqueue (event : WebhookEvent) :
    PolicyBody platform Unit (enqueueWebhookEvent platform event) := by
  refine .bind (.query _) fun project => ?_
  cases project with
  | none => exact .ret ()
  | some _ => exact .bind (.unit (.insertEvent event)) fun _ => .ret ()

theorem recordAudit (occurredAt : UtcDatetime) (projectId : Uuid) (context : AuditContext)
    (action : AuditAction) (resourceType : AuditResourceType) (resourceId : Str)
    (before after : Option Json) (metadata : List (Str × Json)) :
    PolicyBody platform Unit (DecAustrum.recordAudit platform occurredAt projectId context action
      resourceType resourceId before after metadata) := by
  unfold DecAustrum.recordAudit
  refine .bind .fresh fun eventId => .bind (.check _) fun event => ?_
  exact .bind (.unit (.insertAudit event)) fun _ => .bind .fresh fun _ => enqueue platform _

theorem findConfiguration (projectId : Uuid) (policyId : Str) :
    PolicyBody platform _ (ProjectPolicyRepository.findConfiguration projectId policyId) :=
  .bind (.check _) fun _ => .query _

theorem publishAuthorization (authorization : AuthorizationResponse) :
    PolicyBody platform _ (EvidenceStore.publishAuthorization platform authorization) :=
  .bind (.check _) fun _ => .bind .fresh fun _ => .bind (.check _) fun _ =>
    .bind (.check _) fun event => enqueue platform event

theorem publishDecision (authorization : AuthorizationResponse) (approval : Option ApprovalRecord) :
    PolicyBody platform _ (EvidenceStore.publishDecision platform authorization approval) := by
  refine .bind (publishAuthorization platform authorization) fun _ => ?_
  cases approval with
  | none => exact .ret ()
  | some approval =>
    exact .bind .fresh fun _ => .bind (.check _) fun event => enqueue platform event

theorem seedPolicies (projectId : Uuid) (updatedAt : UtcDatetime) (policies : List Policy) :
    PolicyBody platform _ (EvidenceStore.seedPolicies projectId updatedAt policies) := by
  induction policies with
  | nil => exact .ret ()
  | cons policy rest ih => exact .bind (.unit (.insertSeed _ _ _)) fun _ => ih

theorem recordSeeds (project : Project) (context : AuditContext) (policies : List Policy) :
    PolicyBody platform _ (EvidenceStore.recordSeeds platform project context policies) := by
  induction policies with
  | nil => exact .ret ()
  | cons policy rest ih => exact .bind (recordAudit platform _ _ _ _ _ _ _ _ _) fun _ => ih

theorem saveProject (project : Project) (apiKey : ProjectApiKeyRecord) (policies : List Policy)
    (auditContext : Option AuditContext) :
    PolicyBody platform _
      (EvidenceStore.saveProjectBody platform project apiKey policies auditContext) := by
  refine .bind (.unit (.insertProject _)) fun _ => .bind (.unit (.insertKey _)) fun _ =>
    .bind (seedPolicies platform _ _ _) fun _ => ?_
  cases auditContext with
  | none => exact .ret ()
  | some context =>
    exact .bind (recordAudit platform _ _ _ _ _ _ _ _ _) fun _ =>
      .bind (recordAudit platform _ _ _ _ _ _ _ _ _) fun _ => recordSeeds platform _ _ _

theorem updateProjectStatus (projectId : Uuid) (status : ProjectStatus) (updatedAt : UtcDatetime)
    (auditContext : Option AuditContext) :
    PolicyBody platform _
      (EvidenceStore.updateProjectStatus platform projectId status updatedAt auditContext) := by
  refine .bind (.query _) fun previous => .bind (.unit (.updateStatus _ _ _)) fun updated =>
    .bind ?_ fun _ => .ret updated
  unfold EvidenceStore.recordStatusChange
  split
  · split
    · exact recordAudit platform _ _ _ _ _ _ _ _ _
    · exact .ret ()
  · exact .ret ()

theorem saveProjectApiKey (apiKey : ProjectApiKeyRecord) (auditContext : Option AuditContext) :
    PolicyBody platform _ (EvidenceStore.saveProjectApiKey platform apiKey auditContext) := by
  refine .bind (.unit (.insertKey _)) fun _ => ?_
  cases auditContext with
  | none => exact .ret ()
  | some context => exact recordAudit platform _ _ _ _ _ _ _ _ _

theorem revokeProjectApiKey (projectId apiKeyId : Uuid) (revokedAt : UtcDatetime)
    (auditContext : Option AuditContext) :
    PolicyBody platform _
      (EvidenceStore.revokeProjectApiKey platform projectId apiKeyId revokedAt auditContext) := by
  refine .bind (.query _) fun previous => .bind (.unit (.revokeKey _ _ _)) fun revoked =>
    .bind ?_ fun _ => .ret revoked
  unfold EvidenceStore.recordRevocation
  split
  · split
    · exact recordAudit platform _ _ _ _ _ _ _ _ _
    · exact .ret ()
  · exact .ret ()

theorem seedProjectPolicies (projectId : Uuid) (seededAt : UtcDatetime)
    (auditContext : Option AuditContext) (policies : List Policy) :
    PolicyBody platform _
      (EvidenceStore.seedProjectPolicies platform projectId seededAt auditContext policies) := by
  induction policies with
  | nil => exact .ret ()
  | cons policy rest ih =>
    refine .bind (findConfiguration platform _ _) fun previous =>
      .bind (.unit (.insertSeed _ _ _)) fun _ =>
      .bind ?_ fun _ => ih
    unfold EvidenceStore.recordSeed
    split
    · exact .bind (.query _) fun created => recordAudit platform _ _ _ _ _ _ _ _ _
    · exact .ret ()

theorem savePolicy (projectId : Uuid) (policy : Policy) (updatedAt : UtcDatetime)
    (changeType : PolicyVersionChangeType) (sourceVersion : Option Int) :
    PolicyBody platform _ (ProjectPolicyRepository.saveWithConnection projectId policy updatedAt
      changeType sourceVersion) := by
  refine .bind (.query _) fun current => ?_
  split
  · exact .raise _
  · refine .bind (.check _) fun _ => .bind (.unit (.writeVersion _ _ _ _ _ _)) fun _ =>
      .bind (.query _) fun saved => ?_
    cases saved with
    | none => exact .raise _
    | some saved => exact .ret saved

theorem saveProjectPolicy (projectId : Uuid) (policy : Policy) (updatedAt : UtcDatetime)
    (auditContext : Option AuditContext) :
    PolicyBody platform _
      (EvidenceStore.saveProjectPolicy platform projectId policy updatedAt auditContext) := by
  refine .bind (findConfiguration platform _ _) fun previous =>
    .bind (savePolicy platform _ _ _ _ _) fun saved => .bind ?_ fun _ => .ret saved
  cases auditContext with
  | none => exact .ret ()
  | some context => exact recordAudit platform _ _ _ _ _ _ _ _ _

theorem rollbackPolicy (projectId : Uuid) (policyId : Str) (sourceVersion : Int)
    (updatedAt : UtcDatetime) :
    PolicyBody platform _ (ProjectPolicyRepository.rollbackWithConnection projectId policyId
      sourceVersion updatedAt) := by
  refine .bind (.check _) fun _ => .bind (.query _) fun historical => ?_
  cases historical with
  | none => exact .raise _
  | some historical =>
    refine .bind (.query _) fun current => ?_
    cases current with
    | none => exact .raise _
    | some current =>
      dsimp only
      split
      · exact .raise _
      · exact .bind (.check _) fun version => savePolicy platform _ _ _ _ _

theorem rollbackProjectPolicy (projectId : Uuid) (policyId : Str) (sourceVersion : Int)
    (updatedAt : UtcDatetime) (auditContext : Option AuditContext) :
    PolicyBody platform _ (EvidenceStore.rollbackProjectPolicy platform projectId policyId
      sourceVersion updatedAt auditContext) := by
  refine .bind (findConfiguration platform _ _) fun previous =>
    .bind (rollbackPolicy platform _ _ _ _) fun restored => .bind ?_ fun _ => .ret restored
  cases auditContext with
  | none => exact .ret ()
  | some context => exact recordAudit platform _ _ _ _ _ _ _ _ _

theorem disableProjectPolicy (projectId : Uuid) (policyId : Str) (updatedAt : UtcDatetime)
    (auditContext : Option AuditContext) :
    PolicyBody platform _
      (EvidenceStore.disableProjectPolicy platform projectId policyId updatedAt auditContext) := by
  have disables : PolicyBody platform _
      (ProjectPolicyRepository.disableWithConnection projectId policyId updatedAt) := by
    refine .bind (.query _) fun configuration => ?_
    cases configuration with
    | none => exact .ret none
    | some _ => exact .bind (.unit (.disablePolicy _ _ _)) fun _ => .query _
  refine .bind (findConfiguration platform _ _) fun previous => .bind disables fun disabled =>
    .bind ?_ fun _ => .ret disabled
  unfold EvidenceStore.recordPolicyDisabling
  split
  · split
    · exact recordAudit platform _ _ _ _ _ _ _ _ _
    · exact .ret ()
  · exact .ret ()

end PolicyBody

/-! ## Authorizations, approvals and grants -/

namespace ServiceBody

variable {platform} {scope : ServiceScope}

theorem ofPolicy {β : Type} {x : Body β} (composed : PolicyBody platform β x) :
    ServiceBody platform scope β x :=
  composed.flatten fun _ _ unit => .unit (.policy unit)

variable (platform)

theorem recordAudit (occurredAt : UtcDatetime) (projectId : Uuid) (context : AuditContext)
    (action : AuditAction) (resourceType : AuditResourceType) (resourceId : Str)
    (before after : Option Json) (metadata : List (Str × Json)) :
    ServiceBody platform scope Unit (DecAustrum.recordAudit platform occurredAt projectId context action
      resourceType resourceId before after metadata) :=
  ofPolicy (PolicyBody.recordAudit platform ..)

theorem getApproval (decisionId projectId : Uuid) :
    ServiceBody platform scope _ (ApprovalRepository.getWithConnection decisionId projectId) := by
  refine .bind (.query _) fun row => ?_
  cases row with
  | none => exact .ret none
  | some row => exact .bind (.check _) fun approval => .ret (some approval)

theorem getGrant (hit : GrantRow Uuid UtcDatetime → Bool) :
    ServiceBody platform scope _ (ExecutionGrantRepository.getRow hit) := by
  refine .bind (.query _) fun row => ?_
  cases row with
  | none => exact .ret none
  | some row => exact .bind (.check _) fun grant => .ret (some grant)

theorem getDecision (decisionId projectId : Uuid) :
    ServiceBody platform scope _
      (AuthorizationDecisionRepository.getWithConnection platform decisionId projectId) := by
  refine .bind (.query _) fun row => ?_
  cases row with
  | none => exact .ret none
  | some row => exact .bind (.check _) fun authorization => .ret (some authorization)

theorem saveAuthorization (authorization : AuthorizationResponse)
    (approval : Option ApprovalRecord) (idempotencyRecord : Option IdempotencyRecord)
    (saved : scope.saves authorization approval idempotencyRecord) :
    ServiceBody platform scope _ (EvidenceStore.saveAuthorizationBody platform authorization approval
      idempotencyRecord) := by
  rw [EvidenceStore.saveAuthorizationBody_eq]
  exact .bind (.unit (.storeDecision _ _ _ saved)) fun _ =>
    ofPolicy (PolicyBody.publishDecision platform authorization approval)

theorem expireRows (projectId : Uuid) (expiredAt : UtcDatetime)
    (rows : List (ApprovalRow Uuid UtcDatetime)) :
    ServiceBody platform scope _ (ApprovalRepository.expireRows projectId expiredAt rows) := by
  induction rows with
  | nil => exact .ret []
  | cons row rest ih =>
    refine .bind (.check _) fun previous => .bind (.unit (.expireApproval _ _)) fun rowcount => ?_
    split
    · exact ih
    · exact .bind (getApproval platform _ _) fun _ => .bind ih fun _ => .ret _

theorem expireDue (projectId : Uuid) (expiredAt : UtcDatetime) :
    ServiceBody platform scope _ (EvidenceStore.expireDueBody platform projectId expiredAt) := by
  refine .bind (.bind (.query _) fun rows => expireRows platform _ _ rows) fun pairs =>
    .bind ?_ fun _ => .ret _
  induction pairs with
  | nil => exact .ret ()
  | cons pair rest ih => exact .bind (recordAudit platform _ _ _ _ _ _ _ _ _) fun _ => ih

theorem resolve (decisionId projectId : Uuid) (status : ApprovalRepository.Resolution)
    (resolvedBy : Str) (resolvedAt : UtcDatetime) (auditContext : Option AuditContext) :
    ServiceBody platform scope _ (EvidenceStore.resolveBody platform decisionId projectId status resolvedBy
      resolvedAt auditContext) := by
  refine .bind (getApproval platform _ _) fun previous => ?_
  split
  · exact .raise _
  · refine .bind (.unit (.resolve _ _ _ _ _)) fun resolved => .bind ?_ fun _ => .ret resolved
    cases auditContext with
    | none => exact .ret ()
    | some context => exact recordAudit platform _ _ _ _ _ _ _ _ _

theorem approve (decisionId projectId : Uuid) (resolvedBy : Str) (resolvedAt : UtcDatetime)
    (grant : ExecutionGrantRecord) (context : AuditContext)
    (issued : scope.issues decisionId resolvedAt grant) :
    ServiceBody platform scope _ (EvidenceStore.approveBody platform decisionId projectId resolvedBy
      resolvedAt grant context) := by
  refine .bind (getApproval platform _ _) fun previous => ?_
  cases previous with
  | none => exact .raise _
  | some previous =>
    dsimp only
    split
    · exact .raise _
    · refine .bind (getGrant platform _) fun existing => ?_
      cases existing with
      | none => exact .raise _
      | some existing => exact .ret (previous, existing)
    · exact .raise _
    · refine .bind (getDecision platform _ _) fun authorization => ?_
      split
      · exact .raise _
      · have stores : EvidenceStore.issueGrant platform decisionId projectId resolvedBy resolvedAt
            grant context previous = EvidenceStore.storeGrant decisionId projectId resolvedBy
              resolvedAt grant >>= fun approved => do
            DecAustrum.recordAudit platform resolvedAt projectId context .approvalResolved .approval
              decisionId.str (some previous.dump) (some approved.dump)
              [("resolution", .str "APPROVED")]
            DecAustrum.recordAudit platform grant.issuedAt projectId context .executionGrantIssued
              .executionGrant grant.grantId.str none (some grant.dump)
              [("decision_id", .str decisionId.str),
                ("expires_at", .str grant.expiresAt.val.isoformat)]
            return (approved, grant) := by
          simp only [EvidenceStore.issueGrant, EvidenceStore.storeGrant, bind_assoc]
        rw [stores]
        exact .bind (.unit (.storeGrant _ _ _ _ _ issued)) fun _ =>
          .bind (recordAudit platform _ _ _ _ _ _ _ _ _) fun _ =>
            .bind (recordAudit platform _ _ _ _ _ _ _ _ _) fun _ => .ret _

theorem consume (payload : ExecutionGrantPayload) (projectId : Uuid)
    (tokenHash requestFingerprint : Str) (consumedAt : UtcDatetime) (consumedBy : Str)
    (context : AuditContext) :
    ServiceBody platform scope _ (EvidenceStore.consumeBody platform payload projectId tokenHash
      requestFingerprint consumedAt consumedBy context) := by
  refine .bind (getGrant platform _) fun found => .bind (.check _) fun current => ?_
  split
  · refine .bind (.unit (.expireGrant _ _ _)) fun expired => ?_
    cases expired with
    | none => exact .raise _
    | some expired => exact .bind (recordAudit platform _ _ _ _ _ _ _ _ _) fun _ => .ret _
  · refine .bind (.unit (.consumeGrant _ _ _ _ _)) fun consumed => ?_
    cases consumed with
    | none => exact .bind (getGrant platform _) fun latest => .raise _
    | some consumed => exact .bind (recordAudit platform _ _ _ _ _ _ _ _ _) fun _ => .ret _

end ServiceBody

end DecAustrum
