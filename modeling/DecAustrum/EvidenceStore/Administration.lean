import DecAustrum.Storage.Policies
import DecAustrum.Storage.Webhooks

/-!
# Administrative operations of the store

The operations on projects, keys, policies and webhooks. Each is one connection: it reads the
resource, changes it, and records the change if there was one.
-/
namespace DecAustrum

open Python Transaction

namespace EvidenceStore

variable (platform : Platform)

/-! ## Projects and keys -/

/-- The change of `update_project_status`, if there is one. -/
def recordStatusChange (projectId : Uuid) (updatedAt : UtcDatetime) :
    Option AuditContext → Option Project → Option Project → Body Unit
  | some context, some previous, some updated =>
    if previous.status ≠ updated.status then
      recordAudit platform updatedAt projectId context .projectStatusChanged .project projectId.str
        (some previous.dump) (some updated.dump) []
    else return ()
  | _, _, _ => return ()

def updateProjectStatus (projectId : Uuid) (status : ProjectStatus) (updatedAt : UtcDatetime)
    (auditContext : Option AuditContext) : Body (Option Project) := do
  let previous ← ProjectRepository.getWithConnection projectId
  let updated ← ProjectRepository.updateStatusWithConnection projectId status updatedAt
  recordStatusChange platform projectId updatedAt auditContext previous updated
  return updated

def seedPolicies (projectId : Uuid) (updatedAt : UtcDatetime) : List Policy → Body Unit
  | [] => return ()
  | policy :: rest => do
    ProjectPolicyRepository.insertSeed projectId policy updatedAt
    seedPolicies projectId updatedAt rest

def recordSeeds (project : Project) (context : AuditContext) : List Policy → Body Unit
  | [] => return ()
  | policy :: rest => do
    recordAudit platform project.createdAt project.projectId context .policyCreated .policy policy.id
      none (some (ProjectPolicyConfiguration.dump ⟨project.projectId, policy, true,
        project.createdAt⟩)) [("source", .str "template")]
    recordSeeds project context rest

def recordKey (apiKey : ProjectApiKeyRecord) (context : AuditContext) : Body Unit :=
  recordAudit platform apiKey.createdAt apiKey.projectId context .apiKeyCreated .apiKey
    apiKey.apiKeyId.str none (some apiKey.toProjectApiKeyMetadata.dump) []

/-- The body of `save_project_with_api_key`. -/
def saveProjectBody (project : Project) (apiKey : ProjectApiKeyRecord) (policies : List Policy)
    (auditContext : Option AuditContext) : Body Unit := do
  ProjectRepository.insert project
  ProjectApiKeyRepository.insert apiKey
  seedPolicies project.projectId project.createdAt policies
  match auditContext with
  | none => return ()
  | some context => do
    recordAudit platform project.createdAt project.projectId context .projectCreated .project
      project.projectId.str none (some project.dump)
      [("seeded_policy_count", .int policies.length)]
    recordKey platform apiKey context
    recordSeeds platform project context policies

def saveProjectApiKey (apiKey : ProjectApiKeyRecord) (auditContext : Option AuditContext) :
    Body Unit := do
  ProjectApiKeyRepository.insert apiKey
  match auditContext with
  | none => return ()
  | some context => recordKey platform apiKey context

/-- The change of `revoke_project_api_key`, if there is one. -/
def recordRevocation (projectId apiKeyId : Uuid) (revokedAt : UtcDatetime) :
    Option AuditContext → Option ProjectApiKeyMetadata → Option ProjectApiKeyMetadata → Body Unit
  | some context, some previous, some revoked =>
    if previous.revokedAt = none then
      recordAudit platform revokedAt projectId context .apiKeyRevoked .apiKey apiKeyId.str
        (some previous.dump) (some revoked.dump) []
    else return ()
  | _, _, _ => return ()

def revokeProjectApiKey (projectId apiKeyId : Uuid) (revokedAt : UtcDatetime)
    (auditContext : Option AuditContext) : Body (Option ProjectApiKeyMetadata) := do
  let previous ← ProjectApiKeyRepository.getMetadataWithConnection projectId apiKeyId
  let revoked ← ProjectApiKeyRepository.revokeWithConnection projectId apiKeyId revokedAt
  recordRevocation platform projectId apiKeyId revokedAt auditContext previous revoked
  return revoked

/-! ## Webhooks -/

def saveWebhookSubscription (subscription : WebhookSubscription) (context : AuditContext) :
    Body Unit := do
  WebhookRepository.insertSubscription subscription
  recordAudit platform subscription.createdAt subscription.projectId context
    .webhookSubscriptionCreated .webhookSubscription subscription.subscriptionId.str none
    (some subscription.dump) []

/-- The change of `disable_webhook_subscription`, if there is one. -/
def recordDisabling (projectId subscriptionId : Uuid) (disabledAt : UtcDatetime)
    (context : AuditContext) (disabled : WebhookSubscription) :
    Option WebhookSubscription → Body Unit
  | some previous =>
    if previous.status = .active then
      recordAudit platform disabledAt projectId context .webhookSubscriptionDisabled
        .webhookSubscription subscriptionId.str (some previous.dump) (some disabled.dump) []
    else return ()
  | none => return ()

def disableWebhookSubscription (projectId subscriptionId : Uuid) (disabledAt : UtcDatetime)
    (context : AuditContext) : Body WebhookSubscription := do
  let previous ← WebhookRepository.getSubscriptionWithConnection projectId subscriptionId
  let disabled ← WebhookRepository.disableSubscriptionWithConnection projectId subscriptionId
    disabledAt
  recordDisabling platform projectId subscriptionId disabledAt context disabled previous
  return disabled

def rotateWebhookSecret (projectId subscriptionId : Uuid) (rotatedAt : UtcDatetime)
    (context : AuditContext) : Body WebhookSubscription := do
  let previous ← WebhookRepository.getSubscriptionWithConnection projectId subscriptionId
  let rotated ← WebhookRepository.rotateSubscriptionSecretWithConnection projectId subscriptionId
    rotatedAt
  recordAudit platform rotatedAt projectId context .webhookSecretRotated .webhookSubscription
    subscriptionId.str (previous.map (·.dump)) (some rotated.dump)
    [("secret_version", .int rotated.secretVersion)]
  return rotated

def requestWebhookRedelivery (projectId deliveryId : Uuid) (requestedAt : UtcDatetime)
    (context : AuditContext) : Body WebhookDelivery := do
  let previous ← WebhookRepository.getDeliveryWithConnection projectId deliveryId
  let redelivery ← WebhookRepository.requestRedeliveryWithConnection projectId deliveryId requestedAt
  recordAudit platform requestedAt projectId context .webhookRedeliveryRequested .webhookDelivery
    deliveryId.str (previous.map (·.dump)) (some redelivery.dump)
    [("event_id", .str redelivery.eventId.str),
      ("subscription_id", .str redelivery.subscriptionId.str)]
  return redelivery

/-! ## Policies -/

/-- The policy that `seed_project_policies` created, if it did. -/
def recordSeed (projectId : Uuid) (policyId : Str) (seededAt : UtcDatetime) :
    Option AuditContext → Option ProjectPolicyConfiguration → Body Unit
  | some context, none => do
    let created ← ProjectPolicyRepository.getConfigurationWithConnection projectId policyId
    recordAudit platform seededAt projectId context .policyCreated .policy policyId none
      (created.map (·.dump)) [("source", .str "template")]
  | _, _ => return ()

def seedProjectPolicies (projectId : Uuid) (seededAt : UtcDatetime)
    (auditContext : Option AuditContext) : List Policy → Body Unit
  | [] => return ()
  | policy :: rest => do
    let previous ← ProjectPolicyRepository.findConfiguration projectId policy.id
    ProjectPolicyRepository.insertSeed projectId policy seededAt
    recordSeed platform projectId policy.id seededAt auditContext previous
    seedProjectPolicies projectId seededAt auditContext rest

def recordSave (projectId : Uuid) (policyId : Str) (updatedAt : UtcDatetime)
    (previous : Option ProjectPolicyConfiguration) (saved : ProjectPolicyConfiguration) :
    Option AuditContext → Body Unit
  | none => return ()
  | some context =>
    recordAudit platform updatedAt projectId context
      (if previous.isNone then .policyCreated else .policyUpdated) .policy policyId
      (previous.map (·.dump)) (some saved.dump)
      [("new_version", .int saved.policy.version),
        ("previous_version", dumpOptional (fun c : ProjectPolicyConfiguration =>
          .int c.policy.version) previous)]

def saveProjectPolicy (projectId : Uuid) (policy : Policy) (updatedAt : UtcDatetime)
    (auditContext : Option AuditContext) : Body ProjectPolicyConfiguration := do
  let previous ← ProjectPolicyRepository.findConfiguration projectId policy.id
  let saved ← ProjectPolicyRepository.saveWithConnection projectId policy updatedAt .updated none
  recordSave platform projectId policy.id updatedAt previous saved auditContext
  return saved

def recordRollback (projectId : Uuid) (policyId : Str) (sourceVersion : Int)
    (updatedAt : UtcDatetime) (previous : Option ProjectPolicyConfiguration)
    (restored : ProjectPolicyConfiguration) : Option AuditContext → Body Unit
  | none => return ()
  | some context =>
    recordAudit platform updatedAt projectId context .policyRolledBack .policy policyId
      (previous.map (·.dump)) (some restored.dump)
      [("source_version", .int sourceVersion), ("new_version", .int restored.policy.version)]

def rollbackProjectPolicy (projectId : Uuid) (policyId : Str) (sourceVersion : Int)
    (updatedAt : UtcDatetime) (auditContext : Option AuditContext) :
    Body ProjectPolicyConfiguration := do
  let previous ← ProjectPolicyRepository.findConfiguration projectId policyId
  let restored ← ProjectPolicyRepository.rollbackWithConnection projectId policyId sourceVersion
    updatedAt
  recordRollback platform projectId policyId sourceVersion updatedAt previous restored auditContext
  return restored

/-- The change of `disable_project_policy`, if there is one. -/
def recordPolicyDisabling (projectId : Uuid) (policyId : Str) (updatedAt : UtcDatetime) :
    Option AuditContext → Option ProjectPolicyConfiguration → Option ProjectPolicyConfiguration →
    Body Unit
  | some context, some previous, some disabled =>
    if previous.enabled then
      recordAudit platform updatedAt projectId context .policyDisabled .policy policyId
        (some previous.dump) (some disabled.dump) []
    else return ()
  | _, _, _ => return ()

def disableProjectPolicy (projectId : Uuid) (policyId : Str) (updatedAt : UtcDatetime)
    (auditContext : Option AuditContext) : Body (Option ProjectPolicyConfiguration) := do
  let previous ← ProjectPolicyRepository.findConfiguration projectId policyId
  let disabled ← ProjectPolicyRepository.disableWithConnection projectId policyId updatedAt
  recordPolicyDisabling platform projectId policyId updatedAt auditContext previous disabled
  return disabled

end EvidenceStore

end DecAustrum
