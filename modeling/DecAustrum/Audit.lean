import DecAustrum.WebhookModels
import DecAustrum.Integrity

/-!
# Audit events

An audit event holds the resource as it was before a change and as it is after, and the webhook
event derived from it holds the audit event.
-/
namespace DecAustrum

open Python

inductive AuditActorType where
  | admin
  | project
  | system
  deriving DecidableEq, Repr

def AuditActorType.text : AuditActorType → Str
  | .admin => "ADMIN"
  | .project => "PROJECT"
  | .system => "SYSTEM"

inductive AuditAction where
  | projectCreated
  | projectStatusChanged
  | apiKeyCreated
  | apiKeyRevoked
  | policyCreated
  | policyUpdated
  | policyDisabled
  | policyRolledBack
  | approvalResolved
  | approvalExpired
  | executionGrantIssued
  | executionGrantConsumed
  | executionGrantExpired
  | webhookSubscriptionCreated
  | webhookSubscriptionDisabled
  | webhookSecretRotated
  | webhookRedeliveryRequested
  deriving DecidableEq, Repr

def AuditAction.text : AuditAction → Str
  | .projectCreated => "PROJECT_CREATED"
  | .projectStatusChanged => "PROJECT_STATUS_CHANGED"
  | .apiKeyCreated => "API_KEY_CREATED"
  | .apiKeyRevoked => "API_KEY_REVOKED"
  | .policyCreated => "POLICY_CREATED"
  | .policyUpdated => "POLICY_UPDATED"
  | .policyDisabled => "POLICY_DISABLED"
  | .policyRolledBack => "POLICY_ROLLED_BACK"
  | .approvalResolved => "APPROVAL_RESOLVED"
  | .approvalExpired => "APPROVAL_EXPIRED"
  | .executionGrantIssued => "EXECUTION_GRANT_ISSUED"
  | .executionGrantConsumed => "EXECUTION_GRANT_CONSUMED"
  | .executionGrantExpired => "EXECUTION_GRANT_EXPIRED"
  | .webhookSubscriptionCreated => "WEBHOOK_SUBSCRIPTION_CREATED"
  | .webhookSubscriptionDisabled => "WEBHOOK_SUBSCRIPTION_DISABLED"
  | .webhookSecretRotated => "WEBHOOK_SECRET_ROTATED"
  | .webhookRedeliveryRequested => "WEBHOOK_REDELIVERY_REQUESTED"

/-- `AUDIT_WEBHOOK_EVENT_TYPES`. -/
def AuditAction.eventType : AuditAction → WebhookEventType
  | .projectCreated => .projectCreated
  | .projectStatusChanged => .projectStatusChanged
  | .apiKeyCreated => .apiKeyCreated
  | .apiKeyRevoked => .apiKeyRevoked
  | .policyCreated => .policyCreated
  | .policyUpdated => .policyUpdated
  | .policyDisabled => .policyDisabled
  | .policyRolledBack => .policyRolledBack
  | .approvalResolved => .approvalResolved
  | .approvalExpired => .approvalExpired
  | .executionGrantIssued => .executionGrantIssued
  | .executionGrantConsumed => .executionGrantConsumed
  | .executionGrantExpired => .executionGrantExpired
  | .webhookSubscriptionCreated => .subscriptionCreated
  | .webhookSubscriptionDisabled => .subscriptionDisabled
  | .webhookSecretRotated => .subscriptionSecretRotated
  | .webhookRedeliveryRequested => .redeliveryRequested

inductive AuditResourceType where
  | project
  | apiKey
  | policy
  | approval
  | executionGrant
  | webhookSubscription
  | webhookDelivery
  deriving DecidableEq, Repr

/-- `AUDIT_WEBHOOK_RESOURCE_TYPES`. -/
def AuditResourceType.webhook : AuditResourceType → WebhookResourceType
  | .project => .project
  | .apiKey => .apiKey
  | .policy => .policy
  | .approval => .approval
  | .executionGrant => .executionGrant
  | .webhookSubscription => .webhookSubscription
  | .webhookDelivery => .webhookDelivery

/-- Who acts, and why. The reason is stripped text of 1 to 500 characters. -/
structure AuditContext where
  actorType : AuditActorType
  actorId : SearchText
  reason : Option Str
  deriving DecidableEq

/-- `AuditResourceIdentifier` is stripped text of 1 to 200 characters. -/
structure AdministrativeAuditEvent where
  eventId : Uuid
  occurredAt : UtcDatetime
  projectId : Uuid
  actorType : AuditActorType
  actorId : SearchText
  action : AuditAction
  resourceType : AuditResourceType
  resourceId : SearchText
  reason : Option Str
  before : Option Json
  after : Option Json
  metadata : Json

/-- Where the `model_dump` of an event raises, the payload of the webhook event that carries it,
which holds its values deeper, raises as well. -/
def AdministrativeAuditEvent.dump (e : AdministrativeAuditEvent) : Json :=
  .obj [("event_id", .str e.eventId.str), ("occurred_at", dumpUtc e.occurredAt),
    ("project_id", .str e.projectId.str), ("actor_type", .str e.actorType.text),
    ("actor_id", .str e.actorId.text), ("action", .str e.action.text),
    ("resource_type", .str e.resourceType.webhook.text), ("resource_id", .str e.resourceId.text),
    ("reason", dumpOptional .str e.reason), ("before", e.before.getD .null),
    ("after", e.after.getD .null), ("metadata", e.metadata)]

/-- `build_audit_event`, with the identifier it draws. -/
def buildAuditEvent (eventId : Uuid) (occurredAt : UtcDatetime) (projectId : Uuid)
    (context : AuditContext) (action : AuditAction) (resourceType : AuditResourceType)
    (resourceId : Str) (before after : Option Json) (metadata : List (Str × Json)) :
    Except PyExc AdministrativeAuditEvent :=
  match SearchText.validate (.str resourceId) with
  | none => .error .validationError
  | some resourceId => .ok
    { eventId, occurredAt, projectId, actorType := context.actorType, actorId := context.actorId,
      action, resourceType, resourceId, reason := context.reason, before, after,
      metadata := .obj metadata }

/-- `build_webhook_event`, with the identifier it draws. -/
def buildWebhookEvent (eventId projectId : Uuid) (eventType : WebhookEventType)
    (occurredAt : UtcDatetime) (resourceType : WebhookResourceType) (resourceId : Str)
    (data : List (Str × Json)) : Except PyExc WebhookEvent :=
  if named : 1 ≤ resourceId.length ∧ resourceId.length ≤ 200 then
    .ok { eventId, projectId, eventType, occurredAt, resourceType, resourceId, data,
          named }
  else .error .validationError

/-- `build_webhook_event_from_audit`. The identifier of the resource has the length it needs. -/
def buildWebhookEventFromAudit (eventId : Uuid) (event : AdministrativeAuditEvent) :
    WebhookEvent :=
  { eventId, projectId := event.projectId, eventType := event.action.eventType,
    occurredAt := event.occurredAt, resourceType := event.resourceType.webhook,
    resourceId := event.resourceId.text, data := [("audit_event", event.dump)],
    named := event.resourceId.length }

/-- `canonical_webhook_payload`, as the text that is stored. -/
def canonicalWebhookPayload (platform : Platform) (event : WebhookEvent) : Except PyExc Str := do
  let dumped ← event.dump
  let text ← canonicalJson platform dumped
  if text.any isSurrogate = true then
    throw .unicodeEncodeError
  return text

end DecAustrum
