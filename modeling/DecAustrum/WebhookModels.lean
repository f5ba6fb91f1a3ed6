import DecAustrum.Resources

/-!
# Webhook records

Subscriptions, the events of the outbox, their deliveries and the attempts made to deliver.
-/
namespace DecAustrum

open Python

inductive WebhookEventType where
  | authorizationCreated
  | approvalRequested
  | approvalResolved
  | approvalExpired
  | executionGrantIssued
  | executionGrantConsumed
  | executionGrantExpired
  | projectCreated
  | projectStatusChanged
  | apiKeyCreated
  | apiKeyRevoked
  | policyCreated
  | policyUpdated
  | policyDisabled
  | policyRolledBack
  | subscriptionCreated
  | subscriptionDisabled
  | subscriptionSecretRotated
  | redeliveryRequested
  deriving DecidableEq, Repr

def WebhookEventType.text : WebhookEventType → Str
  | .authorizationCreated => "authorization.created"
  | .approvalRequested => "approval.requested"
  | .approvalResolved => "approval.resolved"
  | .approvalExpired => "approval.expired"
  | .executionGrantIssued => "execution_grant.issued"
  | .executionGrantConsumed => "execution_grant.consumed"
  | .executionGrantExpired => "execution_grant.expired"
  | .projectCreated => "project.created"
  | .projectStatusChanged => "project.status_changed"
  | .apiKeyCreated => "api_key.created"
  | .apiKeyRevoked => "api_key.revoked"
  | .policyCreated => "policy.created"
  | .policyUpdated => "policy.updated"
  | .policyDisabled => "policy.disabled"
  | .policyRolledBack => "policy.rolled_back"
  | .subscriptionCreated => "webhook.subscription.created"
  | .subscriptionDisabled => "webhook.subscription.disabled"
  | .subscriptionSecretRotated => "webhook.subscription.secret_rotated"
  | .redeliveryRequested => "webhook.delivery.redelivery_requested"

/-- `"*"`, or one event type. -/
inductive WebhookEventSelector where
  | all
  | only (eventType : WebhookEventType)
  deriving DecidableEq, Repr

def WebhookEventSelector.text : WebhookEventSelector → Str
  | .all => "*"
  | .only eventType => eventType.text

inductive WebhookSubscriptionStatus where
  | active
  | disabled
  deriving DecidableEq, Repr

def WebhookSubscriptionStatus.text : WebhookSubscriptionStatus → Str
  | .active => "ACTIVE"
  | .disabled => "DISABLED"

inductive WebhookDeliveryStatus where
  | pending
  | processing
  | retryScheduled
  | delivered
  | deadLetter
  | cancelled
  deriving DecidableEq, Repr

def WebhookDeliveryStatus.text : WebhookDeliveryStatus → Str
  | .pending => "PENDING"
  | .processing => "PROCESSING"
  | .retryScheduled => "RETRY_SCHEDULED"
  | .delivered => "DELIVERED"
  | .deadLetter => "DEAD_LETTER"
  | .cancelled => "CANCELLED"

inductive WebhookDeliveryOutcome where
  | success
  | httpError
  | networkError
  deriving DecidableEq, Repr

inductive WebhookResourceType where
  | authorizationDecision
  | approval
  | executionGrant
  | project
  | apiKey
  | policy
  | webhookSubscription
  | webhookDelivery
  deriving DecidableEq, Repr

def WebhookResourceType.text : WebhookResourceType → Str
  | .authorizationDecision => "AUTHORIZATION_DECISION"
  | .approval => "APPROVAL"
  | .executionGrant => "EXECUTION_GRANT"
  | .project => "PROJECT"
  | .apiKey => "API_KEY"
  | .policy => "POLICY"
  | .webhookSubscription => "WEBHOOK_SUBSCRIPTION"
  | .webhookDelivery => "WEBHOOK_DELIVERY"

structure WebhookSubscription where
  subscriptionId : Uuid
  projectId : Uuid
  url : Str
  eventTypes : List WebhookEventSelector
  status : WebhookSubscriptionStatus
  secretVersion : Nat
  createdAt : UtcDatetime
  updatedAt : UtcDatetime
  disabledAt : Option UtcDatetime
  deriving DecidableEq

def WebhookSubscription.dump (s : WebhookSubscription) : Json :=
  .obj [("subscription_id", .str s.subscriptionId.str), ("project_id", .str s.projectId.str),
    ("url", .str s.url), ("event_types", .arr (s.eventTypes.map fun t => .str t.text)),
    ("status", .str s.status.text), ("secret_version", .int s.secretVersion),
    ("created_at", dumpUtc s.createdAt), ("updated_at", dumpUtc s.updatedAt),
    ("disabled_at", dumpOptional dumpUtc s.disabledAt)]

/-- The subscription selects an event type. -/
def WebhookSubscription.selects (s : WebhookSubscription) (eventType : WebhookEventType) : Bool :=
  s.eventTypes.contains .all || s.eventTypes.contains (.only eventType)

structure WebhookEvent where
  eventId : Uuid
  projectId : Uuid
  eventType : WebhookEventType
  occurredAt : UtcDatetime
  resourceType : WebhookResourceType
  resourceId : Str
  data : List (Str × Json)
  named : 1 ≤ resourceId.length ∧ resourceId.length ≤ 200

def WebhookEvent.dumped (e : WebhookEvent) : Json :=
  .obj [("event_id", .str e.eventId.str), ("project_id", .str e.projectId.str),
    ("event_type", .str e.eventType.text), ("occurred_at", dumpUtc e.occurredAt),
    ("resource_type", .str e.resourceType.text), ("resource_id", .str e.resourceId),
    ("data", .obj (lossyDict e.data)), ("schema_version", .int 1)]

/-- The data is a `dict[str, Any]`, whose values are followed as far as any other value. -/
def WebhookEvent.dump (e : WebhookEvent) : Except PyExc Json := do
  let _ ← serializeDict e.data
  return e.dumped

theorem WebhookEvent.dump_eq_ok (e : WebhookEvent) (v : Json) :
    e.dump = .ok v ↔ (∀ field ∈ e.data, Serializable field.2) ∧ v = e.dumped := by
  simp only [dump, bind_eq_ok, serializeDict_eq_ok, pure, Except.pure, Except.ok.injEq]
  constructor
  · rintro ⟨_, ⟨taken, -⟩, rfl⟩
    exact ⟨taken, rfl⟩
  · rintro ⟨taken, rfl⟩
    exact ⟨_, ⟨taken, rfl⟩, rfl⟩

structure WebhookDelivery where
  deliveryId : Uuid
  eventId : Uuid
  subscriptionId : Uuid
  projectId : Uuid
  status : WebhookDeliveryStatus
  attemptCount : Nat
  failureCount : Nat
  redeliveryCount : Nat
  nextAttemptAt : Option UtcDatetime
  leaseExpiresAt : Option UtcDatetime
  deliveredAt : Option UtcDatetime
  lastAttemptAt : Option UtcDatetime
  lastStatusCode : Option Int
  lastError : Option Str
  createdAt : UtcDatetime
  updatedAt : UtcDatetime
  deriving DecidableEq

def WebhookDelivery.dump (d : WebhookDelivery) : Json :=
  .obj [("delivery_id", .str d.deliveryId.str), ("event_id", .str d.eventId.str),
    ("subscription_id", .str d.subscriptionId.str), ("project_id", .str d.projectId.str),
    ("status", .str d.status.text), ("attempt_count", .int d.attemptCount),
    ("failure_count", .int d.failureCount), ("redelivery_count", .int d.redeliveryCount),
    ("next_attempt_at", dumpOptional dumpUtc d.nextAttemptAt),
    ("lease_expires_at", dumpOptional dumpUtc d.leaseExpiresAt),
    ("delivered_at", dumpOptional dumpUtc d.deliveredAt),
    ("last_attempt_at", dumpOptional dumpUtc d.lastAttemptAt),
    ("last_status_code", dumpOptional .int d.lastStatusCode),
    ("last_error", dumpOptional .str d.lastError), ("created_at", dumpUtc d.createdAt),
    ("updated_at", dumpUtc d.updatedAt)]

structure WebhookDeliveryAttempt where
  attemptId : Uuid
  deliveryId : Uuid
  attemptNumber : Nat
  attemptedAt : UtcDatetime
  completedAt : UtcDatetime
  outcome : WebhookDeliveryOutcome
  statusCode : Option Int
  error : Option Str
  deriving DecidableEq

end DecAustrum
