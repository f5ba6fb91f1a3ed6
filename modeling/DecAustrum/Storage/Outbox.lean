import DecAustrum.Storage.Database

/-!
# Audit events and the outbox

An administrative change is recorded inside the transaction that makes it: the audit event, the
webhook event derived from it, and one delivery for each active subscription that selects it.
-/
namespace DecAustrum

open Python Transaction

namespace Database

variable (db : Database)

def auditAccepted (event : AdministrativeAuditEvent) : Bool :=
  (!db.audit.any fun other => other.eventId = event.eventId) &&
    db.projects.any fun project => project.projectId = event.projectId

def eventAccepted (event : WebhookEvent) : Bool :=
  (!db.events.any fun row => row.event.eventId = event.eventId) &&
    db.projects.any fun project => project.projectId = event.projectId

/-- The keys of `webhook_deliveries`, its references and `enforce_webhook_delivery_project`. -/
def deliveryAccepted (delivery : WebhookDelivery) : Bool :=
  (!db.deliveries.any fun other => other.deliveryId = delivery.deliveryId ||
    (other.eventId = delivery.eventId && other.subscriptionId = delivery.subscriptionId)) &&
    (db.events.any fun row => row.event.eventId = delivery.eventId &&
      row.event.projectId = delivery.projectId) &&
    (db.subscriptions.any fun s => s.subscriptionId = delivery.subscriptionId &&
      s.projectId = delivery.projectId) &&
    db.projects.any fun project => project.projectId = delivery.projectId

def subscriptionLe (a b : WebhookSubscription) : Prop :=
  a.createdAt < b.createdAt ∨ a.createdAt = b.createdAt ∧ a.subscriptionId.value ≤ b.subscriptionId.value

instance : DecidableRel subscriptionLe := fun a b =>
  inferInstanceAs (Decidable (a.createdAt < b.createdAt ∨
    a.createdAt = b.createdAt ∧ a.subscriptionId.value ≤ b.subscriptionId.value))

/-- The active subscriptions of a project, in the order of the query. -/
def activeSubscriptions (projectId : Uuid) : List WebhookSubscription :=
  (db.subscriptions.filter fun s => s.projectId = projectId && s.status = .active).insertionSort
    subscriptionLe

end Database

/-- The delivery an event starts with. -/
def pendingDelivery (deliveryId : Uuid) (event : WebhookEvent) (subscription : WebhookSubscription) :
    WebhookDelivery where
  deliveryId
  eventId := event.eventId
  subscriptionId := subscription.subscriptionId
  projectId := event.projectId
  status := .pending
  attemptCount := 0
  failureCount := 0
  redeliveryCount := 0
  nextAttemptAt := some event.occurredAt
  leaseExpiresAt := none
  deliveredAt := none
  lastAttemptAt := none
  lastStatusCode := none
  lastError := none
  createdAt := event.occurredAt
  updatedAt := event.occurredAt

namespace AdministrativeAuditRepository

def insert (event : AdministrativeAuditEvent) : Body Unit :=
  insertRow (·.auditAccepted event) fun db => { db with audit := db.audit ++ [event] }

end AdministrativeAuditRepository

namespace WebhookRepository

def insertDelivery (delivery : WebhookDelivery) : Body Unit :=
  insertRow (·.deliveryAccepted delivery) fun db =>
    { db with deliveries := db.deliveries ++ [delivery] }

/-- The loop over the active subscriptions. -/
def insertDeliveries (event : WebhookEvent) : List WebhookSubscription → Body (List WebhookDelivery)
  | [] => pure []
  | subscription :: rest =>
    if subscription.selects event.eventType then do
      let deliveryId ← Block.fresh
      insertDelivery (pendingDelivery deliveryId event subscription)
      let later ← insertDeliveries event rest
      return pendingDelivery deliveryId event subscription :: later
    else insertDeliveries event rest

def insertEventWithDeliveries (platform : Platform) (event : WebhookEvent) :
    Body (List WebhookDelivery) := do
  let payload ← ofPython (canonicalWebhookPayload platform event)
  insertRow (·.eventAccepted event) fun db =>
    { db with events := db.events ++ [⟨event, payload, db.subscriptions⟩] }
  let subscriptions ← Block.query (·.activeSubscriptions event.projectId)
  insertDeliveries event subscriptions

end WebhookRepository

namespace ProjectRepository

def getWithConnection (projectId : Uuid) : Body (Option Project) :=
  Block.query fun db => db.projects.find? fun project => project.projectId = projectId

end ProjectRepository

section

variable (platform : Platform)

/-- `_enqueue_webhook_event`: nothing for a project that does not exist. -/
def enqueueWebhookEvent (event : WebhookEvent) : Body Unit := do
  match ← ProjectRepository.getWithConnection event.projectId with
  | none => return ()
  | some _ => do
    let _ ← WebhookRepository.insertEventWithDeliveries platform event
    return ()

/-- `_record_administrative_change`. -/
def recordAdministrativeChange (event : AdministrativeAuditEvent) : Body Unit := do
  AdministrativeAuditRepository.insert event
  let eventId ← Block.fresh
  enqueueWebhookEvent platform (buildWebhookEventFromAudit eventId event)

/-- `_record_administrative_change` of `build_audit_event`. -/
def recordAudit (occurredAt : UtcDatetime) (projectId : Uuid) (context : AuditContext)
    (action : AuditAction) (resourceType : AuditResourceType) (resourceId : Str)
    (before after : Option Json) (metadata : List (Str × Json)) : Body Unit := do
  let eventId ← Block.fresh
  let event ← ofPython (buildAuditEvent eventId occurredAt projectId context action resourceType
    resourceId before after metadata)
  recordAdministrativeChange platform event

-- goals about bodies that record changes are not to be decided by unfolding it
attribute [irreducible] recordAudit

end

end DecAustrum
