import DecAustrum.Storage.Projects

/-!
# Subscriptions and deliveries

The statements on `webhook_subscriptions`, `webhook_deliveries` and
`webhook_delivery_attempts`.
-/
namespace DecAustrum

open Python Transaction Table

namespace WebhookRepository

/-! ## Subscriptions -/

def insertSubscription (subscription : WebhookSubscription) : Body Unit :=
  insertRow
    (fun db => (!db.subscriptions.any fun other =>
        other.subscriptionId = subscription.subscriptionId) &&
      (db.projects.any fun project => project.projectId = subscription.projectId) &&
      1 ≤ subscription.secretVersion &&
      (subscription.status = .active) == subscription.disabledAt.isNone)
    fun db => { db with subscriptions := db.subscriptions ++ [subscription] }

def subscriptionIs (projectId subscriptionId : Uuid) (s : WebhookSubscription) : Bool :=
  s.projectId = projectId && s.subscriptionId = subscriptionId

def getSubscriptionWithConnection (projectId subscriptionId : Uuid) :
    Body (Option WebhookSubscription) :=
  Block.query fun db => db.subscriptions.find? (subscriptionIs projectId subscriptionId)

def disabledSubscription (disabledAt : UtcDatetime) (s : WebhookSubscription) :
    WebhookSubscription :=
  { s with status := .disabled, updatedAt := disabledAt, disabledAt := some disabledAt }

def isQueued (d : WebhookDelivery) : Bool := d.status = .pending || d.status = .retryScheduled

def subscriptionDisabledError : Str := "Webhook subscription was disabled."

def cancelledDelivery (reason : Str) (cancelledAt : UtcDatetime) (d : WebhookDelivery) :
    WebhookDelivery :=
  { d with status := .cancelled, nextAttemptAt := none, leaseExpiresAt := none,
           lastError := some reason, updatedAt := cancelledAt }

/-- The two updates of a disable. -/
def disableRows (projectId subscriptionId : Uuid) (disabledAt : UtcDatetime) : Body Unit := do
  updateRows fun db => { db with
    subscriptions := updateWhere
      (fun s => subscriptionIs projectId subscriptionId s && s.status = .active)
      (disabledSubscription disabledAt) db.subscriptions }
  updateRows fun db => { db with
    deliveries := updateWhere
      (fun d => d.projectId = projectId && d.subscriptionId = subscriptionId && isQueued d)
      (cancelledDelivery subscriptionDisabledError disabledAt) db.deliveries }

def disableSubscriptionWithConnection (projectId subscriptionId : Uuid)
    (disabledAt : UtcDatetime) : Body WebhookSubscription := do
  match ← getSubscriptionWithConnection projectId subscriptionId with
  | none => .raise (.webhookSubscriptionNotFound projectId subscriptionId)
  | some current =>
    if current.status = .disabled then
      return current
    else do
      disableRows projectId subscriptionId disabledAt
      match ← getSubscriptionWithConnection projectId subscriptionId with
      | none => .raise (.webhookSubscriptionNotFound projectId subscriptionId)
      | some updated => return updated

def rotatedSubscription (rotatedAt : UtcDatetime) (s : WebhookSubscription) : WebhookSubscription :=
  { s with secretVersion := s.secretVersion + 1, updatedAt := rotatedAt }

def rotateRows (projectId subscriptionId : Uuid) (rotatedAt : UtcDatetime) : Body Unit :=
  updateRows fun db => { db with
    subscriptions := updateWhere
      (fun s => subscriptionIs projectId subscriptionId s && s.status = .active)
      (rotatedSubscription rotatedAt) db.subscriptions }

def rotateSubscriptionSecretWithConnection (projectId subscriptionId : Uuid)
    (rotatedAt : UtcDatetime) : Body WebhookSubscription := do
  match ← getSubscriptionWithConnection projectId subscriptionId with
  | none => .raise (.webhookSubscriptionNotFound projectId subscriptionId)
  | some current =>
    if current.status ≠ .active then
      .raise (.webhookSubscriptionDisabled subscriptionId)
    else do
      rotateRows projectId subscriptionId rotatedAt
      match ← getSubscriptionWithConnection projectId subscriptionId with
      | none => .raise (.webhookSubscriptionNotFound projectId subscriptionId)
      | some updated => return updated

/-! ## Deliveries -/

def deliveryIs (projectId deliveryId : Uuid) (d : WebhookDelivery) : Bool :=
  d.projectId = projectId && d.deliveryId = deliveryId

def getDeliveryWithConnection (projectId deliveryId : Uuid) : Body (Option WebhookDelivery) :=
  Block.query fun db => db.deliveries.find? (deliveryIs projectId deliveryId)

/-- The subscription of a delivery has a status. -/
def subscriptionHas (status : WebhookSubscriptionStatus) (db : Database) (d : WebhookDelivery) :
    Bool :=
  db.subscriptions.any fun s => s.subscriptionId = d.subscriptionId && s.status = status

/-- The lease of a delivery in processing has ended. -/
def leaseEnded (now : UtcDatetime) (d : WebhookDelivery) : Bool :=
  d.status = .processing && d.leaseExpiresAt.any fun lease => lease ≤ now

def isDue (now : UtcDatetime) (d : WebhookDelivery) : Bool :=
  (isQueued d && d.nextAttemptAt.any fun next => next ≤ now) || leaseEnded now d

/-- `COALESCE(next_attempt_at, lease_expires_at)`, then the identifier. A null comes first. -/
def dueLe (a b : WebhookDelivery) : Prop :=
  match a.nextAttemptAt.or a.leaseExpiresAt, b.nextAttemptAt.or b.leaseExpiresAt with
  | none, none => a.deliveryId.value ≤ b.deliveryId.value
  | none, some _ => True
  | some _, none => False
  | some s, some t => s < t ∨ s = t ∧ a.deliveryId.value ≤ b.deliveryId.value

instance : DecidableRel dueLe := fun a b => by
  unfold dueLe
  split <;> infer_instance

def createdLe (a b : WebhookDelivery) : Prop :=
  a.createdAt < b.createdAt ∨ a.createdAt = b.createdAt ∧ a.deliveryId.value ≤ b.deliveryId.value

instance : DecidableRel createdLe := fun a b =>
  inferInstanceAs (Decidable (a.createdAt < b.createdAt ∨
    a.createdAt = b.createdAt ∧ a.deliveryId.value ≤ b.deliveryId.value))

/-- The deliveries a claim selects. -/
def dueDeliveries (now : UtcDatetime) (limit : Nat) (db : Database) : List Uuid :=
  (((db.deliveries.filter fun d => subscriptionHas .active db d && isDue now d).insertionSort
    dueLe).take limit).map (·.deliveryId)

def claimedDelivery (leaseExpiresAt now : UtcDatetime) (d : WebhookDelivery) : WebhookDelivery :=
  { d with status := .processing, leaseExpiresAt := some leaseExpiresAt, updatedAt := now }

/-- `BEGIN IMMEDIATE`. -/
def beginImmediate : Body Unit := updateRows id

/-- The body of `claim_due_deliveries`. -/
def claimBody (now leaseExpiresAt : UtcDatetime) (limit : Nat) : Body (List WebhookDelivery) := do
  beginImmediate
  updateRows fun db => { db with
    deliveries := updateWhere (fun d => leaseEnded now d && subscriptionHas .disabled db d)
      (cancelledDelivery subscriptionDisabledError now) db.deliveries }
  let deliveryIds ← Block.query (dueDeliveries now limit)
  if deliveryIds = [] then
    return []
  else do
    updateRows fun db => { db with
      deliveries := updateWhere (fun d => deliveryIds.contains d.deliveryId)
        (claimedDelivery leaseExpiresAt now) db.deliveries }
    Block.query fun db =>
      (db.deliveries.filter fun d => deliveryIds.contains d.deliveryId).insertionSort createdLe

/-- The body of `cancel_processing_delivery`. -/
def cancelBody (projectId deliveryId : Uuid) (cancelledAt : UtcDatetime) (reason : Str) :
    Body (Option WebhookDelivery) := do
  updateRows fun db => { db with
    deliveries := updateWhere (fun d => deliveryIs projectId deliveryId d && d.status = .processing)
      (cancelledDelivery (reason.take 1000) cancelledAt) db.deliveries }
  getDeliveryWithConnection projectId deliveryId

/-- What an attempt makes of a delivery. -/
structure DeliveryResult where
  status : WebhookDeliveryStatus
  failureCount : Nat
  nextAttemptAt : Option UtcDatetime
  deliveredAt : Option UtcDatetime

/-- The limits of the dispatcher. -/
structure RetryPolicy where
  maxAttempts : Nat
  baseRetrySeconds : Int
  maxRetrySeconds : Int

def RetryPolicy.retrySeconds (policy : RetryPolicy) (failureCount : Nat) : Int :=
  min (policy.baseRetrySeconds * 2 ^ (failureCount - 1)) policy.maxRetrySeconds

def statusCodeAccepted (statusCode : Option Int) : Bool :=
  statusCode.all fun code => 100 ≤ code && code ≤ 599

def insertAttempt (attempt : WebhookDeliveryAttempt) : Body Unit :=
  insertRow
    (fun db => 1 ≤ attempt.attemptNumber && statusCodeAccepted attempt.statusCode &&
      (!db.attempts.any fun other => other.attemptId = attempt.attemptId ||
        (other.deliveryId = attempt.deliveryId && other.attemptNumber = attempt.attemptNumber)) &&
      db.deliveries.any fun d => d.deliveryId = attempt.deliveryId)
    fun db => { db with attempts := db.attempts ++ [attempt] }

/-- What follows from the outcome of an attempt. -/
def resultOf (policy : RetryPolicy) (projectId : Uuid) (current : WebhookDelivery)
    (completedAt : UtcDatetime) : WebhookDeliveryOutcome → Body DeliveryResult
  | .success => return ⟨.delivered, 0, none, some completedAt⟩
  | _ => do
    let subscription ← getSubscriptionWithConnection projectId current.subscriptionId
    if subscription.all fun s => s.status = .disabled then
      return ⟨.cancelled, current.failureCount + 1, none, none⟩
    else if policy.maxAttempts ≤ current.failureCount + 1 then
      return ⟨.deadLetter, current.failureCount + 1, none, none⟩
    else do
      let next ← ofPython (orRaise .overflowError
        (completedAt.addSeconds (policy.retrySeconds (current.failureCount + 1))))
      return ⟨.retryScheduled, current.failureCount + 1, some next, none⟩

def attemptedDelivery (result : DeliveryResult) (attemptNumber : Nat) (completedAt : UtcDatetime)
    (statusCode : Option Int) (error : Option Str) (d : WebhookDelivery) : WebhookDelivery :=
  { d with
    status := result.status
    attemptCount := attemptNumber
    failureCount := result.failureCount
    nextAttemptAt := result.nextAttemptAt
    leaseExpiresAt := none
    deliveredAt := result.deliveredAt
    lastAttemptAt := some completedAt
    lastStatusCode := statusCode
    lastError := error
    updatedAt := completedAt }

/-- The part of `record_delivery_result` that follows its checks on the delivery it read. -/
def recordAttempt (policy : RetryPolicy) (projectId deliveryId : Uuid)
    (attemptedAt completedAt : UtcDatetime) (outcome : WebhookDeliveryOutcome)
    (statusCode : Option Int) (error : Option Str) (current : WebhookDelivery) :
    Body (Option WebhookDelivery) := do
  let attemptId ← Block.fresh
  insertAttempt { attemptId, deliveryId, attemptNumber := current.attemptCount + 1, attemptedAt,
                  completedAt, outcome, statusCode, error := error.map (·.take 1000) }
  let result ← resultOf policy projectId current completedAt outcome
  Block.statement fun db =>
    -- the delivery has the check of the attempt on its last status
    if statusCodeAccepted statusCode then
      .ok ({ db with
        deliveries := updateWhere
          (fun d => deliveryIs projectId deliveryId d && d.status = .processing)
          (attemptedDelivery result (current.attemptCount + 1) completedAt statusCode
            (error.map (·.take 1000))) db.deliveries }, ())
    else .error integrityError
  getDeliveryWithConnection projectId deliveryId

/-- The body of `record_delivery_result`. -/
def recordBody (policy : RetryPolicy) (projectId deliveryId : Uuid)
    (attemptedAt completedAt : UtcDatetime) (outcome : WebhookDeliveryOutcome)
    (statusCode : Option Int) (error : Option Str) : Body (Option WebhookDelivery) := do
  match ← getDeliveryWithConnection projectId deliveryId with
  | none => .raise (.webhookDeliveryNotFound projectId deliveryId)
  | some current =>
    if current.status ≠ .processing then
      .raise (.webhookDeliveryState deliveryId current.status)
    else
      recordAttempt policy projectId deliveryId attemptedAt completedAt outcome statusCode error
        current

def redelivery (requestedAt : UtcDatetime) (d : WebhookDelivery) : WebhookDelivery :=
  { d with
    status := .pending
    failureCount := 0
    redeliveryCount := d.redeliveryCount + 1
    nextAttemptAt := some requestedAt
    leaseExpiresAt := none
    deliveredAt := none
    lastError := none
    updatedAt := requestedAt }

def redeliverRows (projectId deliveryId : Uuid) (requestedAt : UtcDatetime) : Body Unit :=
  updateRows fun db => { db with
    deliveries := updateWhere (fun d => deliveryIs projectId deliveryId d && d.status = .deadLetter)
      (redelivery requestedAt) db.deliveries }

def requestRedeliveryWithConnection (projectId deliveryId : Uuid) (requestedAt : UtcDatetime) :
    Body WebhookDelivery := do
  match ← getDeliveryWithConnection projectId deliveryId with
  | none => .raise (.webhookDeliveryNotFound projectId deliveryId)
  | some current =>
    if current.status ≠ .deadLetter then
      .raise (.webhookDeliveryNotRedeliverable deliveryId current.status)
    else
      match ← getSubscriptionWithConnection projectId current.subscriptionId with
      | none => .raise (.webhookSubscriptionNotFound projectId current.subscriptionId)
      | some subscription =>
        if subscription.status ≠ .active then
          .raise (.webhookSubscriptionDisabled subscription.subscriptionId)
        else do
          redeliverRows projectId deliveryId requestedAt
          match ← getDeliveryWithConnection projectId deliveryId with
          | none => .raise (.webhookDeliveryNotFound projectId deliveryId)
          | some updated => return updated

/-! ## Calls -/

/-- The result of a committed body that must not be missing. -/
def orNotFound {ω : Type} (projectId deliveryId : Uuid) :
    Option WebhookDelivery → Session Database Uuid ω StoreExc WebhookDelivery
  | none => .raise (.webhookDeliveryNotFound projectId deliveryId)
  | some d => .ret d

def claimDueDeliveries {ω : Type} (now : UtcDatetime) (limit : Nat) (leaseSeconds : Int) :
    Session Database Uuid ω StoreExc (List WebhookDelivery) :=
  match now.addSeconds leaseSeconds with
  | none => .raise (.python .overflowError)
  | some leaseExpiresAt => .within (claimBody now leaseExpiresAt limit)

def cancelProcessingDelivery {ω : Type} (projectId deliveryId : Uuid) (cancelledAt : UtcDatetime)
    (reason : Str) : Session Database Uuid ω StoreExc WebhookDelivery := do
  let cancelled ← .within (cancelBody projectId deliveryId cancelledAt reason)
  orNotFound projectId deliveryId cancelled

def recordDeliveryResult {ω : Type} (policy : RetryPolicy) (projectId deliveryId : Uuid)
    (attemptedAt completedAt : UtcDatetime) (outcome : WebhookDeliveryOutcome)
    (statusCode : Option Int) (error : Option Str) :
    Session Database Uuid ω StoreExc WebhookDelivery := do
  let updated ← .within (recordBody policy projectId deliveryId attemptedAt completedAt outcome
    statusCode error)
  orNotFound projectId deliveryId updated

end WebhookRepository

end DecAustrum
