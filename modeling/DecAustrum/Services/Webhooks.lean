import DecAustrum.Services.Requests
import DecAustrum.Storage.Webhooks
import DecAustrum.WebhookSignatures

/-!
# Dispatch of webhooks

`dispatch_pending_webhooks`: a batch of due deliveries is claimed, and each is sent and its result
recorded in turn. The answers of the transport come from outside.
-/
namespace DecAustrum

open Python Transaction

/-! ## Requests -/

/-- `derive_webhook_signing_secret`. -/
def deriveWebhookSigningSecret (hmac : Bytes → Bytes → Bytes) (masterSecret : Str)
    (subscriptionId : Uuid) (secretVersion : Nat) : Except PyExc Str := do
  let key ← orRaise .unicodeEncodeError (encodeUtf8 masterSecret)
  if key.length < 32 then throw .valueError
  if secretVersion < 1 then throw .valueError
  let version ← intStr secretVersion
  let message ← orRaise .unicodeEncodeError
    (encodeUtf8 ("decaustrum-webhook:" ++ subscriptionId.str ++ ":" ++ version))
  return "whsec_" ++ Base64.base64urlEncode (hmac key message)

/-- `int(value.timestamp())`. -/
def wholeTimestamp (d : Datetime) : Except PyExc Int := do
  let micros ← orRaise .valueError (posixMicroseconds d)
  let seconds ← orRaise .overflowError (Double.ofRat (posixSeconds micros))
  return seconds.toInt

/-- `build_webhook_headers`. -/
def buildWebhookHeaders (hmac : Bytes → Bytes → Bytes) (event : WebhookEvent) (deliveryId : Uuid)
    (payload : Bytes) (timestamp : Int) (signingSecret : Str) : Except PyExc (List (Str × Str)) := do
  let stamp ← intStr timestamp
  let signature ← signWebhookPayload hmac payload timestamp signingSecret
  return [("Content-Type", "application/json"), ("User-Agent", "DecAustrum-Webhooks/0.1"),
    ("X-DecAustrum-Delivery-Id", deliveryId.str), ("X-DecAustrum-Event-Id", event.eventId.str),
    ("X-DecAustrum-Event-Type", event.eventType.text), ("X-DecAustrum-Timestamp", stamp),
    ("X-DecAustrum-Signature", signature)]

/-- What `transport.send` does: it returns, raises `WebhookTransportError`, or raises otherwise. -/
inductive TransportAnswer where
  | response (statusCode : Int)
  | transportError (message : Str)
  | raised (exc : PyExc)

/-- The arguments of a dispatcher that stay the same. -/
structure DispatchSettings where
  masterSecret : Str
  limit : Nat
  leaseSeconds : Int
  policy : WebhookRepository.RetryPolicy

namespace WebhookRepository

/-- `WebhookDispatchItem`. -/
structure DispatchItem where
  event : WebhookEvent
  subscription : WebhookSubscription
  payload : Bytes

def missingData : StoreExc := .runtimeError "Webhook delivery references missing data."

/-- The body of `get_dispatch_item`. -/
def getDispatchItem (delivery : WebhookDelivery) : Body DispatchItem := do
  let row ← Block.query fun db => db.events.find? fun row =>
    row.event.eventId = delivery.eventId && row.event.projectId = delivery.projectId
  let subscription ← getSubscriptionWithConnection delivery.projectId delivery.subscriptionId
  match row, subscription with
  | some row, some subscription => do
    let payload ← ofPython (orRaise .unicodeEncodeError (encodeUtf8 row.payload))
    return ⟨row.event, subscription, payload⟩
  | _, _ => .raise missingData

end WebhookRepository

namespace WebhookService

open WebhookRepository

/-- The outcome of a request with its status code and its error. -/
def outcomeOf : TransportAnswer →
    Except PyExc (WebhookDeliveryOutcome × Option Int × Option Str)
  | .response statusCode =>
    if 200 ≤ statusCode ∧ statusCode < 300 then .ok (.success, some statusCode, none)
    else do
      let code ← intStr statusCode
      return (.httpError, some statusCode, some ("Webhook endpoint returned HTTP " ++ code ++ "."))
  | .transportError message => .ok (.networkError, none, some message)
  | .raised exc => .error exc

/-- `WebhookDispatchSummary`. -/
structure DispatchSummary where
  claimed : Nat
  delivered : Nat
  retryScheduled : Nat
  deadLettered : Nat
  cancelled : Nat
  deriving DecidableEq

def DispatchSummary.counted (summary : DispatchSummary) : Nat :=
  summary.delivered + summary.retryScheduled + summary.deadLettered + summary.cancelled

/-- The counters after a delivery has ended in a status. -/
def DispatchSummary.count (summary : DispatchSummary) : WebhookDeliveryStatus → DispatchSummary
  | .delivered => { summary with delivered := summary.delivered + 1 }
  | .retryScheduled => { summary with retryScheduled := summary.retryScheduled + 1 }
  | .deadLetter => { summary with deadLettered := summary.deadLettered + 1 }
  | .cancelled => { summary with cancelled := summary.cancelled + 1 }
  | .pending | .processing => summary

abbrev Dispatch := Session Database Uuid TransportAnswer StoreExc

variable (hmac : Bytes → Bytes → Bytes) (settings : DispatchSettings) (dispatchTime : UtcDatetime)

/-- The headers of the request for a delivery. -/
def requestHeaders (delivery : WebhookDelivery) (item : DispatchItem) :
    Except PyExc (List (Str × Str)) := do
  let signingSecret ← deriveWebhookSigningSecret hmac settings.masterSecret
    item.subscription.subscriptionId item.subscription.secretVersion
  let timestamp ← wholeTimestamp dispatchTime.val
  buildWebhookHeaders hmac item.event delivery.deliveryId item.payload timestamp signingSecret

/-- What follows an answer of the transport. -/
def recordAnswer (delivery : WebhookDelivery) (answer : TransportAnswer) :
    Dispatch WebhookDeliveryStatus := do
  let (outcome, statusCode, error) ← .check ((outcomeOf answer).mapError .python)
  let completed ← recordDeliveryResult settings.policy delivery.projectId delivery.deliveryId
    dispatchTime dispatchTime outcome statusCode error
  return completed.status

/-- One round of the loop: the status that is counted. -/
def dispatchDelivery (delivery : WebhookDelivery) : Dispatch WebhookDeliveryStatus := do
  let item ← .within (getDispatchItem delivery)
  if item.subscription.status ≠ .active then do
    let _ ← cancelProcessingDelivery delivery.projectId delivery.deliveryId dispatchTime
      subscriptionDisabledError
    return .cancelled
  else do
    let _ ← .check ((requestHeaders hmac settings dispatchTime delivery item).mapError .python)
    .ask fun answer => recordAnswer settings dispatchTime delivery answer

/-- The loop over the claimed deliveries. -/
def dispatchClaimed : List WebhookDelivery → DispatchSummary → Dispatch DispatchSummary
  | [], summary => return summary
  | delivery :: rest, summary => do
    let status ← dispatchDelivery hmac settings dispatchTime delivery
    dispatchClaimed rest (summary.count status)

/-- `dispatch_pending_webhooks`. -/
def dispatchPendingWebhooks : Dispatch DispatchSummary := do
  let claimed ← claimDueDeliveries dispatchTime settings.limit settings.leaseSeconds
  dispatchClaimed hmac settings dispatchTime claimed ⟨claimed.length, 0, 0, 0, 0⟩

end WebhookService

end DecAustrum
