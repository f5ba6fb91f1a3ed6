import DecAustrum.Audit
import DecAustrum.Storage.Integrity
import DecAustrum.Transaction.Program

/-!
# The database

The tables of the store, and the exceptions its operations raise. A row holds the validated
values of its columns.
-/
namespace DecAustrum

open Python Transaction

/-- A row of `project_policies`. -/
structure PolicyRow where
  projectId : Uuid
  policyId : Str
  version : Int
  policy : Policy
  enabled : Bool
  updatedAt : UtcDatetime
  positive : 1 ≤ version

/-- A row of `project_policy_versions`. -/
structure PolicyVersionRow where
  projectId : Uuid
  policyId : Str
  version : Int
  policy : Policy
  changeType : PolicyVersionChangeType
  sourceVersion : Option Int
  createdAt : UtcDatetime

/-- A row of `webhook_events`. `audience` is a ghost column: the subscriptions as they are at the
moment of the insert. -/
structure WebhookEventRow where
  event : WebhookEvent
  payload : Str
  audience : List WebhookSubscription

structure Database where
  ledger : Ledger
  lifecycle : LifecycleTables Uuid UtcDatetime
  idempotency : List IdempotencyRecord
  projects : List Project
  apiKeys : List ProjectApiKeyRecord
  policies : List PolicyRow
  policyVersions : List PolicyVersionRow
  audit : List AdministrativeAuditEvent
  subscriptions : List WebhookSubscription
  events : List WebhookEventRow
  deliveries : List WebhookDelivery
  attempts : List WebhookDeliveryAttempt

/-- A freshly initialised schema. -/
def Database.empty : Database :=
  ⟨⟨[], []⟩, ⟨[], []⟩, [], [], [], [], [], [], [], [], [], []⟩

inductive StoreExc where
  | python (exc : PyExc)
  | valueError (message : Str)
  | runtimeError (message : Str)
  | approvalNotFound (decisionId : Uuid)
  | approvalExpired (decisionId : Uuid)
  | approvalAlreadyResolved (decisionId : Uuid) (currentStatus : ApprovalStatus)
  | invalidExecutionGrant
  | executionGrantMismatch (grantId : Uuid)
  | executionGrantAlreadyConsumed (grantId : Uuid)
  | executionGrantExpired (grantId : Uuid)
  | policyVersionConflict (policyId : Str) (expectedVersion providedVersion : Int)
  | policyVersionNotFound (policyId : Str) (version : Int)
  | policyVersionAlreadyCurrent (policyId : Str) (version : Int)
  | webhookSubscriptionNotFound (projectId subscriptionId : Uuid)
  | webhookSubscriptionDisabled (subscriptionId : Uuid)
  | webhookDeliveryNotFound (projectId deliveryId : Uuid)
  | webhookDeliveryNotRedeliverable (deliveryId : Uuid) (currentStatus : WebhookDeliveryStatus)
  | webhookDeliveryState (deliveryId : Uuid) (currentStatus : WebhookDeliveryStatus)
  deriving DecidableEq

/-- `sqlite3.IntegrityError`. -/
abbrev integrityError : StoreExc := .python .integrityError

/-- The body of a connection of the store; it draws the values of `uuid4()`. -/
abbrev Body := Block Database Uuid StoreExc

instance : Nonempty Uuid := ⟨⟨0⟩⟩

/-- A computation that touches no table. -/
def ofPython {α : Type} (x : Except PyExc α) : Body α := Block.check (x.mapError .python)

/-- An insert that `accepted` decides on. -/
def insertRow (accepted : Database → Bool) (insert : Database → Database) : Body Unit :=
  Block.statement fun db => if accepted db then .ok (insert db, ()) else .error integrityError

@[simp] theorem exec_insertRow (accepted : Database → Bool) (insert : Database → Database)
    (draws : ℕ → Uuid) (db : Database) :
    (insertRow accepted insert).exec draws db =
      if accepted db then .ok ((), draws, insert db) else .error integrityError := by
  rw [insertRow, Block.exec_statement]
  split <;> rfl

@[simp] theorem exec_ofPython {α : Type} (x : Except PyExc α) (draws : ℕ → Uuid) (db : Database) :
    (ofPython x).exec draws db = (x.mapError .python).map fun a => (a, draws, db) := by
  rw [ofPython, Block.exec_check]

section Exec

variable {draws rest : ℕ → Uuid} {db db' : Database}

/-- A body that goes on with a query. -/
theorem exec_query_bind {α β : Type} (q : Database → α) (f : α → Body β) :
    (Block.query q >>= f).exec draws db = (f (q db)).exec draws db := by
  rw [Block.exec_bind, Block.exec_query]

theorem ofPython_ok {α : Type} {x : Except PyExc α} {a : α}
    (ran : (ofPython x).exec draws db = .ok (a, rest, db')) : x = .ok a ∧ rest = draws ∧ db' = db := by
  rw [exec_ofPython] at ran
  cases x with
  | ok b =>
    cases ran
    exact ⟨rfl, rfl, rfl⟩
  | error exc => cases ran

end Exec

namespace Database

/-- What the approvals and grants refer to. -/
def parents (db : Database) : Parents Uuid where
  decision d := db.ledger.decisions.any fun row => row.decisionId = d.str
  requiresApproval d p := db.ledger.decisions.any fun row => row.decisionId = d.str &&
    row.projectId = p.str && row.decision = Decision.requireApproval.text
  project p := db.projects.any fun project => project.projectId = p

end Database

end DecAustrum
