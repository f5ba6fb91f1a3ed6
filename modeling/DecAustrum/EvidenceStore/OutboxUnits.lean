import DecAustrum.EvidenceStore.Operations
import DecAustrum.Storage.ApprovalEffects
import DecAustrum.Storage.PolicyEffects
import DecAustrum.Storage.WebhookEffects

/-!
# The units that touch the outbox

Subscriptions, events and deliveries change in few units; every other unit leaves them.
-/
namespace DecAustrum

open Python Transaction Table
open Block (Leaves leaves_ret leaves_raise leaves_query leaves_check leaves_fresh leaves_statement
  leaves_execute)

/-- The tables of the outbox. -/
def Database.outbox (db : Database) :
    List WebhookSubscription × List WebhookEventRow × List WebhookDelivery :=
  (db.subscriptions, db.events, db.deliveries)

def Database.deliveryTables (db : Database) :
    (List WebhookSubscription × List WebhookEventRow × List WebhookDelivery) ×
      List WebhookDeliveryAttempt :=
  (db.outbox, db.attempts)

/-! ## Statements that leave a view -/

section Statements

variable {ρ : Type} {view : Database → ρ}

theorem leaves_insertRow {accepted : Database → Bool} {insert : Database → Database}
    (kept : ∀ db, view (insert db) = view db) : (insertRow accepted insert).Leaves view := by
  refine leaves_statement fun s t b ran => ?_
  split at ran
  · cases ran
    exact kept s
  · cases ran

theorem leaves_updateRows {update : Database → Database} (kept : ∀ db, view (update db) = view db) :
    (updateRows update).Leaves view := by
  refine leaves_statement fun s t b ran => ?_
  cases ran
  exact kept s

theorem leaves_ledgerStatement {write : Ledger → Except PyExc Ledger}
    (kept : ∀ db ledger, view { db with ledger := ledger } = view db) :
    (ledgerStatement write).Leaves view := by
  refine leaves_statement fun s t b ran => ?_
  cases result : write s.ledger with
  | ok ledger =>
    rw [result] at ran
    cases ran
    exact kept s ledger
  | error exc =>
    rw [result] at ran
    cases ran

theorem leaves_recordDecision {platform : Platform} (authorization : AuthorizationResponse)
    (kept : ∀ db ledger, view { db with ledger := ledger } = view db) :
    (EvidenceStore.recordDecision platform authorization).Leaves view := by
  refine (leaves_ledgerStatement kept).bind fun _ => (leaves_query _).bind fun _ => ?_
  refine (leaves_check _).bind fun _ => (leaves_ledgerStatement kept).bind fun _ => ?_
  exact leaves_ret _

theorem leaves_insertLifecycle
    {insert : LifecycleTables Uuid UtcDatetime → Parents Uuid →
      Option (LifecycleTables Uuid UtcDatetime)}
    (kept : ∀ db tables, view { db with lifecycle := tables } = view db) :
    (insertLifecycle insert).Leaves view := by
  refine leaves_statement fun s t b ran => ?_
  split at ran
  · cases ran
    exact kept s _
  · cases ran

theorem leaves_updateApprovals {hit : Database → ApprovalRow Uuid UtcDatetime → Bool}
    {update : ApprovalRow Uuid UtcDatetime → ApprovalRow Uuid UtcDatetime}
    (kept : ∀ db tables, view { db with lifecycle := tables } = view db) :
    (Block.statement fun db => db.updateApprovals (hit db) update : Body Nat).Leaves view := by
  refine leaves_statement fun s t b ran => ?_
  rw [(updateApprovals_ok ran).1]
  exact kept s _

theorem leaves_updateGrants {hit : GrantRow Uuid UtcDatetime → Bool}
    {update : GrantRow Uuid UtcDatetime → GrantRow Uuid UtcDatetime}
    (kept : ∀ db tables, view { db with lifecycle := tables } = view db) :
    (Block.statement fun db => db.updateGrants hit update : Body Nat).Leaves view := by
  refine leaves_statement fun s t b ran => ?_
  rw [(updateGrants_ok ran).1]
  exact kept s _

theorem leaves_getApproval (decisionId projectId : Uuid) :
    (ApprovalRepository.getWithConnection decisionId projectId).Leaves view := by
  refine (leaves_query _).bind fun row => ?_
  cases row with
  | none => exact leaves_ret _
  | some row => exact (leaves_check _).bind fun approval => leaves_ret _

theorem leaves_getGrant (hit : GrantRow Uuid UtcDatetime → Bool) :
    (ExecutionGrantRepository.getRow hit).Leaves view := by
  refine (leaves_query _).bind fun row => ?_
  cases row with
  | none => exact leaves_ret _
  | some row => exact (leaves_check _).bind fun grant => leaves_ret _

theorem leaves_resolve (decisionId projectId : Uuid) (status : ApprovalRepository.Resolution)
    (resolvedBy : Str) (resolvedAt : UtcDatetime)
    (updated : ∀ (hit : Database → ApprovalRow Uuid UtcDatetime → Bool)
      (update : ApprovalRow Uuid UtcDatetime → ApprovalRow Uuid UtcDatetime),
      (Block.statement fun db => db.updateApprovals (hit db) update : Body Nat).Leaves view) :
    (ApprovalRepository.resolveWithConnection decisionId projectId status resolvedBy
      resolvedAt).Leaves view := by
  refine (updated _ _).bind fun rowcount => ?_
  split
  · refine (leaves_getApproval _ _).bind fun current => ?_
    cases current with
    | none => exact leaves_raise _
    | some current =>
      dsimp only
      split <;> exact leaves_raise _
  · refine (leaves_getApproval _ _).bind fun resolved => ?_
    cases resolved with
    | none => exact leaves_raise _
    | some resolved => exact leaves_ret _

section Policies

variable (projectId : Uuid) (policy : Policy) (updatedAt : UtcDatetime)
variable (policies : ∀ db rows, view { db with policies := rows } = view db)
variable (versions : ∀ db rows, view { db with policyVersions := rows } = view db)

include versions in
theorem leaves_insertVersion (changeType : PolicyVersionChangeType) (sourceVersion : Option Int) :
    (ProjectPolicyRepository.insertVersion projectId policy changeType updatedAt
      sourceVersion).Leaves view := by
  intro draws s b rest t ran
  rw [(insertVersion_ok ran).2.2.2]
  exact versions s _

include policies versions in
theorem leaves_insertSeed :
    (ProjectPolicyRepository.insertSeed projectId policy updatedAt).Leaves view := by
  refine Leaves.bind (leaves_statement fun s t rowcount ran => ?_) fun rowcount => ?_
  · rcases insertOrIgnorePolicy_ok ran with ⟨-, -, rfl⟩ | ⟨-, -, rfl⟩
    · rfl
    · exact policies s _
  · split
    · exact leaves_insertVersion projectId policy updatedAt versions _ _
    · exact leaves_ret _

include policies in
theorem leaves_writePolicy (changeType : PolicyVersionChangeType) (current : Option PolicyRow) :
    (ProjectPolicyRepository.writePolicy projectId policy updatedAt changeType current).Leaves
      view := by
  cases current with
  | none =>
    refine leaves_execute (fun s t u ran => ?_) fun result => ?_
    · rw [(insertPolicy_ok ran).2]
      exact policies s _
    · cases result with
      | ok u => exact leaves_ret _
      | error exc =>
        simp only [Block.bind]
        split
        · refine (leaves_query _).bind fun concurrent => ?_
          cases concurrent <;> exact leaves_raise _
        · exact leaves_raise _
  | some current =>
    refine Leaves.bind (leaves_statement fun s t rowcount ran => ?_) fun rowcount => ?_
    · rw [(updatePolicy_ok ran).2]
      exact policies s _
    · split
      · exact (leaves_query _).bind fun concurrent => leaves_raise _
      · exact leaves_ret _

include policies versions in
theorem leaves_writeVersion (changeType : PolicyVersionChangeType) (sourceVersion : Option Int)
    (current : Option PolicyRow) :
    (ProjectPolicyRepository.writeVersion projectId policy updatedAt changeType sourceVersion
      current).Leaves view :=
  (leaves_writePolicy projectId policy updatedAt policies _ _).bind fun _ =>
    leaves_insertVersion projectId policy updatedAt versions _ _

end Policies

end Statements

/-! ## Units -/

open WebhookRepository in
inductive OutboxUnit (platform : Platform) (scope : StoreScope) : (β : Type) → Body β → Prop
  | insertEvent (event : WebhookEvent) :
      OutboxUnit platform scope _ (insertEventWithDeliveries platform event)
  | insertSubscription (subscription : WebhookSubscription) :
      OutboxUnit platform scope _ (insertSubscription subscription)
  | disableSubscription (projectId subscriptionId : Uuid) (disabledAt : UtcDatetime) :
      OutboxUnit platform scope _ (disableRows projectId subscriptionId disabledAt)
  | rotateSecret (projectId subscriptionId : Uuid) (rotatedAt : UtcDatetime) :
      OutboxUnit platform scope _ (rotateRows projectId subscriptionId rotatedAt)
  | claim (now leaseExpiresAt : UtcDatetime) (limit : Nat) :
      OutboxUnit platform scope _ (claimBody now leaseExpiresAt limit)
  | record (policy : RetryPolicy) (projectId deliveryId : Uuid)
      (attemptedAt completedAt : UtcDatetime) (outcome : WebhookDeliveryOutcome)
      (statusCode : Option Int) (error : Option Str) :
      OutboxUnit platform scope _ (recordBody policy projectId deliveryId attemptedAt completedAt
        outcome statusCode error)
  | cancel (projectId deliveryId : Uuid) (cancelledAt : UtcDatetime) (reason : Str) :
      OutboxUnit platform scope _ (cancelBody projectId deliveryId cancelledAt reason)
  | redeliver (projectId deliveryId : Uuid) (requestedAt : UtcDatetime) (does : scope.redelivers = true) :
      OutboxUnit platform scope _
        (requestRedeliveryWithConnection projectId deliveryId requestedAt)

variable {platform : Platform} {scope : StoreScope}

theorem StoreUnit.deliveryTables {β : Type} {x : Body β}
    (unit : StoreUnit platform scope β x) :
    OutboxUnit platform scope β x ∨ x.Immediate ∧ x.Leaves Database.deliveryTables := by
  cases unit with
  | insertProject => exact .inr ⟨trivial, leaves_insertRow fun _ => rfl⟩
  | updateStatus =>
    refine .inr ⟨trivial, Leaves.bind ?_ fun _ => leaves_query _⟩
    exact leaves_updateRows fun _ => rfl
  | insertKey => exact .inr ⟨trivial, leaves_insertRow fun _ => rfl⟩
  | revokeKey =>
    refine .inr ⟨trivial, Leaves.bind ?_ fun _ => leaves_query _⟩
    exact leaves_updateRows fun _ => rfl
  | insertSeed =>
    exact .inr ⟨trivial, leaves_insertSeed _ _ _ (fun _ _ => rfl) (fun _ _ => rfl)⟩
  | writeVersion projectId policy updatedAt changeType sourceVersion current =>
    refine .inr ⟨?_, leaves_writeVersion _ _ _ (fun _ _ => rfl) (fun _ _ => rfl) _ _ _⟩
    cases current <;> trivial
  | disablePolicy => exact .inr ⟨trivial, leaves_updateRows fun _ => rfl⟩
  | insertAudit => exact .inr ⟨trivial, leaves_insertRow fun _ => rfl⟩
  | insertEvent event => exact .inl (.insertEvent event)
  | insertSubscription => exact .inl (.insertSubscription _)
  | disableSubscription => exact .inl (.disableSubscription _ _ _)
  | rotateSecret => exact .inl (.rotateSecret _ _ _)
  | claim => exact .inl (.claim _ _ _)
  | record => exact .inl (.record _ _ _ _ _ _ _ _)
  | cancel => exact .inl (.cancel _ _ _ _)
  | redeliver _ _ _ does => exact .inl (.redeliver _ _ _ does)
  | recordDecision authorization =>
    exact .inr ⟨trivial, leaves_recordDecision authorization fun _ _ => rfl⟩
  | insertApproval => exact .inr ⟨trivial, leaves_insertLifecycle fun _ _ => rfl⟩
  | resolve =>
    refine .inr ⟨trivial, leaves_resolve _ _ _ _ _ fun _ _ => ?_⟩
    exact leaves_updateApprovals fun _ _ => rfl
  | expireApproval => exact .inr ⟨trivial, leaves_updateApprovals fun _ _ => rfl⟩
  | insertGrant => exact .inr ⟨trivial, leaves_insertLifecycle fun _ _ => rfl⟩
  | consumeGrant =>
    refine .inr ⟨trivial, (leaves_updateGrants fun _ _ => rfl).bind fun rowcount => ?_⟩
    split
    · exact leaves_ret _
    · exact leaves_getGrant _
  | expireGrant =>
    refine .inr ⟨trivial, (leaves_updateGrants fun _ _ => rfl).bind fun rowcount => ?_⟩
    split
    · exact leaves_ret _
    · exact leaves_getGrant _
  | insertIdempotency => exact .inr ⟨trivial, leaves_insertRow fun _ => rfl⟩

theorem StoreUnit.outbox {β : Type} {x : Body β} (unit : StoreUnit platform scope β x) :
    OutboxUnit platform scope β x ∨ x.Immediate ∧ x.Leaves Database.outbox := by
  rcases unit.deliveryTables with outbox | ⟨immediate, leaves⟩
  · exact .inl outbox
  · exact .inr ⟨immediate, fun draws s b rest t ran => congrArg Prod.fst (leaves draws s b rest t ran)⟩

end DecAustrum
