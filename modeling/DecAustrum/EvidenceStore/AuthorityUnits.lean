import DecAustrum.EvidenceStore.OutboxUnits
import DecAustrum.Storage.ApprovalEnforcement

/-!
# The units that decide

Decisions, policies and the lifecycles of approvals and grants change in few units; every other
unit leaves them.
-/
namespace DecAustrum

open Python Transaction Table
open Block (Leaves leaves_ret leaves_raise leaves_query leaves_statement keeps_of_exec)

/-- The ledger and the policies. -/
def Database.authority (db : Database) : Ledger × List PolicyRow × List PolicyVersionRow :=
  (db.ledger, db.policies, db.policyVersions)

def Database.core (db : Database) :
    (Ledger × List PolicyRow × List PolicyVersionRow) × LifecycleTables Uuid UtcDatetime :=
  (db.authority, db.lifecycle)

/-- The units that write the ledger or the policies. -/
inductive AuthorityUnit (platform : Platform) (scope : StoreScope) : (β : Type) → Body β → Prop
  | insertSeed (projectId : Uuid) (policy : Policy) (updatedAt : UtcDatetime) :
      AuthorityUnit platform scope _ (ProjectPolicyRepository.insertSeed projectId policy updatedAt)
  | writeVersion (projectId : Uuid) (policy : Policy) (updatedAt : UtcDatetime)
      (changeType : PolicyVersionChangeType) (sourceVersion : Option Int)
      (current : Option PolicyRow) :
      AuthorityUnit platform scope _ (ProjectPolicyRepository.writeVersion projectId policy updatedAt
        changeType sourceVersion current)
  | disablePolicy (projectId : Uuid) (policyId : Str) (updatedAt : UtcDatetime) :
      AuthorityUnit platform scope _ (ProjectPolicyRepository.disableRows projectId policyId updatedAt)
  | recordDecision (authorization : AuthorizationResponse) (saved : scope.saves authorization) :
      AuthorityUnit platform scope _ (EvidenceStore.recordDecision platform authorization)

/-- The units that write approvals or grants. -/
inductive LifecycleUnit : (β : Type) → Body β → Prop
  | insertApproval (approval : ApprovalRecord) : LifecycleUnit _ (ApprovalRepository.insert approval)
  | resolve (decisionId projectId : Uuid) (status : ApprovalRepository.Resolution)
      (resolvedBy : Str) (resolvedAt : UtcDatetime) :
      LifecycleUnit _ (ApprovalRepository.resolveWithConnection decisionId projectId status
        resolvedBy resolvedAt)
  | expireApproval (decisionId : Uuid) (expiredAt : UtcDatetime) :
      LifecycleUnit _ (ApprovalRepository.expireRow decisionId expiredAt)
  | insertGrant (grant : ExecutionGrantRecord) :
      LifecycleUnit _ (ExecutionGrantRepository.insert grant)
  | consumeGrant (grantId projectId : Uuid) (tokenHash : Str) (consumedAt : UtcDatetime)
      (consumedBy : Str) :
      LifecycleUnit _ (ExecutionGrantRepository.consumeWithConnection grantId projectId tokenHash
        consumedAt consumedBy)
  | expireGrant (grantId projectId : Uuid) (expiredAt : UtcDatetime) :
      LifecycleUnit _ (ExecutionGrantRepository.expireWithConnection grantId projectId expiredAt)

/-- The units that write the keys. -/
inductive KeyUnit : (β : Type) → Body β → Prop
  | insertKey (apiKey : ProjectApiKeyRecord) : KeyUnit _ (ProjectApiKeyRepository.insert apiKey)
  | revokeKey (projectId apiKeyId : Uuid) (revokedAt : UtcDatetime) :
      KeyUnit _ (ProjectApiKeyRepository.revokeWithConnection projectId apiKeyId revokedAt)

/-- A body that leaves what an invariant speaks of keeps it. -/
theorem keeps_of_leaves {ρ : Type} {view : Database → ρ} {inv : Database → Prop}
    {rel : Database → Database → Prop} (same : ∀ s t, view t = view s → inv s → inv t ∧ rel s t)
    {β : Type} {x : Body β} (left : x.Immediate ∧ x.Leaves view) : x.Keeps inv rel :=
  keeps_of_exec left.1 fun draws s b rest t holds _ ran => same s t (left.2 draws s b rest t ran) holds

/-- What every unit keeps that holds of these tables and the keys, if the units that write them
keep it. -/
theorem StoreUnit.keeps_guarded {platform : Platform} {scope : StoreScope} {inv : Database → Prop}
    {rel : Database → Database → Prop}
    (same : ∀ s t, (t.core, t.apiKeys) = (s.core, s.apiKeys) → inv s → inv t ∧ rel s t)
    (authority : ∀ {γ : Type} {y : Body γ}, AuthorityUnit platform scope γ y → y.Keeps inv rel)
    (lifecycle : ∀ {γ : Type} {y : Body γ}, LifecycleUnit γ y → y.Keeps inv rel)
    (keys : ∀ {γ : Type} {y : Body γ}, KeyUnit γ y → y.Keeps inv rel) {β : Type}
    {x : Body β} (unit : StoreUnit platform scope β x) : x.Keeps inv rel := by
  have leaves {γ : Type} {y : Body γ} (immediate : y.Immediate)
      (leaves : y.Leaves fun db => (db.core, db.apiKeys)) : y.Keeps inv rel :=
    keeps_of_leaves same ⟨immediate, leaves⟩
  cases unit with
  | insertProject => exact leaves trivial (leaves_insertRow fun _ => rfl)
  | updateStatus =>
    exact leaves trivial (Leaves.bind (leaves_updateRows fun _ => rfl) fun _ => leaves_query _)
  | insertKey apiKey => exact keys (.insertKey apiKey)
  | revokeKey projectId apiKeyId revokedAt => exact keys (.revokeKey projectId apiKeyId revokedAt)
  | insertSeed projectId policy updatedAt => exact authority (.insertSeed projectId policy updatedAt)
  | writeVersion projectId policy updatedAt changeType sourceVersion current =>
    exact authority (.writeVersion projectId policy updatedAt changeType sourceVersion current)
  | disablePolicy projectId policyId updatedAt =>
    exact authority (.disablePolicy projectId policyId updatedAt)
  | insertAudit => exact leaves trivial (leaves_insertRow fun _ => rfl)
  | insertEvent event =>
    refine leaves (Block.Immediate.bind (Block.immediate_check _) fun _ => trivial) ?_
    intro draws s b rest t ran
    obtain ⟨_, _, -, -, -, rfl⟩ := (insertEventWithDeliveries_ok ran).rows
    rfl
  | insertSubscription => exact leaves trivial (leaves_insertRow fun _ => rfl)
  | disableSubscription projectId subscriptionId disabledAt =>
    refine leaves trivial fun draws s b rest t ran => ?_
    rw [exec_disableRows] at ran
    cases ran
    rfl
  | rotateSecret => exact leaves trivial (leaves_updateRows fun _ => rfl)
  | claim now leaseExpiresAt limit =>
    refine leaves trivial fun draws s b rest t ran => ?_
    rw [exec_claimBody] at ran
    split at ran <;> cases ran <;> rfl
  | record policy projectId deliveryId attemptedAt completedAt outcome statusCode error =>
    -- the delivery is read before the transaction
    refine Block.keeps_query_bind fun read _ => ?_
    split
    · trivial
    · split
      · trivial
      · refine Block.KeepsFrom.mono (leaves ?_ fun draws s b rest t ran => ?_) fun _ _ => trivial
        · exact fun _ => trivial
        obtain ⟨_, _, -, -, rfl, -⟩ := recordAttempt_ok ran
        rfl
  | cancel projectId deliveryId cancelledAt reason =>
    refine leaves trivial fun draws s b rest t ran => ?_
    rw [exec_cancelBody] at ran
    cases ran
    rfl
  | redeliver projectId deliveryId requestedAt does =>
    refine Block.keeps_query_bind fun read _ => ?_
    split
    · trivial
    · split
      · trivial
      · refine Block.keeps_query_bind fun read _ => ?_
        split
        · trivial
        · split
          · trivial
          · refine Block.KeepsFrom.mono (leaves ?_ ?_) fun _ _ => trivial
            · trivial
            refine Leaves.bind (leaves_updateRows fun _ => rfl) fun _ => ?_
            refine Leaves.bind (leaves_query _) fun d => ?_
            cases d
            · exact leaves_raise _
            · exact leaves_ret _
  | recordDecision authorization saved => exact authority (.recordDecision authorization saved)
  | insertApproval approval => exact lifecycle (.insertApproval approval)
  | resolve decisionId projectId status resolvedBy resolvedAt =>
    exact lifecycle (.resolve decisionId projectId status resolvedBy resolvedAt)
  | expireApproval decisionId expiredAt => exact lifecycle (.expireApproval decisionId expiredAt)
  | insertGrant grant => exact lifecycle (.insertGrant grant)
  | consumeGrant grantId projectId tokenHash consumedAt consumedBy =>
    exact lifecycle (.consumeGrant grantId projectId tokenHash consumedAt consumedBy)
  | expireGrant grantId projectId expiredAt =>
    exact lifecycle (.expireGrant grantId projectId expiredAt)
  | insertIdempotency => exact leaves trivial (leaves_insertRow fun _ => rfl)

theorem KeyUnit.leaves {ρ : Type} {view : Database → ρ}
    (kept : ∀ db keys, view { db with apiKeys := keys } = view db) {β : Type} {x : Body β}
    (unit : KeyUnit β x) : x.Immediate ∧ x.Leaves view := by
  cases unit with
  | insertKey => exact ⟨trivial, leaves_insertRow fun db => kept db _⟩
  | revokeKey =>
    exact ⟨trivial, Leaves.bind (leaves_updateRows fun db => kept db _) fun _ => leaves_query _⟩

/-- What every unit keeps that holds of these tables, if the units that write them keep it. -/
theorem StoreUnit.keeps_core {platform : Platform} {scope : StoreScope} {inv : Database → Prop}
    {rel : Database → Database → Prop}
    (same : ∀ s t, t.core = s.core → inv s → inv t ∧ rel s t)
    (authority : ∀ {γ : Type} {y : Body γ}, AuthorityUnit platform scope γ y → y.Keeps inv rel)
    (lifecycle : ∀ {γ : Type} {y : Body γ}, LifecycleUnit γ y → y.Keeps inv rel) {β : Type}
    {x : Body β} (unit : StoreUnit platform scope β x) : x.Keeps inv rel :=
  unit.keeps_guarded (fun s t left => same s t (congrArg Prod.fst left)) authority lifecycle
    fun changes => keeps_of_leaves same (changes.leaves fun _ _ => rfl)

theorem LifecycleUnit.leaves {ρ : Type} {view : Database → ρ}
    (kept : ∀ db tables, view { db with lifecycle := tables } = view db) {β : Type} {x : Body β}
    (unit : LifecycleUnit β x) : x.Immediate ∧ x.Leaves view := by
  cases unit with
  | insertApproval => exact ⟨trivial, leaves_insertLifecycle kept⟩
  | resolve => exact ⟨trivial, leaves_resolve _ _ _ _ _ fun _ _ => leaves_updateApprovals kept⟩
  | expireApproval => exact ⟨trivial, leaves_updateApprovals kept⟩
  | insertGrant => exact ⟨trivial, leaves_insertLifecycle kept⟩
  | consumeGrant =>
    refine ⟨trivial, (leaves_updateGrants kept).bind fun rowcount => ?_⟩
    split
    · exact leaves_ret _
    · exact leaves_getGrant _
  | expireGrant =>
    refine ⟨trivial, (leaves_updateGrants kept).bind fun rowcount => ?_⟩
    split
    · exact leaves_ret _
    · exact leaves_getGrant _

theorem AuthorityUnit.leaves {ρ : Type} {view : Database → ρ} {platform : Platform}
    {scope : StoreScope}
    (ledger : ∀ db ledger, view { db with ledger := ledger } = view db)
    (policies : ∀ db rows, view { db with policies := rows } = view db)
    (versions : ∀ db rows, view { db with policyVersions := rows } = view db) {β : Type} {x : Body β}
    (unit : AuthorityUnit platform scope β x) : x.Immediate ∧ x.Leaves view := by
  cases unit with
  | insertSeed => exact ⟨trivial, leaves_insertSeed _ _ _ policies versions⟩
  | writeVersion projectId policy updatedAt changeType sourceVersion current =>
    refine ⟨?_, leaves_writeVersion _ _ _ policies versions _ _ _⟩
    cases current <;> trivial
  | disablePolicy => exact ⟨trivial, leaves_updateRows fun db => policies db _⟩
  | recordDecision authorization => exact ⟨trivial, leaves_recordDecision authorization ledger⟩

theorem AuthorityUnit.leaves_lifecycle {platform : Platform} {scope : StoreScope} {β : Type}
    {x : Body β} (unit : AuthorityUnit platform scope β x) : x.Immediate ∧ x.Leaves Database.lifecycle :=
  unit.leaves (fun _ _ => rfl) (fun _ _ => rfl) fun _ _ => rfl

/-- What every unit keeps that holds of the ledger and the policies, if the units that write them
keep it. -/
theorem StoreUnit.keeps_authority {platform : Platform} {scope : StoreScope} {inv : Database → Prop}
    {rel : Database → Database → Prop}
    (same : ∀ s t, t.authority = s.authority → inv s → inv t ∧ rel s t)
    (authority : ∀ {γ : Type} {y : Body γ}, AuthorityUnit platform scope γ y → y.Keeps inv rel)
    {β : Type} {x : Body β} (unit : StoreUnit platform scope β x) : x.Keeps inv rel :=
  unit.keeps_core (fun s t left => same s t (congrArg Prod.fst left)) authority
    fun changes => keeps_of_leaves same (changes.leaves fun _ _ => rfl)

/-- What every unit keeps holds after every run. -/
theorem holds_of_units {C ω : Type} [DecidableEq C] {platform : Platform} {inv : Database → Prop}
    {calls : C → Operation}
    (units : ∀ c (β : Type) (x : Body β), StoreUnit platform (calls c).scope β x →
      x.Keeps inv fun _ _ => True)
    {start : Database} (holds : inv start)
    {w : World C Database Uuid ω StoreExc Unit}
    (reachable : Reachable anyOpening start (fun c => (calls c).session platform) w) :
    inv w.committed :=
  (invariant_reachable (fun _ => trivial) (fun _ _ _ _ _ => trivial) anyOpening (fun _ _ => True)
    (fun _ _ _ _ => trivial) start holds (fun c => (calls c).session platform)
    (fun c => (@Operation.bodies platform _ (calls c)).mono fun _ _ composed =>
      composed.keeps (fun _ => trivial) (fun _ _ _ _ _ => trivial) (units c)) w reachable).1

/-! ## Approvals -/

/-- No two approvals are of one decision. -/
def Database.UniqueApprovals (db : Database) : Prop := UniqueKey (·.decisionId) db.lifecycle.approvals

theorem leaves_approvalKeys_update (hit : Database → ApprovalRow Uuid UtcDatetime → Bool)
    (update : ApprovalRow Uuid UtcDatetime → ApprovalRow Uuid UtcDatetime) :
    (Block.statement fun db => db.updateApprovals (hit db) update : Body Nat).Leaves
      fun db => db.lifecycle.approvals.filterMap (·.decisionId) := by
  refine leaves_statement fun s t b ran => ?_
  obtain ⟨rfl, -, guarded⟩ := updateApprovals_ok ran
  change (updateWhere _ _ _).filterMap _ = _
  rw [updateWhere, List.filterMap_map]
  refine List.filterMap_congr fun row member => ?_
  rw [Function.comp_apply]
  split
  next chosen =>
    -- the lifecycle trigger keeps the key
    have passed := (guarded row member chosen).1
    simp only [approvalLifecycle, Bool.and_eq_true, decide_eq_true_eq] at passed
    exact passed.1.1.1.1.symm
  next => rfl

theorem leaves_approvalKeys_grants (hit : GrantRow Uuid UtcDatetime → Bool)
    (update : GrantRow Uuid UtcDatetime → GrantRow Uuid UtcDatetime) :
    (Block.statement fun db => db.updateGrants hit update : Body Nat).Leaves
      fun db => db.lifecycle.approvals.filterMap (·.decisionId) := by
  refine leaves_statement fun s t b ran => ?_
  rw [(updateGrants_ok ran).1]

theorem StoreUnit.keeps_uniqueApprovals {platform : Platform} {scope : StoreScope} {β : Type}
    {x : Body β} (unit : StoreUnit platform scope β x) :
    x.Keeps Database.UniqueApprovals fun _ _ => True := by
  have keys (s t : Database) (same : t.lifecycle.approvals.filterMap (·.decisionId) =
      s.lifecycle.approvals.filterMap (·.decisionId)) (unique : s.UniqueApprovals) :
      t.UniqueApprovals ∧ True := by
    refine ⟨?_, trivial⟩
    rwa [Database.UniqueApprovals, UniqueKey, same]
  have tables (s t : Database) (same : t.lifecycle = s.lifecycle) :
      s.UniqueApprovals → t.UniqueApprovals ∧ True := keys s t (by rw [same])
  refine unit.keeps_core (fun s t left => tables s t (congrArg Prod.snd left))
    (fun writes => keeps_of_leaves tables writes.leaves_lifecycle) fun changes => ?_
  cases changes with
  | insertApproval approval =>
    refine keeps_of_exec trivial fun draws s b rest t unique _ ran => ?_
    rw [ApprovalRepository.insert, insertLifecycle, Block.exec_statement] at ran
    cases inserted : s.lifecycle.insertApproval s.parents approval.row with
    | none =>
      rw [inserted] at ran
      cases ran
    | some after =>
      rw [inserted] at ran
      cases ran
      obtain ⟨rfl, fresh⟩ := LifecycleTables.insertApproval_cases inserted
      exact ⟨(uniqueKey_append _).mpr ⟨unique, fresh⟩, trivial⟩
  | resolve =>
    exact keeps_of_leaves keys ⟨trivial, leaves_resolve _ _ _ _ _ leaves_approvalKeys_update⟩
  | expireApproval => exact keeps_of_leaves keys ⟨trivial, leaves_approvalKeys_update _ _⟩
  | insertGrant grant =>
    refine keeps_of_leaves keys ⟨trivial, leaves_statement fun s t b ran => ?_⟩
    split at ran
    next tables inserted =>
      cases ran
      rw [(LifecycleTables.insertGrant_cases inserted).1]
    next => cases ran
  | consumeGrant =>
    refine keeps_of_leaves keys ⟨trivial, (leaves_approvalKeys_grants _ _).bind fun rowcount => ?_⟩
    split
    · exact leaves_ret _
    · exact leaves_getGrant _
  | expireGrant =>
    refine keeps_of_leaves keys ⟨trivial, (leaves_approvalKeys_grants _ _).bind fun rowcount => ?_⟩
    split
    · exact leaves_ret _
    · exact leaves_getGrant _

end DecAustrum
