import DecAustrum.Python.DatetimeOrder
import DecAustrum.Storage.Approvals
import DecAustrum.Storage.Search
import DecAustrum.Storage.Webhooks

/-!
# Stored timestamps

The columns hold texts, and the statements compare texts. The tables over texts do what the
tables over datetimes do, and each condition on a text is the comparison of the moments.
-/
namespace DecAustrum

open Python

set_option linter.unusedSectionVars false

/-! ## The tables under another representation of time -/

section Representation

variable {κ σ τ : Type}

/-- A representation that keeps every comparison. -/
structure KeepsOrder [LT σ] [LE σ] [LT τ] [LE τ] (f : σ → τ) : Prop where
  lt : ∀ a b, f a < f b ↔ a < b
  le : ∀ a b, f a ≤ f b ↔ a ≤ b
  inj : ∀ a b, f a = f b ↔ a = b

def ApprovalRow.mapTime (f : σ → τ) (row : ApprovalRow κ σ) : ApprovalRow κ τ :=
  ⟨row.decisionId, row.status, f row.requestedAt, row.expiresAt.map f, row.resolvedAt.map f,
    row.resolvedBy⟩

def GrantRow.mapTime (f : σ → τ) (row : GrantRow κ σ) : GrantRow κ τ :=
  ⟨row.grantId, row.decisionId, row.projectId, row.status, row.requestFingerprint, row.tokenHash,
    f row.issuedAt, f row.expiresAt, row.consumedAt.map f, row.consumedBy⟩

def LifecycleTables.mapTime (f : σ → τ) (tables : LifecycleTables κ σ) : LifecycleTables κ τ :=
  ⟨tables.approvals.map (·.mapTime f), tables.grants.map (·.mapTime f)⟩

def LifecycleStatement.mapTime (f : σ → τ) : LifecycleStatement κ σ → LifecycleStatement κ τ
  | .insertApproval row => .insertApproval (row.mapTime f)
  | .insertOrReplaceApproval rowid row => .insertOrReplaceApproval rowid (row.mapTime f)
  | .updateApproval i row => .updateApproval i (row.mapTime f)
  | .updateOrReplaceApproval i rowid row => .updateOrReplaceApproval i rowid (row.mapTime f)
  | .deleteApproval i => .deleteApproval i
  | .insertGrant row => .insertGrant (row.mapTime f)
  | .insertOrReplaceGrant rowid row => .insertOrReplaceGrant rowid (row.mapTime f)
  | .updateGrant i row => .updateGrant i (row.mapTime f)
  | .updateOrReplaceGrant i rowid row => .updateOrReplaceGrant i rowid (row.mapTime f)
  | .deleteGrant i => .deleteGrant i

variable [DecidableEq κ] [DecidableEq σ] [LT σ] [LE σ] [DecidableLT σ] [DecidableLE σ]
  [DecidableEq τ] [LT τ] [LE τ] [DecidableLT τ] [DecidableLE τ] {f : σ → τ}

namespace KeepsOrder

theorem optional (keeps : KeepsOrder f) (a b : Option σ) : a.map f = b.map f ↔ a = b :=
  (Option.map_injective fun x y => (keeps.inj x y).mp).eq_iff

variable (keeps : KeepsOrder f)

include keeps

theorem all_later (a : σ) (b : Option σ) :
    ((b.map f).all fun t => f a < t) = b.all fun t => a < t := by
  cases b with
  | none => rfl
  | some b => exact decide_eq_decide.mpr (keeps.lt a b)

theorem any_passed (a : σ) (b : Option σ) :
    ((b.map f).any fun t => t ≤ f a) = b.any fun t => t ≤ a := by
  cases b with
  | none => rfl
  | some b => exact decide_eq_decide.mpr (keeps.le b a)

end KeepsOrder

section Rows

variable (keeps : KeepsOrder f)

include keeps

theorem ApprovalRow.checks_mapTime (row : ApprovalRow κ σ) : (row.mapTime f).checks = row.checks := by
  have window := keeps.all_later row.requestedAt row.expiresAt
  have unresolved : (row.mapTime f).resolvedAt.isNone = row.resolvedAt.isNone := Option.isNone_map
  have resolved : (row.mapTime f).resolvedAt.isSome = row.resolvedAt.isSome := Option.isSome_map
  unfold checks
  rw [unresolved, resolved]
  exact congrArg (_ && ·) window

theorem GrantRow.checks_mapTime (row : GrantRow κ σ) : (row.mapTime f).checks = row.checks := by
  have window := keeps.lt row.issuedAt row.expiresAt
  have unconsumed : (row.mapTime f).consumedAt.isNone = row.consumedAt.isNone := Option.isNone_map
  have consumed : (row.mapTime f).consumedAt.isSome = row.consumedAt.isSome := Option.isSome_map
  unfold checks
  rw [unconsumed, consumed, decide_eq_decide.mpr (show (row.mapTime f).issuedAt <
    (row.mapTime f).expiresAt ↔ row.issuedAt < row.expiresAt from window)]
  rfl

theorem approvalLifecycle_mapTime (old new : ApprovalRow κ σ) :
    approvalLifecycle (old.mapTime f) (new.mapTime f) = approvalLifecycle old new := by
  rw [Bool.eq_iff_iff]
  simp only [approvalLifecycle, Bool.and_eq_true, decide_eq_true_eq]
  simp only [ApprovalRow.mapTime, keeps.inj, keeps.optional]

theorem grantLifecycle_mapTime (old new : GrantRow κ σ) :
    grantLifecycle (old.mapTime f) (new.mapTime f) = grantLifecycle old new := by
  rw [Bool.eq_iff_iff]
  simp only [grantLifecycle, Bool.and_eq_true, decide_eq_true_eq]
  simp only [GrantRow.mapTime, keeps.inj]

end Rows

namespace LifecycleTables

variable (keeps : KeepsOrder f) (parents : Parents κ) (tables : LifecycleTables κ σ)

theorem grantedApproval_mapTime (old new : ApprovalRow κ σ) :
    (tables.mapTime f).grantedApproval (old.mapTime f) (new.mapTime f) =
      tables.grantedApproval old new := by
  simp only [grantedApproval, mapTime, List.any_map]
  rfl

theorem sparedApprovals_mapTime (rowid : Option Nat) (row : ApprovalRow κ σ) :
    (tables.mapTime f).sparedApprovals rowid (row.mapTime f) =
      (tables.sparedApprovals rowid row).map (·.mapTime f) := by
  unfold sparedApprovals
  rw [mapTime, withoutRow_map, List.filter_map]
  rfl

theorem sparedGrants_mapTime (rowid : Option Nat) (row : GrantRow κ σ) :
    (tables.mapTime f).sparedGrants rowid (row.mapTime f) =
      (tables.sparedGrants rowid row).map (·.mapTime f) := by
  unfold sparedGrants
  rw [mapTime, withoutRow_map, List.filter_map]
  rfl

include keeps

theorem grantScope_mapTime (new : GrantRow κ σ) :
    (tables.mapTime f).grantScope parents (new.mapTime f) = tables.grantScope parents new := by
  have approval (a : ApprovalRow κ σ) :
      ((a.mapTime f).decisionId = some (new.mapTime f).decisionId && (a.mapTime f).status = .pending &&
        decide ((a.mapTime f).requestedAt ≤ (new.mapTime f).issuedAt) &&
          (a.mapTime f).expiresAt.all fun expiresAt => (new.mapTime f).issuedAt < expiresAt) =
      (a.decisionId = some new.decisionId && a.status = .pending &&
        decide (a.requestedAt ≤ new.issuedAt) &&
          a.expiresAt.all fun expiresAt => new.issuedAt < expiresAt) := by
    have window := keeps.all_later new.issuedAt a.expiresAt
    have begun : decide (f a.requestedAt ≤ f new.issuedAt) = decide (a.requestedAt ≤ new.issuedAt) :=
      decide_eq_decide.mpr (keeps.le a.requestedAt new.issuedAt)
    exact congrArg₂ (· && ·) (congrArg (_ && ·) begun) window
  unfold grantScope
  rw [mapTime, List.any_map]
  simp only [Function.comp_def, approval]
  rfl

theorem insertApproval_mapTime (row : ApprovalRow κ σ) :
    (tables.mapTime f).insertApproval parents (row.mapTime f) =
      (tables.insertApproval parents row).map (mapTime f) := by
  have distinct : ((tables.mapTime f).approvals.any fun a =>
      a.decisionId.isSome && a.decisionId = (row.mapTime f).decisionId) =
      tables.approvals.any fun a => a.decisionId.isSome && a.decisionId = row.decisionId := by
    rw [mapTime, List.any_map]
    rfl
  have parent : (row.mapTime f).decisionId = row.decisionId := rfl
  unfold insertApproval
  rw [ApprovalRow.checks_mapTime keeps, distinct, parent]
  split
  · simp [mapTime]
  · rfl

theorem insertGrant_mapTime (row : GrantRow κ σ) :
    (tables.mapTime f).insertGrant parents (row.mapTime f) =
      (tables.insertGrant parents row).map (mapTime f) := by
  have distinct : ((tables.mapTime f).grants.any fun g =>
      (g.grantId.isSome && g.grantId = (row.mapTime f).grantId) ||
        g.decisionId = (row.mapTime f).decisionId || g.tokenHash = (row.mapTime f).tokenHash) =
      tables.grants.any fun g => (g.grantId.isSome && g.grantId = row.grantId) ||
        g.decisionId = row.decisionId || g.tokenHash = row.tokenHash := by
    rw [mapTime, List.any_map]
    rfl
  have decision : (row.mapTime f).decisionId = row.decisionId := rfl
  have project : (row.mapTime f).projectId = row.projectId := rfl
  unfold insertGrant
  rw [grantScope_mapTime keeps, GrantRow.checks_mapTime keeps, distinct, decision, project]
  split
  · simp [mapTime]
  · rfl

theorem updateApproval_mapTime (i : Nat) (row : ApprovalRow κ σ) :
    (tables.mapTime f).updateApproval i (row.mapTime f) =
      (tables.updateApproval i row).map (mapTime f) := by
  have found : (tables.mapTime f).approvals[i]? = tables.approvals[i]?.map (·.mapTime f) :=
    List.getElem?_map ..
  unfold updateApproval
  rw [found]
  cases tables.approvals[i]? with
  | none => rfl
  | some old =>
    simp only [Option.map_some]
    rw [approvalLifecycle_mapTime keeps, grantedApproval_mapTime, ApprovalRow.checks_mapTime keeps]
    split
    · simp [mapTime, List.map_set]
    · rfl

theorem updateGrant_mapTime (i : Nat) (row : GrantRow κ σ) :
    (tables.mapTime f).updateGrant i (row.mapTime f) =
      (tables.updateGrant i row).map (mapTime f) := by
  have found : (tables.mapTime f).grants[i]? = tables.grants[i]?.map (·.mapTime f) :=
    List.getElem?_map ..
  unfold updateGrant
  rw [found]
  cases tables.grants[i]? with
  | none => rfl
  | some old =>
    simp only [Option.map_some]
    rw [grantLifecycle_mapTime keeps, GrantRow.checks_mapTime keeps]
    split
    · simp [mapTime, List.map_set]
    · rfl

/-- A statement over the representation does what it does over the times. -/
theorem execute_mapTime (statement : LifecycleStatement κ σ) :
    (tables.mapTime f).execute parents (statement.mapTime f) =
      (tables.execute parents statement).map (mapTime f) := by
  cases statement with
  | insertApproval row => exact tables.insertApproval_mapTime keeps parents row
  | insertOrReplaceApproval rowid row =>
    have spared : (tables.mapTime f).sparedApprovals rowid (row.mapTime f) = _ :=
      tables.sparedApprovals_mapTime rowid row
    simp only [LifecycleStatement.mapTime, execute, spared]
    exact (LifecycleTables.mk (tables.sparedApprovals rowid row) tables.grants).insertApproval_mapTime
      keeps parents row
  | updateApproval i row => exact tables.updateApproval_mapTime keeps i row
  | updateOrReplaceApproval i rowid row =>
    simp only [LifecycleStatement.mapTime, execute, tables.updateApproval_mapTime keeps i row,
      Option.map_map]
    refine congrArg (Option.map · _) (funext fun after => ?_)
    simp only [Function.comp_apply, mapTime, replacing_map]
  | deleteApproval i =>
    simp only [LifecycleStatement.mapTime, execute, mapTime, List.length_map]
    split <;> rfl
  | insertGrant row => exact tables.insertGrant_mapTime keeps parents row
  | insertOrReplaceGrant rowid row =>
    have spared : (tables.mapTime f).sparedGrants rowid (row.mapTime f) = _ :=
      tables.sparedGrants_mapTime rowid row
    simp only [LifecycleStatement.mapTime, execute, spared]
    exact (LifecycleTables.mk tables.approvals (tables.sparedGrants rowid row)).insertGrant_mapTime
      keeps parents row
  | updateGrant i row => exact tables.updateGrant_mapTime keeps i row
  | updateOrReplaceGrant i rowid row =>
    simp only [LifecycleStatement.mapTime, execute, tables.updateGrant_mapTime keeps i row,
      Option.map_map]
    refine congrArg (Option.map · _) (funext fun after => ?_)
    simp only [Function.comp_apply, mapTime, replacing_map]
  | deleteGrant i =>
    simp only [LifecycleStatement.mapTime, execute, mapTime, List.length_map]
    split <;> rfl

/-- So does a run of statements. -/
theorem run_mapTime (statements : List (LifecycleStatement κ σ)) :
    (tables.mapTime f).run parents (statements.map (·.mapTime f)) =
      (tables.run parents statements).mapTime f := by
  induction statements generalizing tables with
  | nil => rfl
  | cons statement statements ih =>
    have step : ((tables.mapTime f).execute parents (statement.mapTime f)).getD (tables.mapTime f) =
        ((tables.execute parents statement).getD tables).mapTime f := by
      rw [execute_mapTime keeps]
      cases tables.execute parents statement <;> rfl
    simp only [run, List.map_cons, List.foldl_cons] at ih ⊢
    rw [step]
    exact ih _

end LifecycleTables

end Representation

/-! ## The texts of the store -/

namespace UtcDatetime

/-- What the columns hold. -/
def stored (t : UtcDatetime) : Str := t.val.isoformat

/-- To Python two datetimes in UTC compare as their clocks. -/
theorem moment_eq (t : UtcDatetime) : t.val.moment = .aware t.val.clock := by
  rw [Datetime.moment, t.property]
  simp

theorem stored_lt (s t : UtcDatetime) : s.stored < t.stored ↔ s < t :=
  Datetime.isoformat_lt_iff _ _ s.property t.property

theorem stored_le (s t : UtcDatetime) : s.stored ≤ t.stored ↔ s ≤ t :=
  Datetime.isoformat_le_iff _ _ s.property t.property

theorem clock_eq (s t : UtcDatetime) : s.val.clock = t.val.clock ↔ s = t :=
  ⟨fun same => Subtype.ext (Datetime.clock_inj _ _ s.property t.property same),
    fun same => congrArg (·.val.clock) same⟩

theorem stored_inj (s t : UtcDatetime) : s.stored = t.stored ↔ s = t := by
  constructor
  · intro same
    rw [← clock_eq]
    exact le_antisymm ((stored_le s t).mp same.le) ((stored_le t s).mp same.ge)
  · exact congrArg stored

theorem keepsOrder_stored : KeepsOrder stored := ⟨stored_lt, stored_le, stored_inj⟩

end UtcDatetime

/-! ## Conditions on the texts -/

namespace StatementText

variable (now : Str)

/-- `status = 'PENDING' AND (expires_at IS NULL OR expires_at > ?)`. -/
def pendingAt (row : ApprovalRow Uuid Str) : Bool :=
  row.status = .pending && row.expiresAt.all fun expiresAt => now < expiresAt

/-- `status = 'PENDING' AND expires_at IS NOT NULL AND expires_at <= ?`. -/
def overdueAt (row : ApprovalRow Uuid Str) : Bool :=
  row.status = .pending && row.expiresAt.any fun expiresAt => expiresAt ≤ now

/-- `status = 'ACTIVE' AND expires_at > ?`. -/
def activeAt (row : GrantRow Uuid Str) : Bool := row.status = .active && now < row.expiresAt

/-- `status = 'ACTIVE' AND expires_at <= ?`. -/
def endedAt (row : GrantRow Uuid Str) : Bool := row.status = .active && row.expiresAt ≤ now

/-- `status = 'PROCESSING' AND lease_expires_at <= ?`. -/
def leaseEndedAt (status : WebhookDeliveryStatus) (leaseExpiresAt : Option Str) : Bool :=
  status = .processing && leaseExpiresAt.any fun lease => lease ≤ now

/-- `status IN ('PENDING', 'RETRY_SCHEDULED') AND next_attempt_at <= ?`, or the lease has ended. -/
def dueAt (status : WebhookDeliveryStatus) (nextAttemptAt leaseExpiresAt : Option Str) : Bool :=
  ((status = .pending || status = .retryScheduled) && nextAttemptAt.any fun next => next ≤ now) ||
    leaseEndedAt now status leaseExpiresAt

/-- `ORDER BY` a column of times, then another. A null comes first. -/
def orderedBy (s t : Option Str) (tie : Prop) : Prop :=
  match s, t with
  | none, none => tie
  | none, some _ => True
  | some _, none => False
  | some s, some t => s < t ∨ s = t ∧ tie

end StatementText

open StatementText UtcDatetime

/-- The statements decide on the texts as Python decides on the datetimes. -/
structure ConditionsAgree : Prop where
  triggers : ∀ (parents : Parents Uuid) (tables : LifecycleTables Uuid UtcDatetime)
    (statements : List (LifecycleStatement Uuid UtcDatetime)),
    (tables.mapTime stored).run parents (statements.map (·.mapTime stored)) =
      (tables.run parents statements).mapTime stored
  resolution : ∀ db projectId decisionId now row,
    ApprovalRepository.resolvable db projectId decisionId now row =
      (ApprovalRepository.approvalIs db projectId decisionId row &&
        pendingAt (stored now) (row.mapTime stored))
  expiry : ∀ now row, ApprovalRepository.isOverdue now row =
    overdueAt (stored now) (row.mapTime stored)
  expiryOrder : ∀ a b s t, a.expiresAt = some s → b.expiresAt = some t →
    (ApprovalRepository.overdueLe a b ↔ orderedBy (some s.stored) (some t.stored)
      (ApprovalRepository.decisionNumber a ≤ ApprovalRepository.decisionNumber b))
  consumption : ∀ grantId projectId tokenHash now row,
    ExecutionGrantRepository.consumable grantId projectId tokenHash now row =
      (ExecutionGrantRepository.grantIs grantId projectId row && row.tokenHash = tokenHash &&
        activeAt (stored now) (row.mapTime stored))
  grantExpiry : ∀ grantId projectId now row,
    ExecutionGrantRepository.expirable grantId projectId now row =
      (ExecutionGrantRepository.grantIs grantId projectId row &&
        endedAt (stored now) (row.mapTime stored))
  lease : ∀ now d, WebhookRepository.leaseEnded now d =
    leaseEndedAt (stored now) d.status (d.leaseExpiresAt.map stored)
  due : ∀ now d, WebhookRepository.isDue now d =
    dueAt (stored now) d.status (d.nextAttemptAt.map stored) (d.leaseExpiresAt.map stored)
  dueOrder : ∀ a b, WebhookRepository.dueLe a b ↔
    orderedBy ((a.nextAttemptAt.map stored).or (a.leaseExpiresAt.map stored))
      ((b.nextAttemptAt.map stored).or (b.leaseExpiresAt.map stored))
      (a.deliveryId.value ≤ b.deliveryId.value)
  claimOrder : ∀ a b, WebhookRepository.createdLe a b ↔
    orderedBy (some a.createdAt.stored) (some b.createdAt.stored)
      (a.deliveryId.value ≤ b.deliveryId.value)
  search : ∀ (value : UtcDatetime) (d : DecisionRow) (t : UtcDatetime), d.evaluatedAt = t.stored →
    (value.val.isoformat ≤ d.evaluatedAt ↔ value ≤ t) ∧ (d.evaluatedAt ≤ value.val.isoformat ↔ t ≤ value)
  searchOrder : ∀ (d e : DecisionRow) (s t : UtcDatetime), d.evaluatedAt = s.stored →
    e.evaluatedAt = t.stored →
    (Ledger.decisionLe d e ↔ s < t ∨ s = t ∧ d.decisionId ≤ e.decisionId)

section Agreement

theorem resolution_agrees (db : Database) (projectId decisionId : Uuid) (now : UtcDatetime)
    (row : ApprovalRow Uuid UtcDatetime) :
    ApprovalRepository.resolvable db projectId decisionId now row =
      (ApprovalRepository.approvalIs db projectId decisionId row &&
        pendingAt (stored now) (row.mapTime stored)) := by
  rw [ApprovalRepository.resolvable, ← keepsOrder_stored.all_later, Bool.and_assoc]
  rfl

theorem expiry_agrees (now : UtcDatetime) (row : ApprovalRow Uuid UtcDatetime) :
    ApprovalRepository.isOverdue now row = overdueAt (stored now) (row.mapTime stored) := by
  rw [ApprovalRepository.isOverdue, ← keepsOrder_stored.any_passed]
  rfl

theorem consumption_agrees (grantId projectId : Uuid) (tokenHash : Str) (now : UtcDatetime)
    (row : GrantRow Uuid UtcDatetime) :
    ExecutionGrantRepository.consumable grantId projectId tokenHash now row =
      (ExecutionGrantRepository.grantIs grantId projectId row && row.tokenHash = tokenHash &&
        activeAt (stored now) (row.mapTime stored)) := by
  rw [ExecutionGrantRepository.consumable, ← decide_eq_decide.mpr (stored_lt now row.expiresAt),
    Bool.and_assoc]
  rfl

theorem grantExpiry_agrees (grantId projectId : Uuid) (now : UtcDatetime)
    (row : GrantRow Uuid UtcDatetime) :
    ExecutionGrantRepository.expirable grantId projectId now row =
      (ExecutionGrantRepository.grantIs grantId projectId row &&
        endedAt (stored now) (row.mapTime stored)) := by
  rw [ExecutionGrantRepository.expirable, ← decide_eq_decide.mpr (stored_le row.expiresAt now),
    Bool.and_assoc]
  rfl

theorem lease_agrees (now : UtcDatetime) (d : WebhookDelivery) :
    WebhookRepository.leaseEnded now d =
      leaseEndedAt (stored now) d.status (d.leaseExpiresAt.map stored) := by
  rw [WebhookRepository.leaseEnded, ← keepsOrder_stored.any_passed]
  rfl

theorem due_agrees (now : UtcDatetime) (d : WebhookDelivery) :
    WebhookRepository.isDue now d =
      dueAt (stored now) d.status (d.nextAttemptAt.map stored) (d.leaseExpiresAt.map stored) := by
  rw [WebhookRepository.isDue, lease_agrees, ← keepsOrder_stored.any_passed]
  rfl

theorem orderedBy_stored (s t : Option UtcDatetime) (tie : Prop) :
    orderedBy (s.map stored) (t.map stored) tie ↔
      match s, t with
      | none, none => tie
      | none, some _ => True
      | some _, none => False
      | some s, some t => s < t ∨ s = t ∧ tie := by
  cases s with
  | none => cases t <;> rfl
  | some s =>
    cases t with
    | none => rfl
    | some t => simp only [Option.map_some, orderedBy, stored_lt, stored_inj]

theorem dueOrder_agrees (a b : WebhookDelivery) : WebhookRepository.dueLe a b ↔
    orderedBy ((a.nextAttemptAt.map stored).or (a.leaseExpiresAt.map stored))
      ((b.nextAttemptAt.map stored).or (b.leaseExpiresAt.map stored))
      (a.deliveryId.value ≤ b.deliveryId.value) := by
  have coalesce (s t : Option UtcDatetime) : (s.map stored).or (t.map stored) = (s.or t).map stored := by
    cases s <;> rfl
  rw [coalesce, coalesce, orderedBy_stored]
  exact Iff.rfl

end Agreement

/-- The texts of datetimes in UTC are ordered as their moments, and every statement that compares
stored timestamps decides as the comparison of the datetimes does. -/
theorem stored_order_agrees :
    (∀ s t : UtcDatetime, s.val.moment = .aware s.val.clock ∧
      (s.val.isoformat < t.val.isoformat ↔ s.val.clock < t.val.clock) ∧
      (s.val.isoformat = t.val.isoformat ↔ s.val.clock = t.val.clock)) ∧
    ConditionsAgree := by
  refine ⟨fun s t => ⟨moment_eq s, stored_lt s t, (stored_inj s t).trans (clock_eq s t).symm⟩, ?_⟩
  constructor
  case triggers => exact fun parents tables => tables.run_mapTime keepsOrder_stored parents
  case resolution => exact resolution_agrees
  case expiry => exact expiry_agrees
  case expiryOrder =>
    intro a b s t first second
    rw [ApprovalRepository.overdueLe, first, second]
    exact (orderedBy_stored (some s) (some t) _).symm
  case consumption => exact consumption_agrees
  case grantExpiry => exact grantExpiry_agrees
  case lease => exact lease_agrees
  case due => exact due_agrees
  case dueOrder => exact dueOrder_agrees
  case claimOrder => exact fun a b => (orderedBy_stored (some a.createdAt) (some b.createdAt) _).symm
  case search =>
    intro value d t same
    rw [same]
    exact ⟨stored_le value t, stored_le t value⟩
  case searchOrder =>
    intro d e s t first second
    rw [Ledger.decisionLe, first, second, stored_lt, stored_inj]

end DecAustrum
