import DecAustrum.Platform

/-!
# The approval and grant tables

What SQLite accepts of single-row statements on `approval_requests` and `execution_grants`: their
constraints, and the triggers that guard the two lifecycles. Keys, times and digests are any values
the columns can hold.
-/
namespace DecAustrum

open Python

inductive ApprovalStatus where
  | pending
  | approved
  | rejected
  | expired
  deriving DecidableEq, Repr

inductive GrantStatus where
  | active
  | consumed
  | expired
  deriving DecidableEq, Repr

/-- A row of `approval_requests`; its primary key may be null. -/
structure ApprovalRow (κ τ : Type) where
  decisionId : Option κ
  status : ApprovalStatus
  requestedAt : τ
  expiresAt : Option τ
  resolvedAt : Option τ
  resolvedBy : Option Str
  deriving DecidableEq

/-- A row of `execution_grants`; its primary key may be null. -/
structure GrantRow (κ τ : Type) (δ : Type := Str) where
  grantId : Option κ
  decisionId : κ
  projectId : κ
  status : GrantStatus
  requestFingerprint : δ
  tokenHash : δ
  issuedAt : τ
  expiresAt : τ
  consumedAt : Option τ
  consumedBy : Option Str
  deriving DecidableEq

/-- What the two tables refer to: decisions, decisions of a project that require approval, and
projects. -/
structure Parents (κ : Type) where
  decision : κ → Bool
  requiresApproval : κ → κ → Bool
  project : κ → Bool

structure LifecycleTables (κ τ : Type) (δ : Type := Str) where
  approvals : List (ApprovalRow κ τ)
  grants : List (GrantRow κ τ δ)
  deriving DecidableEq

/-- What the check of a digest column takes. -/
class DigestColumn (δ : Type) where
  check : δ → Bool

/-- `length` and `GLOB` read a text up to its first NUL. -/
instance : DigestColumn Str := ⟨fun text => isSha256Digest (text.takeWhile fun c => c.val ≠ 0)⟩

variable {κ τ δ : Type} [DecidableEq κ] [DecidableEq τ] [LT τ] [LE τ] [DecidableLT τ] [DecidableLE τ]
variable [DecidableEq δ] [DigestColumn δ]

section Constraints

omit [DecidableEq κ] [DecidableEq τ] [LE τ] [DecidableLE τ] [DecidableEq δ]

def ApprovalRow.checks (row : ApprovalRow κ τ) : Bool :=
  (if row.status = .pending then row.resolvedAt.isNone && row.resolvedBy.isNone
    else row.resolvedAt.isSome && row.resolvedBy.isSome) &&
  row.expiresAt.all fun expiresAt => row.requestedAt < expiresAt

def GrantRow.checks (row : GrantRow κ τ δ) : Bool :=
  DigestColumn.check row.requestFingerprint && DigestColumn.check row.tokenHash &&
  decide (row.issuedAt < row.expiresAt) &&
  if row.status = .consumed then row.consumedAt.isSome && row.consumedBy.isSome
    else row.consumedAt.isNone && row.consumedBy.isNone

end Constraints

/-- `protect_approval_lifecycle` lets the update through. -/
def approvalLifecycle (old new : ApprovalRow κ τ) : Bool :=
  old.decisionId = new.decisionId && old.requestedAt = new.requestedAt &&
    old.expiresAt = new.expiresAt && old.status = .pending && new.status ≠ .pending

/-- `protect_execution_grant_lifecycle` lets the update through. -/
def grantLifecycle (old new : GrantRow κ τ δ) : Bool :=
  old.grantId = new.grantId && old.decisionId = new.decisionId && old.projectId = new.projectId &&
    old.requestFingerprint = new.requestFingerprint && old.tokenHash = new.tokenHash &&
    old.issuedAt = new.issuedAt && old.expiresAt = new.expiresAt && old.status = .active &&
    new.status ≠ .active

/-- The rows without the one at a position, if one is given. -/
def withoutRow {α : Type} : Option Nat → List α → List α
  | none, rows => rows
  | some i, rows => rows.eraseIdx i

theorem withoutRow_sublist {α : Type} (rowid : Option Nat) (rows : List α) :
    (withoutRow rowid rows).Sublist rows := by
  cases rowid with
  | none => exact List.Sublist.refl rows
  | some i => exact List.eraseIdx_sublist rows i

theorem withoutRow_map {α β : Type} (f : α → β) (rowid : Option Nat) (rows : List α) :
    withoutRow rowid (rows.map f) = (withoutRow rowid rows).map f := by
  cases rowid with
  | none => rfl
  | some i => exact List.eraseIdx_map ..

namespace LifecycleTables

variable (parents : Parents κ) (tables : LifecycleTables κ τ δ)

/-- `require_execution_grant_for_approval` lets the update through. -/
def grantedApproval (old new : ApprovalRow κ τ) : Bool :=
  !(old.status = .pending && new.status = .approved) ||
    tables.grants.any fun g => some g.decisionId = new.decisionId && g.status = .active

/-- `enforce_execution_grant_scope` lets the insert through. -/
def grantScope (new : GrantRow κ τ δ) : Bool :=
  new.status = .active && parents.requiresApproval new.decisionId new.projectId &&
    tables.approvals.any fun a => a.decisionId = some new.decisionId && a.status = .pending &&
      decide (a.requestedAt ≤ new.issuedAt) && a.expiresAt.all fun expiresAt => new.issuedAt < expiresAt

/-- `INSERT INTO approval_requests`. No trigger guards it. -/
def insertApproval (row : ApprovalRow κ τ) : Option (LifecycleTables κ τ δ) :=
  if row.checks && row.decisionId.all parents.decision &&
      !tables.approvals.any fun a => a.decisionId.isSome && a.decisionId = row.decisionId then
    some { tables with approvals := tables.approvals ++ [row] }
  else none

/-- `INSERT INTO execution_grants`. -/
def insertGrant (row : GrantRow κ τ δ) : Option (LifecycleTables κ τ δ) :=
  if tables.grantScope parents row && row.checks && parents.decision row.decisionId &&
      parents.project row.projectId &&
      !tables.grants.any fun g => (g.grantId.isSome && g.grantId = row.grantId) ||
        g.decisionId = row.decisionId || g.tokenHash = row.tokenHash then
    some { tables with grants := tables.grants ++ [row] }
  else none

/-- The approvals that `INSERT OR REPLACE` leaves: it takes the row with the key of the new one
away, and the row whose rowid the new one takes. No delete trigger fires. -/
def sparedApprovals (rowid : Option Nat) (row : ApprovalRow κ τ) : List (ApprovalRow κ τ) :=
  (withoutRow rowid tables.approvals).filter fun a =>
    !(a.decisionId.isSome && a.decisionId = row.decisionId)

def sparedGrants (rowid : Option Nat) (row : GrantRow κ τ δ) : List (GrantRow κ τ δ) :=
  (withoutRow rowid tables.grants).filter fun g =>
    !((g.grantId.isSome && g.grantId = row.grantId) || g.decisionId = row.decisionId ||
      g.tokenHash = row.tokenHash)

/-- An update of one row. The triggers keep the keys, so no constraint on them can fail. -/
def updateApproval (i : Nat) (new : ApprovalRow κ τ) : Option (LifecycleTables κ τ δ) :=
  match tables.approvals[i]? with
  | none => some tables
  | some old =>
    if approvalLifecycle old new && tables.grantedApproval old new && new.checks then
      some { tables with approvals := tables.approvals.set i new }
    else none

def updateGrant (i : Nat) (new : GrantRow κ τ δ) : Option (LifecycleTables κ τ δ) :=
  match tables.grants[i]? with
  | none => some tables
  | some old =>
    if grantLifecycle old new && new.checks then
      some { tables with grants := tables.grants.set i new }
    else none

end LifecycleTables

/-! ## Statements -/

/-- A single-row statement; rows are addressed by position. One with `OR REPLACE` may take the rowid
of a row. The other conflict clauses leave what `ABORT` leaves, and an upsert does what an insert or
an update does. -/
inductive LifecycleStatement (κ τ : Type) (δ : Type := Str) where
  | insertApproval (row : ApprovalRow κ τ)
  | insertOrReplaceApproval (rowid : Option Nat) (row : ApprovalRow κ τ)
  | updateApproval (i : Nat) (row : ApprovalRow κ τ)
  | updateOrReplaceApproval (i rowid : Nat) (row : ApprovalRow κ τ)
  | deleteApproval (i : Nat)
  | insertGrant (row : GrantRow κ τ δ)
  | insertOrReplaceGrant (rowid : Option Nat) (row : GrantRow κ τ δ)
  | updateGrant (i : Nat) (row : GrantRow κ τ δ)
  | updateOrReplaceGrant (i rowid : Nat) (row : GrantRow κ τ δ)
  | deleteGrant (i : Nat)

namespace LifecycleTables

/-- What an update of the row at `i` leaves that takes the rowid of another one. -/
def replacing {α : Type} (i rowid : Nat) (before after : List α) : List α :=
  if i < before.length ∧ i ≠ rowid then after.eraseIdx rowid else after

theorem replacing_map {α β : Type} (f : α → β) (i rowid : Nat) (before after : List α) :
    replacing i rowid (before.map f) (after.map f) = (replacing i rowid before after).map f := by
  unfold replacing
  rw [List.length_map]
  split
  · exact List.eraseIdx_map ..
  · rfl

/-- The tables a statement leaves, or `none` where SQLite aborts it. A delete that finds its row is
aborted by `prevent_approval_delete` or `prevent_execution_grant_delete`. The triggers of an insert
fire before rows are replaced, but look at the other table only. -/
def execute (parents : Parents κ) (tables : LifecycleTables κ τ δ) :
    LifecycleStatement κ τ δ → Option (LifecycleTables κ τ δ)
  | .insertApproval row => tables.insertApproval parents row
  | .insertOrReplaceApproval rowid row =>
    insertApproval parents { tables with approvals := tables.sparedApprovals rowid row } row
  | .updateApproval i row => tables.updateApproval i row
  | .updateOrReplaceApproval i rowid row => (tables.updateApproval i row).map fun after =>
    { after with approvals := replacing i rowid tables.approvals after.approvals }
  | .deleteApproval i => if i < tables.approvals.length then none else some tables
  | .insertGrant row => tables.insertGrant parents row
  | .insertOrReplaceGrant rowid row =>
    insertGrant parents { tables with grants := tables.sparedGrants rowid row } row
  | .updateGrant i row => tables.updateGrant i row
  | .updateOrReplaceGrant i rowid row => (tables.updateGrant i row).map fun after =>
    { after with grants := replacing i rowid tables.grants after.grants }
  | .deleteGrant i => if i < tables.grants.length then none else some tables

/-- An aborted statement changes nothing. -/
def run (parents : Parents κ) (tables : LifecycleTables κ τ δ)
    (statements : List (LifecycleStatement κ τ δ)) : LifecycleTables κ τ δ :=
  statements.foldl (fun t statement => (t.execute parents statement).getD t) tables

end LifecycleTables

end DecAustrum
