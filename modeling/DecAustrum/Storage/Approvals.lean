import DecAustrum.Storage.Projects

/-!
# Approvals and grants

The statements on `approval_requests` and `execution_grants`. Every row an update changes passes
the triggers, or the statement raises.
-/
namespace DecAustrum

open Python Transaction Table

/-! ## Rows and records -/

def ApprovalRecord.row (a : ApprovalRecord) : ApprovalRow Uuid UtcDatetime :=
  ⟨some a.decisionId, a.status, a.requestedAt, a.expiresAt, a.resolvedAt, a.resolvedBy⟩

/-- `_row_to_approval`. -/
def rowToApproval (row : ApprovalRow Uuid UtcDatetime) : Except PyExc ApprovalRecord :=
  match row.decisionId with
  | none => .error .validationError
  | some decisionId =>
    if lifecycle : validApprovalLifecycle row.status row.requestedAt row.expiresAt row.resolvedAt
        row.resolvedBy = true then
      .ok ⟨decisionId, row.status, row.requestedAt, row.expiresAt, row.resolvedAt, row.resolvedBy,
        lifecycle⟩
    else .error .validationError

def ExecutionGrantRecord.row (g : ExecutionGrantRecord) : GrantRow Uuid UtcDatetime :=
  ⟨some g.grantId, g.decisionId, g.projectId, g.status, g.requestFingerprint.val, g.tokenHash.val,
    g.issuedAt, g.expiresAt, g.consumedAt, g.consumedBy.map (·.text)⟩

/-- `_row_to_grant`. -/
def rowToGrant (row : GrantRow Uuid UtcDatetime) : Except PyExc ExecutionGrantRecord := do
  let grantId ← orRaise .validationError row.grantId
  let requestFingerprint ← orRaise .validationError (Sha256Digest.validate row.requestFingerprint)
  let tokenHash ← orRaise .validationError (Sha256Digest.validate row.tokenHash)
  let consumedBy ← match row.consumedBy with
    | none => Except.ok none
    | some text => (orRaise .validationError (SearchText.validate (.str text))).map some
  if expiry : row.issuedAt < row.expiresAt then
    if consumption : validGrantStatus row.status row.expiresAt row.consumedAt consumedBy = true then
      return { grantId, decisionId := row.decisionId, projectId := row.projectId, requestFingerprint,
               issuedAt := row.issuedAt, expiresAt := row.expiresAt, expiry, status := row.status,
               tokenHash, consumedAt := row.consumedAt, consumedBy, consumption }
    else throw .validationError
  else throw .validationError

/-! ## Statements -/

namespace Database

/-- The decision of an approval is one of the project. -/
def decisionIn (db : Database) (projectId decisionId : Uuid) : Bool :=
  db.ledger.decisions.any fun row => row.decisionId = decisionId.str && row.projectId = projectId.str

end Database

/-- An update of the rows `hit` selects, with its rowcount. A row that a trigger or a check stops
aborts the statement. -/
def updateGuarded {α : Type} (hit : α → Bool) (update : α → α) (guard : α → α → Bool)
    (rows : List α) : Except StoreExc (List α × Nat) :=
  if rows.all fun row => !hit row || guard row (update row) then
    .ok (updateWhere hit update rows, rows.countP hit)
  else .error integrityError

namespace Database

def updateApprovals (db : Database) (hit : ApprovalRow Uuid UtcDatetime → Bool)
    (update : ApprovalRow Uuid UtcDatetime → ApprovalRow Uuid UtcDatetime) :
    Except StoreExc (Database × Nat) :=
  (updateGuarded hit update (fun old new => approvalLifecycle old new &&
      db.lifecycle.grantedApproval old new && new.checks) db.lifecycle.approvals).map fun r =>
    ({ db with lifecycle := { db.lifecycle with approvals := r.1 } }, r.2)

def updateGrants (db : Database) (hit : GrantRow Uuid UtcDatetime → Bool)
    (update : GrantRow Uuid UtcDatetime → GrantRow Uuid UtcDatetime) :
    Except StoreExc (Database × Nat) :=
  (updateGuarded hit update (fun old new => grantLifecycle old new && new.checks)
      db.lifecycle.grants).map fun r =>
    ({ db with lifecycle := { db.lifecycle with grants := r.1 } }, r.2)

end Database

/-- An insert that the tables of approvals and grants decide on. -/
def insertLifecycle
    (insert : LifecycleTables Uuid UtcDatetime → Parents Uuid → Option (LifecycleTables Uuid UtcDatetime)) :
    Body Unit :=
  Block.statement fun db =>
    match insert db.lifecycle db.parents with
    | some tables => .ok ({ db with lifecycle := tables }, ())
    | none => .error integrityError

namespace ApprovalRepository

def insert (approval : ApprovalRecord) : Body Unit :=
  insertLifecycle fun tables parents => tables.insertApproval parents approval.row

/-- The row of an approval whose decision is one of the project. -/
def approvalIs (db : Database) (projectId decisionId : Uuid) (row : ApprovalRow Uuid UtcDatetime) :
    Bool :=
  row.decisionId = some decisionId && db.decisionIn projectId decisionId

def getWithConnection (decisionId projectId : Uuid) : Body (Option ApprovalRecord) := do
  match ← Block.query fun db => db.lifecycle.approvals.find? (approvalIs db projectId decisionId) with
  | none => return none
  | some row => do
    let approval ← ofPython (rowToApproval row)
    return some approval

def resolvedRow (status : ApprovalStatus) (resolvedAt : UtcDatetime) (resolvedBy : Str)
    (row : ApprovalRow Uuid UtcDatetime) : ApprovalRow Uuid UtcDatetime :=
  { row with status := status, resolvedAt := some resolvedAt, resolvedBy := some resolvedBy }

/-- The rows a resolution updates: pending, and not due at the moment. -/
def resolvable (db : Database) (projectId decisionId : Uuid) (resolvedAt : UtcDatetime)
    (row : ApprovalRow Uuid UtcDatetime) : Bool :=
  approvalIs db projectId decisionId row && row.status = .pending &&
    row.expiresAt.all fun expiresAt => resolvedAt < expiresAt

/-- A resolution is `APPROVED` or `REJECTED`. -/
inductive Resolution where
  | approved
  | rejected
  deriving DecidableEq, Repr

def Resolution.status : Resolution → ApprovalStatus
  | .approved => .approved
  | .rejected => .rejected

def resolveWithConnection (decisionId projectId : Uuid) (status : Resolution) (resolvedBy : Str)
    (resolvedAt : UtcDatetime) : Body ApprovalRecord := do
  let rowcount ← Block.statement fun db => db.updateApprovals
    (resolvable db projectId decisionId resolvedAt) (resolvedRow status.status resolvedAt resolvedBy)
  if rowcount = 0 then do
    match ← getWithConnection decisionId projectId with
    | none => .raise (.approvalNotFound decisionId)
    | some current =>
      if current.status = .pending && current.expiresAt.any fun expiresAt => expiresAt ≤ resolvedAt then
        .raise (.approvalExpired decisionId)
      else .raise (.approvalAlreadyResolved decisionId current.status)
  else do
    match ← getWithConnection decisionId projectId with
    | none => .raise (.approvalNotFound decisionId)
    | some resolved => return resolved

def isOverdue (expiredAt : UtcDatetime) (row : ApprovalRow Uuid UtcDatetime) : Bool :=
  row.status = .pending && row.expiresAt.any fun expiresAt => expiresAt ≤ expiredAt

def decisionNumber (row : ApprovalRow Uuid UtcDatetime) : Nat :=
  row.decisionId.elim 0 fun d => d.value.val + 1

/-- By the end of validity, then by the decision. -/
def overdueLe (a b : ApprovalRow Uuid UtcDatetime) : Prop :=
  match a.expiresAt, b.expiresAt with
  | some s, some t => s < t ∨ s = t ∧ decisionNumber a ≤ decisionNumber b
  | none, _ => True
  | some _, none => False

instance : DecidableRel overdueLe := fun a b => by
  unfold overdueLe
  split <;> infer_instance

/-- The pending approvals of the project that are due. -/
def overdueRows (projectId : Uuid) (expiredAt : UtcDatetime) (db : Database) :
    List (ApprovalRow Uuid UtcDatetime) :=
  (db.lifecycle.approvals.filter fun row =>
    row.decisionId.any (db.decisionIn projectId) && isOverdue expiredAt row).insertionSort overdueLe

def expirationActor : Str := "decaustrum-expiration"

def expireRow (decisionId : Uuid) (expiredAt : UtcDatetime) : Body Nat :=
  Block.statement fun db => db.updateApprovals
    (fun r => r.decisionId = some decisionId && isOverdue expiredAt r)
    (resolvedRow .expired expiredAt expirationActor)

/-- The loop of the sweep. -/
def expireRows (projectId : Uuid) (expiredAt : UtcDatetime) :
    List (ApprovalRow Uuid UtcDatetime) → Body (List (ApprovalRecord × ApprovalRecord))
  | [] => return []
  | row :: rest => do
    let previous ← ofPython (rowToApproval row)
    let rowcount ← expireRow previous.decisionId expiredAt
    if rowcount = 0 then
      expireRows projectId expiredAt rest
    else do
      let current ← getWithConnection previous.decisionId projectId
      let later ← expireRows projectId expiredAt rest
      return (current.map fun c => (previous, c)).toList ++ later

def expireDueWithConnection (projectId : Uuid) (expiredAt : UtcDatetime) :
    Body (List (ApprovalRecord × ApprovalRecord)) := do
  let rows ← Block.query (overdueRows projectId expiredAt)
  expireRows projectId expiredAt rows

end ApprovalRepository

namespace ExecutionGrantRepository

def insert (grant : ExecutionGrantRecord) : Body Unit :=
  insertLifecycle fun tables parents => tables.insertGrant parents grant.row

def getRow (hit : GrantRow Uuid UtcDatetime → Bool) : Body (Option ExecutionGrantRecord) := do
  match ← Block.query fun db => db.lifecycle.grants.find? hit with
  | none => return none
  | some row => do
    let grant ← ofPython (rowToGrant row)
    return some grant

def grantIs (grantId projectId : Uuid) (row : GrantRow Uuid UtcDatetime) : Bool :=
  row.grantId = some grantId && row.projectId = projectId

def getWithConnection (grantId projectId : Uuid) : Body (Option ExecutionGrantRecord) :=
  getRow (grantIs grantId projectId)

def getByDecisionWithConnection (decisionId projectId : Uuid) : Body (Option ExecutionGrantRecord) :=
  getRow fun row => row.decisionId = decisionId && row.projectId = projectId

def consumedRow (consumedAt : UtcDatetime) (consumedBy : Str) (row : GrantRow Uuid UtcDatetime) :
    GrantRow Uuid UtcDatetime :=
  { row with status := .consumed, consumedAt := some consumedAt, consumedBy := some consumedBy }

def consumable (grantId projectId : Uuid) (tokenHash : Str) (consumedAt : UtcDatetime)
    (row : GrantRow Uuid UtcDatetime) : Bool :=
  grantIs grantId projectId row && row.tokenHash = tokenHash && row.status = .active &&
    consumedAt < row.expiresAt

def consumeWithConnection (grantId projectId : Uuid) (tokenHash : Str) (consumedAt : UtcDatetime)
    (consumedBy : Str) : Body (Option ExecutionGrantRecord) := do
  let rowcount ← Block.statement fun db => db.updateGrants
    (consumable grantId projectId tokenHash consumedAt) (consumedRow consumedAt consumedBy)
  if rowcount = 0 then return none
  else getWithConnection grantId projectId

def expirable (grantId projectId : Uuid) (expiredAt : UtcDatetime)
    (row : GrantRow Uuid UtcDatetime) : Bool :=
  grantIs grantId projectId row && row.status = .active && row.expiresAt ≤ expiredAt

def expireWithConnection (grantId projectId : Uuid) (expiredAt : UtcDatetime) :
    Body (Option ExecutionGrantRecord) := do
  let rowcount ← Block.statement fun db => db.updateGrants (expirable grantId projectId expiredAt)
    fun row => { row with status := .expired }
  if rowcount = 0 then return none
  else getWithConnection grantId projectId

end ExecutionGrantRepository

end DecAustrum
