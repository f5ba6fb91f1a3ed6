import DecAustrum.Storage.LedgerWrites
import DecAustrum.Storage.Projects

/-!
# Policy tables

The statements on `project_policies` and `project_policy_versions`. The first holds the current
version of each policy, the second every version it had.
-/
namespace DecAustrum

open Python Transaction Table

/-- `policy.model_copy(update={"version": version})`. -/
def Policy.withVersion (policy : Policy) (version : Int) (positive : 1 ≤ version) : Policy :=
  { policy with version := version, positive := positive }

def policyIs (projectId : Uuid) (policyId : Str) (row : PolicyRow) : Bool :=
  row.projectId = projectId && row.policyId = policyId

def versionIs (projectId : Uuid) (policyId : Str) (version : Int) (row : PolicyVersionRow) : Bool :=
  row.projectId = projectId && row.policyId = policyId && row.version = version

def PolicyRow.configuration (row : PolicyRow) : ProjectPolicyConfiguration :=
  ⟨row.projectId, row.policy, row.enabled, row.updatedAt⟩

/-- `list_configurations`: the policies of a project, `ORDER BY policy_id`. -/
def Database.policyConfigurations (db : Database) (projectId : Uuid) :
    List ProjectPolicyConfiguration :=
  ((db.policies.filter fun row => row.projectId = projectId).insertionSort
    fun a b => a.policyId ≤ b.policyId).map (·.configuration)

/-- `list_active`, the policies a request is evaluated by. -/
def Database.activePolicies (db : Database) (projectId : Uuid) : List Policy :=
  ((db.policyConfigurations projectId).filter (·.enabled)).map (·.policy)

namespace ProjectPolicyRepository

/-- `_row_to_version`. -/
def rowToVersion (row : PolicyVersionRow) : Except PyExc ProjectPolicyVersion :=
  if identity : validVersionIdentity row.policyId row.version row.policy row.changeType
      row.sourceVersion = true then
    .ok ⟨row.projectId, row.policyId, row.version, row.policy, row.changeType, row.sourceVersion,
      row.createdAt, identity⟩
  else .error .validationError

def insertVersion (projectId : Uuid) (policy : Policy) (changeType : PolicyVersionChangeType)
    (createdAt : UtcDatetime) (sourceVersion : Option Int) : Body Unit :=
  Block.statement fun db =>
    if (fitsInteger policy.version && sourceVersion.all fitsInteger) = false then
      .error (.python .overflowError)
    else if (!db.policyVersions.any (versionIs projectId policy.id policy.version)) &&
        (db.projects.any fun project => project.projectId = projectId) &&
        ((changeType = .rollback) == sourceVersion.isSome) then
      .ok ({ db with
        policyVersions := db.policyVersions ++
          [⟨projectId, policy.id, policy.version, policy, changeType, sourceVersion, createdAt⟩] }, ())
    else .error integrityError

def policyRow (projectId : Uuid) (policy : Policy) (updatedAt : UtcDatetime) : PolicyRow :=
  ⟨projectId, policy.id, policy.version, policy, true, updatedAt, policy.positive⟩

/-- `INSERT INTO project_policies`. -/
def insertPolicy (projectId : Uuid) (policy : Policy) (updatedAt : UtcDatetime) (db : Database) :
    Except StoreExc (Database × Unit) :=
  if fitsInteger policy.version = false then
    .error (.python .overflowError)
  else if (!db.policies.any (policyIs projectId policy.id)) &&
      db.projects.any fun project => project.projectId = projectId then
    .ok ({ db with policies := db.policies ++ [policyRow projectId policy updatedAt] }, ())
  else .error integrityError

/-- `INSERT OR IGNORE`: a policy that is configured already is left alone. -/
def insertOrIgnorePolicy (projectId : Uuid) (policy : Policy) (updatedAt : UtcDatetime)
    (db : Database) : Except StoreExc (Database × Nat) :=
  match policy.dump with
  | .error exc => .error (.python exc)
  | .ok _ =>
    if policy.id.any isSurrogate = true then
      .error (.python .unicodeEncodeError)
    else if fitsInteger policy.version = false then
      .error (.python .overflowError)
    else if db.policies.any (policyIs projectId policy.id) then
      .ok (db, 0)
    else (insertPolicy projectId policy updatedAt db).map fun r => (r.1, 1)

def insertSeed (projectId : Uuid) (policy : Policy) (updatedAt : UtcDatetime) : Body Unit := do
  let rowcount ← Block.statement (insertOrIgnorePolicy projectId policy updatedAt)
  if rowcount = 1 then
    insertVersion projectId policy .created updatedAt none
  else return ()

def getConfigurationWithConnection (projectId : Uuid) (policyId : Str) :
    Body (Option ProjectPolicyConfiguration) :=
  Block.query fun db => (db.policies.find? (policyIs projectId policyId)).map (·.configuration)

/-- SQLite takes no text with a surrogate as a parameter. -/
def bindText (text : Str) : Except PyExc Unit :=
  if text.any isSurrogate = true then .error .unicodeEncodeError else .ok ()

/-- The first read of a policy by a call. Every later statement of the call binds the same
identifier. -/
def findConfiguration (projectId : Uuid) (policyId : Str) :
    Body (Option ProjectPolicyConfiguration) := do
  ofPython (bindText policyId)
  getConfigurationWithConnection projectId policyId

/-- A first read that does not raise is a query. -/
theorem findConfiguration_cases (projectId : Uuid) (policyId : Str) :
    findConfiguration projectId policyId = .raise (.python .unicodeEncodeError) ∨
      findConfiguration projectId policyId = getConfigurationWithConnection projectId policyId := by
  unfold findConfiguration bindText
  split
  · exact .inl rfl
  · exact .inr rfl

/-- `SELECT version`. -/
def currentRow (projectId : Uuid) (policyId : Str) : Body (Option PolicyRow) :=
  Block.query fun db => db.policies.find? (policyIs projectId policyId)

def nextVersion : Option PolicyRow → Int
  | none => 1
  | some row => row.version + 1

/-- What the conditional update makes of a row. -/
def savedRow (policy : Policy) (updatedAt : UtcDatetime) (row : PolicyRow) : PolicyRow :=
  { row with version := policy.version, policy := policy, enabled := true, updatedAt := updatedAt,
             positive := policy.positive }

/-- `UPDATE … WHERE version = ?`, with its rowcount. -/
def updatePolicy (projectId : Uuid) (policy : Policy) (updatedAt : UtcDatetime)
    (currentVersion : Int) (db : Database) : Except StoreExc (Database × Nat) :=
  let hit := fun row => policyIs projectId policy.id row && row.version = currentVersion
  if fitsInteger policy.version = false then
    .error (.python .overflowError)
  else
    .ok ({ db with policies := updateWhere hit (savedRow policy updatedAt) db.policies },
      db.policies.countP hit)

/-- The conflict of a save that lost to another one. -/
def conflict (policy : Policy) (concurrent : Option PolicyRow) : StoreExc :=
  .policyVersionConflict policy.id (nextVersion concurrent) policy.version

/-- The write of `save_with_connection`; it returns the change that took effect. -/
def writePolicy (projectId : Uuid) (policy : Policy) (updatedAt : UtcDatetime)
    (changeType : PolicyVersionChangeType) : Option PolicyRow → Body PolicyVersionChangeType
  | none => do
    match ← Block.attempt (insertPolicy projectId policy updatedAt) with
    | .ok () => return .created
    | .error exc =>
      if exc = integrityError then do
        match ← currentRow projectId policy.id with
        | none => .raise exc
        | some concurrent => .raise (conflict policy (some concurrent))
      else .raise exc
  | some current => do
    let rowcount ← Block.statement (updatePolicy projectId policy updatedAt current.version)
    if rowcount ≠ 1 then do
      let concurrent ← currentRow projectId policy.id
      .raise (conflict policy concurrent)
    else return changeType

/-- The write and its version. -/
def writeVersion (projectId : Uuid) (policy : Policy) (updatedAt : UtcDatetime)
    (changeType : PolicyVersionChangeType) (sourceVersion : Option Int) (current : Option PolicyRow) :
    Body Unit := do
  let effective ← writePolicy projectId policy updatedAt changeType current
  insertVersion projectId policy effective updatedAt
    (if effective = .rollback then sourceVersion else none)

def saveWithConnection (projectId : Uuid) (policy : Policy) (updatedAt : UtcDatetime)
    (changeType : PolicyVersionChangeType) (sourceVersion : Option Int) :
    Body ProjectPolicyConfiguration := do
  let current ← currentRow projectId policy.id
  if policy.version ≠ nextVersion current then
    .raise (conflict policy current)
  else do
    let _ ← ofPython policy.dump
    writeVersion projectId policy updatedAt changeType sourceVersion current
    match ← getConfigurationWithConnection projectId policy.id with
    | none => .raise (.python .typeError)
    | some configuration => return configuration

/-- A parameter that SQLite cannot bind raises. -/
def bindInteger (n : Int) : Body Unit :=
  ofPython (if fitsInteger n then .ok () else .error .overflowError)

def rollbackWithConnection (projectId : Uuid) (policyId : Str) (sourceVersion : Int)
    (updatedAt : UtcDatetime) : Body ProjectPolicyConfiguration := do
  bindInteger sourceVersion
  match ← Block.query fun db => db.policyVersions.find? (versionIs projectId policyId sourceVersion)
      with
  | none => .raise (.policyVersionNotFound policyId sourceVersion)
  | some historical =>
    match ← currentRow projectId policyId with
    | none => .raise (.policyVersionNotFound policyId sourceVersion)
    | some current =>
      if sourceVersion = current.version then
        .raise (.policyVersionAlreadyCurrent policyId sourceVersion)
      else do
        let version ← ofPython (rowToVersion historical)
        saveWithConnection projectId
          (version.policy.withVersion (current.version + 1) (by have := current.positive; omega))
          updatedAt .rollback (some sourceVersion)

/-- The version that `_backfill_project_policy_versions` selects for a policy. -/
def migratedRow (row : PolicyRow) : PolicyVersionRow :=
  ⟨row.projectId, row.policyId, row.version, row.policy, .migrated, none, row.updatedAt⟩

/-- `INSERT OR IGNORE`: a version that exists is left alone. -/
def migrateRow (versions : List PolicyVersionRow) (row : PolicyRow) : List PolicyVersionRow :=
  if versions.any (versionIs row.projectId row.policyId row.version) then versions
  else versions ++ [migratedRow row]

def backfillProjectPolicyVersions (db : Database) : Database :=
  { db with policyVersions := db.policies.foldl migrateRow db.policyVersions }

/-- What a disable makes of a row. -/
def disabledRow (updatedAt : UtcDatetime) (row : PolicyRow) : PolicyRow :=
  { row with updatedAt := if row.enabled then updatedAt else row.updatedAt, enabled := false }

def disableRows (projectId : Uuid) (policyId : Str) (updatedAt : UtcDatetime) : Body Unit :=
  updateRows fun db => { db with
    policies := updateWhere (policyIs projectId policyId) (disabledRow updatedAt) db.policies }

def disableWithConnection (projectId : Uuid) (policyId : Str) (updatedAt : UtcDatetime) :
    Body (Option ProjectPolicyConfiguration) := do
  match ← getConfigurationWithConnection projectId policyId with
  | none => return none
  | some _ => do
    disableRows projectId policyId updatedAt
    getConfigurationWithConnection projectId policyId

end ProjectPolicyRepository

end DecAustrum
