import DecAustrum.Storage.Outbox
import DecAustrum.Table

/-!
# Projects and API keys

The statements on `projects` and `project_api_keys`.
-/
namespace DecAustrum

open Python Transaction Table

/-- An update; no constraint of the tables can fail on the ones the store makes. -/
def updateRows (update : Database → Database) : Body Unit :=
  Block.statement fun db => .ok (update db, ())

@[simp] theorem exec_updateRows (update : Database → Database) (draws : ℕ → Uuid) (db : Database) :
    (updateRows update).exec draws db = .ok ((), draws, update db) := by
  rw [updateRows, Block.exec_statement]
  rfl

theorem exec_updateRows_bind {draws : ℕ → Uuid} {db : Database} {β : Type}
    (update : Database → Database) (f : Unit → Body β) :
    (updateRows update >>= f).exec draws db = (f ()).exec draws (update db) := by
  rw [Block.exec_bind, exec_updateRows]

namespace ProjectRepository

def insert (project : Project) : Body Unit :=
  insertRow (fun db => !db.projects.any fun other => other.projectId = project.projectId)
    fun db => { db with projects := db.projects ++ [project] }

/-- What `UPDATE projects` makes of a row. -/
def withStatus (status : ProjectStatus) (updatedAt : UtcDatetime) (project : Project) : Project :=
  { project with
    updatedAt := if project.status ≠ status then updatedAt else project.updatedAt
    status := status }

def updateStatusWithConnection (projectId : Uuid) (status : ProjectStatus)
    (updatedAt : UtcDatetime) : Body (Option Project) := do
  updateRows fun db => { db with
    projects := updateWhere (·.projectId = projectId) (withStatus status updatedAt) db.projects }
  getWithConnection projectId

end ProjectRepository

namespace ProjectApiKeyRepository

def insert (apiKey : ProjectApiKeyRecord) : Body Unit :=
  insertRow
    (fun db => (!db.apiKeys.any fun other => other.apiKeyId = apiKey.apiKeyId ||
        other.keyHash = apiKey.keyHash || other.keyPrefix = apiKey.keyPrefix) &&
      db.projects.any fun project => project.projectId = apiKey.projectId)
    fun db => { db with apiKeys := db.apiKeys ++ [apiKey] }

def getMetadataWithConnection (projectId apiKeyId : Uuid) : Body (Option ProjectApiKeyMetadata) :=
  Block.query fun db => (db.apiKeys.find? fun key =>
    key.projectId = projectId && key.apiKeyId = apiKeyId).map (·.toProjectApiKeyMetadata)

/-- `COALESCE(revoked_at, ?)`. -/
def revoked (revokedAt : UtcDatetime) (key : ProjectApiKeyRecord) : ProjectApiKeyRecord :=
  { key with revokedAt := key.revokedAt.or (some revokedAt) }

def revokeWithConnection (projectId apiKeyId : Uuid) (revokedAt : UtcDatetime) :
    Body (Option ProjectApiKeyMetadata) := do
  updateRows fun db => { db with
    apiKeys := updateWhere (fun key => key.projectId = projectId && key.apiKeyId = apiKeyId)
      (revoked revokedAt) db.apiKeys }
  getMetadataWithConnection projectId apiKeyId

end ProjectApiKeyRepository

end DecAustrum
