import DecAustrum.Storage.LedgerWrites
import DecAustrum.Storage.Projects

/-!
# Decisions in the database

The statements on the ledger and on `idempotency_records`, as bodies of a connection.
-/
namespace DecAustrum

open Python Transaction

/-- A statement on the ledger. -/
def ledgerStatement (write : Ledger → Except PyExc Ledger) : Body Unit :=
  Block.statement fun db =>
    ((write db.ledger).mapError .python).map fun ledger => ({ db with ledger := ledger }, ())

namespace AuthorizationDecisionRepository

variable (platform : Platform)

def insert (a : AuthorizationResponse) : Body Unit :=
  ledgerStatement fun ledger => ledger.insertDecision platform a

def getWithConnection (decisionId projectId : Uuid) : Body (Option AuthorizationResponse) := do
  match ← Block.query fun db => db.ledger.decisions.find? fun row =>
      row.decisionId = decisionId.str && row.projectId = projectId.str with
  | none => return none
  | some row => do
    let authorization ← ofPython (rowToAuthorization platform row)
    return some authorization

end AuthorizationDecisionRepository

namespace DecisionIntegrityRepository

def insert (platform : Platform) (a : AuthorizationResponse) : Body DecisionIntegrityProof := do
  let previous ← Block.query fun db => (db.ledger.chain a.projectId).getLast?
  let proof ← ofPython (buildDecisionIntegrityProof platform a (Ledger.nextSequence previous)
    (previous.map (·.recordHash)))
  ledgerStatement fun ledger => ledger.insertProof proof
  return proof

end DecisionIntegrityRepository

namespace IdempotencyRepository

def recordIs (projectId : Uuid) (idempotencyKey : Str) (record : IdempotencyRecord) : Bool :=
  record.projectId = projectId && record.idempotencyKey = idempotencyKey

/-- A key is used once in a project, and a decision has one key. -/
def insert (record : IdempotencyRecord) : Body Unit :=
  insertRow
    (fun db => (!db.idempotency.any fun other =>
        recordIs record.projectId record.idempotencyKey other ||
          other.decisionId = record.decisionId) &&
      db.ledger.decisions.any fun row => row.decisionId = record.decisionId.str)
    fun db => { db with idempotency := db.idempotency ++ [record] }

def get (projectId : Uuid) (idempotencyKey : Str) : Body (Option IdempotencyRecord) :=
  Block.query fun db => db.idempotency.find? (recordIs projectId idempotencyKey)

end IdempotencyRepository

end DecAustrum
