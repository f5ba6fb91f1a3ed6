import DecAustrum.ExecutionGrants
import DecAustrum.Storage.Projects
import DecAustrum.Transaction.Attempts

/-!
# API keys

A key is a public selector and a secret. The store holds the selector and a salted verifier of the
whole key, which a presented key is checked against outside any connection.
-/
namespace DecAustrum

open Python Transaction

/-! ## The forms of keys and verifiers -/

def isLowerHex (c : CodePoint) : Bool := isDigit c || (0x61 ≤ c.val && c.val ≤ 0x66)

/-- `[A-Za-z0-9_-]`. -/
def isUrlSafe (c : CodePoint) : Bool :=
  isDigit c || (0x41 ≤ c.val && c.val ≤ 0x5a) || (0x61 ≤ c.val && c.val ≤ 0x7a) || c.val = 0x5f ||
    c.val = 0x2d

/-- `API_KEY_PATTERN.fullmatch`. -/
def isApiKey (s : Str) : Bool :=
  s.length = 64 && s.take 4 = "dak_" && ((s.drop 4).take 16).all isLowerHex &&
    (s.drop 20).head? = some dot && (s.drop 21).all isUrlSafe

/-- `API_KEY_HASH_PATTERN` matches the whole text. -/
def isApiKeyHash (s : Str) : Bool :=
  s.length = 114 && s.take 17 = "scrypt$16384$8$5$" && ((s.drop 17).take 32).all isLowerHex &&
    (s.drop 49).head? = some 0x24 && (s.drop 50).all isLowerHex

/-- `bytes.fromhex` of hexadecimal digits. -/
def fromHex : Str → Bytes
  | high :: low :: rest =>
    UInt8.ofNat ((hexValue high).getD 0 * 16 + (hexValue low).getD 0) :: fromHex rest
  | _ => []

/-- `get_api_key_prefix`. -/
def getApiKeyPrefix (apiKey : Str) : Except PyExc Str :=
  if isApiKey apiKey then .ok (apiKey.takeWhile (· ≠ dot)) else .error .valueError

section

-- `hashlib.scrypt` of a key and a salt, with the cost of the service
variable (scrypt : Bytes → Bytes → Bytes)

/-- `verify_api_key`. -/
def verifyApiKey (apiKey verifier : Str) : Except PyExc Bool :=
  if apiKey = [] || !isApiKeyHash verifier then .ok false
  else
    match split 0x24 verifier with
    | [_, _, _, _, salt, expected] => do
      let key ← orRaise .unicodeEncodeError (encodeUtf8 apiKey)
      return scrypt key (fromHex salt) = fromHex expected
    | _ => .error .valueError

structure ProjectApiKeyPrincipal where
  apiKeyId : Uuid
  role : ProjectApiKeyRole
  project : Project
  deriving DecidableEq

/-! ## The two reads -/

namespace Database

/-- The key of a selector that is not revoked, with its project, where that is active. -/
def activeKey (keyPrefix : Str) (db : Database) : Option (ProjectApiKeyRecord × Project) :=
  (db.projects.flatMap fun p => (db.apiKeys.filter fun k => k.projectId = p.projectId &&
    k.keyPrefix = keyPrefix && k.revokedAt = none && p.status = .active).map fun k => (k, p)).head?

/-- The key, by identifier and hash, is not revoked and its project is active. -/
def stillActive (apiKeyId : Uuid) (keyHash : Str) (db : Database) : Bool :=
  db.apiKeys.any fun k => db.projects.any fun p => p.projectId = k.projectId &&
    k.apiKeyId = apiKeyId && k.keyHash = keyHash && k.revokedAt = none && p.status = .active

end Database

namespace ProjectApiKeyRepository

/-- `get_active_principal_by_api_key`. -/
def getActivePrincipalByApiKey {ω : Type} (apiKey : Str) :
    Session Database Uuid ω StoreExc (Option ProjectApiKeyPrincipal) :=
  match getApiKeyPrefix apiKey with
  | .error _ => return none
  | .ok keyPrefix => do
    match ← Session.within (Block.query (Database.activeKey keyPrefix)) with
    | none => return none
    | some (key, project) => do
      let verified ← Session.check ((verifyApiKey scrypt apiKey key.keyHash).mapError .python)
      if verified = false then return none
      else do
        -- hashing took time: revocation and the status of the project are read again
        let active ← Session.within (Block.query (Database.stillActive key.apiKeyId key.keyHash))
        if active = false then return none
        else return some ⟨key.apiKeyId, key.role, project⟩

end ProjectApiKeyRepository

end

namespace Database

variable {db : Database}

theorem activeKey_eq_some {keyPrefix : Str} {k : ProjectApiKeyRecord} {p : Project}
    (found : db.activeKey keyPrefix = some (k, p)) :
    k ∈ db.apiKeys ∧ k.keyPrefix = keyPrefix ∧ k.revokedAt = none ∧ k.projectId = p.projectId := by
  have member := List.mem_of_mem_head? found
  rw [List.mem_flatMap] at member
  obtain ⟨q, -, member⟩ := member
  rw [List.mem_map] at member
  obtain ⟨key, kept, same⟩ := member
  cases same
  obtain ⟨stored, chosen⟩ := List.mem_filter.mp kept
  simp only [Bool.and_eq_true, decide_eq_true_eq] at chosen
  exact ⟨stored, chosen.1.1.2, chosen.1.2, chosen.1.1.1⟩

theorem stillActive_iff (apiKeyId : Uuid) (keyHash : Str) :
    db.stillActive apiKeyId keyHash = true ↔
      ∃ k ∈ db.apiKeys, k.apiKeyId = apiKeyId ∧ k.keyHash = keyHash ∧ k.revokedAt = none ∧
        ∃ p ∈ db.projects, p.projectId = k.projectId ∧ p.status = .active := by
  simp only [stillActive, List.any_eq_true, Bool.and_eq_true, decide_eq_true_eq]
  constructor
  · rintro ⟨k, stored, p, owner, ⟨⟨⟨named, isId⟩, isHash⟩, valid⟩, active⟩
    exact ⟨k, stored, isId, isHash, valid, p, owner, named, active⟩
  · rintro ⟨k, stored, isId, isHash, valid, p, owner, named, active⟩
    exact ⟨k, stored, p, owner, ⟨⟨⟨named, isId⟩, isHash⟩, valid⟩, active⟩

end Database

end DecAustrum
