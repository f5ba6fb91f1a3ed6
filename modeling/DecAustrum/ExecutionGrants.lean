import DecAustrum.EvidenceStore.Authorizations
import DecAustrum.Python.Base64

/-!
# Execution grant tokens

The signed token of a grant: the payload as canonical JSON in URL-safe base64, and an HMAC over
the prefix and the payload. Reading a token undoes each layer and writes the payload again.
-/
namespace DecAustrum

open Python Base64

/-! ## Pieces of the interpreter -/

/-- `hmac.new(key, message, hashlib.sha256).digest()`: 32 bytes. -/
structure HmacSha256 where
  digest : Bytes → Bytes → Bytes
  size : ∀ key message, (digest key message).length = 32

/-- `text.split(separator)` with a separator of one character. -/
def split (separator : CodePoint) : Str → List Str
  | [] => [[]]
  | c :: rest =>
    if c = separator then [] :: split separator rest
    else match split separator rest with
      | [] => [[c]]
      | part :: parts => (c :: part) :: parts

def dot : CodePoint := 0x2e

/-- `text.encode("ascii")`; `none` is a `UnicodeEncodeError`. -/
def encodeAscii (text : Str) : Option Bytes :=
  if text.all fun c => c.val < 128 then some (text.map fun c => UInt8.ofNat c.val) else none

/-- An exception of the interpreter as one of the store. -/
def raising {α : Type} (exc : PyExc) (value : Option α) : Except StoreExc α :=
  (orRaise exc value).mapError .python

/-! ## The payload as a model -/

def ExecutionGrantPayload.dump (p : ExecutionGrantPayload) : Json :=
  .obj [("version", .int 1), ("grant_id", .str p.grantId.str), ("decision_id", .str p.decisionId.str),
    ("project_id", .str p.projectId.str), ("request_fingerprint", .str p.requestFingerprint.val),
    ("issued_at", dumpUtc p.issuedAt), ("expires_at", dumpUtc p.expiresAt)]

section Validation

variable (platform : Platform)

/-- `ExecutionGrantPayload.model_validate`. -/
def ExecutionGrantPayload.validate (v : Json) : Except PyExc ExecutionGrantPayload := do
  let issued ← raisingField "issued_at" none (readTimezone platform) v
  let expires ← raisingField "expires_at" none (readTimezone platform) v
  orRaise .validationError do
    defaultField "version" () readSchemaVersion v
    let grantId ← requiredField "grant_id" platform.readUuid v
    let decisionId ← requiredField "decision_id" platform.readUuid v
    let projectId ← requiredField "project_id" platform.readUuid v
    let requestFingerprint ← requiredField "request_fingerprint" readDigest v
    let issuedAt ← issued
    let expiresAt ← expires
    if expiry : issuedAt < expiresAt then
      return ⟨grantId, decisionId, projectId, requestFingerprint, issuedAt, expiresAt, expiry⟩
    else none

end Validation

/-! ## Tokens -/

def executionGrantPrefix : Str := "dag_exec_v1"

def shortSecret : Str := "Execution grant secret must contain at least 32 bytes."

/-- `_validate_secret`. -/
def validateSecret (secret : Str) : Except StoreExc Bytes := do
  let encoded ← raising .unicodeEncodeError (encodeUtf8 secret)
  if encoded.length < 32 then .error (.valueError shortSecret) else .ok encoded

/-- `_base64url_decode`. -/
def base64urlDecode (value : Str) : Except StoreExc Bytes :=
  if value = [] ∨ pad ∈ value then .error .invalidExecutionGrant
  else
    match encodeAscii value, b64decode (value ++ padding value) with
    | some _, some decoded => do
      let canonical ← (EvidenceStore.compareDigest (base64urlEncode decoded) value).mapError .python
      if canonical then .ok decoded else .error .invalidExecutionGrant
    | _, _ => .error .invalidExecutionGrant

section Tokens

variable (platform : Platform) (hmac : HmacSha256)

/-- `_payload_segment`. -/
def payloadSegment (payload : ExecutionGrantPayload) : Except StoreExc Str := do
  let canonical ← (canonicalJson platform payload.dump).mapError .python
  let data ← raising .unicodeEncodeError (encodeUtf8 canonical)
  return base64urlEncode data

/-- The signature of the prefix and a segment. -/
def sign (key : Bytes) (segment : Str) : Except StoreExc Bytes := do
  let signingInput ← raising .unicodeEncodeError
    (encodeAscii (executionGrantPrefix ++ dot :: segment))
  return hmac.digest key signingInput

/-- `build_execution_grant_token`. -/
def buildExecutionGrantToken (payload : ExecutionGrantPayload) (secret : Str) :
    Except StoreExc Str := do
  let key ← validateSecret secret
  let segment ← payloadSegment platform payload
  let signature ← sign hmac key segment
  return executionGrantPrefix ++ dot :: (segment ++ dot :: base64urlEncode signature)

/-- The payload in a segment. -/
def readSegment (segment : Str) : Except StoreExc ExecutionGrantPayload := do
  let data ← base64urlDecode segment
  match decodeUtf8 data with
  | none => .error .invalidExecutionGrant
  | some text =>
    match Json.loads platform.floats text with
    | .error .decode => .error .invalidExecutionGrant
    | .error .intDigits => .error (.python .valueError)
    | .ok raw =>
      match ExecutionGrantPayload.validate platform raw with
      | .error .validationError => .error .invalidExecutionGrant
      | .error exc => .error (.python exc)
      | .ok payload => .ok payload

/-- `parse_execution_grant_token`. -/
def parseExecutionGrantToken (token secret : Str) : Except StoreExc ExecutionGrantPayload := do
  let key ← validateSecret secret
  match split dot token with
  | [head, segment, signature] =>
    if head ≠ executionGrantPrefix then .error .invalidExecutionGrant
    else do
      let expected ← sign hmac key segment
      let actual ← base64urlDecode signature
      if expected ≠ actual then .error .invalidExecutionGrant
      else do
        let payload ← readSegment platform segment
        let canonical ← payloadSegment platform payload
        if canonical ≠ segment then .error .invalidExecutionGrant else .ok payload
  | _ => .error .invalidExecutionGrant

/-- `hash_execution_grant_token`. -/
def hashExecutionGrantToken (token : Str) : Except StoreExc Str :=
  (sha256Digest platform token).mapError .python

end Tokens

/-! ## Stored grants -/

/-- A row of `execution_grants` with the texts of its columns. -/
structure StoredGrant where
  grantId : Str
  decisionId : Str
  projectId : Str
  status : Str
  requestFingerprint : Str
  tokenHash : Str
  issuedAt : Str
  expiresAt : Str
  consumedAt : Option Str
  consumedBy : Option Str

/-- What `insert` binds. -/
def ExecutionGrantRecord.stored (g : ExecutionGrantRecord) : StoredGrant :=
  ⟨g.grantId.str, g.decisionId.str, g.projectId.str, g.status.text, g.requestFingerprint.val,
    g.tokenHash.val, g.issuedAt.val.isoformat, g.expiresAt.val.isoformat,
    g.consumedAt.map (·.val.isoformat), g.consumedBy.map (·.text)⟩

def readGrantStatus : Json → Option GrantStatus :=
  readLiteral [.active, .consumed, .expired] GrantStatus.text

/-- `T | None` of a column. -/
def readColumn {α : Type} (read : Json → Option α) : Option Str → Option (Option α)
  | none => some none
  | some text => (read (.str text)).map some

/-- A column with a datetime or null. -/
def timezoneColumn (platform : Platform) :
    Option Str → Except PyExc (Option (Option UtcDatetime))
  | none => .ok (some none)
  | some text => (readTimezone platform (.str text)).map fun read => read.map some

/-- `_row_to_grant`. -/
def StoredGrant.toGrant (platform : Platform) (row : StoredGrant) :
    Except PyExc ExecutionGrantRecord := do
  let issued ← readTimezone platform (.str row.issuedAt)
  let expires ← readTimezone platform (.str row.expiresAt)
  let consumed ← timezoneColumn platform row.consumedAt
  orRaise .validationError do
    let grantId ← platform.readUuid (.str row.grantId)
    let decisionId ← platform.readUuid (.str row.decisionId)
    let projectId ← platform.readUuid (.str row.projectId)
    let requestFingerprint ← Sha256Digest.validate row.requestFingerprint
    let issuedAt ← issued
    let expiresAt ← expires
    let status ← readGrantStatus (.str row.status)
    let tokenHash ← Sha256Digest.validate row.tokenHash
    let consumedAt ← consumed
    let consumedBy ← readColumn SearchText.validate row.consumedBy
    if expiry : issuedAt < expiresAt then
      if consumption : validGrantStatus status expiresAt consumedAt consumedBy = true then
        return { grantId, decisionId, projectId, requestFingerprint, issuedAt, expiresAt, expiry,
                 status, tokenHash, consumedAt, consumedBy, consumption }
      else none
    else none

end DecAustrum
