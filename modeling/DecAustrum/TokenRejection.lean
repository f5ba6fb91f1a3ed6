import DecAustrum.Services.ExecutionGrants
import DecAustrum.Storage.GrantReads
import DecAustrum.TamperEvidence
import DecAustrum.TokenCodec

/-!
# Rejection of foreign tokens

Whatever is wrong with a token, nothing is written, and the answer is the same unless what the
service computes on its way to the stored grant raises.
-/
namespace DecAustrum

open Python Base64 Transaction ExecutionGrantService

/-! ## Tokens without a signature -/

section

variable {platform : Platform} {hmac : HmacSha256} {secret token : Str}

/-- The last part of a token is the HMAC of the others under the secret. -/
def CarriesSignature (hmac : HmacSha256) (secret token : Str) : Prop :=
  ∃ key segment signature expected, validateSecret secret = .ok key ∧
    split dot token = [executionGrantPrefix, segment, signature] ∧
      sign hmac key segment = .ok expected ∧ base64urlDecode signature = .ok expected

/-- The row is a stored grant, the token is built from it, and its hash is the stored one. -/
def TokenOf (platform : Platform) (hmac : HmacSha256) (secret : Str)
    (row : GrantRow Uuid UtcDatetime) (token : Str) : Prop :=
  ∃ grant, rowToGrant row = .ok grant ∧
    buildExecutionGrantToken platform hmac grant.toExecutionGrantPayload secret = .ok token ∧
      hashExecutionGrantToken platform token = .ok grant.tokenHash.val

theorem raising_eq_error {α : Type} {exc : PyExc} {value : Option α} {raised : StoreExc}
    (failed : raising exc value = .error raised) : raised = .python exc := by
  cases value with
  | none =>
    cases failed
    rfl
  | some a => cases failed

theorem validateSecret_unreadable {exc : StoreExc} (failed : validateSecret secret = .error exc) :
    unreadable exc = true := by
  rw [validateSecret] at failed
  cases encoded : raising .unicodeEncodeError (encodeUtf8 secret) with
  | error raised =>
    rw [encoded] at failed
    cases failed
    rw [raising_eq_error encoded]
    rfl
  | ok bytes =>
    rw [encoded] at failed
    change (if bytes.length < 32 then _ else _) = _ at failed
    split at failed
    · cases failed
      rfl
    · cases failed

theorem sign_unreadable {key : Bytes} {segment : Str} {exc : StoreExc}
    (failed : sign hmac key segment = .error exc) : unreadable exc = true := by
  rw [sign] at failed
  cases encoded : raising .unicodeEncodeError
      (encodeAscii (executionGrantPrefix ++ dot :: segment)) with
  | error raised =>
    rw [encoded] at failed
    cases failed
    rw [raising_eq_error encoded]
    rfl
  | ok bytes =>
    rw [encoded] at failed
    cases failed

/-- The comparison of the two texts cannot raise: a text that decodes is ASCII. -/
theorem base64urlDecode_invalid {value : Str} {exc : StoreExc}
    (failed : base64urlDecode value = .error exc) : exc = .invalidExecutionGrant := by
  unfold base64urlDecode at failed
  split at failed
  · cases failed
    rfl
  split at failed
  next bytes decoded ascii _ =>
    rw [compareDigest_ascii (base64urlEncode_ascii _) (isAscii_of_encodeAscii ascii)] at failed
    change (if decide (base64urlEncode decoded = value) = true then _ else _) = _ at failed
    split at failed
    · cases failed
    · cases failed
      rfl
  next =>
    cases failed
    rfl

theorem parse_unsigned (unsigned : ¬ CarriesSignature hmac secret token) :
    ∃ exc, parseExecutionGrantToken platform hmac token secret = .error exc ∧
      unreadable exc = true := by
  rw [parseExecutionGrantToken]
  cases validated : validateSecret secret with
  | error exc => exact ⟨exc, rfl, validateSecret_unreadable validated⟩
  | ok key =>
    simp only [bind, Except.bind]
    split
    next head segment signature parts =>
      by_cases known : head = executionGrantPrefix
      · subst known
        rw [if_neg (not_not.mpr rfl)]
        cases signed : sign hmac key segment with
        | error exc => exact ⟨exc, rfl, sign_unreadable signed⟩
        | ok expected =>
          cases decoded : base64urlDecode signature with
          | error exc =>
            refine ⟨exc, rfl, ?_⟩
            rw [base64urlDecode_invalid decoded]
            rfl
          | ok actual =>
            have different : expected ≠ actual := by
              rintro rfl
              exact unsigned ⟨key, segment, signature, expected, validated, parts, signed, decoded⟩
            exact ⟨.invalidExecutionGrant, if_pos different, rfl⟩
      · exact ⟨.invalidExecutionGrant, if_pos known, rfl⟩
    next => exact ⟨.invalidExecutionGrant, rfl, rfl⟩

end

/-! ## Foreign tokens -/

section

variable {ω : Type} {platform : Platform} {hmac : HmacSha256} {secret : Str}

theorem hash_presented (token : PresentedToken) :
    ∃ data, hashExecutionGrantToken platform token.text = .ok (platform.sha256 data) := by
  have scalar : ¬ (token.text.any isSurrogate) = true := by simp [token.encodable]
  refine ⟨token.text.flatMap encodeCodePoint, ?_⟩
  rw [hashExecutionGrantToken, sha256Digest, encodeUtf8, if_neg scalar]
  rfl

/-- A token that does not read is refused before the database is reached. -/
theorem refused_unreadable {request : ExecutionGrantConsumptionRequest} {exc : StoreExc}
    (failed : parseExecutionGrantToken platform hmac request.executionGrant.text secret =
      .error exc) (known : unreadable exc = true) (projectId : Uuid) (consumedAt : UtcDatetime) :
    (consumeExecutionGrantRequest platform hmac request projectId secret consumedAt :
      Service ω _) = refuse invalidGrant := by
  rw [consumeExecutionGrantRequest, failed]
  exact if_pos known

/-- So is a token of another project. -/
theorem refused_elsewhere {request : ExecutionGrantConsumptionRequest}
    {payload : ExecutionGrantPayload}
    (parsed : parseExecutionGrantToken platform hmac request.executionGrant.text secret =
      .ok payload) {projectId : Uuid} (elsewhere : payload.projectId ≠ projectId)
    (consumedAt : UtcDatetime) :
    (consumeExecutionGrantRequest platform hmac request projectId secret consumedAt :
      Service ω _) = refuse invalidGrant := by
  rw [consumeExecutionGrantRequest, parsed]
  exact if_pos elsewhere

end

/-! ## Tokens of no stored grant -/

section

variable {ω : Type} {platform : Platform} {hmac : HmacSha256} {secret : Str}

theorem digest_ascii {hash : Str} (digest : isSha256Digest hash = true) : IsAscii hash := by
  simp only [isSha256Digest, Bool.and_eq_true, List.all_eq_true, Bool.or_eq_true,
    decide_eq_true_eq] at digest
  intro c member
  rcases digest.2 c member with digit | ⟨-, high⟩
  · simp only [isDigit, Bool.and_eq_true, decide_eq_true_eq] at digit
    omega
  · omega

theorem payload_eq {p q : ExecutionGrantPayload} (grantId : p.grantId = q.grantId)
    (decisionId : p.decisionId = q.decisionId) (projectId : p.projectId = q.projectId)
    (requestFingerprint : p.requestFingerprint = q.requestFingerprint)
    (issuedAt : p.issuedAt = q.issuedAt) (expiresAt : p.expiresAt = q.expiresAt) : p = q := by
  cases p
  cases q
  simp_all

/-- A grant with the hash of the token and the values of its payload is the grant of the token. -/
theorem presentedGrant_foreign {row : GrantRow Uuid UtcDatetime} {grant : ExecutionGrantRecord}
    {token tokenHash : Str} {payload : ExecutionGrantPayload} (read : rowToGrant row = .ok grant)
    (identified : grant.grantId = payload.grantId)
    (built : buildExecutionGrantToken platform hmac payload secret = .ok token)
    (hashed : hashExecutionGrantToken platform token = .ok tokenHash)
    (ascii : IsAscii tokenHash) (foreign : ¬ TokenOf platform hmac secret row token)
    (requestFingerprint : Str) :
    EvidenceStore.presentedGrant payload tokenHash requestFingerprint (some grant) =
      .error .invalidExecutionGrant := by
  rw [EvidenceStore.presentedGrant,
    compareDigest_ascii (digest_ascii grant.tokenHash.property) ascii]
  by_cases same : grant.tokenHash.val = tokenHash
  · have different : grant.decisionId ≠ payload.decisionId ∨ grant.projectId ≠ payload.projectId ∨
        grant.issuedAt ≠ payload.issuedAt ∨ grant.expiresAt ≠ payload.expiresAt ∨
          grant.requestFingerprint ≠ payload.requestFingerprint := by
      by_contra equal
      simp only [not_or, not_not] at equal
      obtain ⟨decision, project, issued, expires, fingerprint⟩ := equal
      have payloads : grant.toExecutionGrantPayload = payload :=
        payload_eq identified decision project fingerprint issued expires
      refine foreign ⟨grant, read, ?_, ?_⟩
      · rw [payloads]
        exact built
      · rw [same]
        exact hashed
    simp only [same, decide_true, Except.mapError, bind, Except.bind, different]
    rfl
  · simp only [same, decide_false, Except.mapError, bind, Except.bind]
    rfl

/-- The token is of no stored grant of the project. -/
def Unstored (platform : Platform) (hmac : HmacSha256) (secret : Str) (db : Database)
    (projectId : Uuid) (token : Str) : Prop :=
  ∀ row ∈ db.lifecycle.grants, row.projectId = projectId → ¬ TokenOf platform hmac secret row token

/-- The stored grant that the payload names can be read. -/
def GrantReads (db : Database) (grantId projectId : Uuid) : Prop :=
  ∀ row ∈ db.lifecycle.grants.find? (ExecutionGrantRepository.grantIs grantId projectId),
    ∃ grant, rowToGrant row = .ok grant

/-- The body of the consumption raises before it writes. -/
theorem consumeBody_foreign {db : Database} {payload : ExecutionGrantPayload} {projectId : Uuid}
    {token tokenHash : Str} (unstored : Unstored platform hmac secret db projectId token)
    (built : buildExecutionGrantToken platform hmac payload secret = .ok token)
    (hashed : hashExecutionGrantToken platform token = .ok tokenHash) (ascii : IsAscii tokenHash)
    (requestFingerprint : Str) (consumedAt : UtcDatetime) (consumedBy : Str)
    (context : AuditContext) (draws : ℕ → Uuid) :
    ∃ exc, (EvidenceStore.consumeBody platform payload projectId tokenHash requestFingerprint
        consumedAt consumedBy context).exec draws db = .error exc ∧
      (refusal exc = some invalidGrant ↔ GrantReads db payload.grantId projectId) := by
  rw [EvidenceStore.consumeBody, Block.exec_bind, ExecutionGrantRepository.getWithConnection,
    ExecutionGrantRepository.getRow, exec_query_bind]
  unfold GrantReads
  cases found : db.lifecycle.grants.find?
      (ExecutionGrantRepository.grantIs payload.grantId projectId) with
  | none => exact ⟨.invalidExecutionGrant, rfl, by simp [refusal]⟩
  | some row =>
    have inside := List.mem_of_find?_eq_some found
    have selected := List.find?_some found
    simp only [ExecutionGrantRepository.grantIs, Bool.and_eq_true, decide_eq_true_eq] at selected
    cases read : rowToGrant row with
    | error raised =>
      refine ⟨.python raised, ?_, by simp [refusal, read]⟩
      simp only [read]
      rfl
    | ok grant =>
      have identified : grant.grantId = payload.grantId := by
        have shown := (readsGrant_of_rowToGrant read).grantId
        rw [selected.1, Option.some.injEq] at shown
        exact shown.symm
      have refused := presentedGrant_foreign read identified built hashed ascii
        (unstored row inside selected.2) requestFingerprint
      refine ⟨.invalidExecutionGrant, ?_, by simp [refusal, read]⟩
      simp only [read, ofPython, Except.mapError, Block.check, Block.ret_bind, Block.pure_eq,
        Block.exec_ret, refused, Block.raise_bind, Block.exec_raise]

theorem consumePresented_foreign (digests : platform.HexDigests)
    {request : ExecutionGrantConsumptionRequest} {db : Database}
    {payload : ExecutionGrantPayload} {projectId : Uuid}
    (built : buildExecutionGrantToken platform hmac payload secret =
      .ok request.executionGrant.text)
    (unstored : Unstored platform hmac secret db projectId request.executionGrant.text)
    (same : payload.projectId = projectId) (requestFingerprint : Str) (consumedAt : UtcDatetime)
    (draws : ℕ → ℕ → Uuid) (answers : ℕ → ω) :
    ∃ answer, (consumePresented platform request projectId payload requestFingerprint consumedAt).run
        draws answers db = (answer, db) ∧
      (answer = .ok (.error invalidGrant) ↔ GrantReads db payload.grantId projectId) := by
  obtain ⟨data, hashed⟩ := @hash_presented platform request.executionGrant
  obtain ⟨exc, raised, reads⟩ := consumeBody_foreign unstored built hashed
    (digest_ascii (digests data)) requestFingerprint consumedAt request.consumedBy.text
    ⟨.project, request.consumedBy, some "Approved action execution consumed."⟩ (draws 0)
  rw [consumePresented, hashed, Session.run_check_bind]
  simp only [EvidenceStore.consumeExecutionGrant, same, ne_eq, not_true_eq_false, if_false]
  rw [Session.attempt_bind, bind_assoc, Session.run_attempt_within_bind, raised]
  rw [← reads]
  dsimp only [Session.attempt]
  cases refused : refusal exc with
  | none =>
    refine ⟨.error exc, ?_, by simp⟩
    simp [refused]
  | some http =>
    refine ⟨.ok (.error http), ?_, by simp⟩
    simp only [Session.ret_bind, refused]
    rfl

theorem fingerprint_ascii (digests : platform.HexDigests) {request : AuthorizationRequest}
    {hash : Str} (done : buildRequestFingerprint platform request = .ok hash) : IsAscii hash := by
  obtain ⟨v, -, hashed⟩ := (bind_eq_ok request.dump (digest platform) hash).mp done
  obtain ⟨-, bytes, -, rfl⟩ := (digest_eq_ok_iff platform v hash).mp hashed
  exact digest_ascii (digests bytes)

theorem immutable_ascii (digests : platform.HexDigests) {a : AuthorizationResponse} {hash : Str}
    (done : immutableFingerprint platform a = .ok hash) : IsAscii hash := by
  obtain ⟨request, -, done⟩ := (bind_eq_ok _ _ hash).mp done
  exact fingerprint_ascii digests done

/-- What is compared once the decision is found can be computed. -/
structure Comparable (platform : Platform) (request : ExecutionGrantConsumptionRequest)
    (payload : ExecutionGrantPayload) (db : Database) (a : AuthorizationResponse) : Prop where
  immutable : ∃ hash, immutableFingerprint platform a = .ok hash
  presented : immutableFingerprint platform a = .ok payload.requestFingerprint.val →
    (∃ hash, buildRequestFingerprint platform request.authorization = .ok hash) ∧
      GrantReads db payload.grantId payload.projectId

theorem consumeBound_foreign (digests : platform.HexDigests)
    {request : ExecutionGrantConsumptionRequest} {db : Database}
    {payload : ExecutionGrantPayload}
    (built : buildExecutionGrantToken platform hmac payload secret =
      .ok request.executionGrant.text)
    (unstored : Unstored platform hmac secret db payload.projectId request.executionGrant.text)
    (consumedAt : UtcDatetime) (a : AuthorizationResponse) (draws : ℕ → ℕ → Uuid)
    (answers : ℕ → ω) :
    ∃ answer, (consumeBound platform request payload.projectId payload consumedAt a).run draws
        answers db = (answer, db) ∧
      (answer = .ok (.error invalidGrant) ↔ Comparable platform request payload db a) := by
  rw [consumeBound]
  cases bound : immutableFingerprint platform a with
  | error exc =>
    refine ⟨.error (.python exc), rfl, ?_⟩
    simp only [reduceCtorEq, false_iff]
    rintro ⟨⟨hash, computed⟩, -⟩
    rw [bound] at computed
    cases computed
  | ok immutable =>
    have compared : EvidenceStore.compareDigest immutable payload.requestFingerprint.val = _ :=
      compareDigest_ascii (immutable_ascii digests bound)
        (digest_ascii payload.requestFingerprint.property)
    rw [Except.mapError, Session.run_check_bind]
    dsimp only
    rw [compared, Except.mapError, Session.run_check_bind]
    by_cases agrees : immutable = payload.requestFingerprint.val
    · subst agrees
      simp only [decide_true, if_true]
      cases presented : buildRequestFingerprint platform request.authorization with
      | error exc =>
        refine ⟨.error (.python exc), rfl, ?_⟩
        simp only [reduceCtorEq, false_iff]
        intro comparable
        obtain ⟨⟨hash, computed⟩, -⟩ := comparable.presented bound
        rw [presented] at computed
        cases computed
      | ok fingerprint =>
        rw [Except.mapError, Session.run_check_bind]
        obtain ⟨answer, ran, reads⟩ := consumePresented_foreign digests built unstored rfl
          fingerprint consumedAt draws answers
        refine ⟨answer, ran, reads.trans ⟨fun grant => ⟨⟨_, bound⟩, fun _ => ⟨⟨_, presented⟩, grant⟩⟩,
          fun comparable => (comparable.presented bound).2⟩⟩
    · simp only [agrees, decide_false, Bool.false_eq_true, if_false]
      refine ⟨.ok (.error invalidGrant), rfl, ?_⟩
      simp only [true_iff]
      refine ⟨⟨_, bound⟩, fun same => ?_⟩
      rw [bound, Except.ok.injEq] at same
      exact absurd same agrees

/-- Nothing raises on the way from the token to the answer: the decision it names in the project
can be read, and so can what is compared with it. -/
def Answerable (platform : Platform) (hmac : HmacSha256) (secret : Str)
    (request : ExecutionGrantConsumptionRequest) (projectId : Uuid) (db : Database) : Prop :=
  ∀ payload, parseExecutionGrantToken platform hmac request.executionGrant.text secret =
      .ok payload → payload.projectId = projectId →
    ∀ row ∈ db.ledger.decisions.find? fun row =>
        row.decisionId = payload.decisionId.str && row.projectId = projectId.str,
      ∃ a, rowToAuthorization platform row = .ok a ∧ Comparable platform request payload db a

/-- A token that reads and is of no stored grant. -/
theorem readToken_foreign (digests : platform.HexDigests)
    (request : ExecutionGrantConsumptionRequest) (projectId : Uuid) (consumedAt : UtcDatetime)
    (db : Database) {payload : ExecutionGrantPayload}
    (parsed : parseExecutionGrantToken platform hmac request.executionGrant.text secret =
      .ok payload)
    (unstored : Unstored platform hmac secret db projectId request.executionGrant.text)
    (draws : ℕ → ℕ → Uuid) (answers : ℕ → ω) :
    ∃ answer, (consumeExecutionGrantRequest platform hmac request projectId secret consumedAt).run
        draws answers db = (answer, db) ∧
      (answer = .ok (.error invalidGrant) ↔
        Answerable platform hmac secret request projectId db) := by
  have only (other : ExecutionGrantPayload) (its : parseExecutionGrantToken platform hmac
      request.executionGrant.text secret = .ok other) : other = payload := by
    rw [parsed, Except.ok.injEq] at its
    exact its.symm
  by_cases elsewhere : payload.projectId = projectId
  swap
  · rw [refused_elsewhere parsed elsewhere]
    refine ⟨.ok (.error invalidGrant), rfl, iff_of_true rfl fun other its same => ?_⟩
    rw [only other its] at same
    exact absurd same elsewhere
  subst elsewhere
  rw [consumeExecutionGrantRequest, parsed]
  simp only [ne_eq, not_true_eq_false, if_false]
  rw [Session.run_within, AuthorizationDecisionRepository.getWithConnection, exec_query_bind]
  cases found : db.ledger.decisions.find? fun row =>
      row.decisionId = payload.decisionId.str && row.projectId = payload.projectId.str with
  | none =>
    refine ⟨.ok (.error invalidGrant), rfl, iff_of_true rfl fun other its _ row named => ?_⟩
    rw [only other its, found] at named
    cases named
  | some row =>
    cases read : rowToAuthorization platform row with
    | error exc =>
      refine ⟨.error (.python exc), ?_, ?_⟩
      · simp only [read]
        rfl
      · simp only [reduceCtorEq, false_iff]
        intro answerable
        obtain ⟨a, rebuilt, -⟩ := answerable payload parsed rfl row found
        rw [read] at rebuilt
        cases rebuilt
    | ok a =>
      simp only [read, ofPython, Except.mapError, Block.check, Block.ret_bind, Block.pure_eq,
        Block.exec_ret]
      obtain ⟨answer, ran, comparable⟩ := consumeBound_foreign digests (build_of_parse parsed)
        unstored consumedAt a (fun n => draws (n + 1)) answers
      refine ⟨answer, ran, comparable.trans ⟨fun its other same _ named isNamed => ?_, fun its => ?_⟩⟩
      · rw [only other same, found, Option.mem_some] at isNamed
        subst isNamed
        exact ⟨a, read, only other same ▸ its⟩
      · obtain ⟨b, rebuilt, its⟩ := its payload parsed rfl row found
        rw [read, Except.ok.injEq] at rebuilt
        exact rebuilt ▸ its

/-- A string that is not the token of a grant of the project leaves the tables as they are, and it
is refused as every other one if and only if nothing raises on the way. A string with a valid
signature was built by the server. -/
theorem foreign_token_rejected_iff (lawful : platform.Lawful) (digests : platform.HexDigests)
    (request : ExecutionGrantConsumptionRequest) (projectId : Uuid) (consumedAt : UtcDatetime)
    (db : Database)
    (unforged : CarriesSignature hmac secret request.executionGrant.text → ∃ payload,
      buildExecutionGrantToken platform hmac payload secret = .ok request.executionGrant.text)
    (foreign : ∀ row ∈ db.lifecycle.grants, row.projectId = projectId →
      ¬ TokenOf platform hmac secret row request.executionGrant.text)
    (draws : ℕ → ℕ → Uuid) (answers : ℕ → ω) :
    ∃ answer, (consumeExecutionGrantRequest platform hmac request projectId secret consumedAt).run
        draws answers db = (answer, db) ∧
      (answer = .ok (.error invalidGrant) ↔
        Answerable platform hmac secret request projectId db) := by
  by_cases signed : CarriesSignature hmac secret request.executionGrant.text
  · obtain ⟨payload, built⟩ := unforged signed
    obtain ⟨key, segment, signature, validated, -⟩ := build_eq_ok.mp built
    obtain ⟨token, built', parsed⟩ := parse_build lawful validated payload
    rw [built, Except.ok.injEq] at built'
    subst built'
    exact readToken_foreign digests request projectId consumedAt db parsed foreign draws answers
  · obtain ⟨exc, failed, known⟩ := @parse_unsigned platform hmac _ _ signed
    rw [refused_unreadable failed known]
    refine ⟨.ok (.error invalidGrant), rfl, iff_of_true rfl fun payload parsed => ?_⟩
    rw [failed] at parsed
    cases parsed

end

/-! ## A token of no stored grant -/

def tokenPlatform : Platform := referencePlatform fun _ => List.replicate 64 0x61

@[irreducible] def sampleTokenText : Str :=
  match buildExecutionGrantToken tokenPlatform sampleHmac samplePayload sampleSecret with
  | .ok token => token
  | .error _ => []

def sampleToken : PresentedToken := ⟨sampleTokenText, by decide +kernel, by decide +kernel⟩

def sampleConsumption : ExecutionGrantConsumptionRequest :=
  ⟨sampleToken, plainRequest.agent, plainRequest.action, plainRequest.context,
    ⟨"worker", by decide, by decide, by decide⟩⟩

/-- The fingerprint SHA-256 gives the request of the stored decision. -/
def payFingerprint : Str := "7fde3ced9798eb83e1ba0fa86422c156869105b53d2fa3d2f9cdf5d570f68720"

theorem payFingerprint_digest : isSha256Digest payFingerprint = true := by decide +kernel

def orphanPayload : ExecutionGrantPayload :=
  ⟨⟨7⟩, samplePay.decisionId, sampleProject, ⟨payFingerprint, payFingerprint_digest⟩,
    sampleIssuedAt, sampleExpiresAt, sampleIssued_lt_expires⟩

/-- The signature of the payload under the sample secret. -/
def orphanHmac : HmacSha256 where
  digest _ _ := [187, 102, 255, 127, 46, 74, 146, 153, 111, 177, 174, 33, 154, 240, 226, 209, 219,
    162, 192, 30, 4, 122, 223, 80, 177, 212, 115, 152, 152, 144, 143, 7]
  size _ _ := rfl

@[irreducible] def orphanTokenText : Str :=
  match buildExecutionGrantToken tokenPlatform orphanHmac orphanPayload sampleSecret with
  | .ok token => token
  | .error _ => []

def orphanTokenHash : Str := "a86424f1ee0d0a0d6fc3ecaf3b24ae5cc66c0f56132a59c66c6b00543105c1d4"

def payRequest : AuthorizationRequest :=
  ⟨⟨"billing", by decide, by decide, by decide⟩, samplePayAction, sampleEmptyContext⟩

def orphanTable : List (Bytes × Str) :=
  [(canonicalBytes payRequest.dumped, payFingerprint),
    (orphanTokenText.flatMap encodeCodePoint, orphanTokenHash)]

def orphanPlatform : Platform := referencePlatform (hexSha256 orphanTable)

theorem orphanPlatform_digests : orphanPlatform.HexDigests :=
  hexSha256_hex orphanTable (by decide +kernel)

theorem orphanTokenText_parsed :
    parseExecutionGrantToken orphanPlatform orphanHmac orphanTokenText sampleSecret =
      .ok orphanPayload := by
  have encoded : encodeUtf8 sampleSecret = some (List.replicate 32 0x6b) := by decide
  have validated : validateSecret sampleSecret = .ok (List.replicate 32 0x6b) := by
    simp only [validateSecret, raising_eq_ok.mpr encoded, bind, Except.bind]
    exact if_neg (show ¬ (List.replicate 32 (0x6b : UInt8)).length < 32 by decide)
  obtain ⟨token, built, parsed⟩ :=
    @parse_build orphanPlatform (referencePlatform_lawful _) orphanHmac _ _ validated orphanPayload
  -- no part of a token is hashed with SHA-256
  have elsewhere : buildExecutionGrantToken tokenPlatform orphanHmac orphanPayload sampleSecret =
      .ok token := built
  have same : orphanTokenText = token := by
    unfold orphanTokenText
    rw [elsewhere]
  rw [same]
  exact parsed

def orphanToken : PresentedToken := ⟨orphanTokenText, by decide +kernel, by decide +kernel⟩

def orphanConsumption : ExecutionGrantConsumptionRequest :=
  ⟨orphanToken, payRequest.agent, payRequest.action, payRequest.context,
    ⟨"worker", by decide, by decide, by decide⟩⟩

/-- A grant of the same identifier, issued with another token. -/
def otherGrant : ExecutionGrantRecord :=
  { orphanPayload with
    status := .active
    tokenHash := sampleDigest
    consumedAt := none
    consumedBy := none
    consumption := rfl }

def otherGrantDatabase : Database :=
  { Database.empty with
    ledger := ⟨[samplePayRow], [samplePayIntegrity]⟩
    lifecycle := ⟨[], [otherGrant.row]⟩ }

theorem samplePayRow_bound : (rowToAuthorization orphanPlatform samplePayRow >>=
    immutableFingerprint orphanPlatform) = .ok payFingerprint := by decide +kernel

theorem otherGrant_foreign :
    ¬ TokenOf orphanPlatform orphanHmac sampleSecret otherGrant.row orphanTokenText := by
  rintro ⟨grant, read, -, hashed⟩
  rw [rowToGrant_row, Except.ok.injEq] at read
  subst read
  have its : hashExecutionGrantToken orphanPlatform orphanTokenText = .ok orphanTokenHash := by
    decide +kernel
  rw [its, Except.ok.injEq] at hashed
  exact absurd hashed (by decide +kernel)

/-- The token is signed, its decision is found, the fingerprints agree, and the stored hash is
another one. -/
theorem foreign_token_rejected_sample :
    (consumeExecutionGrantRequest orphanPlatform orphanHmac orphanConsumption sampleProject
        sampleSecret sampleIssuedAt).run (fun _ _ => ⟨0⟩) (fun _ => ()) otherGrantDatabase =
      (.ok (.error invalidGrant), otherGrantDatabase) := by
  have foreign : ∀ row ∈ otherGrantDatabase.lifecycle.grants, row.projectId = sampleProject →
      ¬ TokenOf orphanPlatform orphanHmac sampleSecret row orphanTokenText := by
    intro row inside _
    obtain rfl := List.mem_singleton.mp inside
    exact otherGrant_foreign
  have answerable : Answerable orphanPlatform orphanHmac sampleSecret orphanConsumption sampleProject
      otherGrantDatabase := by
    intro payload parsed same row named
    obtain rfl : payload = orphanPayload :=
      Except.ok.inj (parsed.symm.trans orphanTokenText_parsed)
    obtain rfl := List.mem_singleton.mp (List.mem_of_find?_eq_some named)
    obtain ⟨a, read, bound⟩ := (bind_eq_ok _ _ _).mp samplePayRow_bound
    refine ⟨a, read, ⟨_, bound⟩, fun _ => ⟨⟨payFingerprint, by decide +kernel⟩, fun row named => ?_⟩⟩
    obtain rfl := List.mem_singleton.mp (List.mem_of_find?_eq_some named)
    exact ⟨otherGrant, rowToGrant_row otherGrant⟩
  obtain ⟨answer, ran, answered⟩ := foreign_token_rejected_iff (referencePlatform_lawful _)
    orphanPlatform_digests orphanConsumption sampleProject sampleIssuedAt otherGrantDatabase
    (fun _ => ⟨orphanPayload, build_of_parse orphanTokenText_parsed⟩) foreign (fun _ _ => ⟨0⟩)
    (fun _ => ())
  rw [answered.mpr answerable] at ran
  exact ran

/-- The same token for a request that cannot be encoded, and no grant at all. -/
def surrogateConsumption : ExecutionGrantConsumptionRequest :=
  { orphanConsumption with context := surrogateRequest.context }

def orphanDatabase : Database :=
  { Database.empty with ledger := ⟨[samplePayRow], [samplePayIntegrity]⟩ }

theorem surrogate_token_raises :
    buildExecutionGrantToken orphanPlatform orphanHmac orphanPayload sampleSecret =
        .ok surrogateConsumption.executionGrant.text ∧
      orphanDatabase.lifecycle.grants = [] ∧
      (consumeExecutionGrantRequest orphanPlatform orphanHmac surrogateConsumption sampleProject
          sampleSecret sampleIssuedAt).run (fun _ _ => ⟨0⟩) (fun _ => ()) orphanDatabase ≠
        (.ok (.error invalidGrant), orphanDatabase) := by
  refine ⟨build_of_parse orphanTokenText_parsed, rfl, fun refused => ?_⟩
  obtain ⟨answer, ran, answered⟩ := readToken_foreign orphanPlatform_digests surrogateConsumption
    sampleProject sampleIssuedAt orphanDatabase orphanTokenText_parsed (fun row inside _ => nomatch inside)
    (fun _ _ => ⟨0⟩) (fun _ => ())
  rw [refused, Prod.mk.injEq] at ran
  obtain ⟨a, read, comparable⟩ := answered.mp ran.1.symm orphanPayload orphanTokenText_parsed rfl
    samplePayRow (by decide +kernel)
  have bound := samplePayRow_bound
  rw [read] at bound
  obtain ⟨hash, computed⟩ := (comparable.presented bound).1
  have raises : buildRequestFingerprint orphanPlatform surrogateConsumption.authorization =
      .error .unicodeEncodeError := by decide +kernel
  rw [raises] at computed
  cases computed

end DecAustrum
