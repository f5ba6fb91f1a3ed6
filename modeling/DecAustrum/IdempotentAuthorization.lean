import DecAustrum.LifecycleRuns

/-!
# Idempotent authorization

A key of a project is stored at most once, with the decision it was used for. A call that finds the
key in use, at first or after its own save has failed, answers with that decision or with a
conflict, and has stored nothing.
-/
namespace DecAustrum

open Python Transaction Table
open Block (keeps_of_exec leaves_ret outside_of_opens ensures_of_exec)
open IdempotencyRepository (recordIs)

/-! ## The table of keys -/

/-- The decision stored for a key, with the context its row is read back with. It was made for
the request of the stored fingerprint. -/
structure StoredUnder (platform : Platform) (db : Database) (r : IdempotencyRecord)
    (authorization : AuthorizationResponse) : Prop where
  row : ∃ d ∈ db.ledger.decisions, d.decisionId = r.decisionId.str ∧
    d.projectId = r.projectId.str ∧ decisionRow platform authorization = .ok d ∧
    rowToAuthorization platform d = .ok authorization.stored
  fingerprint : immutableFingerprint platform authorization = .ok r.requestFingerprint

structure Keyed (platform : Platform) (db : Database) : Prop where
  decisions : UniqueKey (fun d => some d.decisionId) db.ledger.decisions
  keys : UniqueKey (fun r => some (r.projectId, r.idempotencyKey)) db.idempotency
  stored : ∀ r ∈ db.idempotency, ∃ authorization, StoredUnder platform db r authorization

/-- Decisions and keys are only added to. -/
structure Extended (s t : Database) : Prop where
  decisions : s.ledger.decisions <+: t.ledger.decisions
  records : s.idempotency <+: t.idempotency

theorem Extended.refl (s : Database) : Extended s s := ⟨List.prefix_refl _, List.prefix_refl _⟩

theorem Extended.trans (s t u : Database) (first : Extended s t) (second : Extended t u) :
    Extended s u :=
  ⟨first.decisions.trans second.decisions, first.records.trans second.records⟩

def Database.decided (db : Database) : List DecisionRow × List IdempotencyRecord :=
  (db.ledger.decisions, db.idempotency)

section

variable {platform : Platform} {s t : Database} {r : IdempotencyRecord}
variable {authorization : AuthorizationResponse} {minted : ExecutionGrantRecord → Prop}

theorem StoredUnder.mono (stored : StoredUnder platform s r authorization)
    (grown : s.ledger.decisions <+: t.ledger.decisions) : StoredUnder platform t r authorization := by
  obtain ⟨d, member, facts⟩ := stored.row
  exact ⟨⟨d, grown.mem member, facts⟩, stored.fingerprint⟩

/-- The row of the decision is the only one of its identifier. -/
theorem Keyed.unique (keyed : Keyed platform s) (stored : StoredUnder platform s r authorization)
    {d : DecisionRow} (member : d ∈ s.ledger.decisions) (its : d.decisionId = r.decisionId.str) :
    rowToAuthorization platform d = .ok authorization.stored := by
  obtain ⟨e, inTable, same, -, -, read⟩ := stored.row
  obtain rfl := keyed.decisions.eq member inTable rfl (by rw [same, its])
  exact read

theorem recordIs_iff {projectId : Uuid} {idempotencyKey : Str} :
    recordIs projectId idempotencyKey r = true ↔
      some (r.projectId, r.idempotencyKey) = some (projectId, idempotencyKey) := by
  simp [recordIs]

theorem Keyed.filter_eq (keyed : Keyed platform s) {projectId : Uuid} {idempotencyKey : Str}
    (member : r ∈ s.idempotency) (its : recordIs projectId idempotencyKey r = true) :
    s.idempotency.filter (recordIs projectId idempotencyKey) = [r] :=
  keyed.keys.filter_eq member (recordIs_iff.mp its) fun _ _ => recordIs_iff

theorem Keyed.of_same (same : t.decided = s.decided) (keyed : Keyed platform s) :
    Keyed platform t ∧ Extended s t := by
  simp only [Database.decided, Prod.mk.injEq] at same
  obtain ⟨decisions, records⟩ := same
  refine ⟨⟨?_, ?_, ?_⟩, ?_, ?_⟩
  · rw [decisions]
    exact keyed.decisions
  · rw [records]
    exact keyed.keys
  · rw [records]
    intro r member
    obtain ⟨authorization, stored⟩ := keyed.stored r member
    exact ⟨authorization, stored.mono (by rw [decisions])⟩
  · rw [decisions]
  · rw [records]

/-! ## A decision with its key -/

/-- What a decision adds. -/
structure Adds (platform : Platform) (authorization : AuthorizationResponse)
    (idempotencyRecord : Option IdempotencyRecord) (s t : Database) : Prop where
  decision : ∃ d, d.decisionId = authorization.decisionId.str ∧
    d.projectId = authorization.projectId.str ∧ decisionRow platform authorization = .ok d ∧
    rowToAuthorization platform d = .ok authorization.stored ∧
    (∀ e ∈ s.ledger.decisions, e.decisionId ≠ d.decisionId) ∧
    t.ledger.decisions = s.ledger.decisions ++ [d]
  records : t.idempotency = s.idempotency ++ idempotencyRecord.toList
  unused : ∀ r ∈ idempotencyRecord, ∀ other ∈ s.idempotency,
    recordIs r.projectId r.idempotencyKey other = false

theorem insertKeys_ok {idempotencyRecord : Option IdempotencyRecord} {draws rest : ℕ → Uuid}
    {u : Unit} (ran : (EvidenceStore.insertOptional IdempotencyRepository.insert
      idempotencyRecord).exec draws s = .ok (u, rest, t)) :
    t.ledger = s.ledger ∧ t.idempotency = s.idempotency ++ idempotencyRecord.toList ∧
      ∀ r ∈ idempotencyRecord, ∀ other ∈ s.idempotency,
        recordIs r.projectId r.idempotencyKey other = false := by
  cases idempotencyRecord with
  | none =>
    cases ran
    exact ⟨rfl, by simp, fun r none => by cases none⟩
  | some record =>
    rw [EvidenceStore.insertOptional, IdempotencyRepository.insert, exec_insertRow] at ran
    split at ran
    next accepted =>
      cases ran
      simp only [Bool.and_eq_true, Bool.not_eq_true', List.any_eq_false, Bool.or_eq_true, not_or,
        Bool.not_eq_true] at accepted
      refine ⟨rfl, rfl, ?_⟩
      rintro r ⟨⟩ other member
      exact (accepted.1 other member).1
    next => cases ran

theorem storeDecision_adds (lawful : platform.Lawful) {approval : Option ApprovalRecord}
    {idempotencyRecord : Option IdempotencyRecord} {draws rest : ℕ → Uuid} {u : Unit}
    (ran : (EvidenceStore.storeDecision platform authorization approval idempotencyRecord).exec draws
      s = .ok (u, rest, t)) : Adds platform authorization idempotencyRecord s t := by
  unfold EvidenceStore.storeDecision at ran
  rw [Block.exec_bind_eq_ok] at ran
  obtain ⟨proof, draws₁, db₁, recorded, ran⟩ := ran
  rw [Block.exec_bind_eq_ok] at ran
  obtain ⟨_, draws₂, db₂, inserted, keyed⟩ := ran
  -- the approval changes neither table
  obtain ⟨-, approved⟩ := insertApproval_ok inserted
  have leaves : (EvidenceStore.insertOptional ApprovalRepository.insert approval).Leaves
      Database.idempotency := by
    cases approval with
    | none => exact leaves_ret ()
    | some approval => exact ((LifecycleUnit.insertApproval approval).leaves fun _ _ => rfl).2
  have left : db₂.idempotency = db₁.idempotency := leaves _ _ _ _ _ inserted
  obtain ⟨ledger, saved, rfl⟩ := recordDecision_ok recorded
  obtain ⟨middle, decided, integrity⟩ := save_spec s.ledger ledger authorization proof saved
  obtain ⟨row, written, fresh, rfl⟩ := insertDecision_spec s.ledger middle authorization decided
  obtain ⟨built, stored⟩ := insertIntegrity_spec _ ledger authorization proof integrity
  obtain ⟨-, -, rfl⟩ := insertProof_spec _ ledger proof stored
  obtain ⟨same, records, unused⟩ := insertKeys_ok keyed
  have hashed := ((payloadHash_eq_ok platform authorization _).mp built.payload).2
  have read := rowToAuthorization_decisionRow lawful authorization row _ written hashed
  have ids : row.decisionId = authorization.decisionId.str ∧
      row.projectId = authorization.projectId.str := by
    obtain ⟨_, _, _, rfl, -⟩ := decisionRow_spec authorization row written
    exact ⟨rfl, rfl⟩
  refine ⟨⟨row, ids.1, ids.2, written, read, fresh, ?_⟩, ?_, ?_⟩
  · rw [same, approved]
  · rw [records, left]
  · rw [left] at unused
    exact unused

theorem Adds.mem (adds : Adds platform authorization (some r) s t) : r ∈ t.idempotency := by
  rw [adds.records]
  exact List.mem_append_right _ (List.mem_singleton_self r)

theorem Adds.storedUnder (adds : Adds platform authorization (some r) s t)
    (its : RecordedFor platform authorization r) : StoredUnder platform t r authorization := by
  obtain ⟨d, isId, isProject, written, read, -, decisions⟩ := adds.decision
  refine ⟨⟨d, ?_, ?_, ?_, written, read⟩, its.fingerprint⟩
  · rw [decisions]
    exact List.mem_append_right _ (List.mem_singleton_self d)
  · rw [isId, its.decisionId]
  · rw [isProject, its.projectId]

theorem Adds.keeps {idempotencyRecord : Option IdempotencyRecord}
    (adds : Adds platform authorization idempotencyRecord s t) (keyed : Keyed platform s)
    (recorded : ∀ r ∈ idempotencyRecord, RecordedFor platform authorization r) :
    Keyed platform t ∧ Extended s t := by
  obtain ⟨d, -, -, -, -, fresh, decisions⟩ := adds.decision
  have grown : s.ledger.decisions <+: t.ledger.decisions := by
    rw [decisions]
    exact List.prefix_append _ _
  refine ⟨⟨?_, ?_, ?_⟩, grown, ?_⟩
  · rw [decisions]
    refine (uniqueKey_append d).mpr ⟨keyed.decisions, ?_⟩
    rintro e member _ ⟨⟩ same
    exact fresh e member (Option.some.inj same)
  · rw [adds.records]
    cases idempotencyRecord with
    | none => simpa using keyed.keys
    | some record =>
      refine (uniqueKey_append record).mpr ⟨keyed.keys, ?_⟩
      rintro other member _ ⟨⟩ same
      have used := recordIs_iff.mpr same
      rw [adds.unused record rfl other member] at used
      cases used
  · rw [adds.records]
    intro r member
    rcases List.mem_append.mp member with old | new
    · obtain ⟨found, stored⟩ := keyed.stored r old
      exact ⟨found, stored.mono grown⟩
    · cases idempotencyRecord with
      | none => cases new
      | some record =>
        obtain rfl := List.mem_singleton.mp new
        exact ⟨authorization, adds.storedUnder (recorded r rfl)⟩
  · rw [adds.records]
    exact List.prefix_append _ _

/-! ## All units -/

theorem ServiceUnit.keeps_keys (lawful : platform.Lawful) {β : Type} {x : Body β}
    (unit : ServiceUnit platform (serviceScope platform minted) β x) :
    x.Keeps (Keyed platform) Extended := by
  have leaves {γ : Type} {y : Body γ} (left : y.Immediate ∧ y.Leaves Database.decided) :
      y.Keeps (Keyed platform) Extended := keeps_of_leaves (fun _ _ => Keyed.of_same) left
  cases unit with
  | policy unit =>
    apply leaves
    apply unit.leaves
    intro s t ledger _ idempotency
    rw [Database.decided, Database.decided, ledger, idempotency]
  | storeDecision authorization approval idempotencyRecord saved =>
    refine keeps_of_exec trivial fun draws s _ rest t keyed _ ran => ?_
    exact (storeDecision_adds lawful ran).keeps keyed saved.2
  | storeGrant =>
    apply leaves
    refine ⟨trivial, (leaves_insertLifecycle fun _ _ => rfl).bind fun _ => ?_⟩
    exact leaves_resolve _ _ _ _ _ fun _ _ => leaves_updateApprovals fun _ _ => rfl
  | resolve decisionId projectId status resolvedBy resolvedAt =>
    exact leaves ((LifecycleUnit.resolve ..).leaves fun _ _ => rfl)
  | expireApproval decisionId expiredAt =>
    exact leaves ((LifecycleUnit.expireApproval ..).leaves fun _ _ => rfl)
  | consumeGrant grantId projectId tokenHash consumedAt consumedBy =>
    exact leaves ((LifecycleUnit.consumeGrant ..).leaves fun _ _ => rfl)
  | expireGrant grantId projectId expiredAt =>
    exact leaves ((LifecycleUnit.expireGrant ..).leaves fun _ _ => rfl)

/-- The ledger is sound in every run of the services as well. -/
theorem ServiceUnit.keeps_ledger (lawful : platform.Lawful) {β : Type} {x : Body β}
    (unit : ServiceUnit platform (serviceScope platform minted) β x) :
    x.Keeps (LedgerSound platform True False) ChainsGrow := by
  have refl : ∀ s, ChainsGrow s s := fun s project => List.prefix_refl _
  have trans : ∀ s t u, ChainsGrow s t → ChainsGrow t u → ChainsGrow s u :=
    fun s t u first second project => (first project).trans (second project)
  have leaves {γ : Type} {y : Body γ} (left : y.Immediate ∧ y.Leaves Database.ledger) :
      y.Keeps (LedgerSound platform True False) ChainsGrow := by
    apply keeps_of_leaves _ left
    intro s t same sound
    refine ⟨⟨?_, ?_⟩, ?_⟩
    · rw [same]
      exact sound.historical
    · rw [same]
      exact sound.projects
    · intro project
      rw [same]
  cases unit with
  | policy unit => exact leaves (unit.leaves fun _ _ ledger _ _ => ledger)
  | storeDecision authorization approval idempotencyRecord saved =>
    unfold EvidenceStore.storeDecision
    apply Block.KeepsFrom.bind refl trans (recordDecision_keeps lawful True False authorization
      fun redumped => redumped.elim)
    intro _
    apply Block.KeepsFrom.bind refl trans
    · cases approval with
      | none => trivial
      | some approval => exact leaves ((LifecycleUnit.insertApproval approval).leaves fun _ _ => rfl)
    · intro _
      cases idempotencyRecord with
      | none => trivial
      | some record => exact leaves ⟨trivial, leaves_insertRow fun _ => rfl⟩
  | storeGrant =>
    apply leaves
    refine ⟨trivial, (leaves_insertLifecycle fun _ _ => rfl).bind fun _ => ?_⟩
    exact leaves_resolve _ _ _ _ _ fun _ _ => leaves_updateApprovals fun _ _ => rfl
  | resolve decisionId projectId status resolvedBy resolvedAt =>
    exact leaves ((LifecycleUnit.resolve ..).leaves fun _ _ => rfl)
  | expireApproval decisionId expiredAt =>
    exact leaves ((LifecycleUnit.expireApproval ..).leaves fun _ _ => rfl)
  | consumeGrant grantId projectId tokenHash consumedAt consumedBy =>
    exact leaves ((LifecycleUnit.consumeGrant ..).leaves fun _ _ => rfl)
  | expireGrant grantId projectId expiredAt =>
    exact leaves ((LifecycleUnit.expireGrant ..).leaves fun _ _ => rfl)

theorem keyed_empty : Keyed platform Database.empty :=
  ⟨List.nodup_nil, List.nodup_nil, fun r member => by cases member⟩

/-- A run of the body that saves a decision. -/
theorem saveAuthorizationBody_adds (lawful : platform.Lawful) {approval : Option ApprovalRecord}
    {idempotencyRecord : Option IdempotencyRecord} {draws rest : ℕ → Uuid} {u : Unit}
    (ran : (EvidenceStore.saveAuthorizationBody platform authorization approval
      idempotencyRecord).exec draws s = .ok (u, rest, t)) :
    Adds platform authorization idempotencyRecord s t := by
  rw [EvidenceStore.saveAuthorizationBody_eq, Block.exec_bind_eq_ok] at ran
  obtain ⟨_, draws₁, db₁, stored, published⟩ := ran
  have adds := storeDecision_adds lawful stored
  -- the events come after, and leave what was stored
  have left : (EvidenceStore.publishDecision platform authorization approval).Leaves
      Database.decided := by
    refine (PolicyBody.publishDecision platform authorization approval).leaves fun _ _ unit => ?_
    refine (unit.leaves fun s t ledger _ idempotency => ?_).2
    rw [Database.decided, Database.decided, ledger, idempotency]
  have same := left _ _ _ _ _ published
  simp only [Database.decided, Prod.mk.injEq] at same
  obtain ⟨decisions, records⟩ := same
  refine ⟨?_, ?_, adds.unused⟩
  · rw [decisions]
    exact adds.decision
  · rw [records]
    exact adds.records

end

/-! ## Calls with a key -/

section

variable {C ω : Type}

/-- The decision is stored under the key, for the request, and was just saved or is read back. -/
def StoredFor (platform : Platform) (request : AuthorizationRequest) (projectId : Uuid)
    (idempotencyKey : Str) (authorization : AuthorizationResponse) (history : List (Seen Database)) :
    Prop :=
  ∃ event ∈ history, ∃ r ∈ event.state.idempotency, recordIs projectId idempotencyKey r = true ∧
    buildRequestFingerprint platform request = .ok r.requestFingerprint ∧
    ∃ saved, StoredUnder platform event.state r saved ∧
      (authorization = saved ∨ authorization = saved.stored)

/-- The key is stored, for another request. -/
def TakenFor (platform : Platform) (request : AuthorizationRequest) (projectId : Uuid)
    (idempotencyKey : Str) (history : List (Seen Database)) : Prop :=
  ∃ event ∈ history, ∃ r ∈ event.state.idempotency, recordIs projectId idempotencyKey r = true ∧
    ∃ requestFingerprint, buildRequestFingerprint platform request = .ok requestFingerprint ∧
      r.requestFingerprint ≠ requestFingerprint

def Uncommitted (history : List (Seen Database)) : Prop := ∀ s t, Seen.commit s t ∉ history

/-- How a call with a key ends. -/
structure Answered (platform : Platform) (request : AuthorizationRequest) (projectId : Uuid)
    (idempotencyKey : Str) (result : Except StoreExc (DetailedAnswer AuthorizationResponse))
    (history : List (Seen Database)) : Prop where
  stored : ∀ authorization, result = .ok (.ok authorization) →
    StoredFor platform request projectId idempotencyKey authorization history
  taken : result = .ok (.error AuthorizationService.keyConflict) →
    TakenFor platform request projectId idempotencyKey history
  silent : (∀ authorization, result ≠ .ok (.ok authorization)) → Uncommitted history

/-- The call authorizes under the key. -/
def ServiceCall.hasKey (projectId : Uuid) (idempotencyKey : Str) : ServiceCall → Bool
  | .authorize _ (some key) project _ _ => project = projectId && key = idempotencyKey
  | _ => false

/-- A commit that puts a key to use. -/
structure Uses (projectId : Uuid) (idempotencyKey : Str) (s t : Database) : Prop where
  unused : ∀ r ∈ s.idempotency, recordIs projectId idempotencyKey r = false
  used : ∃ r ∈ t.idempotency, recordIs projectId idempotencyKey r = true

theorem Adds.uses {platform : Platform} {authorization : AuthorizationResponse}
    {r : IdempotencyRecord} {s t : Database} (adds : Adds platform authorization (some r) s t) :
    Uses r.projectId r.idempotencyKey s t :=
  ⟨adds.unused r rfl, r, adds.mem, by simp [recordIs]⟩

def authorizationContract (platform : Platform) (calls : C → ServiceCall) : Contract C Database where
  inv := Keyed platform
  rel := Extended
  refl := Extended.refl
  trans := Extended.trans
  allowed := anyOpening
  commits c _ s t := ∀ projectId idempotencyKey, (calls c).hasKey projectId idempotencyKey = true →
    Uses projectId idempotencyKey s t

variable {c : C} {calls : C → ServiceCall} {platform : Platform} {request : AuthorizationRequest}
variable {projectId : Uuid} {idempotencyKey requestFingerprint : Str}
variable {history : List (Seen Database)}

theorem Uncommitted.snoc (uncommitted : Uncommitted history) {event : Seen Database}
    (other : ∀ s t, event ≠ .commit s t) : Uncommitted (history ++ [event]) := by
  intro s t member
  rcases List.mem_append.mp member with old | new
  · exact uncommitted s t old
  · exact other s t (List.mem_singleton.mp new).symm

theorem Uncommitted.read (uncommitted : Uncommitted history) (s : Database) :
    Uncommitted (history ++ [.read s]) := uncommitted.snoc fun _ _ same => by cases same

/-- An answer that is neither a decision nor a conflict. -/
theorem Answered.other {result : Except StoreExc (DetailedAnswer AuthorizationResponse)}
    (unstored : ∀ authorization, result ≠ .ok (.ok authorization))
    (untaken : result ≠ .ok (.error AuthorizationService.keyConflict))
    (uncommitted : Uncommitted history) :
    Answered platform request projectId idempotencyKey result history :=
  ⟨fun a same => absurd same (unstored a), fun same => absurd same untaken, fun _ => uncommitted⟩

theorem Answered.raised {exc : StoreExc} (uncommitted : Uncommitted history) :
    Answered platform request projectId idempotencyKey (.error exc) history :=
  .other (fun _ same => by cases same) (fun same => by cases same) uncommitted

/-! ### The lookup -/

/-- A lookup reads, and what it finds is stored under the key. -/
theorem getIdempotentAuthorization_safe
    (built : buildRequestFingerprint platform request = .ok requestFingerprint)
    (uncommitted : Uncommitted history) :
    (AuthorizationService.getIdempotentAuthorization platform idempotencyKey requestFingerprint
      projectId : Service ω _).Safe (authorizationContract platform calls) c
      (fun result h => Uncommitted h ∧
        (∀ a, result = .ok (.ok (some a)) →
          StoredFor platform request projectId idempotencyKey a h) ∧
        ∀ refusal, result = .ok (.error refusal) → refusal = AuthorizationService.keyConflict ∧
          TakenFor platform request projectId idempotencyKey h) history := by
  unfold AuthorizationService.getIdempotentAuthorization
  apply Session.safe_query_bind
  intro s _ _
  cases found : s.idempotency.find? (recordIs projectId idempotencyKey) with
  | none =>
    refine ⟨uncommitted.read s, fun a same => (by cases same), fun refusal same => (by cases same)⟩
  | some existing =>
    have inTable := List.mem_of_find?_eq_some found
    have its := List.find?_some found
    dsimp only
    split
    next differs =>
      refine ⟨uncommitted.read s, fun a same => (by cases same), ?_⟩
      rintro refusal ⟨⟩
      exact ⟨rfl, .read s, by simp, existing, inTable, its, _, built, differs⟩
    next agrees =>
      rw [not_not] at agrees
      -- the decision is read from a later database, which has the key as well
      intro t keyed knows
      have extended : Extended s t := knows (.read s) (by simp)
      simp only [Block.bind]
      split
      · exact ⟨(uncommitted.read s).read t, fun a same => (by cases same),
          fun refusal same => by cases same⟩
      next d isRow =>
        have stored := List.mem_of_find?_eq_some isRow
        have ids := List.find?_some isRow
        simp only [Bool.and_eq_true, decide_eq_true_eq] at ids
        cases read : rowToAuthorization platform d with
        | error exc =>
          exact ⟨(uncommitted.read s).read t, fun a same => (by cases same),
            fun refusal same => by cases same⟩
        | ok authorization =>
          refine ⟨(uncommitted.read s).read t, ?_, fun refusal same => by cases same⟩
          rintro a ⟨⟩
          have inLater := extended.records.mem inTable
          obtain ⟨first, under⟩ := keyed.stored existing inLater
          have same := keyed.unique under stored ids.1
          rw [read] at same
          cases same
          exact ⟨.read t, by simp, existing, inLater, its, by rw [built, agrees], first, under,
            .inr rfl⟩

/-! ### The save -/

/-- The commit of a decision under its key. -/
theorem saveAuthorizationBody_outside (lawful : platform.Lawful)
    {authorization : AuthorizationResponse} {approval : Option ApprovalRecord}
    {idempotencyRecord : Option IdempotencyRecord} (uncommitted : Uncommitted history) :
    (EvidenceStore.saveAuthorizationBody platform authorization approval idempotencyRecord).Outside
      (authorizationContract platform calls) c (fun _ _ => False)
      (fun _ h s t => Adds platform authorization idempotencyRecord s t ∧ Uncommitted h)
      (fun _ h => Uncommitted h) history := by
  apply outside_of_opens
  · trivial
  · intro s _ _ _
    apply ensures_of_exec
    · exact fun draws _ rest t ran => ⟨saveAuthorizationBody_adds lawful ran, uncommitted⟩
    · exact fun _ _ _ => uncommitted.snoc fun _ _ same => by cases same

theorem saveDecision_safe (lawful : platform.Lawful) {ttlSeconds : Int} {evaluatedAt : UtcDatetime}
    (isCall : calls c = .authorize request (some idempotencyKey) projectId ttlSeconds evaluatedAt)
    (built : buildRequestFingerprint platform request = .ok requestFingerprint)
    {authorization : AuthorizationResponse} {approval : Option ApprovalRecord}
    (isProject : authorization.projectId = projectId)
    (fingerprint : immutableFingerprint platform authorization = .ok requestFingerprint)
    (isMatch : Matches authorization approval) (uncommitted : Uncommitted history) :
    (AuthorizationService.saveDecision platform (some (idempotencyKey, requestFingerprint))
      authorization approval : Service ω _).Safe (authorizationContract platform calls) c
      (Answered platform request projectId idempotencyKey) history := by
  subst isProject
  unfold AuthorizationService.saveDecision EvidenceStore.saveAuthorizationWithApproval
  rw [Session.safe_attempt_bind]
  have lost (exc : StoreExc) (h : List (Seen Database)) (quiet : Uncommitted h) :
      (if exc = integrityError then AuthorizationService.replay platform authorization.projectId
          (some (idempotencyKey, requestFingerprint))
        else .raise exc : Service ω _).Safe (authorizationContract platform calls) c
        (Answered platform request authorization.projectId idempotencyKey) h := by
    split
    · -- the key is looked up once more
      refine (Session.safe_bind _ _ _).mpr ((getIdempotentAuthorization_safe built quiet).mono ?_)
      rintro (exc | refusal | _ | found) later ⟨reads, stored, taken⟩
      · exact .raised reads
      · obtain ⟨rfl, conflict⟩ := taken refusal rfl
        exact ⟨fun a same => (by cases same), fun _ => conflict, fun _ => reads⟩
      · exact .raised reads
      · refine ⟨?_, fun same => (by cases same), fun none => absurd rfl (none found)⟩
        rintro a ⟨⟩
        exact stored found rfl
    · exact .raised quiet
  split
  · exact lost _ _ uncommitted
  · have its : RecordedFor platform authorization ⟨authorization.projectId, idempotencyKey,
        requestFingerprint, authorization.decisionId, authorization.evaluatedAt⟩ :=
      ⟨rfl, rfl, fingerprint⟩
    have body : ServiceBody platform (serviceScope platform fun _ => True) _ _ :=
      ServiceBody.saveAuthorization platform authorization approval (some _)
        ⟨isMatch, by rintro r ⟨⟩; exact its⟩
    refine Session.safe_within_bind ?_ (saveAuthorizationBody_outside lawful uncommitted) ?_ ?_ lost
    · exact body.keeps Extended.refl Extended.trans fun _ _ unit => unit.keeps_keys lawful
    · exact fun _ _ impossible => impossible.elim
    · intro _ h s t ⟨adds, quiet⟩
      constructor
      · intro project key isKey
        simp only [isCall, ServiceCall.hasKey, Bool.and_eq_true, decide_eq_true_eq] at isKey
        obtain ⟨rfl, rfl⟩ := isKey
        exact adds.uses
      · refine ⟨?_, fun same => (by cases same), fun none => absurd rfl (none authorization)⟩
        rintro a ⟨⟩
        exact ⟨.commit s t, by simp, _, adds.mem, by simp [recordIs], built, authorization,
          adds.storedUnder its, .inl rfl⟩

/-! ### The call -/

theorem evaluateAndSave_safe (lawful : platform.Lawful) {ttlSeconds : Int}
    {evaluatedAt : UtcDatetime}
    (isCall : calls c = .authorize request (some idempotencyKey) projectId ttlSeconds evaluatedAt)
    (built : buildRequestFingerprint platform request = .ok requestFingerprint)
    (uncommitted : Uncommitted history) :
    (AuthorizationService.evaluateAndSave platform request
      (some (idempotencyKey, requestFingerprint)) projectId ttlSeconds evaluatedAt :
      Service ω _).Safe (authorizationContract platform calls) c
      (Answered platform request projectId idempotencyKey) history := by
  unfold AuthorizationService.evaluateAndSave
  apply Session.safe_query_bind
  intro s _ _
  cases evaluatePolicy request.action.text request.context (s.activePolicies projectId) with
  | error error =>
    refine .other (fun _ same => by cases same) ?_ (uncommitted.read s)
    -- a context that cannot be evaluated is no conflict
    cases error <;> simp [AuthorizationService.contextRefusal, AuthorizationService.keyConflict]
  | ok evaluation =>
    intro decisionId
    apply Session.safe_check_bind
    · intro approval made
      apply saveDecision_safe lawful isCall built
      · rfl
      · rw [ServiceCall.immutableFingerprint_authorizationOf]
        exact built
      · exact ServiceCall.matches_approvalOf (mapError_eq_ok.mp made)
      · exact uncommitted.read s
    · exact fun exc _ => .raised (uncommitted.read s)

theorem authorizeRequest_safe (lawful : platform.Lawful) {ttlSeconds : Int}
    {evaluatedAt : UtcDatetime}
    (isCall : calls c = .authorize request (some idempotencyKey) projectId ttlSeconds evaluatedAt) :
    (AuthorizationService.authorizeRequest platform request (some idempotencyKey) projectId ttlSeconds
      evaluatedAt : Service ω _).Safe (authorizationContract platform calls) c
      (Answered platform request projectId idempotencyKey) [] := by
  have uncommitted : Uncommitted [] := fun _ _ member => by cases member
  apply Session.safe_check_bind
  · intro requestFingerprint checked
    have built := mapError_eq_ok.mp checked
    refine (Session.safe_bind _ _ _).mpr
      ((getIdempotentAuthorization_safe built uncommitted).mono ?_)
    rintro (exc | refusal | _ | found) h ⟨reads, stored, taken⟩
    · exact .raised reads
    · obtain ⟨rfl, conflict⟩ := taken refusal rfl
      exact ⟨fun a same => (by cases same), fun _ => conflict, fun _ => reads⟩
    · exact evaluateAndSave_safe lawful isCall built reads
    · refine ⟨?_, fun same => (by cases same), fun none => absurd rfl (none found)⟩
      rintro a ⟨⟩
      exact stored found rfl
  · exact fun exc _ => .raised uncommitted

/-- How a call ends, if it authorizes under a key. -/
def AnsweredCall (platform : Platform) (call : ServiceCall) (result : Except StoreExc ServiceAnswer)
    (history : List (Seen Database)) : Prop :=
  ∀ request idempotencyKey projectId ttlSeconds evaluatedAt,
    call = .authorize request (some idempotencyKey) projectId ttlSeconds evaluatedAt →
    ∃ inner, result = inner.map .authorized ∧
      Answered platform request projectId idempotencyKey inner history

theorem ServiceCall.safe_authorization (lawful : platform.Lawful) (hmac : HmacSha256) (c : C) :
    ((calls c).session platform hmac).Safe (authorizationContract platform calls) c
      (AnsweredCall platform (calls c)) [] := by
  by_cases keyed : ∃ request idempotencyKey projectId ttlSeconds evaluatedAt,
      calls c = .authorize request (some idempotencyKey) projectId ttlSeconds evaluatedAt
  · obtain ⟨request, idempotencyKey, projectId, ttlSeconds, evaluatedAt, isCall⟩ := keyed
    rw [isCall]
    refine (Session.safe_map _ _).mpr ((authorizeRequest_safe lawful isCall).mono ?_)
    rintro result h answered _ _ _ _ _ ⟨⟩
    exact ⟨result, rfl, answered⟩
  · have other (projectId : Uuid) (idempotencyKey : Str) :
        (calls c).hasKey projectId idempotencyKey = false := by
      unfold ServiceCall.hasKey
      split
      next isCall => exact absurd ⟨_, _, _, _, _, isCall⟩ keyed
      next => rfl
    refine (Session.safe_of_keeps ?_ ?_ []).mono ?_
    · refine ((calls c).bodies platform hmac fun _ _ _ _ => trivial).mono fun β body composed => ?_
      exact composed.keeps Extended.refl Extended.trans fun _ _ unit => unit.keeps_keys lawful
    · intro h s t projectId idempotencyKey isKey
      rw [other] at isKey
      cases isKey
    · exact fun _ _ _ _ _ _ _ _ isCall => absurd ⟨_, _, _, _, _, isCall⟩ keyed

end

/-! ## Runs -/

/-- The key is stored once, for the request, with one decision, its record in the ledger and the
approval it requires; the answer is that decision, as it was saved or as its row is read. -/
def AnswersFor (platform : Platform) (db : Database) (request : AuthorizationRequest)
    (projectId : Uuid) (idempotencyKey : Str) (authorization : AuthorizationResponse) : Prop :=
  ∃ r d saved, db.idempotency.filter (recordIs projectId idempotencyKey) = [r] ∧
    buildRequestFingerprint platform request = .ok r.requestFingerprint ∧
    immutableFingerprint platform saved = .ok r.requestFingerprint ∧
    db.ledger.decisions.filter (fun e => e.decisionId = r.decisionId.str) = [d] ∧
    decisionRow platform saved = .ok d ∧
    (authorization = saved ∨ rowToAuthorization platform d = .ok authorization) ∧
    d.projectId = projectId.str ∧
    (db.ledger.integrity.filter (Ledger.matchRow d)).length = 1 ∧
    (db.approvalsOf r.decisionId).length = if authorization.decision = .requireApproval then 1 else 0

section

variable {C : Type} {platform : Platform} {request : AuthorizationRequest} {projectId : Uuid}
variable {idempotencyKey : Str} {authorization : AuthorizationResponse}

/-- What a call has seen stored under its key is what is stored now. -/
theorem StoredFor.answers {db : Database} {history : List (Seen Database)}
    (found : StoredFor platform request projectId idempotencyKey authorization history)
    (knows : ∀ event ∈ history, Extended event.state db) (keyed : Keyed platform db)
    (lifecycles : Lifecycles db) (sound : LedgerSound platform True False db) :
    AnswersFor platform db request projectId idempotencyKey authorization := by
  obtain ⟨event, seen, r, member, its, built, saved, stored, answer⟩ := found
  have extended := knows event seen
  have inTable := extended.records.mem member
  have now := stored.mono extended.decisions
  obtain ⟨d, inLedger, isId, isProject, written, read⟩ := now.row
  have project : d.projectId = projectId.str := by
    simp only [recordIs, Bool.and_eq_true, decide_eq_true_eq] at its
    rw [isProject, its.1]
  have answered : authorization = saved ∨ rowToAuthorization platform d = .ok authorization := by
    rcases answer with same | same
    · exact .inl same
    · exact .inr (by rw [same, read])
  refine ⟨r, d, saved, keyed.filter_eq inTable its, built, now.fingerprint, ?_, written, answered,
    project, ?_, ?_⟩
  · refine keyed.decisions.filter_eq inLedger rfl fun e _ => ?_
    rw [decide_eq_true_eq, Option.some.injEq, isId]
  · obtain ⟨history, historical, -⟩ := sound.historical
    apply (historical.chained projectId).recorded
    exact List.mem_filter.mpr ⟨inLedger, decide_eq_true project⟩
  · have decided : authorization.decision = saved.decision := by
      rcases answer with rfl | rfl
      · rfl
      · rfl
    have decision : d.decision = authorization.decision.text := by
      rw [decided]
      exact (rowToAuthorization_texts d saved.stored read).decision
    split
    next required =>
      apply lifecycles.approvalsOf_length
      exact ⟨d, inLedger, isId, by rw [decision, required]⟩
    next unrequired =>
      rw [List.length_eq_zero_iff]
      apply lifecycles.approvalsOf_eq_nil
      rintro ⟨e, inTable, same, requires⟩
      -- the decision of that identifier is this one
      obtain rfl := keyed.decisions.eq inTable inLedger rfl (by rw [isId, same])
      rw [decision] at requires
      have read := readDecision_text authorization.decision
      rw [requires, readDecision_text, Option.some.injEq] at read
      exact unrequired read.symm

variable [DecidableEq C] {hmac : HmacSha256} {calls : C → ServiceCall}
variable {w : World C Database Uuid Bool StoreExc ServiceAnswer}

theorem lifecycles_reachable
    (reachable : Reachable anyOpening Database.empty (fun c => (calls c).session platform hmac) w) :
    Lifecycles w.committed := by
  have sound := (lifecycleContract (C := C)).sound Database.empty lifecycles_empty
    (fun c => (calls c).session platform hmac)
    (fun c => safe_lifecycles ((calls c).bodies platform hmac fun _ _ _ _ => trivial) c) w reachable
  exact sound.inv

theorem ledgerSound_reachable (lawful : platform.Lawful)
    (reachable : Reachable anyOpening Database.empty (fun c => (calls c).session platform hmac) w) :
    LedgerSound platform True False w.committed := by
  have refl : ∀ s, ChainsGrow s s := fun s project => List.prefix_refl _
  have trans : ∀ s t u, ChainsGrow s t → ChainsGrow t u → ChainsGrow s u :=
    fun s t u first second project => (first project).trans (second project)
  have empty : LedgerSound platform True False Database.empty := by
    refine ⟨⟨fun _ => [], ⟨fun project => ⟨.nil, rfl, fun e member => by cases member⟩, ?_, ?_⟩,
      fun redumped => redumped.elim⟩, ?_⟩
    · exact fun project d member => by cases member
    · exact ⟨List.nodup_nil, List.nodup_nil, List.nodup_nil, List.nodup_nil⟩
    · exact fun _ d member => by cases member
  refine (invariant_reachable refl trans anyOpening (fun _ _ => True) (fun _ _ _ _ => trivial)
    Database.empty empty (fun c => (calls c).session platform hmac) (fun c => ?_) w reachable).1
  refine ((calls c).bodies platform hmac fun _ _ _ _ => trivial).mono fun β body composed => ?_
  exact composed.keeps refl trans fun _ _ unit => unit.keeps_ledger lawful

/-- Of the calls that authorize under one key of a project, in any run of concurrent calls from an
empty database, one at most commits anything. Each that answers with a decision answers with the
one decision stored under the key, for the same request; a conflict means that the key is stored for
another request; and a call that does not answer with a decision has committed nothing. -/
theorem idempotent_authorization (platform : Platform) (lawful : platform.Lawful) (hmac : HmacSha256)
    (calls : C → ServiceCall) (w : World C Database Uuid Bool StoreExc ServiceAnswer)
    (reachable : Reachable anyOpening Database.empty (fun c => (calls c).session platform hmac) w)
    (projectId : Uuid) (idempotencyKey : Str) :
    (w.committed.idempotency.filter (recordIs projectId idempotencyKey)).length ≤ 1 ∧
    (w.log.filter fun entry => (calls entry.client).hasKey projectId idempotencyKey).length ≤ 1 ∧
    ∀ c request ttlSeconds evaluatedAt,
      calls c = .authorize request (some idempotencyKey) projectId ttlSeconds evaluatedAt →
      (∀ authorization, w.session c = some (.ret (.authorized (.ok authorization))) →
        AnswersFor platform w.committed request projectId idempotencyKey authorization) ∧
      (w.session c = some (.ret (.authorized (.error AuthorizationService.keyConflict))) →
        ∃ r requestFingerprint,
          w.committed.idempotency.filter (recordIs projectId idempotencyKey) = [r] ∧
          buildRequestFingerprint platform request = .ok requestFingerprint ∧
          r.requestFingerprint ≠ requestFingerprint) ∧
      (∀ refusal, w.session c = some (.ret (.authorized (.error refusal))) →
        ∀ entry ∈ w.log, entry.client ≠ c) ∧
      ∀ exc, w.session c = some (.raise exc) → ∀ entry ∈ w.log, entry.client ≠ c := by
  have holds := (authorizationContract platform calls).sound Database.empty keyed_empty
    (fun c => (calls c).session platform hmac)
    (fun c => ServiceCall.safe_authorization lawful hmac c) w reachable
  have keyed : Keyed platform w.committed := holds.inv
  have silent (c : C) {result : Except StoreExc (DetailedAnswer AuthorizationResponse)}
      {request : AuthorizationRequest}
      (answered : Answered platform request projectId idempotencyKey result (w.history c))
      (undecided : ∀ authorization, result ≠ .ok (.ok authorization)) :
      ∀ entry ∈ w.log, entry.client ≠ c := by
    rintro entry inLog rfl
    obtain ⟨later, history⟩ := holds.remembered entry inLog
    refine answered.silent undecided entry.before entry.after ?_
    rw [history]
    simp
  refine ⟨?_, ?_, fun c request ttlSeconds evaluatedAt isCall => ⟨?_, ?_, ?_, ?_⟩⟩
  · cases found : w.committed.idempotency.filter (recordIs projectId idempotencyKey) with
    | nil => exact Nat.zero_le 1
    | cons r rest =>
      have member : r ∈ w.committed.idempotency.filter (recordIs projectId idempotencyKey) := by
        simp [found]
      obtain ⟨inTable, its⟩ := List.mem_filter.mp member
      rw [← found, keyed.filter_eq inTable its]
      exact Nat.le_refl 1
  · have step : ∀ entry ∈ w.log, Extended entry.before entry.after :=
      fun entry member => (holds.entries entry member).1
    have uses (entry : Commit C Database) (inLog : entry ∈ w.log)
        (its : (calls entry.client).hasKey projectId idempotencyKey = true) :
        Uses projectId idempotencyKey entry.before entry.after :=
      (holds.entries entry inLog).2.2.2.2.2 projectId idempotencyKey its
    apply holds.linked.filter_length_le_one Extended.refl Extended.trans step
    intro first inFirst second inSecond isFirst isSecond later
    -- the commit that comes second would find the key in use
    obtain ⟨r, stored, its⟩ := (uses first inFirst isFirst).used
    have unused := (uses second inSecond isSecond).unused r (later.records.mem stored)
    rw [its] at unused
    cases unused
  · intro authorization ended
    obtain ⟨inner, same, answered⟩ := holds.returned c _ ended request idempotencyKey projectId
      ttlSeconds evaluatedAt isCall
    rcases inner with exc | answer
    · cases same
    · cases same
      exact (answered.stored authorization rfl).answers (holds.knows c) keyed
        (lifecycles_reachable reachable) (ledgerSound_reachable lawful reachable)
  · intro ended
    obtain ⟨inner, same, answered⟩ := holds.returned c _ ended request idempotencyKey projectId
      ttlSeconds evaluatedAt isCall
    rcases inner with exc | answer
    · cases same
    · cases same
      obtain ⟨event, seen, r, member, its, fingerprint, built, differs⟩ := answered.taken rfl
      have extended : Extended event.state w.committed := holds.knows c event seen
      exact ⟨r, fingerprint, keyed.filter_eq (extended.records.mem member) its, built, differs⟩
  · intro refusal ended
    obtain ⟨inner, same, answered⟩ := holds.returned c _ ended request idempotencyKey projectId
      ttlSeconds evaluatedAt isCall
    apply silent c answered
    rintro authorization rfl
    cases same
  · intro exc ended
    obtain ⟨inner, same, answered⟩ := holds.raised c exc ended request idempotencyKey projectId
      ttlSeconds evaluatedAt isCall
    apply silent c answered
    rintro authorization rfl
    cases same

end

/-! ## Two calls race under one key, and one comes later with another request -/

def retryPlatform : Platform :=
  referencePlatform fun data => List.replicate 64 (if data.length % 5 = 0 then 0x61 else 0x62)

def sampleRetryKey : Str := [0x6B]

inductive RetryClient where
  | first
  | second
  | other
  deriving DecidableEq

def sampleRetries : RetryClient → ServiceCall
  | .first => .authorize sampleNestedRequest (some sampleRetryKey) ⟨1⟩ 3600 (sampleTime 1)
  | .second => .authorize sampleNestedRequest (some sampleRetryKey) ⟨1⟩ 3600 (sampleTime 2)
  | .other => .authorize plainRequest (some sampleRetryKey) ⟨1⟩ 3600 (sampleTime 2)

/-- The second call looks the key up before the first saves, and goes on after. -/
def sampleRetryOrder : List RetryClient :=
  List.replicate 4 .first ++ List.replicate 4 .second ++ List.replicate 18 .first ++
    List.replicate 18 .second ++ List.replicate 4 .other

def sampleRetryTurns : List (Turn RetryClient Uuid Bool) :=
  sampleRetryOrder.zipIdx.map fun p => ⟨p.1, ⟨Fin.ofNat _ (p.2 + 16)⟩, true⟩

def sampleRetryRun : World RetryClient Database Uuid Bool StoreExc ServiceAnswer :=
  (World.start Database.empty fun c => (sampleRetries c).session retryPlatform sampleHmac).play
    sampleRetryTurns

/-- The decision a call has answered with, or the code of its refusal. -/
def answeredIn (w : World RetryClient Database Uuid Bool StoreExc ServiceAnswer) (c : RetryClient) :
    Option (Uuid ⊕ Str) :=
  match w.session c with
  | some (.ret (.authorized (.ok authorization))) => some (.inl authorization.decisionId)
  | some (.ret (.authorized (.error refusal))) => some (.inr refusal.code)
  | _ => none

theorem answeredIn_eq {w : World RetryClient Database Uuid Bool StoreExc ServiceAnswer} {c : RetryClient} :
    (∀ id, answeredIn w c = some (.inl id) → ∃ authorization,
      w.session c = some (.ret (.authorized (.ok authorization))) ∧
      authorization.decisionId = id) ∧
    ∀ code, answeredIn w c = some (.inr code) → ∃ refusal,
      w.session c = some (.ret (.authorized (.error refusal))) := by
  unfold answeredIn
  split
  next authorization found =>
    refine ⟨?_, fun code same => by cases same⟩
    rintro id ⟨⟩
    exact ⟨authorization, found, rfl⟩
  next refusal found => exact ⟨fun id same => (by cases same), fun code _ => ⟨refusal, found⟩⟩
  next => exact ⟨fun id same => (by cases same), fun code same => by cases same⟩

theorem sampleRetryRun_ends :
    answeredIn sampleRetryRun .second = some (.inl ⟨24⟩) ∧
      answeredIn sampleRetryRun .other = some (.inr "idempotency_key_conflict") := by
  decide +kernel

/-- The second call answers with the decision of the first, and the third has stored nothing. -/
theorem idempotent_authorization_sample :
    (∃ authorization, authorization.decisionId = ⟨24⟩ ∧
      AnswersFor retryPlatform sampleRetryRun.committed sampleNestedRequest ⟨1⟩ sampleRetryKey
        authorization) ∧
      ∀ entry ∈ sampleRetryRun.log, entry.client ≠ .other := by
  obtain ⟨authorization, ended, its⟩ := answeredIn_eq.1 _ sampleRetryRun_ends.1
  obtain ⟨refusal, refused⟩ := answeredIn_eq.2 _ sampleRetryRun_ends.2
  have all := idempotent_authorization retryPlatform (referencePlatform_lawful _) sampleHmac
    sampleRetries sampleRetryRun (play_reachable _ _ _) ⟨1⟩ sampleRetryKey
  exact ⟨⟨authorization, its, (all.2.2 .second _ _ _ rfl).1 authorization ended⟩,
    (all.2.2 .other _ _ _ rfl).2.2.1 refusal refused⟩

end DecAustrum
