import DecAustrum.LifecycleRuns
import DecAustrum.Storage.GrantReads
import DecAustrum.Transaction.Preserves

/-!
# Consumption of grants

A grant is consumed once: the commit that consumes it finds it active, and no later commit does.
What the service checked of the presented token and request before the transaction still holds
when the transaction opens, since grants and decisions keep what was checked.
-/
namespace DecAustrum

open Python Transaction Table
open Block (Preserves Ensures preserves_ret preserves_query preserves_fresh preserves_check
  preserves_statement ensures_bind outside_of_opens)

/-! ## What a call does -/

/-- A commit that consumes the grant `g` for a token. -/
structure Consumes (payload : ExecutionGrantPayload) (tokenHash requestFingerprint : Str)
    (consumedAt : UtcDatetime) (s t : Database) (consumed : ExecutionGrantRecord)
    (g : GrantRow Uuid UtcDatetime) : Prop where
  stored : g ∈ s.lifecycle.grants
  active : g.status = .active
  decisionId : g.decisionId = payload.decisionId
  tokenHash : g.tokenHash = tokenHash
  bound : g.requestFingerprint = payload.requestFingerprint.val
  presented : g.requestFingerprint = requestFingerprint
  unexpired : consumedAt < g.expiresAt
  spent : ∃ h ∈ t.lifecycle.grants, Later g h ∧ h.status = .consumed ∧ rowToGrant h = .ok consumed

def expirationFailed : StoreExc := .runtimeError "Execution grant expiration failed."

/-- Why a call of the store consumes nothing. The last reason is that another call has spent the
grant since this one read it, and that its time is over. -/
inductive Refused (payload : ExecutionGrantPayload) (consumedAt : UtcDatetime)
    (history : List (Seen Database)) : StoreExc → Prop
  | invalid : Refused payload consumedAt history .invalidExecutionGrant
  | mismatch : Refused payload consumedAt history (.executionGrantMismatch payload.grantId)
  | alreadyConsumed :
      Refused payload consumedAt history (.executionGrantAlreadyConsumed payload.grantId)
  | expired : Refused payload consumedAt history (.executionGrantExpired payload.grantId)
  | python (exc : PyExc) : Refused payload consumedAt history (.python exc)
  | overtaken (r s : Database) (g h : GrantRow Uuid UtcDatetime) (read : .read r ∈ history)
      (tried : .rollback s ∈ history) (inRead : g ∈ r.lifecycle.grants)
      (isGrant : g.grantId = some payload.grantId) (active : g.status = .active)
      (elapsed : g.expiresAt ≤ consumedAt) (inTried : h ∈ s.lifecycle.grants) (later : Later g h)
      (spent : h.status ≠ .active) : Refused payload consumedAt history expirationFailed

/-! ## Statements on grants -/

section

variable {draws rest : ℕ → Uuid} {s t : Database}

theorem getRow_ok {hit : GrantRow Uuid UtcDatetime → Bool} {found : Option ExecutionGrantRecord}
    (ran : (ExecutionGrantRepository.getRow hit).exec draws s = .ok (found, rest, t)) :
    t = s ∧ (found = none → ∀ row ∈ s.lifecycle.grants, hit row = false) ∧
      ∀ grant ∈ found, ∃ row ∈ s.lifecycle.grants, hit row = true ∧ rowToGrant row = .ok grant := by
  have leaves : (ExecutionGrantRepository.getRow hit).Leaves id := leaves_getGrant hit
  have same : t = s := leaves _ _ _ _ _ ran
  refine ⟨same, ?_⟩
  unfold ExecutionGrantRepository.getRow at ran
  rw [exec_query_bind] at ran
  cases row : s.lifecycle.grants.find? hit with
  | none =>
    rw [row] at ran
    cases ran
    refine ⟨fun _ g member => ?_, fun grant isFound => by cases isFound⟩
    simpa using List.find?_eq_none.mp row g member
  | some row' =>
    rw [row] at ran
    dsimp only at ran
    rw [Block.exec_bind_eq_ok] at ran
    obtain ⟨read, _, _, checked, returned⟩ := ran
    obtain ⟨isRead, -, -⟩ := ofPython_ok checked
    cases returned
    refine ⟨fun missing => (by cases missing), fun grant isFound => ?_⟩
    cases isFound
    exact ⟨row', List.mem_of_find?_eq_some row, List.find?_some row, isRead⟩

/-- An exception of Python or of SQLite. -/
def FromPython (exc : StoreExc) : Prop := ∃ e, exc = .python e

theorem ofPython_fromPython {α : Type} (x : Except PyExc α) :
    (ofPython x).Preserves (fun _ => True) FromPython := by
  refine preserves_check fun exc raised => ?_
  cases x with
  | ok a => cases raised
  | error e =>
    cases raised
    exact ⟨e, rfl⟩

theorem getRow_fromPython (hit : GrantRow Uuid UtcDatetime → Bool) :
    (ExecutionGrantRepository.getRow hit).Preserves (fun _ => True) FromPython := by
  refine Preserves.bind (preserves_query _) fun row => ?_
  cases row with
  | none => exact preserves_ret _
  | some row => exact Preserves.bind (ofPython_fromPython _) fun grant => preserves_ret _

theorem updateGrants_fromPython (hit : GrantRow Uuid UtcDatetime → Bool)
    (update : GrantRow Uuid UtcDatetime → GrantRow Uuid UtcDatetime) :
    (Block.statement fun db => db.updateGrants hit update : Body Nat).Preserves (fun _ => True)
      FromPython := by
  refine preserves_statement (fun _ _ _ _ _ => trivial) fun s exc _ raised => ?_
  unfold Database.updateGrants updateGuarded at raised
  split at raised
  · cases raised
  · cases raised
    exact ⟨_, rfl⟩

theorem insertRow_fromPython (accepted : Database → Bool) (insert : Database → Database) :
    (insertRow accepted insert).Preserves (fun _ => True) FromPython := by
  refine preserves_statement (fun _ _ _ _ _ => trivial) fun s exc _ raised => ?_
  split at raised
  · cases raised
  · cases raised
    exact ⟨_, rfl⟩

theorem insertDeliveries_fromPython (event : WebhookEvent)
    (subscriptions : List WebhookSubscription) :
    (WebhookRepository.insertDeliveries event subscriptions).Preserves (fun _ => True)
      FromPython := by
  induction subscriptions with
  | nil => exact preserves_ret _
  | cons subscription rest ih =>
    unfold WebhookRepository.insertDeliveries
    split
    · apply Preserves.bind preserves_fresh
      intro deliveryId
      apply Preserves.bind (insertRow_fromPython _ _)
      exact fun _ => Preserves.bind ih fun later => preserves_ret _
    · exact ih

theorem insertEvent_fromPython (platform : Platform) (event : WebhookEvent) :
    (WebhookRepository.insertEventWithDeliveries platform event).Preserves (fun _ => True)
      FromPython := by
  unfold WebhookRepository.insertEventWithDeliveries
  apply Preserves.bind (ofPython_fromPython _)
  intro payload
  apply Preserves.bind (insertRow_fromPython _ _)
  intro _
  exact Preserves.bind (preserves_query _) fun subscriptions => insertDeliveries_fromPython _ _

theorem enqueueWebhookEvent_fromPython (platform : Platform) (event : WebhookEvent) :
    (enqueueWebhookEvent platform event).Preserves (fun _ => True) FromPython := by
  unfold enqueueWebhookEvent
  apply Preserves.bind (preserves_query _)
  intro project
  cases project with
  | none => exact preserves_ret _
  | some project => exact Preserves.bind (insertEvent_fromPython _ _) fun _ => preserves_ret _

theorem recordAudit_fromPython (platform : Platform) (occurredAt : UtcDatetime) (projectId : Uuid)
    (context : AuditContext) (action : AuditAction) (resourceType : AuditResourceType)
    (resourceId : Str) (before after : Option Json) (metadata : List (Str × Json)) :
    (recordAudit platform occurredAt projectId context action resourceType resourceId before after
      metadata).Preserves (fun _ => True) FromPython := by
  unfold recordAudit recordAdministrativeChange
  apply Preserves.bind preserves_fresh
  intro eventId
  apply Preserves.bind (ofPython_fromPython _)
  intro event
  apply Preserves.bind (insertRow_fromPython _ _)
  intro _
  exact Preserves.bind preserves_fresh fun webhookId => enqueueWebhookEvent_fromPython _ _

/-! ### The update and the row it is read from -/

/-- An update of grants followed by the row of the grant, if there was one to update. -/
theorem updatedGrant_ok {grantId projectId : Uuid} {hit : GrantRow Uuid UtcDatetime → Bool}
    {update : GrantRow Uuid UtcDatetime → GrantRow Uuid UtcDatetime}
    {result : Option ExecutionGrantRecord} (keys : UniqueKey (·.grantId) s.lifecycle.grants)
    (hits : ∀ g, hit g = true → ExecutionGrantRepository.grantIs grantId projectId g = true)
    (keeps : ∀ g, Later g (update g))
    (ran : (do
      let rowcount ← Block.statement fun db => db.updateGrants hit update
      if rowcount = 0 then return none
      else ExecutionGrantRepository.getWithConnection grantId projectId : Body _).exec draws s =
        .ok (result, rest, t)) :
    (∀ g ∈ s.lifecycle.grants, hit g = true → ∃ updated, result = some updated ∧
      update g ∈ t.lifecycle.grants ∧ rowToGrant (update g) = .ok updated) ∧
    ((∀ g ∈ s.lifecycle.grants, hit g = false) → result = none ∧ t.lifecycle = s.lifecycle) := by
  rw [Block.exec_bind_eq_ok] at ran
  obtain ⟨rowcount, draws₁, db₁, statement, ran⟩ := ran
  rw [Block.exec_statement] at statement
  cases updated : s.updateGrants hit update with
  | error exc =>
    rw [updated] at statement
    cases statement
  | ok r =>
    rw [updated] at statement
    cases statement
    obtain ⟨isAfter, counted, -⟩ := updateGrants_ok updated
    constructor
    · intro g inBefore chosen
      have positive : r.2 ≠ 0 := by
        rw [counted]
        exact Nat.pos_iff_ne_zero.mp (List.countP_pos_iff.mpr ⟨g, inBefore, chosen⟩)
      rw [if_neg positive] at ran
      obtain ⟨same, absent, present⟩ := getRow_ok ran
      subst same
      have itself := hits g chosen
      have after : update g ∈ r.1.lifecycle.grants := by
        rw [isAfter]
        exact mem_updateWhere.mpr ⟨g, inBefore, .inl ⟨chosen, rfl⟩⟩
      simp only [ExecutionGrantRepository.grantIs, Bool.and_eq_true, decide_eq_true_eq] at itself
      have isIt : ExecutionGrantRepository.grantIs grantId projectId (update g) = true := by
        simp only [ExecutionGrantRepository.grantIs, (keeps g).grantId, (keeps g).projectId, itself,
          decide_true, Bool.and_self]
      cases result with
      | none => exact absurd isIt (by simp [absent rfl _ after])
      | some record =>
        obtain ⟨row, inAfter, isRow, read⟩ := present record rfl
        have afterKeys : UniqueKey (·.grantId) r.1.lifecycle.grants := by
          rw [isAfter]
          exact (uniqueKey_updateWhere fun g _ _ => (keeps g).grantId).mpr keys
        simp only [ExecutionGrantRepository.grantIs, Bool.and_eq_true, decide_eq_true_eq] at isRow
        obtain rfl := afterKeys.eq inAfter after isRow.1 ((keeps g).grantId.trans itself.1)
        exact ⟨record, rfl, after, read⟩
    · intro missed
      have isZero : r.2 = 0 := by
        rw [counted, List.countP_eq_zero]
        exact fun g member hit => by simp [missed g member] at hit
      rw [if_pos isZero] at ran
      cases ran
      refine ⟨rfl, ?_⟩
      rw [isAfter, updateWhere_of_none missed]

end

/-! ## The checks before it -/

theorem presentedGrant_ok {payload : ExecutionGrantPayload} {tokenHash requestFingerprint : Str}
    {found : Option ExecutionGrantRecord} {current : ExecutionGrantRecord}
    (presented : EvidenceStore.presentedGrant payload tokenHash requestFingerprint found =
      .ok current) :
    found = some current ∧ current.status = .active ∧ current.tokenHash.val = tokenHash ∧
      current.decisionId = payload.decisionId ∧
      current.requestFingerprint = payload.requestFingerprint ∧
      current.requestFingerprint.val = requestFingerprint := by
  cases found with
  | none => cases presented
  | some grant =>
    unfold EvidenceStore.presentedGrant at presented
    rw [bind_eq_ok] at presented
    obtain ⟨authentic, hashes, presented⟩ := presented
    obtain ⟨-, rfl⟩ := compareDigest_ok (mapError_eq_ok.mp hashes)
    dsimp only at presented
    split at presented
    · cases presented
    next isAuthentic =>
    split at presented
    · cases presented
    next agrees =>
      simp only [not_or, not_not] at agrees
      rw [bind_eq_ok] at presented
      obtain ⟨isMatch, compared, presented⟩ := presented
      split at presented
      · cases presented
      next isTrue =>
        split at presented
        · cases presented
        · cases presented
        next active =>
          cases presented
          obtain ⟨-, rfl⟩ := compareDigest_ok (mapError_eq_ok.mp compared)
          refine ⟨rfl, active, ?_, agrees.1, agrees.2.2.2.2, ?_⟩
          · simpa using isAuthentic
          · simpa using isTrue

/-! ## The connection that consumes -/

theorem recordAudit_lifecycle {platform : Platform} {occurredAt : UtcDatetime} {projectId : Uuid}
    {context : AuditContext} {action : AuditAction} {resourceType : AuditResourceType}
    {resourceId : Str} {before after : Option Json} {metadata : List (Str × Json)} {u : Unit}
    {draws rest : ℕ → Uuid} {s t : Database}
    (ran : (recordAudit platform occurredAt projectId context action resourceType resourceId before
      after metadata).exec draws s = .ok (u, rest, t)) : t.lifecycle = s.lifecycle := by
  obtain ⟨_, event, -, change⟩ := recordAudit_ok ran
  obtain ⟨_, published⟩ := change.published
  obtain ⟨_, _, -, -, -, rfl⟩ := published.rows
  rfl

section

variable {C : Type} {c : C} {platform : Platform} {payload : ExecutionGrantPayload}
variable {tokenHash requestFingerprint : Str} {consumedAt : UtcDatetime}
variable {history : List (Seen Database)}

theorem presentedGrant_refused {found : Option ExecutionGrantRecord} {exc : StoreExc}
    (refused : EvidenceStore.presentedGrant payload tokenHash requestFingerprint found =
      .error exc) : Refused payload consumedAt history exc := by
  have ofCompare {a b : Str} {exc : StoreExc}
      (raised : (EvidenceStore.compareDigest a b).mapError StoreExc.python = .error exc) :
      Refused payload consumedAt history exc := by
    cases compared : EvidenceStore.compareDigest a b with
    | ok same =>
      rw [compared] at raised
      cases raised
    | error e =>
      rw [compared] at raised
      cases raised
      exact .python e
  cases found with
  | none =>
    cases refused
    exact .invalid
  | some grant =>
    unfold EvidenceStore.presentedGrant at refused
    dsimp only at refused
    cases hashes : (EvidenceStore.compareDigest grant.tokenHash.val tokenHash).mapError
        StoreExc.python with
    | error e =>
      rw [hashes] at refused
      cases refused
      exact ofCompare hashes
    | ok authentic =>
      rw [hashes] at refused
      dsimp only [bind, Except.bind] at refused
      split at refused
      · cases refused
        exact .invalid
      split at refused
      · cases refused
        exact .invalid
      cases fingerprints : (EvidenceStore.compareDigest grant.requestFingerprint.val
          requestFingerprint).mapError StoreExc.python with
      | error e =>
        rw [fingerprints] at refused
        cases refused
        exact ofCompare fingerprints
      | ok isMatch =>
        rw [fingerprints] at refused
        dsimp only at refused
        split at refused
        · cases refused
          exact .mismatch
        split at refused
        · cases refused
          exact .alreadyConsumed
        · cases refused
          exact .expired
        · cases refused

theorem lostGrant_refused (latest : ExecutionGrantRecord) (spent : latest.status ≠ .active) :
    Refused payload consumedAt history
      (EvidenceStore.lostGrant payload.grantId (some latest)) := by
  unfold EvidenceStore.lostGrant
  dsimp only
  split
  · exact .alreadyConsumed
  · exact .expired
  next active => exact absurd active spent

theorem recordGrantChange_fromPython (projectId : Uuid) (occurredAt : UtcDatetime)
    (context : AuditContext) (action : AuditAction) (current changed : ExecutionGrantRecord) :
    (EvidenceStore.recordGrantChange platform payload projectId occurredAt context action current
      changed).Preserves (fun _ => True) FromPython :=
  recordAudit_fromPython _ _ _ _ _ _ _ _ _ _

/-- A run that returns, and exceptions of Python. -/
theorem ensures_refused {β : Type} {Q : β → Database → Prop} {x : Body β} {s : Database}
    (returned : ∀ draws b rest t, x.exec draws s = .ok (b, rest, t) → Q b t)
    (raises : x.Preserves (fun _ => True) FromPython) :
    x.Ensures Q (Refused payload consumedAt history) s := by
  refine (Ensures.of_exec_of_preserves returned raises).mono (fun _ _ holds => holds) ?_
  rintro _ ⟨exc, rfl⟩
  exact .python exc

theorem updatedGrant_fromPython {grantId projectId : Uuid}
    {hit : GrantRow Uuid UtcDatetime → Bool}
    {update : GrantRow Uuid UtcDatetime → GrantRow Uuid UtcDatetime} :
    (do
      let rowcount ← Block.statement fun db => db.updateGrants hit update
      if rowcount = 0 then return none
      else ExecutionGrantRepository.getWithConnection grantId projectId : Body _).Preserves
        (fun _ => True) FromPython := by
  apply Preserves.bind (updateGrants_fromPython _ _)
  intro rowcount
  split
  · exact preserves_ret _
  · exact getRow_fromPython _

/-- The grant as it is when the transaction opens. -/
theorem read_continues {r s : Database} {row : GrantRow Uuid UtcDatetime}
    (inRead : row ∈ r.lifecycle.grants)
    (knows : (lifecycleContract (C := C)).Knows (history ++ [.read r]) s) :
    ∃ h ∈ s.lifecycle.grants, Later row h := by
  have settled : Settled r s := knows (.read r) (by simp)
  exact settled.continued row inRead

theorem expirable_grantIs {grantId projectId : Uuid} {expiredAt : UtcDatetime}
    (g : GrantRow Uuid UtcDatetime)
    (chosen : ExecutionGrantRepository.expirable grantId projectId expiredAt g = true) :
    ExecutionGrantRepository.grantIs grantId projectId g = true := by
  simp only [ExecutionGrantRepository.expirable, Bool.and_eq_true] at chosen
  exact chosen.1.1

theorem consumable_grantIs {grantId projectId : Uuid} {at_ : UtcDatetime}
    (g : GrantRow Uuid UtcDatetime)
    (chosen : ExecutionGrantRepository.consumable grantId projectId tokenHash at_ g = true) :
    ExecutionGrantRepository.grantIs grantId projectId g = true := by
  simp only [ExecutionGrantRepository.consumable, Bool.and_eq_true] at chosen
  exact chosen.1.1.1

theorem consumeBody_outside (projectId : Uuid) (consumedBy : Str) (context : AuditContext) :
    (EvidenceStore.consumeBody platform payload projectId tokenHash requestFingerprint consumedAt
      consumedBy context).Outside lifecycleContract c (fun _ _ => False)
      (fun b _ s t => (∀ consumed, b = .ok consumed →
        ∃ g, Consumes payload tokenHash requestFingerprint consumedAt s t consumed g) ∧
        (∀ exc, b = .error exc → exc = .executionGrantExpired payload.grantId) ∧
        Lifecycles s ∧ ∀ event ∈ history, Settled event.state s)
      (fun exc h => Refused payload consumedAt h exc) history := by
  intro r _ _
  simp only [Block.bind]
  split
  · exact .invalid
  next row found =>
    cases read : rowToGrant row with
    | error exc => exact .python exc
    | ok record =>
      change (Block.check (EvidenceStore.presentedGrant payload tokenHash requestFingerprint
        (some record)) >>= _ : Body _).Outside _ _ _ _ _ _
      cases presented : EvidenceStore.presentedGrant payload tokenHash requestFingerprint
          (some record) with
      | error exc => exact presentedGrant_refused presented
      | ok current =>
        rw [Block.check_ok_bind]
        obtain ⟨same, active, authentic, decision, bound, agrees⟩ := presentedGrant_ok presented
        cases same
        have reads := readsGrant_of_rowToGrant read
        have inRead := List.mem_of_find?_eq_some found
        have isRow := List.find?_some found
        simp only [ExecutionGrantRepository.grantIs, Bool.and_eq_true, decide_eq_true_eq] at isRow
        split
        next elapsed =>
          refine outside_of_opens ?_ fun s holds knows _ => ?_
          · trivial
          obtain ⟨h, inTried, later⟩ := read_continues inRead knows
          have earlier : ∀ event ∈ history, Settled event.state s :=
            fun event member => knows event (List.mem_append_left _ member)
          rw [reads.expiresAt.symm] at elapsed
          rw [ensures_bind]
          refine ensures_refused (fun draws result rest t ran => ?_) updatedGrant_fromPython
          obtain ⟨hit, -⟩ := updatedGrant_ok holds.grantIds expirable_grantIs (by exact fun _ => rfl) ran
          cases result with
          | none =>
            refine Refused.overtaken r s row h (by simp) (by simp) inRead isRow.1
              (reads.status.trans active) elapsed inTried later fun isActive => ?_
            have chosen : ExecutionGrantRepository.expirable payload.grantId projectId consumedAt h =
                true := by
              simp [ExecutionGrantRepository.expirable, ExecutionGrantRepository.grantIs,
                later.grantId, later.projectId, later.expiresAt, isRow, isActive, elapsed]
            obtain ⟨_, impossible, -⟩ := hit h inTried chosen
            cases impossible
          | some expired =>
            rw [ensures_bind]
            refine ensures_refused (fun _ _ _ _ _ => ⟨?_, ?_, holds, earlier⟩)
              (recordGrantChange_fromPython _ _ _ _ _ _)
            · exact fun consumed same => by cases same
            · rintro exc ⟨⟩
              rfl
        next unexpired =>
          refine outside_of_opens ?_ fun s holds knows _ => ?_
          · trivial
          obtain ⟨h, inTried, later⟩ := read_continues inRead knows
          have earlier : ∀ event ∈ history, Settled event.state s :=
            fun event member => knows event (List.mem_append_left _ member)
          rw [ensures_bind]
          refine ensures_refused (fun draws result rest t ran => ?_) updatedGrant_fromPython
          obtain ⟨hit, missed⟩ :=
            updatedGrant_ok holds.grantIds consumable_grantIs (by exact fun _ => rfl) ran
          have chosen (isActive : h.status = .active) : ExecutionGrantRepository.consumable
              payload.grantId projectId tokenHash consumedAt h = true := by
            rw [← reads.expiresAt, ← later.expiresAt] at unexpired
            simp only [ExecutionGrantRepository.consumable, ExecutionGrantRepository.grantIs,
              later.grantId, later.projectId, later.tokenHash, isRow, reads.tokenHash, authentic,
              isActive, (UtcDatetime.not_le _ _).mp unexpired, decide_true, Bool.and_self]
          cases result with
          | none =>
            have none (g : GrantRow Uuid UtcDatetime) (member : g ∈ s.lifecycle.grants) :
                ExecutionGrantRepository.consumable payload.grantId projectId tokenHash consumedAt g =
                  false := by
              by_contra isHit
              obtain ⟨_, impossible, -⟩ := hit g member (Bool.not_eq_false _ ▸ isHit)
              cases impossible
            obtain ⟨-, same⟩ := missed none
            rw [ensures_bind]
            refine ensures_refused (fun draws latest rest u ran => ?_) (getRow_fromPython _)
            obtain ⟨-, -, present⟩ := getRow_ok ran
            cases latest with
            | none => exact .invalid
            | some latest =>
              obtain ⟨row', inAfter, isGrant, readAgain⟩ := present latest rfl
              rw [same] at inAfter
              simp only [ExecutionGrantRepository.grantIs, Bool.and_eq_true, decide_eq_true_eq]
                at isGrant
              obtain rfl := holds.grantIds.eq inAfter inTried isGrant.1
                (later.grantId.trans isRow.1)
              refine lostGrant_refused latest fun status => ?_
              -- an active grant would have been consumed
              have isActive := (readsGrant_of_rowToGrant readAgain).status.trans status
              exact absurd (chosen isActive) (by simp [none _ inTried])
          | some consumed =>
            rw [ensures_bind]
            refine ensures_refused (fun _ _ _ u ran' => ?_) (recordGrantChange_fromPython _ _ _ _ _ _)
            refine ⟨?_, fun exc same => (by cases same), holds, earlier⟩
            rintro record ⟨⟩
            have any : ∃ g ∈ s.lifecycle.grants, ExecutionGrantRepository.consumable payload.grantId
                projectId tokenHash consumedAt g = true := by
              by_contra nowhere
              obtain ⟨impossible, -⟩ := missed fun g member => by
                by_contra isHit
                exact nowhere ⟨g, member, Bool.not_eq_false _ ▸ isHit⟩
              cases impossible
            obtain ⟨g, inBefore, isHit⟩ := any
            obtain ⟨_, isConsumed, inAfter, readAgain⟩ := hit g inBefore isHit
            cases isConsumed
            simp only [ExecutionGrantRepository.consumable, ExecutionGrantRepository.grantIs,
              Bool.and_eq_true, decide_eq_true_eq] at isHit
            obtain ⟨⟨⟨⟨isId, -⟩, hash⟩, isActive⟩, unspent⟩ := isHit
            obtain rfl := holds.grantIds.eq inBefore inTried isId (later.grantId.trans isRow.1)
            refine ⟨g, inBefore, isActive, ?_, hash, ?_, ?_, unspent, ?_⟩
            · rw [later.decisionId, reads.decisionId, decision]
            · rw [later.requestFingerprint, reads.requestFingerprint, bound]
            · rw [later.requestFingerprint, reads.requestFingerprint, agrees]
            · refine ⟨ExecutionGrantRepository.consumedRow consumedAt consumedBy g, ?_, rfl, rfl,
                readAgain⟩
              rw [recordAudit_lifecycle ran']
              exact inAfter

theorem consumeExecutionGrant_safe {ω : Type} {projectId : Uuid} {consumedBy : Str}
    {context : AuditContext} {R : Except StoreExc ExecutionGrantRecord → List (Seen Database) → Prop}
    (returned : ∀ consumed h s t g,
      Consumes payload tokenHash requestFingerprint consumedAt s t consumed g → Lifecycles s →
      (∀ event ∈ history, Settled event.state s) → R (.ok consumed) (h ++ [.commit s t]))
    (raised : ∀ exc h, Refused payload consumedAt h exc → R (.error exc) h) :
    (EvidenceStore.consumeExecutionGrant platform payload projectId tokenHash requestFingerprint
      consumedAt consumedBy context : Service ω _).Safe lifecycleContract c R history := by
  unfold EvidenceStore.consumeExecutionGrant
  split
  · exact raised _ _ .invalid
  · have body : ServiceBody platform (serviceScope platform fun _ => True) _
        (EvidenceStore.consumeBody platform payload projectId tokenHash requestFingerprint
          consumedAt consumedBy context) := ServiceBody.consume platform _ _ _ _ _ _ _
    have keeps := body.keeps Settled.refl Settled.trans fun _ _ unit => unit.keeps_lifecycles
    refine Session.safe_within_bind keeps (consumeBody_outside projectId consumedBy context) ?_ ?_
      raised
    · exact fun _ _ impossible => impossible.elim
    · intro result h s t committed
      obtain ⟨consumes, expires, holds, earlier⟩ := committed
      refine ⟨trivial, ?_⟩
      cases result with
      | ok consumed =>
        obtain ⟨g, facts⟩ := consumes consumed rfl
        exact returned consumed h s t g facts holds earlier
      | error exc =>
        rw [expires exc rfl]
        exact raised _ _ .expired

end

/-! ## The call of the service -/

/-- The grant of the approved decision is consumed, before it expires, for the token that was issued
for it and for the request that was decided on. -/
structure Executes (platform : Platform) (request : ExecutionGrantConsumptionRequest)
    (projectId : Uuid) (consumedAt : UtcDatetime) (decisionId : Uuid) (s t : Database) : Prop where
  granted : ∃ g, s.lifecycle.grants.filter (fun h => h.decisionId = decisionId) = [g] ∧
    g.status = .active ∧ consumedAt < g.expiresAt ∧
    hashExecutionGrantToken platform request.executionGrant.text = .ok g.tokenHash
  approved : ∃ a, s.approvalsOf decisionId = [a] ∧ a.status = .approved
  decided : ∃ d authorization fingerprint,
    s.ledger.decisions.filter (fun e => e.decisionId = decisionId.str) = [d] ∧
    d.projectId = projectId.str ∧ rowToAuthorization platform d = .ok authorization ∧
    immutableFingerprint platform authorization = .ok fingerprint ∧
    buildRequestFingerprint platform request.authorization = .ok fingerprint
  spent : ∃ h ∈ t.lifecycle.grants, h.decisionId = decisionId ∧ h.status = .consumed

section

variable {C ω : Type} {c : C} {platform : Platform} {hmac : HmacSha256}

/-- The decision the service reads is the stored one when the transaction opens. -/
theorem executes_of_consumes {request : ExecutionGrantConsumptionRequest} {projectId : Uuid}
    {consumedAt : UtcDatetime} {payload : ExecutionGrantPayload} {r s t : Database}
    {d : DecisionRow} {authorization : AuthorizationResponse}
    {immutable presented tokenHash : Str} {consumed : ExecutionGrantRecord}
    {g : GrantRow Uuid UtcDatetime} (holds : Lifecycles s) (earlier : Settled r s)
    (stored : d ∈ r.ledger.decisions) (decisionId : d.decisionId = payload.decisionId.str)
    (projects : d.projectId = projectId.str) (read : rowToAuthorization platform d = .ok authorization)
    (isImmutable : immutableFingerprint platform authorization = .ok immutable)
    (bound : immutable = payload.requestFingerprint.val)
    (isPresented : buildRequestFingerprint platform request.authorization = .ok presented)
    (hashed : hashExecutionGrantToken platform request.executionGrant.text = .ok tokenHash)
    (consumes : Consumes payload tokenHash presented consumedAt s t consumed g) :
    Executes platform request projectId consumedAt consumed.decisionId s t := by
  obtain ⟨h, inAfter, later, status, readAgain⟩ := consumes.spent
  have isDecision : consumed.decisionId = payload.decisionId := by
    rw [← (readsGrant_of_rowToGrant readAgain).decisionId, later.decisionId, consumes.decisionId]
  rw [isDecision]
  constructor
  · refine ⟨g, ?_, consumes.active, consumes.unexpired, ?_⟩
    · refine holds.grants.filter_eq consumes.stored rfl fun h _ => ?_
      rw [decide_eq_true_eq, Option.some.injEq, consumes.decisionId]
    · rw [hashed, consumes.tokenHash]
  · obtain ⟨a, inApprovals, issued⟩ := holds.issued g consumes.stored
    refine ⟨a, ?_, issued.approved⟩
    refine holds.approvals.filter_eq inApprovals issued.decisionId fun b _ => ?_
    rw [decide_eq_true_eq, consumes.decisionId]
  · refine ⟨d, authorization, immutable, ?_, projects, read, isImmutable, ?_⟩
    · refine holds.decisions.filter_eq (earlier.decisions.mem stored) rfl fun e _ => ?_
      rw [decide_eq_true_eq, Option.some.injEq, decisionId]
    · rw [isPresented, ← consumes.presented, consumes.bound, bound]
  · exact ⟨h, inAfter, later.decisionId.trans consumes.decisionId, status⟩

theorem consumeExecutionGrantRequest_safe (request : ExecutionGrantConsumptionRequest)
    (projectId : Uuid) (secret : Str) (consumedAt : UtcDatetime) :
    (ExecutionGrantService.consumeExecutionGrantRequest platform hmac request projectId secret
      consumedAt : Service ω _).Safe lifecycleContract c
      (fun result history => ∀ response, result = .ok (.ok response) →
        ∃ s t, .commit s t ∈ history ∧
          Executes platform request projectId consumedAt response.decisionId s t) [] := by
  unfold ExecutionGrantService.consumeExecutionGrantRequest
  split
  · split
    · exact fun response same => by cases same
    · exact fun response same => by cases same
  next payload _ =>
    split
    · exact fun response same => by cases same
    · intro r _ _
      simp only [Block.bind]
      split
      · exact fun response same => by cases same
      next d found =>
        cases read : rowToAuthorization platform d with
        | error exc => exact fun response same => by cases same
        | ok authorization =>
          have stored := List.mem_of_find?_eq_some found
          have isRow := List.find?_some found
          simp only [Bool.and_eq_true, decide_eq_true_eq] at isRow
          change (ExecutionGrantService.consumeBound platform request projectId payload consumedAt
            authorization : Service ω _).Safe _ _ _ [.read r]
          refine Session.safe_check_bind (fun immutable isImmutable => ?_) fun exc _ response same =>
            by cases same
          refine Session.safe_check_bind (fun bound isBound => ?_) fun exc _ response same =>
            by cases same
          obtain ⟨-, rfl⟩ := compareDigest_ok (mapError_eq_ok.mp isBound)
          split
          next isTrue =>
            refine Session.safe_check_bind (fun presented isPresented => ?_)
              fun exc _ response same => by cases same
            refine Session.safe_check_bind (fun tokenHash hashed => ?_) fun exc _ response same =>
              by cases same
            rw [Session.safe_attempt_bind]
            refine consumeExecutionGrant_safe ?_ ?_
            · intro consumed h s t g consumes holds earlier
              have executes := executes_of_consumes holds (earlier (.read r) (by simp)) stored isRow.1
                isRow.2 read (mapError_eq_ok.mp isImmutable) (of_decide_eq_true isTrue)
                (mapError_eq_ok.mp isPresented) hashed consumes
              dsimp only
              unfold ExecutionGrantService.consumptionResponse
              split
              · rintro response ⟨⟩
                exact ⟨s, t, by simp, executes⟩
              · exact fun response same => by cases same
            · intro exc h refused
              dsimp only
              split
              · exact fun response same => by cases same
              · exact fun response same => by cases same
          next => exact fun response same => by cases same

end

/-! ## Runs -/

/-- The commit consumes the grant of the decision. -/
structure Spends (decisionId : Uuid) (s t : Database) : Prop where
  before : ∃ g ∈ s.lifecycle.grants, g.decisionId = decisionId ∧ g.status = .active
  after : ∃ g ∈ t.lifecycle.grants, g.decisionId = decisionId ∧ g.status = .consumed

theorem Executes.spends {platform : Platform} {request : ExecutionGrantConsumptionRequest}
    {projectId : Uuid} {consumedAt : UtcDatetime} {decisionId : Uuid} {s t : Database}
    (executes : Executes platform request projectId consumedAt decisionId s t) :
    Spends decisionId s t := by
  obtain ⟨g, isGrant, active, -⟩ := executes.granted
  have member : g ∈ s.lifecycle.grants.filter fun h => h.decisionId = decisionId := by
    rw [isGrant]
    exact List.mem_singleton_self g
  obtain ⟨stored, its⟩ := List.mem_filter.mp member
  exact ⟨⟨g, stored, of_decide_eq_true its, active⟩, executes.spent⟩

/-- A grant that was consumed is not active later. -/
theorem Spends.once {decisionId : Uuid} {s t s' t' : Database} (first : Spends decisionId s t)
    (second : Spends decisionId s' t') (holds : Lifecycles s') (later : Settled t s') : False := by
  obtain ⟨g, inAfter, its, consumed⟩ := first.after
  obtain ⟨h, inBefore, same, active⟩ := second.before
  have kept := later.grants g inAfter (by rw [consumed]; decide)
  obtain rfl := holds.grants.eq kept inBefore rfl (congrArg some (same.trans its.symm))
  rw [consumed] at active
  cases active

/-- How a call ends. -/
structure ServiceCall.Ended (platform : Platform) (call : ServiceCall)
    (result : Except StoreExc ServiceAnswer) (history : List (Seen Database)) : Prop where
  spends : ∀ answer decisionId, result = .ok answer → answer.consumes = some decisionId →
    ∃ s t, .commit s t ∈ history ∧ Spends decisionId s t
  executes : ∀ request projectId secret consumedAt,
    (call = .consumeRequest request projectId secret consumedAt ∨
      call = .executeApproved request projectId secret consumedAt) →
    ∀ answer decisionId, result = .ok answer → answer.consumes = some decisionId →
      ∃ s t, .commit s t ∈ history ∧ Executes platform request projectId consumedAt decisionId s t
  refused : ∀ payload projectId tokenHash requestFingerprint consumedAt consumedBy context,
    call = .consume payload projectId tokenHash requestFingerprint consumedAt consumedBy context →
    ∀ exc, result = .error exc → Refused payload consumedAt history exc

namespace ServiceCall

variable {C : Type} {c : C} {platform : Platform} {hmac : HmacSha256}

/-- A call of another kind. -/
theorem ended_other {call : ServiceCall} {result : Except StoreExc ServiceAnswer}
    {history : List (Seen Database)} (silent : ∀ answer, result = .ok answer → answer.consumes = none)
    (other : ∀ payload projectId tokenHash requestFingerprint consumedAt consumedBy context,
      call ≠ .consume payload projectId tokenHash requestFingerprint consumedAt consumedBy context) :
    call.Ended platform result history := by
  refine ⟨fun answer decisionId ended consumes => ?_, fun _ _ _ _ _ answer decisionId ended consumes => ?_,
    fun _ _ _ _ _ _ _ isIt => absurd isIt (other _ _ _ _ _ _ _)⟩
  · rw [silent answer ended] at consumes
    cases consumes
  · rw [silent answer ended] at consumes
    cases consumes

theorem ended_of_executes {call : ServiceCall} {request : ExecutionGrantConsumptionRequest}
    {projectId : Uuid} {secret : Str} {consumedAt : UtcDatetime}
    {result : Except StoreExc ServiceAnswer} {history : List (Seen Database)}
    (isCall : call = .consumeRequest request projectId secret consumedAt ∨
      call = .executeApproved request projectId secret consumedAt)
    (executes : ∀ answer decisionId, result = .ok answer → answer.consumes = some decisionId →
      ∃ s t, .commit s t ∈ history ∧
        Executes platform request projectId consumedAt decisionId s t) :
    call.Ended platform result history := by
  constructor
  · intro answer decisionId ended consumes
    obtain ⟨s, t, committed, facts⟩ := executes answer decisionId ended consumes
    exact ⟨s, t, committed, facts.spends⟩
  · intro request' projectId' secret' consumedAt' isOther answer decisionId ended consumes
    rcases isCall with rfl | rfl
    · rcases isOther with ⟨⟨⟩⟩ | ⟨⟨⟩⟩
      exact executes answer decisionId ended consumes
    · rcases isOther with ⟨⟨⟩⟩ | ⟨⟨⟩⟩
      exact executes answer decisionId ended consumes
  · intro _ _ _ _ _ _ _ isConsume
    rcases isCall with rfl | rfl
    · cases isConsume
    · cases isConsume

theorem safe_other {α : Type} {call : ServiceCall} {session : Service Bool α}
    {f : α → ServiceAnswer}
    (bodies : session.Bodies (ServiceBody platform (serviceScope platform fun _ => True)))
    (silent : ∀ a, (f a).consumes = none)
    (other : ∀ payload projectId tokenHash requestFingerprint consumedAt consumedBy context,
      call ≠ .consume payload projectId tokenHash requestFingerprint consumedAt consumedBy context) :
    (f <$> session).Safe lifecycleContract c (call.Ended platform) [] := by
  rw [Session.safe_map]
  refine (safe_lifecycles bodies c).mono fun result history _ => ended_other (fun answer ended => ?_)
    other
  cases result with
  | ok a =>
    cases ended
    exact silent a
  | error exc => cases ended

theorem safe (call : ServiceCall) :
    (call.session platform hmac).Safe lifecycleContract c (call.Ended platform) [] := by
  cases call with
  | authorize =>
    exact safe_other (bodies_authorizeRequest platform _ _ _ _ _) (fun _ => rfl) fun _ _ _ _ _ _ _ same =>
      by cases same
  | approve =>
    exact safe_other (bodies_approveApprovalRequest platform hmac _ _ _ _ _ _ _ _ _
      fun _ _ => trivial) (fun _ => rfl) fun _ _ _ _ _ _ _ same => by cases same
  | resolve =>
    exact safe_other (bodies_resolveApproval platform _ _ _ _ _ _) (fun _ => rfl)
      fun _ _ _ _ _ _ _ same => by cases same
  | resolveRequest =>
    exact safe_other (bodies_resolveApprovalRequest platform _ _ _ _ _ _) (fun _ => rfl)
      fun _ _ _ _ _ _ _ same => by cases same
  | sweep =>
    exact safe_other (Session.bodies_within (ServiceBody.expireDue platform _ _)) (fun _ => rfl)
      fun _ _ _ _ _ _ _ same => by cases same
  | administer call =>
    exact safe_other (bodies_administer platform call) (fun _ => rfl)
      fun _ _ _ _ _ _ _ same => by cases same
  | consumeRequest request projectId secret consumedAt =>
    refine (Session.safe_map _ _).mpr
      ((consumeExecutionGrantRequest_safe request projectId secret consumedAt).mono ?_)
    intro result history executes
    refine ended_of_executes (.inl rfl) fun answer decisionId ended consumes => ?_
    rcases result with exc | refusal | response
    · cases ended
    · cases ended
      cases consumes
    · cases ended
      cases consumes
      exact executes response rfl
  | executeApproved request projectId secret consumedAt =>
    refine (Session.safe_map _ _).mpr ((Session.safe_bind _ _ _).mpr
      ((consumeExecutionGrantRequest_safe request projectId secret consumedAt).mono ?_))
    intro result history executes
    rcases result with exc | refusal | response
    · exact ended_of_executes (.inr rfl) fun answer decisionId ended consumes => by cases ended
    · refine ended_of_executes (.inr rfl) fun answer decisionId ended consumes => ?_
      cases ended
      cases consumes
    · intro arrives
      refine ended_of_executes (.inr rfl) fun answer decisionId ended consumes => ?_
      cases arrives with
      | false =>
        cases ended
        cases consumes
      | true =>
        cases ended
        cases consumes
        exact executes response rfl
  | consume payload projectId tokenHash requestFingerprint consumedAt consumedBy context =>
    refine (Session.safe_map _ _).mpr (consumeExecutionGrant_safe ?_ ?_)
    · intro record h s t g consumes holds _
      obtain ⟨row, inAfter, later, status, readAgain⟩ := consumes.spent
      have isDecision := (readsGrant_of_rowToGrant readAgain).decisionId
      constructor
      · rintro answer decisionId ⟨⟩ ⟨⟩
        refine ⟨s, t, by simp, ⟨g, consumes.stored, ?_, consumes.active⟩, row, inAfter, isDecision,
          status⟩
        rw [← isDecision, later.decisionId]
      · rintro _ _ _ _ (⟨⟨⟩⟩ | ⟨⟨⟩⟩)
      · exact fun _ _ _ _ _ _ _ _ exc ended => by cases ended
    · intro exc h refused
      constructor
      · exact fun answer decisionId ended => by cases ended
      · exact fun _ _ _ _ _ answer decisionId ended => by cases ended
      · rintro _ _ _ _ _ _ _ ⟨⟩ _ ⟨⟩
        exact refused

end ServiceCall

section Runs

variable {C : Type} [DecidableEq C]

theorem consumption_holds (platform : Platform) (hmac : HmacSha256) (calls : C → ServiceCall)
    (w : World C Database Uuid Bool StoreExc ServiceAnswer)
    (reachable : Reachable anyOpening Database.empty (fun c => (calls c).session platform hmac) w) :
    lifecycleContract.Holds (fun c => (calls c).Ended platform) Database.empty w :=
  lifecycleContract.sound Database.empty lifecycles_empty (fun c => (calls c).session platform hmac)
    (fun c => (calls c).safe) w reachable

/-- Of all calls that ever consume, in any run of concurrent calls from an empty database, at most
one succeeds for a decision, so that the guard starts the operation at most once. The one that
does found the decision approved and its grant active and unexpired, in the project of the decision,
for the token that was issued and for the request that was decided on. -/
theorem one_time_execution (platform : Platform) (hmac : HmacSha256) (calls : C → ServiceCall)
    (w : World C Database Uuid Bool StoreExc ServiceAnswer)
    (reachable : Reachable anyOpening Database.empty (fun c => (calls c).session platform hmac) w) :
    (∀ c c' answer answer' decisionId, w.session c = some (.ret answer) →
      w.session c' = some (.ret answer') → answer.consumes = some decisionId →
      answer'.consumes = some decisionId → c = c') ∧
    ∀ c request projectId secret consumedAt,
      (calls c = .consumeRequest request projectId secret consumedAt ∨
        calls c = .executeApproved request projectId secret consumedAt) →
      ∀ answer decisionId, w.session c = some (.ret answer) → answer.consumes = some decisionId →
        ∃ entry ∈ w.log, entry.client = c ∧
          Executes platform request projectId consumedAt decisionId entry.before entry.after := by
  have holds := consumption_holds platform hmac calls w reachable
  constructor
  · intro c c' answer answer' decisionId ended ended' consumes consumes'
    by_contra apart
    obtain ⟨s, t, committed, spends⟩ :=
      (holds.returned c answer ended).spends answer decisionId rfl consumes
    obtain ⟨s', t', committed', spends'⟩ :=
      (holds.returned c' answer' ended').spends answer' decisionId rfl consumes'
    obtain ⟨entry, inLog, rfl, rfl, rfl⟩ := holds.logged c s t committed
    obtain ⟨entry', inLog', rfl, rfl, rfl⟩ := holds.logged c' s' t' committed'
    have step : ∀ e ∈ w.log, Settled e.before e.after := fun e member => (holds.entries e member).1
    rcases holds.linked.ordered Settled.refl Settled.trans step inLog inLog'
        (fun same => apart (congrArg _ same)) with before | after
    · exact spends.once spends' (holds.entries entry' inLog').2.1 before
    · exact spends'.once spends (holds.entries entry inLog).2.1 after
  · intro c request projectId secret consumedAt isCall answer decisionId ended consumes
    obtain ⟨s, t, committed, executes⟩ := (holds.returned c answer ended).executes request
      projectId secret consumedAt isCall answer decisionId rfl consumes
    obtain ⟨entry, inLog, client, rfl, rfl⟩ := holds.logged c s t committed
    exact ⟨entry, inLog, client, executes⟩

theorem endedIn_eq {w : World SampleClient Database Uuid Bool StoreExc ServiceAnswer} {c : SampleClient}
    {result : Except StoreExc (Option Uuid)} (ended : endedIn w c = some result) :
    (∀ id, result = .ok id → ∃ answer, w.session c = some (.ret answer) ∧ answer.consumes = id) ∧
      ∀ exc, result = .error exc → w.session c = some (.raise exc) := by
  unfold endedIn at ended
  split at ended
  next answer found =>
    cases ended
    refine ⟨?_, fun exc same => by cases same⟩
    rintro id ⟨⟩
    exact ⟨answer, found, rfl⟩
  next exc found =>
    cases ended
    refine ⟨fun id same => (by cases same), ?_⟩
    rintro _ ⟨⟩
    exact found
  next => cases ended

/-- The guard has started the operation, and found all it is to find. -/
theorem one_time_execution_sample :
    endedIn sampleServiceRun .operator = some (.ok (some ⟨2⟩)) ∧
      ∃ entry ∈ sampleServiceRun.log, entry.client = .operator ∧
        Executes tokenPlatform sampleExecution ⟨1⟩ (sampleTime 7) ⟨2⟩ entry.before
          entry.after := by
  refine ⟨sampleServiceRun_ends.2.2.1, ?_⟩
  obtain ⟨answer, found, consumes⟩ := (endedIn_eq sampleServiceRun_ends.2.2.1).1 _ rfl
  exact (one_time_execution tokenPlatform sampleHmac sampleServiceCalls sampleServiceRun
    (play_reachable _ _ _)).2 .operator sampleExecution ⟨1⟩ sampleSecret _ (.inr rfl) answer ⟨2⟩ found consumes

/-- A call of the store that raises says that the grant is invalid, bound to another request, already
consumed or expired, or lets an exception of Python through; otherwise its clock is past the
expiry, and another call has spent the grant between its read and its transaction. -/
theorem consumption_refusals (platform : Platform) (hmac : HmacSha256) (calls : C → ServiceCall)
    (w : World C Database Uuid Bool StoreExc ServiceAnswer)
    (reachable : Reachable anyOpening Database.empty (fun c => (calls c).session platform hmac) w)
    (c : C) (payload : ExecutionGrantPayload) (projectId : Uuid)
    (tokenHash requestFingerprint : Str) (consumedAt : UtcDatetime) (consumedBy : Str)
    (context : AuditContext)
    (isCall : calls c = .consume payload projectId tokenHash requestFingerprint consumedAt consumedBy
      context) (exc : StoreExc) (raised : w.session c = some (.raise exc)) :
    Refused payload consumedAt (w.history c) exc := by
  have holds := consumption_holds platform hmac calls w reachable
  exact (holds.raised c exc raised).refused payload projectId tokenHash
    requestFingerprint consumedAt consumedBy context isCall exc rfl

end Runs

/-- The late call has been overtaken by the guard. -/
theorem consumption_refusals_sample :
    endedIn sampleServiceRun .late = some (.error expirationFailed) ∧
      Refused samplePayload sampleExpiresAt (sampleServiceRun.history .late) expirationFailed := by
  refine ⟨sampleServiceRun_ends.2.2.2.1, ?_⟩
  exact consumption_refusals tokenPlatform sampleHmac sampleServiceCalls sampleServiceRun
    (play_reachable _ _ _) .late samplePayload ⟨1⟩ sampleDigest.val sampleDigest.val sampleExpiresAt [0x77]
    sampleContext rfl expirationFailed ((endedIn_eq sampleServiceRun_ends.2.2.2.1).2 _ rfl)

end DecAustrum
