import DecAustrum.Authentication
import DecAustrum.DecisionRoundTrip
import DecAustrum.Lifecycles
import DecAustrum.TokenRejection

/-!
# Runs of the services

Every unit of the services keeps the lifecycles, so they hold in every world that concurrent calls
reach from an empty database, and what is settled in one world is found in every later one.
-/
namespace DecAustrum

open Python Transaction Table
open Block (Leaves leaves_ret leaves_query leaves_statement keeps_of_exec)

/-! ## Units -/

section

variable {platform : Platform} {minted : ExecutionGrantRecord → Prop}

/-- The units of administration leave decisions, approvals, grants and keys of requests. -/
theorem PolicyUnit.leaves {ρ : Type} {view : Database → ρ}
    (kept : ∀ s t : Database, t.ledger = s.ledger → t.lifecycle = s.lifecycle →
      t.idempotency = s.idempotency → view t = view s) {β : Type} {x : Body β}
    (unit : PolicyUnit platform β x) : x.Immediate ∧ x.Leaves view := by
  cases unit with
  | insertProject => exact ⟨trivial, leaves_insertRow fun db => kept _ _ rfl rfl rfl⟩
  | updateStatus =>
    refine ⟨trivial, Leaves.bind (leaves_updateRows ?_) fun _ => leaves_query _⟩
    exact fun db => kept _ _ rfl rfl rfl
  | insertKey => exact ⟨trivial, leaves_insertRow fun db => kept _ _ rfl rfl rfl⟩
  | revokeKey =>
    refine ⟨trivial, Leaves.bind (leaves_updateRows ?_) fun _ => leaves_query _⟩
    exact fun db => kept _ _ rfl rfl rfl
  | insertSeed =>
    exact ⟨trivial, leaves_insertSeed _ _ _ (fun _ _ => kept _ _ rfl rfl rfl) fun _ _ =>
      kept _ _ rfl rfl rfl⟩
  | writeVersion projectId policy updatedAt changeType sourceVersion current =>
    refine ⟨?_, leaves_writeVersion _ _ _ (fun _ _ => kept _ _ rfl rfl rfl) (fun _ _ =>
      kept _ _ rfl rfl rfl) _ _ _⟩
    cases current <;> trivial
  | disablePolicy => exact ⟨trivial, leaves_updateRows fun db => kept _ _ rfl rfl rfl⟩
  | insertAudit => exact ⟨trivial, leaves_insertRow fun db => kept _ _ rfl rfl rfl⟩
  | insertEvent event =>
    refine ⟨Block.Immediate.bind (Block.immediate_check _) fun _ => trivial, ?_⟩
    intro draws s b rest t ran
    obtain ⟨_, _, -, -, -, rfl⟩ := (insertEventWithDeliveries_ok ran).rows
    exact kept _ _ rfl rfl rfl

/-! ### Approvals -/

theorem keeps_getApproval_bind {inv opening : Database → Prop} {rel : Database → Database → Prop}
    {β : Type} {decisionId projectId : Uuid} {f : Option ApprovalRecord → Body β}
    (later : ∀ found, (f found).Keeps inv rel) :
    (ApprovalRepository.getWithConnection decisionId projectId >>= f).KeepsFrom inv rel opening := by
  have all (found : Option ApprovalRecord) : (f found).KeepsFrom inv rel opening :=
    (later found).mono fun _ _ => trivial
  refine Block.keeps_query_bind fun read _ => ?_
  simp only [Block.bind]
  split
  · exact (later none).mono fun _ _ => trivial
  · cases rowToApproval _ with
    | error exc => trivial
    | ok approval => exact (later (some approval)).mono fun _ _ => trivial

theorem resolveStatement_keeps (decisionId projectId : Uuid) (status : ApprovalRepository.Resolution)
    (resolvedBy : Str) (resolvedAt : UtcDatetime) {s t : Database} {rowcount : Nat}
    (holds : Lifecycles s)
    (ran : s.updateApprovals (ApprovalRepository.resolvable s projectId decisionId resolvedAt)
      (ApprovalRepository.resolvedRow status.status resolvedAt resolvedBy) = .ok (t, rowcount)) :
    Lifecycles t ∧ Settled s t := by
  obtain ⟨rfl, -, guarded⟩ := updateApprovals_ok ran
  refine holds.updated rfl rfl (fun _ => ⟨rfl, rfl⟩) fun a member chosen => ?_
  have pending : a.status = .pending := by
    simp only [ApprovalRepository.resolvable, Bool.and_eq_true, decide_eq_true_eq] at chosen
    exact chosen.1.2
  refine ⟨pending, fun approved => ?_⟩
  -- the trigger asks for a grant, and a pending approval has none
  have granted := (guarded a member chosen).2.1
  simp only [LifecycleTables.grantedApproval, pending, approved, decide_true, Bool.and_self,
    Bool.not_true, Bool.false_or, List.any_eq_true, Bool.and_eq_true, decide_eq_true_eq] at granted
  obtain ⟨g, inGrants, its, -⟩ := granted
  exact holds.ungranted member (by rw [pending]; decide) g inGrants its.symm

theorem resolve_keeps (decisionId projectId : Uuid) (status : ApprovalRepository.Resolution)
    (resolvedBy : Str) (resolvedAt : UtcDatetime) :
    (ApprovalRepository.resolveWithConnection decisionId projectId status resolvedBy
      resolvedAt).Keeps Lifecycles Settled := by
  refine Block.KeepsFrom.bind Settled.refl Settled.trans (keeps_of_exec trivial ?_) fun rowcount => ?_
  · intro draws s rowcount rest t holds _ ran
    rw [Block.exec_statement] at ran
    cases updated : s.updateApprovals (ApprovalRepository.resolvable s projectId decisionId resolvedAt)
        (ApprovalRepository.resolvedRow status.status resolvedAt resolvedBy) with
    | error exc =>
      rw [updated] at ran
      cases ran
    | ok r =>
      rw [updated] at ran
      cases ran
      exact resolveStatement_keeps _ _ _ _ _ holds updated
  · split
    · refine keeps_getApproval_bind fun current => ?_
      split
      · trivial
      · split <;> trivial
    · refine keeps_getApproval_bind fun resolved => ?_
      split <;> trivial

theorem expireApproval_keeps (decisionId : Uuid) (expiredAt : UtcDatetime) :
    (ApprovalRepository.expireRow decisionId expiredAt).Keeps Lifecycles Settled := by
  refine keeps_of_exec trivial fun draws s rowcount rest t holds _ ran => ?_
  rw [ApprovalRepository.expireRow, Block.exec_statement] at ran
  cases updated : s.updateApprovals
      (fun r => r.decisionId = some decisionId && ApprovalRepository.isOverdue expiredAt r)
      (ApprovalRepository.resolvedRow .expired expiredAt ApprovalRepository.expirationActor) with
  | error exc =>
    rw [updated] at ran
    cases ran
  | ok r =>
    rw [updated] at ran
    cases ran
    obtain ⟨same, -, -⟩ := updateApprovals_ok updated
    rw [same]
    refine holds.updated rfl rfl (fun _ => ⟨rfl, rfl⟩) fun a member chosen => ⟨?_, ?_⟩
    case refine_2 => exact ApprovalStatus.noConfusion
    simp only [ApprovalRepository.isOverdue, Bool.and_eq_true, decide_eq_true_eq] at chosen
    exact chosen.2.1

/-! ### Grants -/

theorem grantStatement_keeps {hit : Database → GrantRow Uuid UtcDatetime → Bool}
    {update : GrantRow Uuid UtcDatetime → GrantRow Uuid UtcDatetime}
    (keeps : ∀ g, Later g (update g)) :
    (Block.statement fun db => db.updateGrants (hit db) update : Body Nat).Keeps Lifecycles
      Settled := by
  refine keeps_of_exec trivial fun draws s rowcount rest t holds _ ran => ?_
  rw [Block.exec_statement] at ran
  cases updated : s.updateGrants (hit s) update with
  | error exc =>
    rw [updated] at ran
    cases ran
  | ok r =>
    rw [updated] at ran
    cases ran
    obtain ⟨same, -, guarded⟩ := updateGrants_ok updated
    rw [same]
    refine holds.spent rfl rfl keeps fun g member chosen => ?_
    have passed := (guarded g member chosen).1
    simp only [grantLifecycle, Bool.and_eq_true, decide_eq_true_eq] at passed
    exact passed.1.2

theorem getRow_keeps (hit : GrantRow Uuid UtcDatetime → Bool) :
    (ExecutionGrantRepository.getRow hit).Keeps Lifecycles Settled := by
  refine Block.keeps_query_bind fun read _ => ?_
  split
  · trivial
  · cases rowToGrant _ <;> trivial

theorem consumeGrant_keeps (grantId projectId : Uuid) (tokenHash : Str) (consumedAt : UtcDatetime)
    (consumedBy : Str) :
    (ExecutionGrantRepository.consumeWithConnection grantId projectId tokenHash consumedAt
      consumedBy).Keeps Lifecycles Settled := by
  apply Block.KeepsFrom.bind Settled.refl Settled.trans
  · exact grantStatement_keeps fun _ => rfl
  · intro rowcount
    split
    · trivial
    · exact getRow_keeps _

theorem expireGrant_keeps (grantId projectId : Uuid) (expiredAt : UtcDatetime) :
    (ExecutionGrantRepository.expireWithConnection grantId projectId expiredAt).Keeps Lifecycles
      Settled := by
  apply Block.KeepsFrom.bind Settled.refl Settled.trans
  · exact grantStatement_keeps fun _ => rfl
  · intro rowcount
    split
    · trivial
    · exact getRow_keeps _

theorem getApproval_ok {decisionId projectId : Uuid} {found : Option ApprovalRecord}
    {draws rest : ℕ → Uuid} {s t : Database}
    (ran : (ApprovalRepository.getWithConnection decisionId projectId).exec draws s =
      .ok (found, rest, t)) :
    t = s ∧ ∀ approval ∈ found, ∃ a ∈ s.lifecycle.approvals, a.decisionId = some decisionId ∧
      rowToApproval a = .ok approval := by
  have leaves : (ApprovalRepository.getWithConnection decisionId projectId).Leaves id :=
    leaves_getApproval decisionId projectId
  refine ⟨leaves _ _ _ _ _ ran, ?_⟩
  unfold ApprovalRepository.getWithConnection at ran
  rw [exec_query_bind] at ran
  split at ran
  · cases ran
    exact fun approval none => by cases none
  next row isFound =>
    rw [Block.exec_bind_eq_ok] at ran
    obtain ⟨read, _, _, checked, returned⟩ := ran
    obtain ⟨isRead, -, -⟩ := ofPython_ok checked
    cases returned
    rintro approval ⟨⟩
    have its := List.find?_some isFound
    simp only [ApprovalRepository.approvalIs, Bool.and_eq_true, decide_eq_true_eq] at its
    exact ⟨row, List.mem_of_find?_eq_some isFound, its.1, isRead⟩

theorem resolve_ok {decisionId projectId : Uuid} {status : ApprovalRepository.Resolution}
    {resolvedBy : Str} {resolvedAt : UtcDatetime} {draws rest : ℕ → Uuid} {s t : Database}
    {resolved : ApprovalRecord}
    (ran : (ApprovalRepository.resolveWithConnection decisionId projectId status resolvedBy
      resolvedAt).exec draws s = .ok (resolved, rest, t)) :
    ∃ rowcount, rowcount ≠ 0 ∧
      s.updateApprovals (ApprovalRepository.resolvable s projectId decisionId resolvedAt)
        (ApprovalRepository.resolvedRow status.status resolvedAt resolvedBy) = .ok (t, rowcount) ∧
      ∃ a ∈ t.lifecycle.approvals, a.decisionId = some decisionId ∧
        rowToApproval a = .ok resolved := by
  unfold ApprovalRepository.resolveWithConnection at ran
  rw [Block.exec_bind_eq_ok] at ran
  obtain ⟨rowcount, draws₁, db₁, statement, ran⟩ := ran
  rw [Block.exec_statement] at statement
  split at ran
  next isZero =>
    -- no approval was pending
    rw [Block.exec_bind_eq_ok] at ran
    obtain ⟨current, _, _, -, ran⟩ := ran
    cases current with
    | none => cases ran
    | some current =>
      dsimp only at ran
      split at ran <;> cases ran
  next nonzero =>
    rw [Block.exec_bind_eq_ok] at ran
    obtain ⟨found, draws₂, db₂, read, ran⟩ := ran
    obtain ⟨same, rows⟩ := getApproval_ok read
    refine ⟨rowcount, nonzero, ?_⟩
    cases updated : s.updateApprovals
        (ApprovalRepository.resolvable s projectId decisionId resolvedAt)
        (ApprovalRepository.resolvedRow status.status resolvedAt resolvedBy) with
    | error exc =>
      rw [updated] at statement
      cases statement
    | ok r =>
      rw [updated] at statement
      cases statement
      cases found with
      | none => cases ran
      | some found =>
        cases ran
        rw [same]
        exact ⟨rfl, rows _ rfl⟩

theorem insertGrant_ok {grant : ExecutionGrantRecord} {draws rest : ℕ → Uuid} {s t : Database}
    {u : Unit} (ran : (ExecutionGrantRepository.insert grant).exec draws s = .ok (u, rest, t)) :
    t = { s with lifecycle := { s.lifecycle with grants := s.lifecycle.grants ++ [grant.row] } } ∧
      (∀ h ∈ s.lifecycle.grants, ∀ id, grant.row.grantId = some id → h.grantId ≠ some id) ∧
      ∃ a ∈ s.lifecycle.approvals, a.decisionId = some grant.decisionId ∧ a.status = .pending ∧
        a.requestedAt ≤ grant.issuedAt ∧ ∀ expiresAt ∈ a.expiresAt, grant.issuedAt < expiresAt := by
  rw [ExecutionGrantRepository.insert, insertLifecycle, Block.exec_statement] at ran
  cases inserted : s.lifecycle.insertGrant s.parents grant.row with
  | none =>
    rw [inserted] at ran
    cases ran
  | some tables =>
    rw [inserted] at ran
    cases ran
    refine ⟨by rw [(LifecycleTables.insertGrant_cases inserted).1], ?_⟩
    unfold LifecycleTables.insertGrant at inserted
    split at inserted
    next passed =>
      simp only [LifecycleTables.grantScope, Bool.and_eq_true, List.any_eq_true, decide_eq_true_eq,
        Option.all_eq_true, Bool.not_eq_true', List.any_eq_false, Bool.or_eq_true, not_or] at passed
      obtain ⟨⟨⟨⟨⟨-, a, member, ⟨⟨key, pending⟩, requested⟩, valid⟩, -⟩, -⟩, -⟩, fresh⟩ := passed
      refine ⟨fun h inGrants id its same => ?_, a, member, key, pending, requested, valid⟩
      exact (fresh h inGrants).1.1 ⟨by rw [same]; rfl, same.trans its.symm⟩
    next => cases inserted

theorem storeGrant_keeps (decisionId projectId : Uuid) (resolvedBy : Str) (resolvedAt : UtcDatetime)
    (grant : ExecutionGrantRecord) (issued : (serviceScope platform minted).issues decisionId resolvedAt grant) :
    (EvidenceStore.storeGrant decisionId projectId resolvedBy resolvedAt grant).Keeps Lifecycles
      Settled := by
  refine keeps_of_exec trivial fun draws s approved rest t holds _ ran => ?_
  unfold EvidenceStore.storeGrant at ran
  rw [Block.exec_bind_eq_ok] at ran
  obtain ⟨_, _, mid, inserted, resolved⟩ := ran
  obtain ⟨rfl, fresh, a, member, key, pending, requested, valid⟩ := insertGrant_ok inserted
  obtain ⟨rowcount, nonzero, updated, -⟩ := resolve_ok resolved
  obtain ⟨rfl, counted, -⟩ := updateApprovals_ok updated
  obtain ⟨rfl, rfl, -⟩ := issued
  obtain ⟨b, inApprovals, chosen⟩ := List.countP_pos_iff.mp (Nat.pos_of_ne_zero (counted ▸ nonzero))
  -- the row that is resolved is the one that the trigger found
  have isIt {c : ApprovalColumns} (inOld : c ∈ s.lifecycle.approvals)
      (hit : ApprovalRepository.resolvable { s with lifecycle := { s.lifecycle with
        grants := s.lifecycle.grants ++ [grant.row] } } projectId grant.decisionId grant.issuedAt c =
        true) : c = a := by
    simp only [ApprovalRepository.resolvable, ApprovalRepository.approvalIs, Bool.and_eq_true,
      decide_eq_true_eq] at hit
    exact holds.approvals.eq inOld member hit.1.1.1 key
  have same := isIt inApprovals chosen
  refine holds.approved (g := grant.row) member key pending requested valid fresh (fun c inOld => ?_)
    rfl rfl
  constructor
  · exact isIt inOld
  · rintro rfl
    exact same ▸ chosen

/-! ### Decisions -/

theorem recordDecision_row {a : AuthorizationResponse} {proof : DecisionIntegrityProof}
    {draws rest : ℕ → Uuid} {s t : Database}
    (ran : (EvidenceStore.recordDecision platform a).exec draws s = .ok (proof, rest, t)) :
    ∃ row, decisionRow platform a = .ok row ∧
      (∀ d ∈ s.ledger.decisions, d.decisionId ≠ row.decisionId) ∧
      t.ledger.decisions = s.ledger.decisions ++ [row] ∧ t.lifecycle = s.lifecycle := by
  obtain ⟨ledger, saved, rfl⟩ := recordDecision_ok ran
  obtain ⟨middle, inserted, integrity⟩ := save_spec s.ledger ledger a proof saved
  obtain ⟨row, written, fresh, rfl⟩ := insertDecision_spec s.ledger middle a inserted
  obtain ⟨-, stored⟩ := insertIntegrity_spec _ ledger a proof integrity
  obtain ⟨-, -, rfl⟩ := insertProof_spec _ ledger proof stored
  exact ⟨row, written, fresh, rfl, rfl⟩

theorem insertApproval_ok {approval : Option ApprovalRecord} {draws rest : ℕ → Uuid}
    {s t : Database} {u : Unit}
    (ran : (EvidenceStore.insertOptional ApprovalRepository.insert approval).exec draws s =
      .ok (u, rest, t)) :
    t.lifecycle = { s.lifecycle with
      approvals := s.lifecycle.approvals ++ approval.toList.map (·.row) } ∧
      t.ledger.decisions = s.ledger.decisions := by
  cases approval with
  | none =>
    cases ran
    exact ⟨by simp, rfl⟩
  | some approval =>
    rw [EvidenceStore.insertOptional, ApprovalRepository.insert, insertLifecycle,
      Block.exec_statement] at ran
    cases inserted : s.lifecycle.insertApproval s.parents approval.row with
    | none =>
      rw [inserted] at ran
      cases ran
    | some tables =>
      rw [inserted] at ran
      cases ran
      exact ⟨(LifecycleTables.insertApproval_cases inserted).1, rfl⟩

theorem leaves_insertKeys (idempotencyRecord : Option IdempotencyRecord) :
    (EvidenceStore.insertOptional IdempotencyRepository.insert idempotencyRecord).Leaves
      Database.lifecycles := by
  cases idempotencyRecord with
  | none => exact leaves_ret ()
  | some record => exact leaves_insertRow fun _ => rfl

theorem storeDecision_keeps (authorization : AuthorizationResponse)
    (approval : Option ApprovalRecord) (idempotencyRecord : Option IdempotencyRecord)
    (saved : (serviceScope platform minted).saves authorization approval idempotencyRecord) :
    (EvidenceStore.storeDecision platform authorization approval idempotencyRecord).Keeps Lifecycles
      Settled := by
  refine keeps_of_exec trivial fun draws s _ rest t holds _ ran => ?_
  unfold EvidenceStore.storeDecision at ran
  rw [Block.exec_bind_eq_ok] at ran
  obtain ⟨proof, draws₁, db₁, recorded, ran⟩ := ran
  rw [Block.exec_bind_eq_ok] at ran
  obtain ⟨_, draws₂, db₂, inserted, keyed⟩ := ran
  obtain ⟨row, written, fresh, decisions, tables⟩ := recordDecision_row recorded
  obtain ⟨approvals, same⟩ := insertApproval_ok inserted
  have left := leaves_insertKeys idempotencyRecord draws₂ db₂ _ rest t keyed
  simp only [Database.lifecycles, Prod.mk.injEq] at left
  have fields : row.decisionId = authorization.decisionId.str ∧
      row.decision = authorization.decision.text := by
    obtain ⟨_, _, _, rfl, -⟩ := decisionRow_spec authorization row written
    exact ⟨rfl, rfl⟩
  have isMatch : Matches authorization approval := saved.1
  refine holds.saved fields fresh isMatch ?_ ?_
  · rw [left.2, approvals, tables]
  · rw [left.1, same, decisions]

/-! ### All units -/

theorem ServiceUnit.keeps_lifecycles {β : Type} {x : Body β}
    (unit : ServiceUnit platform (serviceScope platform minted) β x) : x.Keeps Lifecycles Settled := by
  cases unit with
  | policy unit =>
    apply keeps_of_leaves fun s t => Lifecycles.of_same
    apply unit.leaves
    intro s t ledger lifecycle _
    rw [Database.lifecycles, Database.lifecycles, ledger, lifecycle]
  | storeDecision authorization approval idempotencyRecord saved =>
    exact storeDecision_keeps authorization approval idempotencyRecord saved
  | storeGrant decisionId projectId resolvedBy resolvedAt grant issued =>
    exact storeGrant_keeps decisionId projectId resolvedBy resolvedAt grant issued
  | resolve decisionId projectId status resolvedBy resolvedAt =>
    exact resolve_keeps decisionId projectId status resolvedBy resolvedAt
  | expireApproval decisionId expiredAt => exact expireApproval_keeps decisionId expiredAt
  | consumeGrant grantId projectId tokenHash consumedAt consumedBy =>
    exact consumeGrant_keeps grantId projectId tokenHash consumedAt consumedBy
  | expireGrant grantId projectId expiredAt => exact expireGrant_keeps grantId projectId expiredAt

end

/-! ## Runs -/

theorem lifecycles_empty : Lifecycles Database.empty := by
  constructor
  · exact fun a member => by cases member
  · exact List.nodup_nil
  · exact List.nodup_nil
  · exact List.nodup_nil
  · exact List.nodup_nil
  · exact fun a member => by cases member
  · exact fun g member => by cases member
  · exact fun a member => by cases member
  · intro id
    constructor
    · rintro ⟨a, member, -⟩
      cases member
    · rintro ⟨d, member, -⟩
      cases member

section Runs

variable {C : Type} {minted : ExecutionGrantRecord → Prop}

abbrev lifecycleContract : Contract C Database :=
  invariantContract Lifecycles Settled Settled.refl Settled.trans anyOpening

theorem safe_lifecycles {ω α : Type} {platform : Platform} {session : Service ω α}
    (bodies : session.Bodies (ServiceBody platform (serviceScope platform minted))) (c : C) :
    session.Safe (lifecycleContract (C := C)) c (fun _ _ => True) [] := by
  refine Session.safe_of_bodies _ _ _ c (fun _ _ _ => trivial) _ ?_ []
  refine bodies.mono fun β body composed => ?_
  exact composed.keeps Settled.refl Settled.trans fun _ _ unit => unit.keeps_lifecycles

/-- In every world that concurrent calls reach from an empty database: an approval is approved
exactly if its decision has one grant, and otherwise it has none; the decisions that require an
approval, and no others, have one; each grant was issued when its approval was resolved, between
the request and its expiry; and in every later world a resolved approval and a spent grant are what
they were. -/
theorem lifecycle_run [DecidableEq C] (platform : Platform) (hmac : HmacSha256) (calls : C → ServiceCall)
    (w : World C Database Uuid Bool StoreExc ServiceAnswer)
    (reachable : Reachable anyOpening Database.empty (fun c => (calls c).session platform hmac) w) :
    (∀ a ∈ w.committed.lifecycle.approvals,
      (a.status = .approved ↔ (w.committed.grantsOf a).length = 1) ∧
      (a.status ≠ .approved → w.committed.grantsOf a = []) ∧ ∃ id, a.decisionId = some id) ∧
    (∀ id, (w.committed.Requires id → (w.committed.approvalsOf id).length = 1) ∧
      (¬ w.committed.Requires id → w.committed.approvalsOf id = [])) ∧
    (∀ g ∈ w.committed.lifecycle.grants, ∃ a ∈ w.committed.lifecycle.approvals, IssuedFor a g) ∧
    ∀ later, Relation.ReflTransGen (Transaction.Step anyOpening) w later →
      (∀ a ∈ w.committed.lifecycle.approvals, a.status ≠ .pending →
        later.committed.lifecycle.approvals.filter (fun b => b.decisionId = a.decisionId) = [a]) ∧
      ∀ g ∈ w.committed.lifecycle.grants, g.status ≠ .active →
        later.committed.lifecycle.grants.filter (fun h => h.decisionId = g.decisionId) = [g] := by
  have sound := (lifecycleContract (C := C)).sound Database.empty lifecycles_empty
    (fun c => (calls c).session platform hmac)
    (fun c => safe_lifecycles ((calls c).bodies platform hmac fun _ _ _ _ => trivial) c) w reachable
  have holds : Lifecycles w.committed := sound.inv
  refine ⟨fun a member => ⟨?_, ?_, ?_⟩, fun id => ⟨?_, ?_⟩, holds.issued, fun later run => ?_⟩
  · exact holds.approved_iff member
  · exact holds.grantsOf_eq_nil member
  · exact holds.keyed a member
  · exact holds.approvalsOf_length
  · exact holds.approvalsOf_eq_nil
  · obtain ⟨after, settled, -⟩ := sound.run_later run
    have holdsLater : Lifecycles later.committed := after.inv
    constructor
    · exact fun a member done => holdsLater.approval_stays settled member done
    · exact fun g member done => holdsLater.grant_stays settled member done

end Runs

/-! ## A decision that is approved and executed -/

def sampleRegistered : Project :=
  ⟨⟨1⟩, [0x50], .active, sampleTime 0, sampleTime 0⟩

def sampleExecution : ExecutionGrantConsumptionRequest :=
  { sampleConsumption with context := sampleNestedRequest.context }

/-- Who registers the project, authorizes, approves, runs the guard, and calls the store late. -/
inductive SampleClient where
  | registrar
  | requester
  | reviewer
  | operator
  | late
  deriving DecidableEq

def sampleServiceCalls : SampleClient → ServiceCall
  | .registrar =>
    .administer (.policy (.saveProject sampleRegistered sampleKeyRow [sampleGoldPolicy] none))
  | .requester => .authorize sampleNestedRequest none ⟨1⟩ 3600 (sampleTime 1)
  | .reviewer => .approve ⟨2⟩ ⟨1⟩ sampleContext.actorId none sampleSecret 3600 sampleIssuedAt
      sampleIssuedAt sampleIssuedAt
  | .operator => .executeApproved sampleExecution ⟨1⟩ sampleSecret (sampleTime 7)
  | .late => .consume samplePayload ⟨1⟩ sampleDigest.val sampleDigest.val sampleExpiresAt [0x77]
      sampleContext

/-- The late call reads the grant before the guard consumes it, and goes on after. -/
def sampleServiceOrder : List SampleClient :=
  List.replicate 5 .registrar ++ List.replicate 17 .requester ++ List.replicate 28 .reviewer ++
    [.late] ++ List.replicate 13 .operator ++ List.replicate 3 .late

def sampleServiceTurns : List (Turn SampleClient Uuid Bool) :=
  sampleServiceOrder.zipIdx.map fun p =>
    ⟨p.1, if p.2 = 7 then ⟨2⟩ else if p.2 = 28 then ⟨7⟩ else ⟨Fin.ofNat _ (p.2 + 16)⟩, true⟩

def sampleServiceRun : World SampleClient Database Uuid Bool StoreExc ServiceAnswer :=
  (World.start Database.empty fun c => (sampleServiceCalls c).session tokenPlatform sampleHmac).play
    sampleServiceTurns

/-- What a client has ended in, with the decision it consumed the grant of. -/
def endedIn (w : World SampleClient Database Uuid Bool StoreExc ServiceAnswer) (c : SampleClient) :
    Option (Except StoreExc (Option Uuid)) :=
  match w.session c with
  | some (.ret answer) => some (.ok answer.consumes)
  | some (.raise exc) => some (.error exc)
  | _ => none

/-- The token that a client has been answered with. -/
def answeredToken (w : World SampleClient Database Uuid Bool StoreExc ServiceAnswer)
    (c : SampleClient) : Option Str :=
  match w.session c with
  | some (.ret (.approved (.ok response))) => some response.executionGrant
  | _ => none

theorem sampleServiceRun_ends :
    sampleServiceRun.committed.lifecycle.approvals.map (fun a => (a.decisionId, a.status)) =
        [(some ⟨2⟩, .approved)] ∧
      sampleServiceRun.committed.lifecycle.grants.map (fun g => (g.decisionId, g.status)) =
        [(⟨2⟩, .consumed)] ∧
      endedIn sampleServiceRun .operator = some (.ok (some ⟨2⟩)) ∧
      endedIn sampleServiceRun .late =
        some (.error (.runtimeError "Execution grant expiration failed.")) ∧
      (answeredToken sampleServiceRun .reviewer).isSome = true := by
  decide +kernel

theorem lifecycle_run_sample :
    sampleServiceRun.committed.lifecycle.approvals.map (fun a => (a.decisionId, a.status)) =
        [(some ⟨2⟩, .approved)] ∧
      ∀ a ∈ sampleServiceRun.committed.lifecycle.approvals,
        a.status = .approved ↔ (sampleServiceRun.committed.grantsOf a).length = 1 :=
  ⟨sampleServiceRun_ends.1, fun a member => ((lifecycle_run tokenPlatform sampleHmac
    sampleServiceCalls sampleServiceRun (play_reachable _ _ _)).1 a member).1⟩

end DecAustrum
