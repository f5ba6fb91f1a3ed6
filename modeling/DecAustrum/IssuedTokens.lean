import DecAustrum.Consumption

/-!
# Tokens of approvals

The token that an approval is answered with belongs to the one grant of the decision, whichever way
the answer was reached. The stored hash is that of a token under the secret of some approval, so it
is the hash of the answered token where all approvals are signed with one secret.
-/
namespace DecAustrum

open Python Transaction Table
open Block (Leaves KeepsFrom leaves_ret keeps_of_exec outside_of_opens ensures_of_exec)

/-! ## Grants and their tokens -/

/-- The row of a grant that was issued under one of the secrets, spent or not. -/
def Minted (platform : Platform) (hmac : HmacSha256) (secrets : Str → Prop)
    (g : GrantRow Uuid UtcDatetime) : Prop :=
  ∃ secret grant, secrets secret ∧ SignedUnder platform hmac secret grant ∧ Later grant.row g

def AllMinted (platform : Platform) (hmac : HmacSha256) (secrets : Str → Prop) (db : Database) :
    Prop :=
  ∀ g ∈ db.lifecycle.grants, Minted platform hmac secrets g

/-- The scope of calls that sign with these secrets. -/
abbrev signingScope (platform : Platform) (hmac : HmacSha256) (secrets : Str → Prop) : ServiceScope :=
  serviceScope platform fun grant => ∃ secret, secrets secret ∧ SignedUnder platform hmac secret grant

section

variable {platform : Platform} {hmac : HmacSha256} {secrets : Str → Prop}

/-- A grant that is read has the payload it was issued with. -/
theorem Later.issued_payload {issued grant : ExecutionGrantRecord} {g h : GrantRow Uuid UtcDatetime}
    (first : Later issued.row h) (later : Later g h) (read : rowToGrant g = .ok grant) :
    grant.toExecutionGrantPayload = issued.toExecutionGrantPayload := by
  have reads := readsGrant_of_rowToGrant read
  apply payload_eq
  · exact Option.some.inj (reads.grantId.symm.trans (later.grantId.symm.trans first.grantId))
  · exact reads.decisionId.symm.trans (later.decisionId.symm.trans first.decisionId)
  · exact reads.projectId.symm.trans (later.projectId.symm.trans first.projectId)
  · apply Subtype.ext
    exact reads.requestFingerprint.symm.trans
      (later.requestFingerprint.symm.trans first.requestFingerprint)
  · exact reads.issuedAt.symm.trans (later.issuedAt.symm.trans first.issuedAt)
  · exact reads.expiresAt.symm.trans (later.expiresAt.symm.trans first.expiresAt)

theorem Minted.later {g h : GrantRow Uuid UtcDatetime} (minted : Minted platform hmac secrets g)
    (later : Later g h) : Minted platform hmac secrets h := by
  obtain ⟨secret, grant, isSecret, signed, first⟩ := minted
  exact ⟨secret, grant, isSecret, signed, first.trans later⟩

/-! ## All units -/

theorem updateGrants_minted {hit : Database → GrantRow Uuid UtcDatetime → Bool}
    {update : GrantRow Uuid UtcDatetime → GrantRow Uuid UtcDatetime}
    (keeps : ∀ g, Later g (update g)) :
    (Block.statement fun db => db.updateGrants (hit db) update : Body Nat).Maintains
      (AllMinted platform hmac secrets) := by
  refine Block.maintains_statement fun s t rowcount minted ran => ?_
  rw [(updateGrants_ok ran).1]
  intro g member
  obtain ⟨old, inOld, ⟨-, rfl⟩ | ⟨-, rfl⟩⟩ := mem_updateWhere.mp member
  · exact (minted old inOld).later (keeps old)
  · exact minted g inOld

theorem ServiceUnit.keeps_minted {β : Type} {x : Body β}
    (unit : ServiceUnit platform (signingScope platform hmac secrets) β x) :
    x.Keeps (AllMinted platform hmac secrets) fun _ _ => True := by
  have depends {γ : Type} {y : Body γ} (left : y.Leaves fun db => db.lifecycle.grants) :
      y.Maintains (AllMinted platform hmac secrets) := by
    refine left.maintains fun s t same minted => ?_
    unfold AllMinted
    rwa [same]
  have leaves {γ : Type} {y : Body γ}
      (left : y.Immediate ∧ y.Leaves fun db => db.lifecycle.grants) :
      y.Keeps (AllMinted platform hmac secrets) fun _ _ => True := (depends left.2).keeps left.1
  have approvals {hit : Database → ApprovalRow Uuid UtcDatetime → Bool}
      {update : ApprovalRow Uuid UtcDatetime → ApprovalRow Uuid UtcDatetime} :
      (Block.statement fun db => db.updateApprovals (hit db) update : Body Nat).Leaves
        fun db => db.lifecycle.grants := by
    refine Block.leaves_statement fun s t rowcount ran => ?_
    rw [(updateApprovals_ok ran).1]
  have spends {hit : Database → GrantRow Uuid UtcDatetime → Bool}
      {update : GrantRow Uuid UtcDatetime → GrantRow Uuid UtcDatetime} (keeps : ∀ g, Later g (update g))
      (grantId projectId : Uuid) : (do
        let rowcount ← Block.statement fun db => db.updateGrants (hit db) update
        if rowcount = 0 then return none
        else ExecutionGrantRepository.getWithConnection grantId projectId : Body _).Keeps
          (AllMinted platform hmac secrets) fun _ _ => True := by
    refine Block.Maintains.keeps ((updateGrants_minted keeps).bind fun rowcount => ?_) trivial
    split
    · exact depends (leaves_ret _)
    · exact depends (leaves_getGrant _)
  cases unit with
  | policy unit => exact leaves (unit.leaves fun s t _ lifecycle _ => by rw [lifecycle])
  | storeDecision authorization approval idempotencyRecord =>
    refine Block.Maintains.keeps ?_ trivial
    intro draws s _ rest t minted ran
    unfold EvidenceStore.storeDecision at ran
    rw [Block.exec_bind_eq_ok] at ran
    obtain ⟨proof, draws₁, db₁, recorded, ran⟩ := ran
    rw [Block.exec_bind_eq_ok] at ran
    obtain ⟨_, draws₂, db₂, inserted, keyed⟩ := ran
    obtain ⟨-, -, -, -, tables⟩ := recordDecision_row recorded
    have left := leaves_insertKeys idempotencyRecord draws₂ db₂ _ rest t keyed
    simp only [Database.lifecycles, Prod.mk.injEq] at left
    unfold AllMinted
    rw [left.2, (insertApproval_ok inserted).1, tables]
    exact minted
  | storeGrant decisionId projectId resolvedBy resolvedAt grant issued =>
    obtain ⟨-, -, secret, isSecret, signed⟩ := issued
    refine Block.Maintains.keeps ?_ trivial
    refine Block.Maintains.bind (fun draws s _ rest t minted ran => ?_) fun _ => ?_
    · rw [(insertGrant_ok ran).1]
      intro g member
      rcases List.mem_append.mp member with old | new
      · exact minted g old
      · rw [List.mem_singleton.mp new]
        exact ⟨secret, grant, isSecret, signed, Later.refl _⟩
    · apply depends
      exact leaves_resolve _ _ _ _ _ fun _ _ => approvals
  | resolve decisionId projectId status resolvedBy resolvedAt =>
    exact leaves ⟨trivial, leaves_resolve _ _ _ _ _ fun _ _ => approvals⟩
  | expireApproval decisionId expiredAt => exact leaves ⟨trivial, approvals⟩
  | consumeGrant grantId projectId tokenHash consumedAt consumedBy =>
    apply spends
    exact fun _ => rfl
  | expireGrant grantId projectId expiredAt =>
    apply spends
    exact fun _ => rfl

/-! ## What a call sees -/

/-- The call has read or written the approval, approved. -/
def SawApproved (decisionId : Uuid) (approval : ApprovalRecord) (history : List (Seen Database)) :
    Prop :=
  ∃ event ∈ history, ∃ a ∈ event.state.lifecycle.approvals, a.decisionId = some decisionId ∧
    a.status = .approved ∧ rowToApproval a = .ok approval

/-- The call has read or written the grant of the decision. -/
def SawGrant (decisionId projectId : Uuid) (grant : ExecutionGrantRecord)
    (history : List (Seen Database)) : Prop :=
  ∃ event ∈ history, ∃ g ∈ event.state.lifecycle.grants, g.decisionId = decisionId ∧
    g.projectId = projectId ∧ rowToGrant g = .ok grant

/-- The answer has the token of a grant that the call saw. Its hash was compared with the stored
one, or the grant was seen to be active and unexpired. -/
structure TokenAnswer (platform : Platform) (hmac : HmacSha256) (decisionId projectId : Uuid)
    (secret : Str) (effectiveTime : UtcDatetime) (response : ApprovalGrantResponse)
    (history : List (Seen Database)) : Prop where
  approval : SawApproved decisionId response.toApprovalRecord history
  grant : ∃ grant, SawGrant decisionId projectId grant history ∧
    grant.grantId = response.grantId ∧ grant.expiresAt = response.grantExpiresAt ∧
    buildExecutionGrantToken platform hmac grant.toExecutionGrantPayload secret =
      .ok response.executionGrant ∧
    (hashExecutionGrantToken platform response.executionGrant = .ok grant.tokenHash.val ∨
      grant.status = .active ∧ effectiveTime < grant.expiresAt)

/-- How a call that approves ends. -/
def TokenAnswered (platform : Platform) (hmac : HmacSha256) (decisionId projectId : Uuid)
    (secret : Str) (effectiveTime : UtcDatetime)
    (result : Except StoreExc (DetailedAnswer ApprovalGrantResponse))
    (history : List (Seen Database)) : Prop :=
  ∀ response, result = .ok (.ok response) →
    TokenAnswer platform hmac decisionId projectId secret effectiveTime response history

variable {decisionId projectId : Uuid} {secret : Str} {effectiveTime : UtcDatetime}
variable {history : List (Seen Database)}

theorem SawApproved.snoc {approval : ApprovalRecord} (saw : SawApproved decisionId approval history)
    (event : Seen Database) : SawApproved decisionId approval (history ++ [event]) := by
  obtain ⟨old, member, facts⟩ := saw
  exact ⟨old, List.mem_append_left _ member, facts⟩

theorem TokenAnswered.refused {refusal : DetailedException} :
    TokenAnswered platform hmac decisionId projectId secret effectiveTime (.ok (.error refusal))
      history := fun _ same => by cases same

theorem TokenAnswered.raised {exc : StoreExc} :
    TokenAnswered platform hmac decisionId projectId secret effectiveTime (.error exc) history :=
  fun _ same => by cases same

theorem rowToApproval_status {a : ApprovalColumns} {approval : ApprovalRecord}
    (read : rowToApproval a = .ok approval) : a.status = approval.status := by
  unfold rowToApproval at read
  split at read
  · cases read
  · split at read
    · cases read
      rfl
    · cases read

/-! ## The paths of a call -/

/-- What approvals and grants have to be, and that each was issued under one of the secrets. -/
abbrev tokenContract (C : Type) (platform : Platform) (hmac : HmacSha256) (secrets : Str → Prop) :
    Contract C Database :=
  invariantContract (fun db => Lifecycles db ∧ AllMinted platform hmac secrets db) Settled
    Settled.refl Settled.trans anyOpening

theorem keeps_tokens {β : Type} {x : Body β}
    (body : ServiceBody platform (signingScope platform hmac secrets) β x) :
    x.Keeps (fun db => Lifecycles db ∧ AllMinted platform hmac secrets db) Settled :=
  body.keeps Settled.refl Settled.trans fun _ _ unit =>
    unit.keeps_lifecycles.and unit.keeps_minted fun _ _ => trivial

variable {C ω : Type} {c : C}

section Reads

variable {contract : Contract C Database}

theorem readApproval_outside {Q : Option ApprovalRecord → List (Seen Database) → Prop}
    {T : Option ApprovalRecord → List (Seen Database) → Database → Database → Prop}
    {E : StoreExc → List (Seen Database) → Prop}
    (found : ∀ s result, (∀ approval ∈ result, ∃ a ∈ s.lifecycle.approvals,
      a.decisionId = some decisionId ∧ rowToApproval a = .ok approval) →
      Q result (history ++ [.read s]))
    (raised : ∀ exc h, E exc h) :
    (ApprovalRepository.getWithConnection decisionId projectId).Outside contract c Q T E history := by
  intro s _ _
  dsimp only [Block.bind]
  split
  · exact found s none fun approval none => by cases none
  next row isFound =>
    cases read : rowToApproval row with
    | error exc => exact raised _ _
    | ok approval =>
      refine found s (some approval) ?_
      rintro _ ⟨⟩
      have its := List.find?_some isFound
      simp only [ApprovalRepository.approvalIs, Bool.and_eq_true, decide_eq_true_eq] at its
      exact ⟨row, List.mem_of_find?_eq_some isFound, its.1, read⟩

theorem readGrant_outside {Q : Option ExecutionGrantRecord → List (Seen Database) → Prop}
    {T : Option ExecutionGrantRecord → List (Seen Database) → Database → Database → Prop}
    {E : StoreExc → List (Seen Database) → Prop}
    (found : ∀ s result, (∀ grant ∈ result,
      SawGrant decisionId projectId grant (history ++ [.read s])) → Q result (history ++ [.read s]))
    (raised : ∀ exc h, E exc h) :
    (ExecutionGrantRepository.getByDecisionWithConnection decisionId projectId).Outside contract c Q
      T E history := by
  intro s _ _
  dsimp only [Block.bind]
  split
  · exact found s none fun grant none => by cases none
  next row isFound =>
    cases read : rowToGrant row with
    | error exc => exact raised _ _
    | ok grant =>
      refine found s (some grant) ?_
      rintro _ ⟨⟩
      have its := List.find?_some isFound
      simp only [Bool.and_eq_true, decide_eq_true_eq] at its
      exact ⟨.read s, by simp, row, List.mem_of_find?_eq_some isFound, its.1, its.2, read⟩

/-- What is read of a decision does not matter. -/
theorem readDecision_outside {Q : Option AuthorizationResponse → List (Seen Database) → Prop}
    {T : Option AuthorizationResponse → List (Seen Database) → Database → Database → Prop}
    {E : StoreExc → List (Seen Database) → Prop}
    (found : ∀ s result, Q result (history ++ [.read s])) (raised : ∀ exc h, E exc h) :
    (AuthorizationDecisionRepository.getWithConnection platform decisionId projectId).Outside contract
      c Q T E history := by
  intro s _ _
  dsimp only [Block.bind]
  split
  · exact found s none
  next row isFound =>
    cases rowToAuthorization platform row with
    | error exc => exact raised _ _
    | ok authorization => exact found s (some authorization)

end Reads

theorem usable_eq_some {found : Option ExecutionGrantRecord} {grant : ExecutionGrantRecord}
    (isUsable : ApprovalService.usable effectiveTime found = some grant) :
    found = some grant ∧ grant.status = .active ∧ effectiveTime < grant.expiresAt := by
  cases found with
  | none => cases isUsable
  | some existing =>
    rw [ApprovalService.usable] at isUsable
    split at isUsable
    next facts =>
      cases isUsable
      exact ⟨rfl, facts⟩
    next => cases isUsable

/-- A token that is checked against the stored hash. -/
theorem regenerate_safe {approved : ApprovalRecord} {grant : ExecutionGrantRecord}
    (approval : SawApproved decisionId approved history)
    (granted : SawGrant decisionId projectId grant history) :
    (ApprovalService.regenerate platform hmac secret approved grant : Service ω _).Safe
      (tokenContract C platform hmac secrets) c
      (TokenAnswered platform hmac decisionId projectId secret effectiveTime) history := by
  unfold ApprovalService.regenerate
  refine Session.safe_check_bind (fun token built => ?_) fun _ _ => .raised
  refine Session.safe_check_bind (fun tokenHash hashed => ?_) fun _ _ => .raised
  refine Session.safe_check_bind (fun issued compared => ?_) fun _ _ => .raised
  obtain ⟨-, rfl⟩ := compareDigest_ok (mapError_eq_ok.mp compared)
  split
  next same =>
    rintro response ⟨⟩
    refine ⟨approval, grant, granted, rfl, rfl, built, .inl ?_⟩
    rw [of_decide_eq_true same]
    exact hashed
  next => exact .raised

/-- A grant that is seen to be usable, without a look at its hash. -/
theorem alreadyApproved_safe {approved : ApprovalRecord}
    (approval : SawApproved decisionId approved history) :
    (ApprovalService.alreadyApproved platform hmac decisionId projectId secret effectiveTime
      approved : Service ω _).Safe (tokenContract C platform hmac secrets) c
      (TokenAnswered platform hmac decisionId projectId secret effectiveTime) history := by
  unfold ApprovalService.alreadyApproved
  refine readGrant_outside (fun s found granted => ?_) fun _ _ => .raised
  dsimp only [Session.bind]
  split
  next grant isUsable =>
    obtain ⟨rfl, active, unexpired⟩ := usable_eq_some isUsable
    refine Session.safe_check_bind (fun token built => ?_) fun _ _ => .raised
    rintro response ⟨⟩
    exact ⟨approval.snoc _, grant, granted grant rfl, rfl, rfl, built, .inr ⟨active, unexpired⟩⟩
  next => exact .refused

/-- The approval of a project, once what is due is swept. -/
theorem safe_getApproval {α : Type} {sweptAt : UtcDatetime} {f : Option ApprovalRecord → Service ω α}
    {R : Except StoreExc α → List (Seen Database) → Prop}
    (later : ∀ h found, (∀ approval ∈ found, approval.status = .approved →
      SawApproved decisionId approval h) →
      (f found).Safe (tokenContract C platform hmac secrets) c R h)
    (raised : ∀ exc h, R (.error exc) h) :
    (ApprovalService.getApproval platform decisionId projectId sweptAt >>= f).Safe
      (tokenContract C platform hmac secrets) c R history := by
  unfold ApprovalService.getApproval
  rw [bind_assoc]
  refine Session.safe_kept_bind (keeps_tokens (ServiceBody.expireDue platform _ _))
    (fun _ _ _ => trivial) (fun _ h => ?_) raised
  refine readApproval_outside (fun s found rows => later _ found fun approval isFound approved => ?_)
    raised
  obtain ⟨a, member, its, read⟩ := rows approval isFound
  exact ⟨.read s, by simp, a, member, its, (rowToApproval_status read).trans approved, read⟩

theorem concurrentlyApproved_safe {rereadAt : UtcDatetime} :
    (ApprovalService.concurrentlyApproved platform hmac decisionId projectId secret effectiveTime
      rereadAt : Service ω _).Safe (tokenContract C platform hmac secrets) c
      (TokenAnswered platform hmac decisionId projectId secret effectiveTime) history := by
  unfold ApprovalService.concurrentlyApproved
  apply safe_getApproval _ fun _ _ => .raised
  intro h found approvals
  refine readGrant_outside (fun s grant granted => ?_) fun _ _ => .raised
  cases found with
  | none => exact .raised
  | some approval =>
    dsimp only
    split
    · exact .refused
    · split
      · exact .refused
      next approved =>
        dsimp only [Session.bind]
        split
        · exact .refused
        next grant isUsable =>
          obtain ⟨rfl, -, -⟩ := usable_eq_some isUsable
          have saw := approvals approval rfl (not_not.mp approved)
          exact regenerate_safe (saw.snoc _) (granted grant rfl)

/-! ### The connection that approves -/

/-- A new grant is stored with its approval. -/
theorem issueGrant_ok {resolvedBy : Str} {resolvedAt : UtcDatetime} {grant : ExecutionGrantRecord}
    {context : AuditContext} {previous : ApprovalRecord} {draws rest : ℕ → Uuid} {s t : Database}
    {result : ApprovalRecord × ExecutionGrantRecord} (holds : Lifecycles s)
    (ran : (EvidenceStore.issueGrant platform decisionId projectId resolvedBy resolvedAt grant context
      previous).exec draws s = .ok (result, rest, t)) :
    result.2 = grant ∧ grant.row ∈ t.lifecycle.grants ∧
      ∃ a ∈ t.lifecycle.approvals, a.decisionId = some decisionId ∧ a.status = .approved ∧
        rowToApproval a = .ok result.1 := by
  unfold EvidenceStore.issueGrant at ran
  rw [Block.exec_bind_eq_ok] at ran
  obtain ⟨_, _, granted, inserted, ran⟩ := ran
  rw [Block.exec_bind_eq_ok] at ran
  obtain ⟨approved, _, resolved, resolves, ran⟩ := ran
  rw [Block.exec_bind_eq_ok] at ran
  obtain ⟨_, _, audited, first, ran⟩ := ran
  rw [Block.exec_bind_eq_ok] at ran
  obtain ⟨_, _, last, second, ran⟩ := ran
  cases ran
  rw [recordAudit_lifecycle second, recordAudit_lifecycle first]
  obtain ⟨rfl, -⟩ := insertGrant_ok inserted
  obtain ⟨rowcount, nonzero, updated, a, member, its, read⟩ := resolve_ok resolves
  obtain ⟨rfl, counted, -⟩ := updateApprovals_ok updated
  refine ⟨rfl, List.mem_append_right _ (List.mem_singleton_self _), a, member, its, ?_, read⟩
  obtain ⟨b, inOld, chosen⟩ := List.countP_pos_iff.mp (Nat.pos_of_ne_zero (counted ▸ nonzero))
  obtain ⟨old, inTable, ⟨-, rfl⟩ | ⟨missed, rfl⟩⟩ := mem_updateWhere.mp member
  · rfl
  · -- the row that was hit is the only one of the decision
    have isHit := chosen
    simp only [ApprovalRepository.resolvable, ApprovalRepository.approvalIs, Bool.and_eq_true,
      decide_eq_true_eq] at isHit
    obtain rfl := holds.approvals.eq inOld inTable isHit.1.1.1 its
    rw [chosen] at missed
    cases missed

/-- Either the approval was approved before, and its grant is read, or both are stored now. -/
theorem approveBody_outside {resolvedBy : Str} {resolvedAt : UtcDatetime}
    {grant : ExecutionGrantRecord} {context : AuditContext} (isDecision : grant.decisionId = decisionId)
    (isProject : grant.projectId = projectId) :
    (EvidenceStore.approveBody platform decisionId projectId resolvedBy resolvedAt grant
      context).Outside (tokenContract C platform hmac secrets) c
      (fun b h => SawApproved decisionId b.1 h ∧ SawGrant decisionId projectId b.2 h)
      (fun b h s t => SawApproved decisionId b.1 (h ++ [.commit s t]) ∧
        SawGrant decisionId projectId b.2 (h ++ [.commit s t]))
      (fun _ _ => True) history := by
  unfold EvidenceStore.approveBody
  refine (Block.outside_bind _ _ _).mpr (readApproval_outside (fun r found rows => ?_) fun _ _ => trivial)
  cases found with
  | none => trivial
  | some previous =>
    obtain ⟨a, member, its, read⟩ := rows previous rfl
    dsimp only
    split
    · trivial
    next approved =>
      have approval : SawApproved decisionId previous (history ++ [.read r]) :=
        ⟨.read r, by simp, a, member, its, (rowToApproval_status read).trans approved, read⟩
      refine (Block.outside_bind _ _ _).mpr (readGrant_outside (fun s found granted => ?_)
        fun _ _ => trivial)
      cases found with
      | none => trivial
      | some existing => exact ⟨approval.snoc _, granted existing rfl⟩
    · trivial
    · refine (Block.outside_bind _ _ _).mpr (readDecision_outside (fun s authorization => ?_)
        fun _ _ => trivial)
      split
      · trivial
      · refine outside_of_opens trivial fun before inv _ _ => ?_
        refine ensures_of_exec (fun draws b rest after ran => ?_) fun _ _ _ => trivial
        obtain ⟨rfl, stored, a, inAfter, its, approved, readBack⟩ := issueGrant_ok inv.1 ran
        exact ⟨⟨.commit before after, by simp, a, inAfter, its, approved, readBack⟩,
          .commit before after, by simp, _, stored, isDecision, isProject, rowToGrant_row _⟩

theorem approveApprovalWithGrant_safe {resolvedBy : Str} {resolvedAt : UtcDatetime}
    {grant : ExecutionGrantRecord} {context : AuditContext}
    {R : Except StoreExc (ApprovalRecord × ExecutionGrantRecord) → List (Seen Database) → Prop}
    (issued : (signingScope platform hmac secrets).issues decisionId resolvedAt grant)
    (returned : ∀ b h, SawApproved decisionId b.1 h → SawGrant decisionId projectId b.2 h → R (.ok b) h)
    (raised : ∀ exc h, R (.error exc) h) :
    (EvidenceStore.approveApprovalWithGrant platform decisionId projectId resolvedBy resolvedAt grant
      context : Service ω _).Safe (tokenContract C platform hmac secrets) c R history := by
  unfold EvidenceStore.approveApprovalWithGrant
  refine Session.safe_kept_bind (keeps_tokens (ServiceBody.expireDue platform _ _))
    (fun _ _ _ => trivial) (fun _ h => ?_) raised
  split
  · exact raised _ _
  next scope =>
    rw [not_or, not_not, not_not] at scope
    rw [← bind_pure (Session.within _)]
    refine Session.safe_within_bind (keeps_tokens (ServiceBody.approve platform _ _ _ _ _ _ issued))
      (approveBody_outside scope.1 scope.2) ?_ ?_ fun exc h _ => raised exc h
    · exact fun b h saw => returned b h saw.1 saw.2
    · exact fun b h before after saw => ⟨trivial, returned b _ saw.1 saw.2⟩

theorem approvePending_safe (isSecret : secrets secret) (resolverId : SearchText)
    (reason : Option Str) (ttlSeconds : Int) (rereadAt : UtcDatetime) :
    (ApprovalService.approvePending platform hmac decisionId projectId resolverId reason secret
      ttlSeconds effectiveTime rereadAt : Service ω _).Safe (tokenContract C platform hmac secrets) c
      (TokenAnswered platform hmac decisionId projectId secret effectiveTime) history := by
  unfold ApprovalService.approvePending
  refine readDecision_outside (fun s found => ?_) fun _ _ => .raised
  dsimp only [Session.bind]
  cases found with
  | none => exact .raised
  | some authorization =>
    refine Session.safe_check_bind (fun requestFingerprint _ => ?_) fun _ _ => .raised
    intro grantId
    refine Session.safe_check_bind (fun payload payloadMade => ?_) fun _ _ => .raised
    refine Session.safe_check_bind (fun token built => ?_) fun _ _ => .raised
    refine Session.safe_check_bind (fun tokenHash hashed => ?_) fun _ _ => .raised
    refine Session.safe_check_bind (fun grant grantMade => ?_) fun _ _ => .raised
    rw [Session.safe_attempt_bind]
    have issued : (signingScope platform hmac secrets).issues decisionId effectiveTime grant :=
      ServiceCall.issues_activeGrant platform hmac (fun _ signed => ⟨secret, isSecret, signed⟩)
        (mapError_eq_ok.mp payloadMade) built hashed (mapError_eq_ok.mp grantMade)
    apply approveApprovalWithGrant_safe issued
    · exact fun _ _ approval granted => regenerate_safe approval granted
    · intro exc h
      dsimp only
      split
      · -- a concurrent call was first
        exact concurrentlyApproved_safe
      · split
        · exact .refused
        · exact .raised

theorem approveApprovalRequest_safe (isSecret : secrets secret) (resolverId : SearchText)
    (reason : Option Str) (ttlSeconds : Int) (readAt rereadAt : UtcDatetime) :
    (ApprovalService.approveApprovalRequest platform hmac decisionId projectId resolverId reason secret
      ttlSeconds effectiveTime readAt rereadAt : Service ω _).Safe
      (tokenContract C platform hmac secrets) c
      (TokenAnswered platform hmac decisionId projectId secret effectiveTime) history := by
  unfold ApprovalService.approveApprovalRequest
  refine safe_getApproval (fun h found approvals => ?_) fun _ _ => .raised
  cases found with
  | none => exact .refused
  | some approval =>
    dsimp only
    split
    · exact .refused
    next approved => exact alreadyApproved_safe (approvals approval rfl approved)
    · exact .refused
    · exact approvePending_safe isSecret resolverId reason ttlSeconds rereadAt

end

/-! ## Runs -/

/-- How a call ends, if it approves. -/
def ServiceCall.Approves (platform : Platform) (hmac : HmacSha256) (call : ServiceCall)
    (result : Except StoreExc ServiceAnswer) (history : List (Seen Database)) : Prop :=
  ∀ decisionId projectId resolverId reason secret ttlSeconds effectiveTime readAt rereadAt,
    call = .approve decisionId projectId resolverId reason secret ttlSeconds effectiveTime readAt
      rereadAt →
    ∀ response, result = .ok (.approved (.ok response)) →
      TokenAnswer platform hmac decisionId projectId secret effectiveTime response history

theorem ServiceCall.approves_safe {C : Type} {c : C} {platform : Platform} {hmac : HmacSha256}
    {secrets : Str → Prop} (call : ServiceCall) (isSecret : ∀ secret ∈ call.signsWith, secrets secret) :
    (call.session platform hmac).Safe (tokenContract C platform hmac secrets) c
      (call.Approves platform hmac) [] := by
  have mints : call.Mints platform hmac fun grant =>
      ∃ secret, secrets secret ∧ SignedUnder platform hmac secret grant :=
    fun secret its _ signed => ⟨secret, isSecret secret its, signed⟩
  have kept : (call.session platform hmac).Safe (tokenContract C platform hmac secrets) c
      (fun _ _ => True) [] := by
    refine Session.safe_of_keeps ?_ (fun _ _ _ => trivial) []
    exact (call.bodies platform hmac mints).mono fun _ _ body => keeps_tokens body
  cases call with
  | approve decisionId projectId resolverId reason secret ttlSeconds effectiveTime readAt rereadAt =>
    refine (Session.safe_map _ _).mpr ((approveApprovalRequest_safe (isSecret secret rfl) resolverId
      reason ttlSeconds readAt rereadAt).mono fun result history answered => ?_)
    rintro _ _ _ _ _ _ _ _ _ ⟨⟩ response ended
    apply answered
    rcases result with exc | refusal | answer
    · cases ended
    · cases ended
    · cases ended
      rfl
  | _ => exact kept.mono fun _ _ _ _ _ _ _ _ _ _ _ _ other => by cases other

/-- The answer has the token of the only grant of the decision, spent or not, which was issued when
the approval was approved. -/
structure Belongs (platform : Platform) (hmac : HmacSha256) (secrets : Str → Prop)
    (decisionId projectId : Uuid) (secret : Str) (response : ApprovalGrantResponse)
    (issued : ExecutionGrantRecord) (g : GrantRow Uuid UtcDatetime) (db : Database) : Prop where
  only : db.lifecycle.grants.filter (fun h => h.decisionId = decisionId) = [g]
  row : Later issued.row g
  ofDecision : issued.decisionId = decisionId
  ofProject : issued.projectId = projectId
  grantId : response.grantId = issued.grantId
  expiresAt : response.grantExpiresAt = issued.expiresAt
  built : buildExecutionGrantToken platform hmac issued.toExecutionGrantPayload secret =
    .ok response.executionGrant
  parsed : parseExecutionGrantToken platform hmac response.executionGrant secret =
    .ok issued.toExecutionGrantPayload
  signed : ∃ issuing, secrets issuing ∧ SignedUnder platform hmac issuing issued
  approval : ∃ a, db.approvalsOf decisionId = [a] ∧ IssuedFor a g ∧
    rowToApproval a = .ok response.toApprovalRecord

section Runs

variable {platform : Platform} {hmac : HmacSha256} {secrets : Str → Prop}
variable {decisionId projectId : Uuid} {secret : Str} {response : ApprovalGrantResponse}

theorem TokenAnswer.belongs (lawful : platform.Lawful) {effectiveTime : UtcDatetime}
    {history : List (Seen Database)} {db : Database}
    (answer : TokenAnswer platform hmac decisionId projectId secret effectiveTime response history)
    (holds : Lifecycles db) (minted : AllMinted platform hmac secrets db)
    (settled : ∀ event ∈ history, Settled event.state db) :
    ∃ issued g, Belongs platform hmac secrets decisionId projectId secret response issued g db := by
  obtain ⟨grant, ⟨event, seen, g₀, inSeen, isDecision, isProject, read⟩, grantId, expiresAt, built, -⟩ :=
    answer.grant
  obtain ⟨g, stored, later⟩ := (settled event seen).continued g₀ inSeen
  obtain ⟨issuing, issued, isSecret, signed, row⟩ := minted g stored
  have payload := row.issued_payload later read
  rw [payload] at built
  obtain ⟨key, _, _, validated, -⟩ := build_eq_ok.mp built
  obtain ⟨token, built', parsed⟩ := parse_build lawful validated issued.toExecutionGrantPayload
  obtain rfl : response.executionGrant = token := by
    rw [built, Except.ok.injEq] at built'
    exact built'
  obtain ⟨b, inApprovals, its⟩ := holds.issued g stored
  obtain ⟨approvedAt, sawApproval, a, inSaw, isApproval, approved, readApproval⟩ := answer.approval
  -- the approval that was seen is still there, and it is the one of the grant
  have kept := (settled approvedAt sawApproval).approvals a inSaw (by rw [approved]; decide)
  have ofDecision : g.decisionId = decisionId := later.decisionId.trans isDecision
  obtain rfl := holds.approvals.eq kept inApprovals isApproval (ofDecision ▸ its.decisionId)
  refine ⟨issued, g, ?_, row, ?_, ?_, ?_, ?_, built, parsed, ⟨issuing, isSecret, signed⟩, a, ?_, its,
    readApproval⟩
  · refine holds.grants.filter_eq stored rfl fun h _ => ?_
    rw [decide_eq_true_eq, Option.some.injEq, ofDecision]
  · exact row.decisionId.symm.trans ofDecision
  · exact row.projectId.symm.trans (later.projectId.trans isProject)
  · rw [← grantId, payload]
  · rw [← expiresAt, payload]
  · exact holds.approvals.filter_eq kept isApproval fun b _ => decide_eq_true_iff

/-- The store takes the token for the request of the grant as long as the grant is active. -/
theorem presentedGrant_active {g : GrantRow Uuid UtcDatetime} {issued current : ExecutionGrantRecord}
    (row : Later issued.row g) (read : rowToGrant g = .ok current) (active : current.status = .active) :
    EvidenceStore.presentedGrant issued.toExecutionGrantPayload g.tokenHash g.requestFingerprint
      (some current) = .ok current := by
  have reads := readsGrant_of_rowToGrant read
  have payload := row.issued_payload (Later.refl g) read
  have hashes := compareDigest_ascii (digest_ascii current.tokenHash.property)
    (digest_ascii current.tokenHash.property)
  have fingerprints := compareDigest_ascii (digest_ascii current.requestFingerprint.property)
    (digest_ascii current.requestFingerprint.property)
  rw [EvidenceStore.presentedGrant, reads.tokenHash, reads.requestFingerprint, hashes, fingerprints]
  simp [← payload, active, Except.mapError, bind, Except.bind, pure, Except.pure]

variable {C : Type} [DecidableEq C]

/-- The call has approved the decision, and answered with a token under the secret. -/
def ApprovedIn (calls : C → ServiceCall)
    (w : World C Database Uuid Bool StoreExc ServiceAnswer) (c : C) (decisionId projectId : Uuid)
    (secret : Str) (response : ApprovalGrantResponse) : Prop :=
  w.session c = some (.ret (.approved (.ok response))) ∧
    ∃ resolverId reason ttlSeconds effectiveTime readAt rereadAt, calls c = .approve decisionId projectId
      resolverId reason secret ttlSeconds effectiveTime readAt rereadAt

/-- Some approval is signed with the secret. -/
def SignsWith (calls : C → ServiceCall) (secret : Str) : Prop :=
  ∃ c, (calls c).signsWith = some secret

/-- In every world that concurrent calls reach from an empty database, the token that an approval was
answered with, on whichever path, reads as the payload of the only grant of its decision, and two
answers under one secret have one token. Where all approvals are signed with one secret, the stored
hash is that of the token, and the store takes it as long as the grant is active. -/
theorem issued_tokens (platform : Platform) (lawful : platform.Lawful) (hmac : HmacSha256)
    (calls : C → ServiceCall) (w : World C Database Uuid Bool StoreExc ServiceAnswer)
    (reachable : Reachable anyOpening Database.empty (fun c => (calls c).session platform hmac) w) :
    (∀ c decisionId projectId secret response,
      ApprovedIn calls w c decisionId projectId secret response →
      ∃ issued g, Belongs platform hmac (SignsWith calls) decisionId projectId secret response issued g
        w.committed ∧
        ((∀ other, SignsWith calls other → other = secret) →
          hashExecutionGrantToken platform response.executionGrant = .ok g.tokenHash ∧
          ∀ current, rowToGrant g = .ok current → current.status = .active →
            EvidenceStore.presentedGrant issued.toExecutionGrantPayload g.tokenHash
              g.requestFingerprint (some current) = .ok current)) ∧
    ∀ c c' decisionId projectId projectId' secret response response',
      ApprovedIn calls w c decisionId projectId secret response →
      ApprovedIn calls w c' decisionId projectId' secret response' →
      response'.executionGrant = response.executionGrant := by
  have holds := (tokenContract C platform hmac (SignsWith calls)).sound Database.empty
    ⟨lifecycles_empty, fun g member => by cases member⟩ (fun c => (calls c).session platform hmac)
    (fun c => (calls c).approves_safe fun _ its => ⟨c, its⟩) w reachable
  have belongs (c : C) (decisionId projectId : Uuid) (secret : Str) (response : ApprovalGrantResponse)
      (approved : ApprovedIn calls w c decisionId projectId secret response) :
      ∃ issued g, Belongs platform hmac (SignsWith calls) decisionId projectId secret response issued g
        w.committed := by
    obtain ⟨ended, _, _, _, _, _, _, isCall⟩ := approved
    have answer := holds.returned c _ ended _ _ _ _ _ _ _ _ _ isCall response rfl
    exact answer.belongs lawful holds.inv.1 holds.inv.2 (holds.knows c)
  constructor
  · intro c decisionId projectId secret response approved
    obtain ⟨issued, g, its⟩ := belongs c decisionId projectId secret response approved
    refine ⟨issued, g, its, fun oneSecret => ⟨?_, fun current => presentedGrant_active its.row⟩⟩
    obtain ⟨issuing, isSecret, signed⟩ := its.signed
    obtain rfl := oneSecret issuing isSecret
    obtain ⟨token, built, hashed⟩ := signed.token
    rw [its.built, Except.ok.injEq] at built
    rw [built, hashed, its.row.tokenHash]
    rfl
  · intro c c' decisionId projectId projectId' secret response response' first second
    obtain ⟨issued, g, its⟩ := belongs c decisionId projectId secret response first
    obtain ⟨issued', g', its'⟩ := belongs c' decisionId projectId' secret response' second
    obtain rfl : g' = g := by
      have same := its'.only
      rw [its.only, List.cons.injEq] at same
      exact same.1.symm
    have payload : issued'.toExecutionGrantPayload = issued.toExecutionGrantPayload :=
      its.row.issued_payload its'.row (rowToGrant_row issued')
    have built := its'.built
    rw [payload, its.built, Except.ok.injEq] at built
    exact built.symm

end Runs

theorem answeredToken_isSome {w : World SampleClient Database Uuid Bool StoreExc ServiceAnswer}
    {c : SampleClient} (answered : (answeredToken w c).isSome = true) :
    ∃ response, w.session c = some (.ret (.approved (.ok response))) := by
  unfold answeredToken at answered
  split at answered
  next response found => exact ⟨response, found⟩
  next => cases answered

/-- The reviewer has a token of the grant, and its hash is the stored one. -/
theorem issued_tokens_sample :
    ∃ response issued g, Belongs tokenPlatform sampleHmac (SignsWith sampleServiceCalls) ⟨2⟩ ⟨1⟩
        sampleSecret response issued g sampleServiceRun.committed ∧
      hashExecutionGrantToken tokenPlatform response.executionGrant = .ok g.tokenHash := by
  obtain ⟨response, ended⟩ := answeredToken_isSome sampleServiceRun_ends.2.2.2.2
  obtain ⟨issued, g, its, signed⟩ := (issued_tokens tokenPlatform (referencePlatform_lawful _) sampleHmac
    sampleServiceCalls sampleServiceRun (play_reachable _ _ _)).1 .reviewer ⟨2⟩ ⟨1⟩ sampleSecret response
    ⟨ended, _, _, _, _, _, _, rfl⟩
  refine ⟨response, issued, g, its, (signed ?_).1⟩
  rintro other ⟨c, signs⟩
  cases c
  case reviewer =>
    cases signs
    rfl
  all_goals cases signs

end DecAustrum
