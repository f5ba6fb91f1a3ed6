import DecAustrum.EvidenceStore.AuthorityUnits
import DecAustrum.LedgerRuns
import DecAustrum.SearchConditions
import DecAustrum.Services.Calls

/-!
# Lifecycles of approvals and grants

What approvals, grants and decisions have to do with each other, and that each way the store
changes them keeps it. Rows that are settled stay as they are.
-/
namespace DecAustrum

open Python Transaction Table
open Block (keeps_of_exec)

/-! ## The invariant -/

/-- The grant was issued when the approval was approved, within its validity. -/
structure IssuedFor (a : ApprovalColumns) (g : GrantRow Uuid UtcDatetime) : Prop where
  decisionId : a.decisionId = some g.decisionId
  approved : a.status = .approved
  resolved : a.resolvedAt = some g.issuedAt
  requested : a.requestedAt ≤ g.issuedAt
  valid : ∃ expiresAt, a.expiresAt = some expiresAt ∧ g.issuedAt < expiresAt

/-- The decision is stored and waits, or waited, for an approval. -/
def Database.Requires (db : Database) (id : Uuid) : Prop :=
  ∃ d ∈ db.ledger.decisions, d.decisionId = id.str ∧ d.decision = Decision.requireApproval.text

structure Lifecycles (db : Database) : Prop where
  keyed : ∀ a ∈ db.lifecycle.approvals, ∃ id, a.decisionId = some id
  approvals : UniqueKey (·.decisionId) db.lifecycle.approvals
  grants : UniqueKey (fun g => some g.decisionId) db.lifecycle.grants
  grantIds : UniqueKey (·.grantId) db.lifecycle.grants
  decisions : UniqueKey (fun d => some d.decisionId) db.ledger.decisions
  bounded : ∀ a ∈ db.lifecycle.approvals, ∃ expiresAt, a.expiresAt = some expiresAt
  issued : ∀ g ∈ db.lifecycle.grants, ∃ a ∈ db.lifecycle.approvals, IssuedFor a g
  granted : ∀ a ∈ db.lifecycle.approvals, a.status = .approved →
    ∃ g ∈ db.lifecycle.grants, a.decisionId = some g.decisionId
  required : ∀ id, (∃ a ∈ db.lifecycle.approvals, a.decisionId = some id) ↔ db.Requires id

/-- The same grant later, spent or not. -/
def Later (g h : GrantRow Uuid UtcDatetime) : Prop :=
  h = { g with status := h.status, consumedAt := h.consumedAt, consumedBy := h.consumedBy }

theorem Later.refl (g : GrantRow Uuid UtcDatetime) : Later g g := rfl

theorem Later.trans {g h i : GrantRow Uuid UtcDatetime} (first : Later g h) (second : Later h i) :
    Later g i := by
  unfold Later at *
  rw [second, first]

namespace Later

variable {g h : GrantRow Uuid UtcDatetime}

theorem grantId (later : Later g h) : h.grantId = g.grantId := by rw [later]

theorem decisionId (later : Later g h) : h.decisionId = g.decisionId := by rw [later]

theorem projectId (later : Later g h) : h.projectId = g.projectId := by rw [later]

theorem requestFingerprint (later : Later g h) : h.requestFingerprint = g.requestFingerprint := by
  rw [later]

theorem tokenHash (later : Later g h) : h.tokenHash = g.tokenHash := by rw [later]

theorem expiresAt (later : Later g h) : h.expiresAt = g.expiresAt := by rw [later]

theorem issuedAt (later : Later g h) : h.issuedAt = g.issuedAt := by rw [later]

end Later

/-- Grants remain, and what is settled is not changed. -/
structure Settled (s t : Database) : Prop where
  continued : ∀ g ∈ s.lifecycle.grants, ∃ h ∈ t.lifecycle.grants, Later g h
  approvals : ∀ a ∈ s.lifecycle.approvals, a.status ≠ .pending → a ∈ t.lifecycle.approvals
  grants : ∀ g ∈ s.lifecycle.grants, g.status ≠ .active → g ∈ t.lifecycle.grants
  decisions : s.ledger.decisions <+: t.ledger.decisions

namespace Settled

theorem refl (s : Database) : Settled s s :=
  ⟨fun g member => ⟨g, member, Later.refl g⟩, fun _ member _ => member, fun _ member _ => member,
    List.prefix_refl _⟩

theorem trans (s t u : Database) (first : Settled s t) (second : Settled t u) : Settled s u := by
  refine ⟨fun g member => ?_, fun a member settled => ?_, fun g member settled => ?_, ?_⟩
  · obtain ⟨h, inside, later⟩ := first.continued g member
    obtain ⟨i, inLast, latest⟩ := second.continued h inside
    exact ⟨i, inLast, later.trans latest⟩
  · exact second.approvals a (first.approvals a member settled) settled
  · exact second.grants g (first.grants g member settled) settled
  · exact first.decisions.trans second.decisions

/-- Where the grants are the same, they remain. -/
theorem of_grants {s t : Database} (same : t.lifecycle.grants = s.lifecycle.grants)
    (approvals : ∀ a ∈ s.lifecycle.approvals, a.status ≠ .pending → a ∈ t.lifecycle.approvals)
    (decisions : s.ledger.decisions <+: t.ledger.decisions) : Settled s t := by
  refine ⟨fun g member => ⟨g, ?_, Later.refl g⟩, approvals, fun g member _ => ?_, decisions⟩
  · rwa [same]
  · rwa [same]

end Settled

/-- What the invariant speaks of. -/
def Database.lifecycles (db : Database) : List DecisionRow × LifecycleTables Uuid UtcDatetime :=
  (db.ledger.decisions, db.lifecycle)

section

variable {s t : Database}

theorem Lifecycles.of_same (same : t.lifecycles = s.lifecycles) (holds : Lifecycles s) :
    Lifecycles t ∧ Settled s t := by
  simp only [Database.lifecycles, Prod.mk.injEq] at same
  obtain ⟨decisions, tables⟩ := same
  constructor
  · constructor <;> simp only [tables, Database.Requires, decisions]
    · exact holds.keyed
    · exact holds.approvals
    · exact holds.grants
    · exact holds.grantIds
    · exact holds.decisions
    · exact holds.bounded
    · exact holds.issued
    · exact holds.granted
    · exact holds.required
  · refine Settled.of_grants (by rw [tables]) (fun a member _ => ?_) ?_
    · rwa [tables]
    · rw [decisions]

/-- An approval that is not approved has no grant. -/
theorem Lifecycles.ungranted (holds : Lifecycles s) {a : ApprovalColumns}
    (member : a ∈ s.lifecycle.approvals) (unapproved : a.status ≠ .approved) :
    ∀ g ∈ s.lifecycle.grants, a.decisionId ≠ some g.decisionId := by
  intro g inGrants its
  obtain ⟨b, inApprovals, issued⟩ := holds.issued g inGrants
  obtain rfl := holds.approvals.eq member inApprovals its issued.decisionId
  exact unapproved issued.approved

/-! ## Updates of approvals -/

/-- An update of pending approvals that approves none. -/
theorem Lifecycles.updated {hit : ApprovalColumns → Bool} {update : ApprovalColumns → ApprovalColumns}
    (holds : Lifecycles s)
    (tables : t.lifecycle = { s.lifecycle with
      approvals := updateWhere hit update s.lifecycle.approvals })
    (decisions : t.ledger.decisions = s.ledger.decisions)
    (keeps : ∀ a, (update a).decisionId = a.decisionId ∧ (update a).expiresAt = a.expiresAt)
    (pending : ∀ a ∈ s.lifecycle.approvals, hit a = true →
      a.status = .pending ∧ (update a).status ≠ .approved) :
    Lifecycles t ∧ Settled s t := by
  have kept {a : ApprovalColumns} (member : a ∈ s.lifecycle.approvals)
      (settled : a.status ≠ .pending) : a ∈ updateWhere hit update s.lifecycle.approvals := by
    refine mem_updateWhere.mpr ⟨a, member, .inr ⟨?_, rfl⟩⟩
    by_contra chosen
    exact settled (pending a member (Bool.not_eq_false _ ▸ chosen)).1
  refine ⟨?_, ?_⟩
  · constructor <;> simp only [tables, Database.Requires, decisions]
    · intro a member
      obtain ⟨old, inOld, ⟨-, rfl⟩ | ⟨-, rfl⟩⟩ := mem_updateWhere.mp member
      · rw [(keeps old).1]
        exact holds.keyed old inOld
      · exact holds.keyed a inOld
    · exact (uniqueKey_updateWhere fun a _ _ => (keeps a).1).mpr holds.approvals
    · exact holds.grants
    · exact holds.grantIds
    · exact holds.decisions
    · intro a member
      obtain ⟨old, inOld, ⟨-, rfl⟩ | ⟨-, rfl⟩⟩ := mem_updateWhere.mp member
      · rw [(keeps old).2]
        exact holds.bounded old inOld
      · exact holds.bounded a inOld
    · intro g member
      obtain ⟨a, inApprovals, issued⟩ := holds.issued g member
      refine ⟨a, kept inApprovals ?_, issued⟩
      rw [issued.approved]
      decide
    · intro a member approved
      obtain ⟨old, inOld, ⟨chosen, rfl⟩ | ⟨-, rfl⟩⟩ := mem_updateWhere.mp member
      · exact absurd approved (pending old inOld chosen).2
      · exact holds.granted a inOld approved
    · intro id
      rw [← Database.Requires, ← holds.required id]
      constructor
      · rintro ⟨a, member, its⟩
        obtain ⟨old, inOld, ⟨-, rfl⟩ | ⟨-, rfl⟩⟩ := mem_updateWhere.mp member
        · exact ⟨old, inOld, (keeps old).1 ▸ its⟩
        · exact ⟨a, inOld, its⟩
      · rintro ⟨a, member, its⟩
        cases chosen : hit a with
        | true =>
          exact ⟨update a, mem_updateWhere.mpr ⟨a, member, .inl ⟨chosen, rfl⟩⟩,
            (keeps a).1.trans its⟩
        | false => exact ⟨a, mem_updateWhere.mpr ⟨a, member, .inr ⟨chosen, rfl⟩⟩, its⟩
  · refine Settled.of_grants (by rw [tables]) (fun a member settled => ?_) ?_
    · rw [tables]
      exact kept member settled
    · rw [decisions]

/-! ## Updates of grants -/

/-- An update of active grants. -/
theorem Lifecycles.spent {hit : GrantRow Uuid UtcDatetime → Bool}
    {update : GrantRow Uuid UtcDatetime → GrantRow Uuid UtcDatetime} (holds : Lifecycles s)
    (tables : t.lifecycle = { s.lifecycle with
      grants := updateWhere hit update s.lifecycle.grants })
    (decisions : t.ledger.decisions = s.ledger.decisions)
    (keeps : ∀ g, Later g (update g))
    (active : ∀ g ∈ s.lifecycle.grants, hit g = true → g.status = .active) :
    Lifecycles t ∧ Settled s t := by
  have moved {g : GrantRow Uuid UtcDatetime} (member : g ∈ s.lifecycle.grants) :
      ∃ h ∈ updateWhere hit update s.lifecycle.grants, Later g h := by
    cases chosen : hit g with
    | true => exact ⟨update g, mem_updateWhere.mpr ⟨g, member, .inl ⟨chosen, rfl⟩⟩, keeps g⟩
    | false => exact ⟨g, mem_updateWhere.mpr ⟨g, member, .inr ⟨chosen, rfl⟩⟩, Later.refl g⟩
  refine ⟨?_, ?_⟩
  · constructor <;> simp only [tables, Database.Requires, decisions]
    · exact holds.keyed
    · exact holds.approvals
    · have same : ∀ g ∈ s.lifecycle.grants, hit g = true →
          some (update g).decisionId = some g.decisionId :=
        fun g _ _ => congrArg some (keeps g).decisionId
      exact (uniqueKey_updateWhere same).mpr holds.grants
    · exact (uniqueKey_updateWhere fun g _ _ => (keeps g).grantId).mpr holds.grantIds
    · exact holds.decisions
    · exact holds.bounded
    · intro g member
      obtain ⟨old, inOld, ⟨-, rfl⟩ | ⟨-, rfl⟩⟩ := mem_updateWhere.mp member
      · obtain ⟨a, inApprovals, issued⟩ := holds.issued old inOld
        refine ⟨a, inApprovals, ⟨?_, issued.approved, ?_, ?_, ?_⟩⟩
        · rw [(keeps old).decisionId]
          exact issued.decisionId
        · rw [(keeps old).issuedAt]
          exact issued.resolved
        · rw [(keeps old).issuedAt]
          exact issued.requested
        · rw [(keeps old).issuedAt]
          exact issued.valid
      · exact holds.issued g inOld
    · intro a member approved
      obtain ⟨g, inGrants, its⟩ := holds.granted a member approved
      obtain ⟨h, inNew, later⟩ := moved inGrants
      exact ⟨h, inNew, later.decisionId ▸ its⟩
    · exact holds.required
  · refine ⟨fun g member => ?_, fun a member _ => ?_, fun g member settled => ?_, ?_⟩
    · rw [tables]
      exact moved member
    · rwa [tables]
    · rw [tables]
      refine mem_updateWhere.mpr ⟨g, member, .inr ⟨?_, rfl⟩⟩
      by_contra chosen
      exact settled (active g member (Bool.not_eq_false _ ▸ chosen))
    · rw [decisions]

/-! ## Approval with a grant -/

/-- A pending approval is approved with a grant issued at that moment. -/
theorem Lifecycles.approved {g : GrantRow Uuid UtcDatetime} {a : ApprovalColumns}
    {hit : ApprovalColumns → Bool} {resolvedBy : Str} (holds : Lifecycles s)
    (member : a ∈ s.lifecycle.approvals) (its : a.decisionId = some g.decisionId)
    (pending : a.status = .pending) (requested : a.requestedAt ≤ g.issuedAt)
    (valid : ∀ expiresAt ∈ a.expiresAt, g.issuedAt < expiresAt)
    (fresh : ∀ h ∈ s.lifecycle.grants, ∀ id, g.grantId = some id → h.grantId ≠ some id)
    (hits : ∀ b ∈ s.lifecycle.approvals, hit b = true ↔ b = a)
    (tables : t.lifecycle = { s.lifecycle with
      approvals := updateWhere hit
        (ApprovalRepository.resolvedRow .approved g.issuedAt resolvedBy) s.lifecycle.approvals
      grants := s.lifecycle.grants ++ [g] })
    (decisions : t.ledger.decisions = s.ledger.decisions) : Lifecycles t ∧ Settled s t := by
  have ungranted := holds.ungranted member (by rw [pending]; decide)
  have chosen : hit a = true := (hits a member).mpr rfl
  have kept {b : ApprovalColumns} (inOld : b ∈ s.lifecycle.approvals) (settled : b.status ≠ .pending) :
      b ∈ updateWhere hit (ApprovalRepository.resolvedRow .approved g.issuedAt resolvedBy)
        s.lifecycle.approvals := by
    refine mem_updateWhere.mpr ⟨b, inOld, .inr ⟨?_, rfl⟩⟩
    by_contra isHit
    obtain rfl := (hits b inOld).mp (Bool.not_eq_false _ ▸ isHit)
    exact settled pending
  have resolved : ApprovalRepository.resolvedRow .approved g.issuedAt resolvedBy a ∈ updateWhere hit
      (ApprovalRepository.resolvedRow .approved g.issuedAt resolvedBy) s.lifecycle.approvals :=
    mem_updateWhere.mpr ⟨a, member, .inl ⟨chosen, rfl⟩⟩
  refine ⟨?_, ?_⟩
  · constructor <;> simp only [tables, Database.Requires, decisions]
    · intro b inNew
      obtain ⟨old, inOld, ⟨-, rfl⟩ | ⟨-, rfl⟩⟩ := mem_updateWhere.mp inNew
      · exact holds.keyed old inOld
      · exact holds.keyed b inOld
    · have same : ∀ b ∈ s.lifecycle.approvals, hit b = true →
          (ApprovalRepository.resolvedRow .approved g.issuedAt resolvedBy b).decisionId =
            b.decisionId := fun _ _ _ => rfl
      exact (uniqueKey_updateWhere same).mpr holds.approvals
    · refine (uniqueKey_append g).mpr ⟨holds.grants, ?_⟩
      rintro h inGrants id ⟨⟩ same
      exact ungranted h inGrants (its.trans same.symm)
    · exact (uniqueKey_append g).mpr ⟨holds.grantIds, fresh⟩
    · exact holds.decisions
    · intro b inNew
      obtain ⟨old, inOld, ⟨-, rfl⟩ | ⟨-, rfl⟩⟩ := mem_updateWhere.mp inNew
      · exact holds.bounded old inOld
      · exact holds.bounded b inOld
    · intro h inNew
      rcases List.mem_append.mp inNew with old | new
      · obtain ⟨b, inApprovals, issued⟩ := holds.issued h old
        refine ⟨b, kept inApprovals ?_, issued⟩
        rw [issued.approved]
        decide
      · obtain rfl := List.mem_singleton.mp new
        obtain ⟨expiresAt, bounded⟩ := holds.bounded a member
        exact ⟨_, resolved, its, rfl, rfl, requested, expiresAt, bounded, valid _ bounded⟩
    · intro b inNew approved
      obtain ⟨old, inOld, ⟨isHit, rfl⟩ | ⟨-, rfl⟩⟩ := mem_updateWhere.mp inNew
      · obtain rfl := (hits old inOld).mp isHit
        exact ⟨g, by simp, its⟩
      · obtain ⟨h, inGrants, same⟩ := holds.granted b inOld approved
        exact ⟨h, List.mem_append_left _ inGrants, same⟩
    · intro id
      rw [← Database.Requires, ← holds.required id]
      constructor
      · rintro ⟨b, inNew, named⟩
        obtain ⟨old, inOld, ⟨-, rfl⟩ | ⟨-, rfl⟩⟩ := mem_updateWhere.mp inNew
        · exact ⟨old, inOld, named⟩
        · exact ⟨b, inOld, named⟩
      · rintro ⟨b, inOld, named⟩
        cases isHit : hit b with
        | true => exact ⟨_, mem_updateWhere.mpr ⟨b, inOld, .inl ⟨isHit, rfl⟩⟩, named⟩
        | false => exact ⟨b, mem_updateWhere.mpr ⟨b, inOld, .inr ⟨isHit, rfl⟩⟩, named⟩
  · refine ⟨fun h inOld => ⟨h, ?_, Later.refl h⟩, fun b inOld settled => ?_, fun h inOld _ => ?_, ?_⟩
    · rw [tables]
      exact List.mem_append_left _ inOld
    · rw [tables]
      exact kept inOld settled
    · rw [tables]
      exact List.mem_append_left _ inOld
    · rw [decisions]

/-! ## Decisions -/

theorem Lifecycles.saved {d : DecisionRow} {authorization : AuthorizationResponse}
    {approval : Option ApprovalRecord} (holds : Lifecycles s)
    (row : d.decisionId = authorization.decisionId.str ∧ d.decision = authorization.decision.text)
    (fresh : ∀ e ∈ s.ledger.decisions, e.decisionId ≠ d.decisionId)
    (isMatch : Matches authorization approval)
    (tables : t.lifecycle = { s.lifecycle with
      approvals := s.lifecycle.approvals ++ approval.toList.map (·.row) })
    (decisions : t.ledger.decisions = s.ledger.decisions ++ [d]) : Lifecycles t ∧ Settled s t := by
  have absent : ¬ s.Requires authorization.decisionId := by
    rintro ⟨e, stored, named, -⟩
    exact fresh e stored (named.trans row.1.symm)
  have requires (id : Uuid) : t.Requires id ↔
      s.Requires id ∨ (id = authorization.decisionId ∧ authorization.decision = .requireApproval) := by
    unfold Database.Requires
    rw [decisions]
    constructor
    · rintro ⟨e, stored, named, required⟩
      rcases List.mem_append.mp stored with old | new
      · exact .inl ⟨e, old, named, required⟩
      · obtain rfl := List.mem_singleton.mp new
        exact .inr ⟨Uuid.str_inj _ _ (named.symm.trans row.1),
          decisionText_inj (row.2.symm.trans required)⟩
    · rintro (⟨e, stored, named, required⟩ | ⟨rfl, required⟩)
      · exact ⟨e, List.mem_append_left _ stored, named, required⟩
      · exact ⟨d, by simp, row.1, by rw [row.2, required]⟩
  have settled : Settled s t := by
    refine Settled.of_grants (by rw [tables]) (fun a member _ => ?_) ?_
    · rw [tables]
      exact List.mem_append_left _ member
    · rw [decisions]
      exact List.prefix_append _ _
  have unique : UniqueKey (fun d => some d.decisionId) t.ledger.decisions := by
    rw [decisions]
    refine (uniqueKey_append d).mpr ⟨holds.decisions, ?_⟩
    rintro e stored id ⟨⟩ same
    exact fresh e stored (Option.some.inj same)
  refine ⟨?_, settled⟩
  cases approval with
  | none =>
    rw [Option.toList_none, List.map_nil, List.append_nil] at tables
    constructor
    · rw [tables]
      exact holds.keyed
    · rw [tables]
      exact holds.approvals
    · rw [tables]
      exact holds.grants
    · rw [tables]
      exact holds.grantIds
    · exact unique
    · rw [tables]
      exact holds.bounded
    · rw [tables]
      exact holds.issued
    · rw [tables]
      exact holds.granted
    · intro id
      rw [tables, requires, ← holds.required]
      exact ⟨.inl, fun cases => cases.resolve_right fun new => isMatch new.2⟩
  | some approval =>
    obtain ⟨required, same, pending, expiresAt, bounded⟩ := isMatch
    have key : approval.row.decisionId = some authorization.decisionId := congrArg some same
    rw [Option.toList_some, List.map_singleton] at tables
    constructor
    · rw [tables]
      intro a member
      rcases List.mem_append.mp member with old | new
      · exact holds.keyed a old
      · rw [List.mem_singleton.mp new]
        exact ⟨_, key⟩
    · rw [tables]
      refine (uniqueKey_append _).mpr ⟨holds.approvals, fun a member id named other => ?_⟩
      rw [key, Option.some.injEq] at named
      exact absent ((holds.required _).mp ⟨a, member, named ▸ other⟩)
    · rw [tables]
      exact holds.grants
    · rw [tables]
      exact holds.grantIds
    · exact unique
    · rw [tables]
      intro a member
      rcases List.mem_append.mp member with old | new
      · exact holds.bounded a old
      · rw [List.mem_singleton.mp new]
        exact ⟨expiresAt, bounded⟩
    · rw [tables]
      intro g member
      obtain ⟨a, inApprovals, issued⟩ := holds.issued g member
      exact ⟨a, List.mem_append_left _ inApprovals, issued⟩
    · rw [tables]
      intro a member approved
      rcases List.mem_append.mp member with old | new
      · exact holds.granted a old approved
      · rw [List.mem_singleton.mp new] at approved
        exact absurd (pending.symm.trans approved) (by decide)
    · intro id
      rw [tables, requires, ← holds.required]
      constructor
      · rintro ⟨a, member, named⟩
        rcases List.mem_append.mp member with old | new
        · exact .inl ⟨a, old, named⟩
        · rw [List.mem_singleton.mp new, key, Option.some.injEq] at named
          exact .inr ⟨named.symm, required⟩
      · rintro (⟨a, member, named⟩ | ⟨rfl, -⟩)
        · exact ⟨a, List.mem_append_left _ member, named⟩
        · exact ⟨_, by simp, key⟩

end

/-! ## What it says of each row -/

namespace Database

/-- The grants of the approval's decision. -/
def grantsOf (db : Database) (a : ApprovalColumns) : List (GrantRow Uuid UtcDatetime) :=
  db.lifecycle.grants.filter fun g => a.decisionId = some g.decisionId

def approvalsOf (db : Database) (id : Uuid) : List ApprovalColumns :=
  db.lifecycle.approvals.filter fun a => a.decisionId = some id

end Database

namespace Lifecycles

variable {db : Database}

theorem grantsOf_eq (holds : Lifecycles db) {a : ApprovalColumns}
    (member : a ∈ db.lifecycle.approvals) (approved : a.status = .approved) :
    ∃ g, db.grantsOf a = [g] := by
  obtain ⟨g, inGrants, its⟩ := holds.granted a member approved
  refine ⟨g, holds.grants.filter_eq inGrants rfl fun h _ => ?_⟩
  rw [decide_eq_true_eq, its]
  exact eq_comm

theorem grantsOf_eq_nil (holds : Lifecycles db) {a : ApprovalColumns}
    (member : a ∈ db.lifecycle.approvals) (unapproved : a.status ≠ .approved) :
    db.grantsOf a = [] := by
  rw [Database.grantsOf, List.filter_eq_nil_iff]
  intro g inGrants its
  exact holds.ungranted member unapproved g inGrants (of_decide_eq_true its)

theorem approved_iff (holds : Lifecycles db) {a : ApprovalColumns}
    (member : a ∈ db.lifecycle.approvals) :
    a.status = .approved ↔ (db.grantsOf a).length = 1 := by
  constructor
  · intro approved
    obtain ⟨g, isIt⟩ := holds.grantsOf_eq member approved
    rw [isIt]
    rfl
  · intro one
    by_contra unapproved
    rw [holds.grantsOf_eq_nil member unapproved] at one
    cases one

theorem approvalsOf_length (holds : Lifecycles db) {id : Uuid} (requires : db.Requires id) :
    (db.approvalsOf id).length = 1 := by
  obtain ⟨a, member, its⟩ := (holds.required id).mpr requires
  have isIt : db.approvalsOf id = [a] :=
    holds.approvals.filter_eq member its fun b _ => decide_eq_true_iff
  rw [isIt]
  rfl

theorem approvalsOf_eq_nil (holds : Lifecycles db) {id : Uuid} (unrequired : ¬ db.Requires id) :
    db.approvalsOf id = [] := by
  rw [Database.approvalsOf, List.filter_eq_nil_iff]
  intro a member its
  exact unrequired ((holds.required id).mp ⟨a, member, of_decide_eq_true its⟩)

/-- A settled approval is still the only one of its decision. -/
theorem approval_stays {later : Database} (holds : Lifecycles later) (settled : Settled db later)
    {a : ApprovalColumns} (member : a ∈ db.lifecycle.approvals) (done : a.status ≠ .pending) :
    later.lifecycle.approvals.filter (fun b => b.decisionId = a.decisionId) = [a] := by
  have inLater := settled.approvals a member done
  obtain ⟨id, its⟩ := holds.keyed a inLater
  refine holds.approvals.filter_eq inLater its fun b _ => ?_
  rw [decide_eq_true_eq, its]

theorem grant_stays {later : Database} (holds : Lifecycles later) (settled : Settled db later)
    {g : GrantRow Uuid UtcDatetime} (member : g ∈ db.lifecycle.grants) (done : g.status ≠ .active) :
    later.lifecycle.grants.filter (fun h => h.decisionId = g.decisionId) = [g] := by
  refine holds.grants.filter_eq (settled.grants g member done) rfl fun h _ => ?_
  rw [decide_eq_true_eq, Option.some.injEq]

end Lifecycles

end DecAustrum
