import DecAustrum.Storage.ApprovalTables
import DecAustrum.Table

/-!
# What the constraints enforce

An `APPROVED` approval should have a grant, and a `CONSUMED` grant an `APPROVED` approval. The
triggers keep this but for three gaps: an insert may bring an `APPROVED` row, an update may consume
a grant of any approval, and `OR REPLACE` may take away what another row rests on.
-/
namespace DecAustrum

open Table

namespace LifecycleTables

variable {κ τ δ : Type}

def Granted (tables : LifecycleTables κ τ δ) (decision : Option κ) : Prop :=
  ∃ g ∈ tables.grants, decision = some g.decisionId

def Consumed (tables : LifecycleTables κ τ δ) (decision : Option κ) : Prop :=
  ∃ g ∈ tables.grants, g.status = .consumed ∧ decision = some g.decisionId

def Approved (tables : LifecycleTables κ τ δ) (decision : κ) : Prop :=
  ∃ a ∈ tables.approvals, a.decisionId = some decision ∧ a.status = .approved

/-- Approval before execution, as the tables show it. -/
structure Enforced (tables : LifecycleTables κ τ δ) : Prop where
  granted : ∀ a ∈ tables.approvals, a.status = .approved → tables.Granted a.decisionId
  approved : ∀ g ∈ tables.grants, g.status = .consumed → tables.Approved g.decisionId

/-- What the keys keep over every statement. -/
structure Keyed (tables : LifecycleTables κ τ δ) : Prop where
  approvals : UniqueKey (·.decisionId) tables.approvals
  grants : UniqueKey (fun g => some g.decisionId) tables.grants

theorem keyed_empty : Keyed (⟨[], []⟩ : LifecycleTables κ τ δ) := ⟨uniqueKey_nil, uniqueKey_nil⟩

theorem enforced_empty : Enforced (⟨[], []⟩ : LifecycleTables κ τ δ) := ⟨by simp, by simp⟩

variable [DecidableEq κ] [DecidableEq τ] [LT τ] [LE τ] [DecidableLT τ] [DecidableLE τ]
variable [DecidableEq δ] [DigestColumn δ]
variable {parents : Parents κ} {tables after : LifecycleTables κ τ δ}

omit [DecidableEq τ] [LT τ] [LE τ] [DecidableLT τ] [DecidableLE τ] in
/-- What a statement may do where it is accepted: bring an `APPROVED` row only for a decision with a
grant, consume a grant only of an `APPROVED` approval, and replace neither the approval of a
consumed grant, except by one that is `APPROVED`, nor the grant of an `APPROVED` approval. -/
def Respects (tables : LifecycleTables κ τ δ) : LifecycleStatement κ τ δ → Prop
  | .insertApproval row => row.status = .approved → tables.Granted row.decisionId
  | .insertOrReplaceApproval rowid row =>
    (row.status = .approved → tables.Granted row.decisionId) ∧
      ∀ a ∈ tables.approvals, a ∉ tables.sparedApprovals rowid row → tables.Consumed a.decisionId →
        row.status = .approved ∧ row.decisionId = a.decisionId
  | .updateOrReplaceApproval i rowid _ => i < tables.approvals.length → i ≠ rowid →
      ∀ a, tables.approvals[rowid]? = some a → ¬ tables.Consumed a.decisionId
  | .insertOrReplaceGrant rowid row =>
      ∀ g ∈ tables.grants, g ∉ tables.sparedGrants rowid row → ¬ tables.Approved g.decisionId
  | .updateGrant i row => i < tables.grants.length → row.status = .consumed →
      tables.Approved row.decisionId
  | .updateOrReplaceGrant i rowid row => i < tables.grants.length →
      (row.status = .consumed → tables.Approved row.decisionId) ∧
        (i ≠ rowid → ∀ g, tables.grants[rowid]? = some g → ¬ tables.Approved g.decisionId)
  | _ => True

/-! ## Inserts -/

omit [DecidableEq τ] [LE τ] [DecidableLE τ] [DecidableEq δ] [DigestColumn δ] in
theorem insertApproval_cases {row : ApprovalRow κ τ}
    (accepted : tables.insertApproval parents row = some after) :
    after = { tables with approvals := tables.approvals ++ [row] } ∧
      ∀ a ∈ tables.approvals, ∀ k, row.decisionId = some k → a.decisionId ≠ some k := by
  unfold insertApproval at accepted
  split at accepted
  · rename_i passed
    refine ⟨(Option.some.inj accepted).symm, ?_⟩
    intro a member k keyRow keyA
    have fresh := (Bool.and_eq_true_iff.mp passed).2
    simp only [Bool.not_eq_true', List.any_eq_false] at fresh
    exact fresh a member (by simp [keyRow, keyA])
  · cases accepted

omit [DecidableEq κ] [DecidableEq τ] [LT τ] [LE τ] [DecidableLT τ] [DecidableLE τ]
  [DecidableEq δ] [DigestColumn δ] in
/-- An approval comes and others may go. -/
theorem enforced_addApproval {row : ApprovalRow κ τ} {spared : List (ApprovalRow κ τ)}
    (keyed : tables.Keyed) (enforced : tables.Enforced) (sub : spared.Sublist tables.approvals)
    (fresh : ∀ a ∈ spared, ∀ k, row.decisionId = some k → a.decisionId ≠ some k) :
    Keyed ⟨spared ++ [row], tables.grants⟩ ∧ (Enforced ⟨spared ++ [row], tables.grants⟩ ↔
      (row.status = .approved → tables.Granted row.decisionId) ∧
        ∀ a ∈ tables.approvals, a ∉ spared → tables.Consumed a.decisionId →
          row.status = .approved ∧ row.decisionId = a.decisionId) := by
  refine ⟨⟨(uniqueKey_append row).mpr ⟨keyed.approvals.sublist sub, fresh⟩, keyed.grants⟩, ?_, ?_⟩
  · intro holds
    refine ⟨fun approved => holds.granted row (by simp) approved, ?_⟩
    rintro a member gone ⟨g, inGrants, consumed, keyA⟩
    obtain ⟨b, inAfter, keyB, approved⟩ := holds.approved g inGrants consumed
    rcases List.mem_append.mp inAfter with old | new
    · -- the key has one approval, which is gone
      exact absurd (keyed.approvals.eq member (sub.mem old) keyA keyB ▸ old) gone
    · obtain rfl := List.mem_singleton.mp new
      exact ⟨approved, keyB.trans keyA.symm⟩
  · rintro ⟨brings, replaces⟩
    refine ⟨?_, ?_⟩
    · intro a member approved
      rcases List.mem_append.mp member with old | new
      · exact enforced.granted a (sub.mem old) approved
      · obtain rfl := List.mem_singleton.mp new
        exact brings approved
    · intro g member consumed
      obtain ⟨a, inApprovals, keyA, approved⟩ := enforced.approved g member consumed
      by_cases stays : a ∈ spared
      · exact ⟨a, List.mem_append_left _ stays, keyA, approved⟩
      · obtain ⟨approves, same⟩ := replaces a inApprovals stays ⟨g, member, consumed, keyA⟩
        exact ⟨row, by simp, same.trans keyA, approves⟩

omit [DecidableEq τ] [LT τ] [LE τ] [DecidableLT τ] [DecidableLE τ] [DecidableEq δ]
  [DigestColumn δ] in
theorem sparedApprovals_sublist (rowid : Option Nat) (row : ApprovalRow κ τ) :
    (tables.sparedApprovals rowid row).Sublist tables.approvals :=
  List.filter_sublist.trans (withoutRow_sublist rowid _)

omit [DecidableEq τ] [LE τ] [DecidableLE τ] [DigestColumn δ] in
theorem enforced_insertApproval {row : ApprovalRow κ τ} (keyed : tables.Keyed)
    (enforced : tables.Enforced) (accepted : tables.insertApproval parents row = some after) :
    after.Keyed ∧ (after.Enforced ↔ tables.Respects (.insertApproval row)) := by
  obtain ⟨rfl, fresh⟩ := insertApproval_cases accepted
  obtain ⟨keyedAfter, holds⟩ := enforced_addApproval keyed enforced (List.Sublist.refl _) fresh
  refine ⟨keyedAfter, holds.trans (and_iff_left ?_)⟩
  exact fun a member gone => absurd member gone

omit [DecidableEq τ] [LE τ] [DecidableLE τ] [DigestColumn δ] in
theorem enforced_insertOrReplaceApproval {rowid : Option Nat} {row : ApprovalRow κ τ}
    (keyed : tables.Keyed) (enforced : tables.Enforced)
    (accepted : insertApproval parents
      { tables with approvals := tables.sparedApprovals rowid row } row = some after) :
    after.Keyed ∧ (after.Enforced ↔ tables.Respects (.insertOrReplaceApproval rowid row)) := by
  obtain ⟨rfl, fresh⟩ := insertApproval_cases accepted
  exact enforced_addApproval keyed enforced (sparedApprovals_sublist rowid row) fresh

omit [DecidableEq τ] in
theorem insertGrant_cases {row : GrantRow κ τ δ}
    (accepted : tables.insertGrant parents row = some after) :
    after = { tables with grants := tables.grants ++ [row] } ∧ row.status = .active ∧
      (∃ a ∈ tables.approvals, a.decisionId = some row.decisionId ∧ a.status = .pending) ∧
      ∀ g ∈ tables.grants, g.decisionId ≠ row.decisionId := by
  unfold insertGrant at accepted
  split at accepted
  · rename_i passed
    simp only [grantScope, Bool.and_eq_true, List.any_eq_true, decide_eq_true_eq,
      Bool.not_eq_true', List.any_eq_false, Bool.or_eq_true, not_or] at passed
    obtain ⟨⟨⟨⟨⟨⟨active, -⟩, a, member, ⟨⟨keyA, pending⟩, -⟩, -⟩, -⟩, -⟩, -⟩, fresh⟩ := passed
    exact ⟨(Option.some.inj accepted).symm, active, ⟨a, member, keyA, pending⟩,
      fun g inGrants => (fresh g inGrants).1.2⟩
  · cases accepted

omit [DecidableEq κ] [DecidableEq τ] [LT τ] [LE τ] [DecidableLT τ] [DecidableLE τ]
  [DigestColumn δ] in
/-- An active grant of a pending approval comes and others may go. -/
theorem enforced_addGrant {row : GrantRow κ τ δ} {spared : List (GrantRow κ τ δ)}
    (keyed : tables.Keyed) (enforced : tables.Enforced) (sub : spared.Sublist tables.grants)
    (active : row.status = .active)
    (scope : ∃ a ∈ tables.approvals, a.decisionId = some row.decisionId ∧ a.status = .pending)
    (fresh : ∀ g ∈ spared, g.decisionId ≠ row.decisionId) :
    Keyed ⟨tables.approvals, spared ++ [row]⟩ ∧ (Enforced ⟨tables.approvals, spared ++ [row]⟩ ↔
      ∀ g ∈ tables.grants, g ∉ spared → ¬ tables.Approved g.decisionId) := by
  obtain ⟨pendingRow, inApprovals, keyPending, pending⟩ := scope
  refine ⟨⟨keyed.approvals, (uniqueKey_append row).mpr ⟨keyed.grants.sublist sub, ?_⟩⟩, ?_, ?_⟩
  · rintro g member k keyRow keyG
    exact fresh g member (Option.some.inj (keyG.trans keyRow.symm))
  · rintro holds g member gone ⟨a, inApprovalsA, keyA, approved⟩
    obtain ⟨h, inAfter, keyH⟩ := holds.granted a inApprovalsA approved
    rcases List.mem_append.mp inAfter with old | new
    · -- the decision has one grant, which is gone
      have same : h = g := keyed.grants.eq (sub.mem old) member (keyH.symm.trans keyA) rfl
      exact gone (same ▸ old)
    · -- the approval of the new grant is pending
      obtain rfl := List.mem_singleton.mp new
      rw [keyed.approvals.eq inApprovalsA inApprovals keyH keyPending, pending] at approved
      cases approved
  · intro replaces
    refine ⟨?_, ?_⟩
    · intro a member approved
      obtain ⟨g, inGrants, keyA⟩ := enforced.granted a member approved
      by_cases stays : g ∈ spared
      · exact ⟨g, List.mem_append_left _ stays, keyA⟩
      · exact absurd ⟨a, member, keyA, approved⟩ (replaces g inGrants stays)
    · intro g member consumed
      rcases List.mem_append.mp member with old | new
      · exact enforced.approved g (sub.mem old) consumed
      · obtain rfl := List.mem_singleton.mp new
        rw [active] at consumed
        cases consumed

omit [DecidableEq τ] [LT τ] [LE τ] [DecidableLT τ] [DecidableLE τ] [DigestColumn δ] in
theorem sparedGrants_sublist (rowid : Option Nat) (row : GrantRow κ τ δ) :
    (tables.sparedGrants rowid row).Sublist tables.grants :=
  List.filter_sublist.trans (withoutRow_sublist rowid _)

omit [DecidableEq τ] in
theorem enforced_insertGrant {row : GrantRow κ τ δ} (keyed : tables.Keyed)
    (enforced : tables.Enforced) (accepted : tables.insertGrant parents row = some after) :
    after.Keyed ∧ (after.Enforced ↔ tables.Respects (.insertGrant row)) := by
  obtain ⟨rfl, active, scope, fresh⟩ := insertGrant_cases accepted
  obtain ⟨keyedAfter, holds⟩ :=
    enforced_addGrant keyed enforced (List.Sublist.refl _) active scope fresh
  exact ⟨keyedAfter, holds.trans (iff_true_intro fun g member gone => absurd member gone)⟩

omit [DecidableEq τ] in
theorem enforced_insertOrReplaceGrant {rowid : Option Nat} {row : GrantRow κ τ δ}
    (keyed : tables.Keyed) (enforced : tables.Enforced)
    (accepted : insertGrant parents { tables with grants := tables.sparedGrants rowid row } row =
      some after) :
    after.Keyed ∧ (after.Enforced ↔ tables.Respects (.insertOrReplaceGrant rowid row)) := by
  obtain ⟨rfl, active, scope, fresh⟩ := insertGrant_cases accepted
  exact enforced_addGrant keyed enforced (sparedGrants_sublist rowid row) active scope fresh

/-! ## Updates -/

omit [LE τ] [DecidableLE τ] [DecidableEq δ] [DigestColumn δ] in
theorem updateApproval_cases {i : Nat} {new : ApprovalRow κ τ}
    (accepted : tables.updateApproval i new = some after) :
    after = tables ∨ ∃ old, tables.approvals[i]? = some old ∧
      after = { tables with approvals := tables.approvals.set i new } ∧
      new.decisionId = old.decisionId ∧ old.status = .pending ∧
      (new.status = .approved →
        ∃ g ∈ tables.grants, new.decisionId = some g.decisionId ∧ g.status = .active) := by
  unfold updateApproval at accepted
  split at accepted
  · exact .inl (Option.some.inj accepted).symm
  · rename_i old found
    split at accepted
    · rename_i passed
      simp only [approvalLifecycle, grantedApproval, Bool.and_eq_true, Bool.or_eq_true,
        Bool.not_eq_true', Bool.and_eq_false_iff, decide_eq_true_eq, decide_eq_false_iff_not,
        List.any_eq_true] at passed
      obtain ⟨⟨⟨⟨⟨⟨key, -⟩, -⟩, pending⟩, -⟩, granted⟩, -⟩ := passed
      refine .inr ⟨old, found, (Option.some.inj accepted).symm, key.symm, pending, ?_⟩
      intro approved
      rcases granted with (notPending | notApproved) | ⟨g, member, keyG, active⟩
      · exact absurd pending notPending
      · exact absurd approved notApproved
      · exact ⟨g, member, keyG.symm, active⟩
    · cases accepted

omit [LE τ] [DecidableLE τ] [DecidableEq δ] [DigestColumn δ] in
theorem enforced_updateApproval {i : Nat} {new : ApprovalRow κ τ} (keyed : tables.Keyed)
    (accepted : tables.updateApproval i new = some after) :
    after.Keyed ∧ (after.Enforced ↔ tables.Enforced) := by
  rcases updateApproval_cases accepted with rfl | ⟨old, found, rfl, key, pending, granted⟩
  · exact ⟨keyed, Iff.rfl⟩
  have kept : ∀ a ∈ tables.approvals, a.status ≠ .pending → a ∈ tables.approvals.set i new := by
    intro a member settled
    apply mem_set_of_ne found member
    rintro rfl
    exact settled pending
  refine ⟨⟨(uniqueKey_set found key).mpr keyed.approvals, keyed.grants⟩, ?_, ?_⟩
  · intro enforced
    refine ⟨?_, ?_⟩
    · intro a member approved
      exact enforced.granted a (kept a member (by simp [approved])) approved
    · intro g member consumed
      obtain ⟨a, inApprovals, keyA, approved⟩ := enforced.approved g member consumed
      rcases List.mem_or_eq_of_mem_set inApprovals with unchanged | rfl
      · exact ⟨a, unchanged, keyA, approved⟩
      · -- the trigger found an active grant of this decision, and the decision has one grant
        obtain ⟨h, inGrants, keyH, active⟩ := granted approved
        have same : g = h := keyed.grants.eq member inGrants (keyA.symm.trans keyH) rfl
        rw [same, active] at consumed
        cases consumed
  · intro enforced
    refine ⟨?_, ?_⟩
    · intro a member approved
      rcases List.mem_or_eq_of_mem_set member with unchanged | rfl
      · exact enforced.granted a unchanged approved
      · obtain ⟨g, inGrants, keyG, -⟩ := granted approved
        exact ⟨g, inGrants, keyG⟩
    · intro g member consumed
      obtain ⟨a, inApprovals, keyA, approved⟩ := enforced.approved g member consumed
      exact ⟨a, kept a inApprovals (by simp [approved]), keyA, approved⟩

omit [LE τ] [DecidableLE τ] in
theorem updateGrant_cases {i : Nat} {new : GrantRow κ τ δ}
    (accepted : tables.updateGrant i new = some after) :
    (after = tables ∧ tables.grants.length ≤ i) ∨ ∃ old, tables.grants[i]? = some old ∧
      after = { tables with grants := tables.grants.set i new } ∧
      new.decisionId = old.decisionId ∧ old.status = .active := by
  unfold updateGrant at accepted
  split at accepted
  · rename_i absent
    exact .inl ⟨(Option.some.inj accepted).symm, List.getElem?_eq_none_iff.mp absent⟩
  · rename_i old found
    split at accepted
    · rename_i passed
      simp only [grantLifecycle, Bool.and_eq_true, decide_eq_true_eq] at passed
      obtain ⟨⟨⟨⟨⟨⟨⟨⟨⟨-, key⟩, -⟩, -⟩, -⟩, -⟩, -⟩, active⟩, -⟩, -⟩ := passed
      exact .inr ⟨old, found, (Option.some.inj accepted).symm, key.symm, active⟩
    · cases accepted

omit [LE τ] [DecidableLE τ] in
theorem enforced_updateGrant {i : Nat} {new : GrantRow κ τ δ} (keyed : tables.Keyed)
    (accepted : tables.updateGrant i new = some after) :
    after.Keyed ∧ (after.Enforced ↔ tables.Enforced ∧ tables.Respects (.updateGrant i new)) := by
  rcases updateGrant_cases accepted with ⟨rfl, beyond⟩ | ⟨old, found, rfl, key, active⟩
  · refine ⟨keyed, fun enforced => ⟨enforced, ?_⟩, And.left⟩
    intro within
    omega
  obtain ⟨within, -⟩ := List.getElem?_eq_some_iff.mp found
  refine ⟨⟨keyed.approvals, (uniqueKey_set found (by simp [key])).mpr keyed.grants⟩, ?_, ?_⟩
  · intro enforced
    refine ⟨⟨?_, ?_⟩, fun _ consumed => enforced.approved new (mem_set_self found) consumed⟩
    · intro a member approved
      obtain ⟨g, inGrants, keyA⟩ := enforced.granted a member approved
      rcases List.mem_or_eq_of_mem_set inGrants with unchanged | rfl
      · exact ⟨g, unchanged, keyA⟩
      · exact ⟨old, List.mem_of_getElem? found, key ▸ keyA⟩
    · intro g member consumed
      refine enforced.approved g (mem_set_of_ne found member ?_) consumed
      rintro rfl
      rw [active] at consumed
      cases consumed
  · rintro ⟨enforced, respects⟩
    refine ⟨?_, ?_⟩
    · intro a member approved
      obtain ⟨g, inGrants, keyA⟩ := enforced.granted a member approved
      by_cases replaced : g = old
      · subst replaced
        exact ⟨new, mem_set_self found, key ▸ keyA⟩
      · exact ⟨g, mem_set_of_ne found inGrants replaced, keyA⟩
    · intro g member consumed
      rcases List.mem_or_eq_of_mem_set member with unchanged | rfl
      · exact enforced.approved g unchanged consumed
      · exact respects within consumed

/-! ## Updates that replace a row -/

omit [DecidableEq κ] [DecidableEq τ] [LT τ] [LE τ] [DecidableLT τ] [DecidableLE τ]
  [DecidableEq δ] [DigestColumn δ] in
/-- An approval goes. -/
theorem enforced_eraseApproval {j : Nat} (keyed : tables.Keyed) (enforced : tables.Enforced) :
    Keyed { tables with approvals := tables.approvals.eraseIdx j } ∧
      (Enforced { tables with approvals := tables.approvals.eraseIdx j } ↔
        ∀ a, tables.approvals[j]? = some a → ¬ tables.Consumed a.decisionId) := by
  have sub := List.eraseIdx_sublist tables.approvals j
  refine ⟨⟨keyed.approvals.sublist sub, keyed.grants⟩, ?_, ?_⟩
  · rintro holds a found ⟨g, inGrants, consumed, keyA⟩
    obtain ⟨b, stays, keyB, -⟩ := holds.approved g inGrants consumed
    exact keyed.approvals.erased found keyA b stays keyB
  · intro unused
    refine ⟨fun a member => enforced.granted a (sub.mem member), ?_⟩
    intro g member consumed
    obtain ⟨a, inApprovals, keyA, approved⟩ := enforced.approved g member consumed
    refine ⟨a, ?_, keyA, approved⟩
    obtain ⟨i, found⟩ := List.mem_iff_getElem?.mp inApprovals
    refine List.mem_eraseIdx_iff_getElem?.mpr ⟨i, ?_, found⟩
    rintro rfl
    exact unused a found ⟨g, member, consumed, keyA⟩

omit [DecidableEq κ] [DecidableEq τ] [LT τ] [LE τ] [DecidableLT τ] [DecidableLE τ]
  [DecidableEq δ] [DigestColumn δ] in
/-- A grant goes. -/
theorem enforced_eraseGrant {j : Nat} (keyed : tables.Keyed) (enforced : tables.Enforced) :
    Keyed { tables with grants := tables.grants.eraseIdx j } ∧
      (Enforced { tables with grants := tables.grants.eraseIdx j } ↔
        ∀ g, tables.grants[j]? = some g → ¬ tables.Approved g.decisionId) := by
  have sub := List.eraseIdx_sublist tables.grants j
  refine ⟨⟨keyed.approvals, keyed.grants.sublist sub⟩, ?_, ?_⟩
  · rintro holds g found ⟨a, inApprovals, keyA, approved⟩
    obtain ⟨h, stays, keyH⟩ := holds.granted a inApprovals approved
    exact keyed.grants.erased found rfl h stays (keyH.symm.trans keyA)
  · intro unused
    refine ⟨?_, fun g member => enforced.approved g (sub.mem member)⟩
    intro a member approved
    obtain ⟨g, inGrants, keyA⟩ := enforced.granted a member approved
    refine ⟨g, ?_, keyA⟩
    obtain ⟨i, found⟩ := List.mem_iff_getElem?.mp inGrants
    refine List.mem_eraseIdx_iff_getElem?.mpr ⟨i, ?_, found⟩
    rintro rfl
    exact unused g found ⟨a, member, keyA, approved⟩

omit [LE τ] [DecidableLE τ] [DigestColumn δ] in
theorem enforced_updateOrReplaceApproval {i rowid : Nat} {new : ApprovalRow κ τ}
    (keyed : tables.Keyed) (enforced : tables.Enforced)
    (accepted : ((tables.updateApproval i new).map fun t =>
      { t with approvals := replacing i rowid tables.approvals t.approvals }) = some after) :
    after.Keyed ∧ (after.Enforced ↔ tables.Respects (.updateOrReplaceApproval i rowid new)) := by
  obtain ⟨mid, updated, rfl⟩ := Option.map_eq_some_iff.mp accepted
  obtain ⟨keyedMid, same⟩ := enforced_updateApproval keyed updated
  have enforcedMid := same.mpr enforced
  by_cases replaces : i < tables.approvals.length ∧ i ≠ rowid
  · obtain ⟨keyedAfter, holds⟩ := @enforced_eraseApproval κ τ δ mid rowid keyedMid enforcedMid
    have kept : mid.approvals[rowid]? = tables.approvals[rowid]? ∧ mid.grants = tables.grants := by
      rcases updateApproval_cases updated with rfl | ⟨_, -, rfl, -⟩
      · exact ⟨rfl, rfl⟩
      · exact ⟨List.getElem?_set_ne replaces.2, rfl⟩
    have consumed (decision : Option κ) : mid.Consumed decision ↔ tables.Consumed decision := by
      unfold Consumed
      rw [kept.2]
    simp only [kept.1, consumed] at holds
    rw [replacing, if_pos replaces]
    exact ⟨keyedAfter, holds.trans ⟨fun unused _ _ => unused, fun unused =>
      unused replaces.1 replaces.2⟩⟩
  · rw [replacing, if_neg replaces]
    exact ⟨keyedMid, iff_of_true enforcedMid fun within apart => absurd ⟨within, apart⟩ replaces⟩

omit [LE τ] [DecidableLE τ] in
theorem enforced_updateOrReplaceGrant {i rowid : Nat} {new : GrantRow κ τ δ}
    (keyed : tables.Keyed) (enforced : tables.Enforced)
    (accepted : ((tables.updateGrant i new).map fun t =>
      { t with grants := replacing i rowid tables.grants t.grants }) = some after) :
    after.Keyed ∧ (after.Enforced ↔ tables.Respects (.updateOrReplaceGrant i rowid new)) := by
  obtain ⟨mid, updated, rfl⟩ := Option.map_eq_some_iff.mp accepted
  obtain ⟨keyedMid, holdsMid⟩ := enforced_updateGrant keyed updated
  rw [and_iff_right enforced] at holdsMid
  by_cases replaces : i < tables.grants.length ∧ i ≠ rowid
  · have kept : mid.approvals = tables.approvals ∧ mid.grants[i]? = some new ∧
        mid.grants[rowid]? = tables.grants[rowid]? := by
      rcases updateGrant_cases updated with ⟨-, beyond⟩ | ⟨_, -, rfl, -⟩
      · omega
      · exact ⟨rfl, List.getElem?_set_self replaces.1, List.getElem?_set_ne replaces.2⟩
    have erase (enforcedMid : mid.Enforced) := @enforced_eraseGrant κ τ δ mid rowid keyedMid enforcedMid
    have approved (decision : κ) : mid.Approved decision ↔ tables.Approved decision := by
      unfold Approved
      rw [kept.1]
    simp only [kept.2.2, approved] at erase
    rw [replacing, if_pos replaces]
    refine ⟨⟨keyedMid.approvals, keyedMid.grants.sublist (List.eraseIdx_sublist _ _)⟩, ?_, ?_⟩
    · intro holds within
      have approves : new.status = .consumed → tables.Approved new.decisionId := by
        intro consumed
        obtain ⟨a, inApprovals, keyA, approved⟩ := holds.approved new
          (List.mem_eraseIdx_iff_getElem?.mpr ⟨i, replaces.2, kept.2.1⟩) consumed
        exact ⟨a, kept.1 ▸ inApprovals, keyA, approved⟩
      exact ⟨approves, fun _ => (erase (holdsMid.mpr fun _ => approves)).2.mp holds⟩
    · intro respects
      obtain ⟨approves, unused⟩ := respects replaces.1
      exact (erase (holdsMid.mpr fun _ => approves)).2.mpr (unused replaces.2)
  · rw [replacing, if_neg replaces]
    refine ⟨keyedMid, holdsMid.trans ⟨fun approves within => ⟨approves within, fun apart =>
      absurd ⟨within, apart⟩ replaces⟩, fun respects within => (respects within).1⟩⟩

/-! ## Runs -/

theorem enforced_execute {statement : LifecycleStatement κ τ δ} (keyed : tables.Keyed)
    (enforced : tables.Enforced) (accepted : tables.execute parents statement = some after) :
    after.Keyed ∧ (after.Enforced ↔ tables.Respects statement) := by
  cases statement with
  | insertApproval row => exact enforced_insertApproval keyed enforced accepted
  | insertOrReplaceApproval rowid row =>
    exact enforced_insertOrReplaceApproval keyed enforced accepted
  | updateApproval i row =>
    obtain ⟨keyedAfter, same⟩ := enforced_updateApproval keyed accepted
    exact ⟨keyedAfter, iff_of_true (same.mpr enforced) trivial⟩
  | updateOrReplaceApproval i rowid row =>
    exact enforced_updateOrReplaceApproval keyed enforced accepted
  | insertGrant row => exact enforced_insertGrant keyed enforced accepted
  | insertOrReplaceGrant rowid row => exact enforced_insertOrReplaceGrant keyed enforced accepted
  | updateGrant i row =>
    obtain ⟨keyedAfter, same⟩ := enforced_updateGrant keyed accepted
    exact ⟨keyedAfter, same.trans (and_iff_right enforced)⟩
  | updateOrReplaceGrant i rowid row =>
    exact enforced_updateOrReplaceGrant keyed enforced accepted
  | deleteApproval i =>
    simp only [execute] at accepted
    split at accepted
    · cases accepted
    · cases accepted
      exact ⟨keyed, iff_of_true enforced trivial⟩
  | deleteGrant i =>
    simp only [execute] at accepted
    split at accepted
    · cases accepted
    · cases accepted
      exact ⟨keyed, iff_of_true enforced trivial⟩

/-- Every statement that is accepted respects the tables it finds. -/
def AllRespect (parents : Parents κ) :
    LifecycleTables κ τ δ → List (LifecycleStatement κ τ δ) → Prop
  | _, [] => True
  | tables, statement :: rest =>
    ((tables.execute parents statement).isSome → tables.Respects statement) ∧
      AllRespect parents ((tables.execute parents statement).getD tables) rest

theorem enforced_run_iff (keyed : tables.Keyed) (enforced : tables.Enforced)
    (statements : List (LifecycleStatement κ τ δ)) :
    (∀ before, before <+: statements → (tables.run parents before).Enforced) ↔
      AllRespect parents tables statements := by
  induction statements generalizing tables with
  | nil =>
    refine iff_of_true ?_ trivial
    intro before start
    rw [List.prefix_nil.mp start]
    exact enforced
  | cons statement rest ih =>
    have step : (∀ before, before <+: statement :: rest → (tables.run parents before).Enforced) ↔
        ∀ before, before <+: rest →
          (((tables.execute parents statement).getD tables).run parents before).Enforced := by
      constructor
      · intro holds before start
        exact holds (statement :: before) ((List.prefix_cons_inj statement).mpr start)
      · intro holds before start
        rcases List.prefix_cons_iff.mp start with rfl | ⟨shorter, rfl, within⟩
        · exact enforced
        · exact holds shorter within
    rw [step]
    cases result : tables.execute parents statement with
    | none => simpa [AllRespect, result] using ih keyed enforced
    | some after =>
      obtain ⟨keyedAfter, respects⟩ := enforced_execute keyed enforced result
      rw [AllRespect, result, Option.getD_some, Option.isSome_some, imp_iff_right rfl]
      constructor
      · intro holds
        have enforcedAfter : after.Enforced := holds [] (List.nil_prefix)
        exact ⟨respects.mp enforcedAfter, (ih keyedAfter enforcedAfter).mp holds⟩
      · rintro ⟨does, later⟩
        exact (ih keyedAfter (respects.mpr does)).mpr later

end LifecycleTables

open LifecycleTables

/-- Over any sequence of statements the tables always show approval before execution exactly when
every accepted statement respected the tables it found. -/
theorem approval_enforced_iff {κ τ δ : Type} [DecidableEq κ] [DecidableEq δ] [DigestColumn δ] [DecidableEq τ] [LT τ] [LE τ]
    [DecidableLT τ] [DecidableLE τ] (parents : Parents κ)
    (statements : List (LifecycleStatement κ τ δ)) :
    (∀ before, before <+: statements → (run parents ⟨[], []⟩ before).Enforced) ↔
      AllRespect parents ⟨[], []⟩ statements :=
  enforced_run_iff keyed_empty enforced_empty statements

/-- Decision 1 of project 7 requires approval. -/
private def sampleParents : Parents Nat :=
  ⟨fun d => d = 1, fun d p => d = 1 && p = 7, fun p => p = 7⟩

private def sampleFresh : LifecycleTables Nat Nat := ⟨[], []⟩

private def sampleApproval (status : ApprovalStatus) : ApprovalRow Nat Nat :=
  { decisionId := some 1, status, requestedAt := 0, expiresAt := none,
    resolvedAt := if status = .pending then none else some 5,
    resolvedBy := if status = .pending then none else some [0x61] }

private def sampleGrant (status : GrantStatus) : GrantRow Nat Nat :=
  { grantId := some 3, decisionId := 1, projectId := 7, status,
    requestFingerprint := List.replicate 64 0x30, tokenHash := List.replicate 64 0x31,
    issuedAt := 1, expiresAt := 9,
    consumedAt := if status = .consumed then some 2 else none,
    consumedBy := if status = .consumed then some [0x61] else none }

/-- An approval inserted as `APPROVED`, a grant consumed while its approval is `PENDING`, and the
approval of a consumed grant replaced by a pending one. -/
theorem unguarded_statements_accepted :
    (¬ (run sampleParents sampleFresh [.insertApproval (sampleApproval .approved)]).Enforced) ∧
      (¬ (run sampleParents sampleFresh [.insertApproval (sampleApproval .pending),
        .insertGrant (sampleGrant .active), .updateGrant 0 (sampleGrant .consumed)]).Enforced) ∧
      ¬ (run sampleParents sampleFresh [.insertApproval (sampleApproval .pending),
        .insertGrant (sampleGrant .active), .updateApproval 0 (sampleApproval .approved),
        .updateGrant 0 (sampleGrant .consumed),
        .insertOrReplaceApproval none (sampleApproval .pending)]).Enforced := by
  have first : run sampleParents sampleFresh [.insertApproval (sampleApproval .approved)] =
      ⟨[sampleApproval .approved], []⟩ := by decide
  have second : run sampleParents sampleFresh [.insertApproval (sampleApproval .pending),
      .insertGrant (sampleGrant .active), .updateGrant 0 (sampleGrant .consumed)] =
      ⟨[sampleApproval .pending], [sampleGrant .consumed]⟩ := by decide +kernel
  have third : run sampleParents sampleFresh [.insertApproval (sampleApproval .pending),
      .insertGrant (sampleGrant .active), .updateApproval 0 (sampleApproval .approved),
      .updateGrant 0 (sampleGrant .consumed),
      .insertOrReplaceApproval none (sampleApproval .pending)] =
      ⟨[sampleApproval .pending], [sampleGrant .consumed]⟩ := by decide +kernel
  have unapproved : ¬ Enforced (⟨[sampleApproval .pending], [sampleGrant .consumed]⟩ :
      LifecycleTables Nat Nat) := by
    intro enforced
    obtain ⟨a, member, -, approved⟩ := enforced.approved _ (List.mem_singleton_self _) rfl
    rw [List.mem_singleton.mp member] at approved
    cases approved
  rw [first, second, third]
  refine ⟨?_, unapproved, unapproved⟩
  intro enforced
  obtain ⟨g, member, -⟩ := enforced.granted _ (List.mem_singleton_self _) rfl
  cases member

end DecAustrum
