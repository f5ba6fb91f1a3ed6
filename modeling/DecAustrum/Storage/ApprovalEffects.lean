import DecAustrum.Storage.Approvals

/-!
# What the approval statements leave

The rows that the statements on `approval_requests` and `execution_grants` change when they do not
raise: the triggers let each of them through.
-/
namespace DecAustrum

open Python Transaction Table

theorem updateApprovals_ok {db db' : Database} {hit : ApprovalRow Uuid UtcDatetime → Bool}
    {update : ApprovalRow Uuid UtcDatetime → ApprovalRow Uuid UtcDatetime} {rowcount : Nat}
    (ran : db.updateApprovals hit update = .ok (db', rowcount)) :
    db' = { db with
      lifecycle := { db.lifecycle with approvals := updateWhere hit update db.lifecycle.approvals } } ∧
      rowcount = db.lifecycle.approvals.countP hit ∧
      ∀ row ∈ db.lifecycle.approvals, hit row = true → approvalLifecycle row (update row) = true ∧
        db.lifecycle.grantedApproval row (update row) = true ∧ (update row).checks = true := by
  unfold Database.updateApprovals updateGuarded at ran
  split at ran
  · rename_i guarded
    cases ran
    refine ⟨rfl, rfl, ?_⟩
    intro row member chosen
    have passed := List.all_eq_true.mp guarded row member
    simpa [chosen, and_assoc] using passed
  · cases ran

theorem updateGrants_ok {db db' : Database} {hit : GrantRow Uuid UtcDatetime → Bool}
    {update : GrantRow Uuid UtcDatetime → GrantRow Uuid UtcDatetime} {rowcount : Nat}
    (ran : db.updateGrants hit update = .ok (db', rowcount)) :
    db' = { db with
      lifecycle := { db.lifecycle with grants := updateWhere hit update db.lifecycle.grants } } ∧
      rowcount = db.lifecycle.grants.countP hit ∧
      ∀ row ∈ db.lifecycle.grants, hit row = true → grantLifecycle row (update row) = true ∧
        (update row).checks = true := by
  unfold Database.updateGrants updateGuarded at ran
  split at ran
  · rename_i guarded
    cases ran
    refine ⟨rfl, rfl, ?_⟩
    intro row member chosen
    have passed := List.all_eq_true.mp guarded row member
    simpa [chosen] using passed
  · cases ran

end DecAustrum
