import DecAustrum.Storage.Policies

/-!
# What the policy statements leave

The rows that the statements on `project_policies` and `project_policy_versions` add and change
when they do not raise.
-/
namespace DecAustrum

open Python Transaction Table

theorem insertVersion_ok {db db' : Database} {draws rest : ℕ → Uuid} {projectId : Uuid}
    {policy : Policy} {changeType : PolicyVersionChangeType} {createdAt : UtcDatetime}
    {sourceVersion : Option Int} {u : Unit}
    (ran : (ProjectPolicyRepository.insertVersion projectId policy changeType createdAt
      sourceVersion).exec draws db = .ok (u, rest, db')) :
    rest = draws ∧ db.policyVersions.any (versionIs projectId policy.id policy.version) = false ∧
      (changeType = .rollback ↔ sourceVersion.isSome) ∧
      db' = { db with
        policyVersions := db.policyVersions ++
          [⟨projectId, policy.id, policy.version, policy, changeType, sourceVersion, createdAt⟩] } := by
  rw [ProjectPolicyRepository.insertVersion, Block.exec_statement] at ran
  split at ran
  · cases ran
  · split at ran
    · rename_i accepted
      cases ran
      simp only [Bool.and_eq_true, Bool.not_eq_true', beq_iff_eq] at accepted
      refine ⟨rfl, accepted.1.1, ?_, rfl⟩
      have same := accepted.2
      by_cases rollback : changeType = .rollback <;> simp_all
    · cases ran

theorem insertPolicy_ok {db db' : Database} {projectId : Uuid} {policy : Policy}
    {updatedAt : UtcDatetime} {u : Unit}
    (ran : ProjectPolicyRepository.insertPolicy projectId policy updatedAt db = .ok (db', u)) :
    db.policies.any (policyIs projectId policy.id) = false ∧
      db' = { db with
        policies := db.policies ++
          [ProjectPolicyRepository.policyRow projectId policy updatedAt] } := by
  unfold ProjectPolicyRepository.insertPolicy at ran
  split at ran
  · cases ran
  · split at ran
    · rename_i accepted
      cases ran
      simp only [Bool.and_eq_true, Bool.not_eq_true'] at accepted
      exact ⟨accepted.1, rfl⟩
    · cases ran

theorem insertOrIgnorePolicy_ok {db db' : Database} {projectId : Uuid} {policy : Policy}
    {updatedAt : UtcDatetime} {rowcount : Nat}
    (ran : ProjectPolicyRepository.insertOrIgnorePolicy projectId policy updatedAt db =
      .ok (db', rowcount)) :
    (db.policies.any (policyIs projectId policy.id) = true ∧ rowcount = 0 ∧ db' = db) ∨
      (db.policies.any (policyIs projectId policy.id) = false ∧ rowcount = 1 ∧
        db' = { db with
          policies := db.policies ++
            [ProjectPolicyRepository.policyRow projectId policy updatedAt] }) := by
  unfold ProjectPolicyRepository.insertOrIgnorePolicy at ran
  split at ran
  · cases ran
  split at ran
  · cases ran
  split at ran
  · cases ran
  · split at ran
    · rename_i configured
      cases ran
      exact .inl ⟨configured, rfl, rfl⟩
    · cases inserted : ProjectPolicyRepository.insertPolicy projectId policy updatedAt db with
      | ok r =>
        rw [inserted] at ran
        cases ran
        obtain ⟨fresh, left⟩ := insertPolicy_ok inserted
        exact .inr ⟨fresh, rfl, left⟩
      | error exc =>
        rw [inserted] at ran
        cases ran

/-- A policy is seeded with a version that SQLite can hold. -/
theorem insertOrIgnorePolicy_fits {db db' : Database} {projectId : Uuid} {policy : Policy}
    {updatedAt : UtcDatetime} {rowcount : Nat}
    (ran : ProjectPolicyRepository.insertOrIgnorePolicy projectId policy updatedAt db =
      .ok (db', rowcount)) : fitsInteger policy.version = true := by
  unfold ProjectPolicyRepository.insertOrIgnorePolicy at ran
  split at ran
  · cases ran
  split at ran
  · cases ran
  split at ran
  · cases ran
  next fits => exact (Bool.not_eq_false _).mp fits

theorem updatePolicy_ok {db db' : Database} {projectId : Uuid} {policy : Policy}
    {updatedAt : UtcDatetime} {currentVersion : Int} {rowcount : Nat}
    (ran : ProjectPolicyRepository.updatePolicy projectId policy updatedAt currentVersion db =
      .ok (db', rowcount)) :
    rowcount = db.policies.countP
        (fun row => policyIs projectId policy.id row && row.version = currentVersion) ∧
      db' = { db with
        policies := updateWhere
          (fun row => policyIs projectId policy.id row && row.version = currentVersion)
          (ProjectPolicyRepository.savedRow policy updatedAt) db.policies } := by
  unfold ProjectPolicyRepository.updatePolicy at ran
  dsimp only at ran
  split at ran
  · cases ran
  · cases ran
    exact ⟨rfl, rfl⟩

/-- A call that returns has read the configuration. -/
theorem findConfiguration_ok {β : Type} {draws : ℕ → Uuid} {db : Database} {projectId : Uuid}
    {policyId : Str} {f : Option ProjectPolicyConfiguration → Body β}
    {r : β × (ℕ → Uuid) × Database}
    (ran : (ProjectPolicyRepository.findConfiguration projectId policyId >>= f).exec draws db = .ok r) :
    (f ((db.policies.find? (policyIs projectId policyId)).map (·.configuration))).exec draws db =
      .ok r := by
  rcases ProjectPolicyRepository.findConfiguration_cases projectId policyId with raises | finds
  · rw [raises] at ran
    cases ran
  · rwa [finds, ProjectPolicyRepository.getConfigurationWithConnection, exec_query_bind] at ran

theorem disablePolicy_ok {draws rest : ℕ → Uuid} {db db' : Database} {projectId : Uuid}
    {policyId : Str} {updatedAt : UtcDatetime} {disabled : Option ProjectPolicyConfiguration}
    (ran : (ProjectPolicyRepository.disableWithConnection projectId policyId updatedAt).exec draws
      db = .ok (disabled, rest, db')) :
    (db.policies.find? (policyIs projectId policyId) = none ∧ disabled = none ∧ db' = db) ∨
      ∃ row, db.policies.find? (policyIs projectId policyId) = some row ∧
        disabled = some (ProjectPolicyRepository.disabledRow updatedAt row).configuration ∧
        db' = { db with
          policies := updateWhere (policyIs projectId policyId)
            (ProjectPolicyRepository.disabledRow updatedAt) db.policies } := by
  unfold ProjectPolicyRepository.disableWithConnection
    ProjectPolicyRepository.getConfigurationWithConnection at ran
  rw [exec_query_bind] at ran
  cases found : db.policies.find? (policyIs projectId policyId) with
  | none =>
    simp only [found, Option.map_none] at ran
    cases ran
    exact .inl ⟨rfl, rfl, rfl⟩
  | some row =>
    simp only [found, Option.map_some] at ran
    rw [ProjectPolicyRepository.disableRows, exec_updateRows_bind, Block.exec_query] at ran
    cases ran
    refine .inr ⟨row, rfl, ?_, rfl⟩
    rw [find?_updateWhere _ fun row _ _ => by rfl, found]
    simp [List.find?_some found]

end DecAustrum
