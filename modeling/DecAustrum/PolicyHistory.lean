import DecAustrum.Storage.PolicyEffects

/-!
# The history of policies

Every policy has a contiguous range of versions, the last of which is the current one. The
statements that write the two tables keep it so.
-/
namespace DecAustrum

open Python Transaction Table

/-- The versions of a policy, in the order they were written. -/
def Database.history (db : Database) (projectId : Uuid) (policyId : Str) : List PolicyVersionRow :=
  db.policyVersions.filter fun v => v.projectId = projectId && v.policyId = policyId

/-- The integers from `first` on. -/
def versionRange (first : Int) (count : Nat) : List Int :=
  (List.range count).map fun k : Nat => first + k

/-- The row restores an older version of the same policy. -/
def Restores (versions : List PolicyVersionRow) (row : PolicyVersionRow) : Prop :=
  ∃ source ∈ versions, source.projectId = row.projectId ∧ source.policyId = row.policyId ∧
    row.sourceVersion = some source.version ∧ source.version < row.version ∧
    ∃ positive, row.policy = source.policy.withVersion row.version positive

structure PolicyHistory (db : Database) : Prop where
  keys : UniqueKey (fun row => some (row.projectId, row.policyId)) db.policies
  /-- A stored version is a SQLite integer. -/
  fits : ∀ row ∈ db.policies, fitsInteger row.version = true
  contiguous : ∀ row ∈ db.policies, ∃ first count,
    (db.history row.projectId row.policyId).map (·.version) = versionRange first count ∧
      0 < count ∧ first + count = row.version + 1
  current : ∀ row ∈ db.policies,
    ∃ v ∈ db.history row.projectId row.policyId, v.version = row.version ∧ v.policy = row.policy
  configured : ∀ v ∈ db.policyVersions, ∃ row ∈ db.policies,
    row.projectId = v.projectId ∧ row.policyId = v.policyId
  rollbacks : ∀ v ∈ db.policyVersions, v.changeType = .rollback → Restores db.policyVersions v

/-- What the history is about: a row without its switch and its time. -/
def PolicyRow.content (row : PolicyRow) : Uuid × Str × Int × Policy :=
  (row.projectId, row.policyId, row.version, row.policy)

variable {db db' : Database}

theorem Database.history_append {added : List PolicyVersionRow} (projectId : Uuid) (policyId : Str)
    (grown : db'.policyVersions = db.policyVersions ++ added) :
    db'.history projectId policyId = db.history projectId policyId ++
      added.filter fun v => v.projectId = projectId && v.policyId = policyId := by
  simp only [Database.history, grown, List.filter_append]

theorem versionRange_succ (first : Int) (count : Nat) :
    versionRange first (count + 1) = versionRange first count ++ [first + count] := by
  simp [versionRange, List.range_succ]

theorem mem_versionRange {first v : Int} {count : Nat} :
    v ∈ versionRange first count ↔ first ≤ v ∧ v < first + count := by
  simp only [versionRange, List.mem_map, List.mem_range]
  constructor
  · rintro ⟨k, below, rfl⟩
    omega
  · rintro ⟨above, below⟩
    exact ⟨(v - first).toNat, by omega, by omega⟩

theorem Restores.mono {versions added : List PolicyVersionRow} {row : PolicyVersionRow}
    (restores : Restores versions row) : Restores (versions ++ added) row := by
  obtain ⟨source, member, facts⟩ := restores
  exact ⟨source, List.mem_append_left _ member, facts⟩

namespace PolicyHistory

/-- A version of a policy is at most its current version. -/
theorem version_le (history : PolicyHistory db) {row : PolicyRow} (member : row ∈ db.policies)
    {v : PolicyVersionRow} (inHistory : v ∈ db.history row.projectId row.policyId) :
    v.version ≤ row.version := by
  obtain ⟨first, count, versions, -, last⟩ := history.contiguous row member
  have inRange := mem_versionRange.mp (versions ▸ List.mem_map_of_mem inHistory)
  omega

theorem row_eq (history : PolicyHistory db) {a b : PolicyRow} (ha : a ∈ db.policies)
    (hb : b ∈ db.policies) (project : a.projectId = b.projectId) (policy : a.policyId = b.policyId) :
    a = b :=
  history.keys.eq ha hb rfl (by rw [project, policy])

theorem find?_eq (history : PolicyHistory db) {row : PolicyRow} (member : row ∈ db.policies)
    {projectId : Uuid} {policyId : Str} (project : row.projectId = projectId)
    (policy : row.policyId = policyId) :
    db.policies.find? (policyIs projectId policyId) = some row := by
  cases found : db.policies.find? (policyIs projectId policyId) with
  | none =>
    have absent := List.find?_eq_none.mp found row member
    exact absurd (by simp [policyIs, project, policy]) absent
  | some other =>
    have its := List.find?_some found
    simp only [policyIs, Bool.and_eq_true, decide_eq_true_eq] at its
    rw [history.row_eq (List.mem_of_find?_eq_some found) member (its.1.trans project.symm)
      (its.2.trans policy.symm)]

/-- The history depends on the contents of the tables only. -/
theorem of_contents (history : PolicyHistory db)
    (contents : db'.policies.map (·.content) = db.policies.map (·.content))
    (versions : db'.policyVersions = db.policyVersions) : PolicyHistory db' := by
  have keys (rows : List PolicyRow) : UniqueKey (fun row => some (row.projectId, row.policyId)) rows ↔
      ((rows.map (·.content)).map fun c => (c.1, c.2.1)).Nodup := by
    simp [UniqueKey, List.filterMap_eq_map', Function.comp_def, PolicyRow.content]
  have old : ∀ row ∈ db'.policies, ∃ other ∈ db.policies, other.content = row.content := by
    intro row member
    have inContents : row.content ∈ db.policies.map (·.content) :=
      contents ▸ List.mem_map_of_mem member
    exact List.mem_map.mp inContents
  have new : ∀ row ∈ db.policies, ∃ other ∈ db'.policies, other.content = row.content := by
    intro row member
    have inContents : row.content ∈ db'.policies.map (·.content) :=
      contents ▸ List.mem_map_of_mem member
    exact List.mem_map.mp inContents
  have same : ∀ p i, db'.history p i = db.history p i := by
    intro p i
    simp only [Database.history, versions]
  refine ⟨?_, ?_, ?_, ?_, ?_, ?_⟩
  · rw [keys, contents, ← keys]
    exact history.keys
  · intro row member
    obtain ⟨other, inOld, content⟩ := old row member
    simp only [PolicyRow.content, Prod.mk.injEq] at content
    exact content.2.2.1 ▸ history.fits other inOld
  · intro row member
    obtain ⟨other, inOld, content⟩ := old row member
    simp only [PolicyRow.content, Prod.mk.injEq] at content
    obtain ⟨project, policy, version, -⟩ := content
    rw [same, ← project, ← policy, ← version]
    exact history.contiguous other inOld
  · intro row member
    obtain ⟨other, inOld, content⟩ := old row member
    simp only [PolicyRow.content, Prod.mk.injEq] at content
    obtain ⟨project, policy, version, text⟩ := content
    rw [same, ← project, ← policy, ← version, ← text]
    exact history.current other inOld
  · intro v member
    obtain ⟨row, inOld, project, policy⟩ := history.configured v (versions ▸ member)
    obtain ⟨other, inNew, content⟩ := new row inOld
    simp only [PolicyRow.content, Prod.mk.injEq] at content
    exact ⟨other, inNew, content.1.trans project, content.2.1.trans policy⟩
  · intro v member rollback
    rw [versions] at member ⊢
    exact history.rollbacks v member rollback

/-- A new version is appended to the history of its policy only. -/
theorem history_add {version : PolicyVersionRow}
    (grown : db'.policyVersions = db.policyVersions ++ [version]) (p : Uuid) (i : Str) :
    db'.history p i = if version.projectId = p ∧ version.policyId = i then db.history p i ++ [version]
      else db.history p i := by
  rw [Database.history_append p i grown]
  by_cases its : version.projectId = p ∧ version.policyId = i
  · simp [its]
  · simp [its]

/-- A policy that is configured for the first time. -/
theorem create (history : PolicyHistory db) {projectId : Uuid} {policy : Policy}
    {updatedAt : UtcDatetime} {version : PolicyVersionRow}
    (absent : db.policies.any (policyIs projectId policy.id) = false)
    (fits : fitsInteger policy.version = true) (plain : version.changeType ≠ .rollback)
    (its : version.projectId = projectId ∧ version.policyId = policy.id ∧
      version.version = policy.version ∧ version.policy = policy)
    (policies : db'.policies =
      db.policies ++ [ProjectPolicyRepository.policyRow projectId policy updatedAt])
    (versions : db'.policyVersions = db.policyVersions ++ [version]) : PolicyHistory db' := by
  obtain ⟨project, id, number, text⟩ := its
  have fresh : ∀ row ∈ db.policies, ¬(row.projectId = projectId ∧ row.policyId = policy.id) := by
    intro row member
    simpa [policyIs] using List.any_eq_false.mp absent row member
  have none : db.history projectId policy.id = [] := by
    rw [Database.history, List.filter_eq_nil_iff]
    intro v member
    obtain ⟨row, inPolicies, sameProject, sameId⟩ := history.configured v member
    simpa [← sameProject, ← sameId] using fresh row inPolicies
  have first : db'.history projectId policy.id = [version] := by
    simp [history_add versions, project, id, none]
  have apart : ∀ row ∈ db.policies,
      db'.history row.projectId row.policyId = db.history row.projectId row.policyId := by
    intro row member
    rw [history_add versions, if_neg]
    rintro ⟨sameProject, sameId⟩
    exact fresh row member ⟨sameProject.symm.trans project, sameId.symm.trans id⟩
  have rows : ∀ row ∈ db'.policies, row ∈ db.policies ∨
      row = ProjectPolicyRepository.policyRow projectId policy updatedAt := by
    intro row member
    simpa [policies] using member
  refine ⟨?_, ?_, ?_, ?_, ?_, ?_⟩
  · rw [policies]
    refine (uniqueKey_append _).mpr ⟨history.keys, fun other member k same => ?_⟩
    cases same
    simpa [ProjectPolicyRepository.policyRow] using fresh other member
  · intro row member
    rcases rows row member with old | rfl
    · exact history.fits row old
    · exact fits
  · intro row member
    rcases rows row member with old | rfl
    · rw [apart row old]
      exact history.contiguous row old
    · refine ⟨policy.version, 1, ?_, Nat.one_pos, rfl⟩
      simp [ProjectPolicyRepository.policyRow, first, versionRange, number]
  · intro row member
    rcases rows row member with old | rfl
    · rw [apart row old]
      exact history.current row old
    · exact ⟨version, by simp [ProjectPolicyRepository.policyRow, first], number, text⟩
  · intro v member
    rw [versions] at member
    rw [policies]
    rcases List.mem_append.mp member with old | new
    · obtain ⟨row, inPolicies, facts⟩ := history.configured v old
      exact ⟨row, List.mem_append_left _ inPolicies, facts⟩
    · rw [List.mem_singleton.mp new]
      exact ⟨_, List.mem_append_right _ (List.mem_singleton_self _), project.symm, id.symm⟩
  · intro v member rollback
    rw [versions] at member ⊢
    rcases List.mem_append.mp member with old | new
    · exact (history.rollbacks v old rollback).mono
    · rw [List.mem_singleton.mp new] at rollback
      exact absurd rollback plain

/-- A policy whose current version is replaced by the next one. -/
theorem update (history : PolicyHistory db) {projectId : Uuid} {policy : Policy}
    {updatedAt : UtcDatetime} {version : PolicyVersionRow} {current : PolicyRow}
    (found : db.policies.find? (policyIs projectId policy.id) = some current)
    (next : policy.version = current.version + 1) (fits : fitsInteger policy.version = true)
    (its : version.projectId = projectId ∧ version.policyId = policy.id ∧
      version.version = policy.version ∧ version.policy = policy)
    (restores : version.changeType = .rollback → Restores db.policyVersions version)
    (policies : db'.policies = updateWhere
      (fun row => policyIs projectId policy.id row && row.version = current.version)
      (ProjectPolicyRepository.savedRow policy updatedAt) db.policies)
    (versions : db'.policyVersions = db.policyVersions ++ [version]) : PolicyHistory db' := by
  obtain ⟨project, id, number, text⟩ := its
  have isCurrent := List.find?_some found
  have inPolicies := List.mem_of_find?_eq_some found
  simp only [policyIs, Bool.and_eq_true, decide_eq_true_eq] at isCurrent
  obtain ⟨currentProject, currentId⟩ := isCurrent
  -- the update hits the current row and no other
  have hits : ∀ row ∈ db.policies,
      (policyIs projectId policy.id row && row.version = current.version) = true ↔ row = current := by
    intro row member
    constructor
    · intro hit
      simp only [policyIs, Bool.and_eq_true, decide_eq_true_eq] at hit
      exact history.row_eq member inPolicies (hit.1.1.trans currentProject.symm)
        (hit.1.2.trans currentId.symm)
    · rintro rfl
      simp [policyIs, currentProject, currentId]
  have rows : ∀ row ∈ db'.policies, (row ∈ db.policies ∧ row ≠ current) ∨
      row = ProjectPolicyRepository.savedRow policy updatedAt current := by
    intro row member
    rw [policies] at member
    obtain ⟨old, inOld, ⟨hit, rfl⟩ | ⟨missed, rfl⟩⟩ := mem_updateWhere.mp member
    · exact .inr (by rw [(hits old inOld).mp hit])
    · refine .inl ⟨inOld, fun same => ?_⟩
      rw [(hits row inOld).mpr same] at missed
      cases missed
  have kept : ∀ row ∈ db.policies, row ≠ current →
      db'.history row.projectId row.policyId = db.history row.projectId row.policyId := by
    intro row member other
    rw [history_add versions, if_neg]
    rintro ⟨sameProject, sameId⟩
    exact other (history.row_eq member inPolicies
      (sameProject.symm.trans (project.trans currentProject.symm))
      (sameId.symm.trans (id.trans currentId.symm)))
  have saved : db'.history current.projectId current.policyId =
      db.history current.projectId current.policyId ++ [version] := by
    rw [history_add versions, if_pos ⟨project.trans currentProject.symm, id.trans currentId.symm⟩]
  refine ⟨?_, ?_, ?_, ?_, ?_, ?_⟩
  · rw [policies]
    refine (uniqueKey_updateWhere ?_).mpr history.keys
    exact fun _ _ _ => rfl
  · intro row member
    rcases rows row member with ⟨old, -⟩ | rfl
    · exact history.fits row old
    · exact fits
  · intro row member
    rcases rows row member with ⟨old, other⟩ | rfl
    · rw [kept row old other]
      exact history.contiguous row old
    · obtain ⟨start, count, numbers, -, last⟩ := history.contiguous current inPolicies
      refine ⟨start, count + 1, ?_, Nat.succ_pos _, ?_⟩
      · change (db'.history current.projectId current.policyId).map (·.version) = _
        rw [saved, List.map_append, numbers, versionRange_succ, List.map_singleton, number, next, last]
      · change start + (count + 1 : ℕ) = policy.version + 1
        omega
  · intro row member
    rcases rows row member with ⟨old, other⟩ | rfl
    · rw [kept row old other]
      exact history.current row old
    · refine ⟨version, ?_, number, text⟩
      change version ∈ db'.history current.projectId current.policyId
      simp [saved]
  · intro v member
    have inNew : ∀ row ∈ db.policies, ∃ other ∈ db'.policies,
        other.projectId = row.projectId ∧ other.policyId = row.policyId := by
      intro row inOld
      rw [policies]
      by_cases hit : (policyIs projectId policy.id row && row.version = current.version) = true
      · exact ⟨_, mem_updateWhere.mpr ⟨row, inOld, .inl ⟨hit, rfl⟩⟩, rfl, rfl⟩
      · exact ⟨row, mem_updateWhere.mpr ⟨row, inOld, .inr ⟨by simpa using hit, rfl⟩⟩, rfl, rfl⟩
    rw [versions] at member
    rcases List.mem_append.mp member with old | new
    · obtain ⟨row, inOld, sameProject, sameId⟩ := history.configured v old
      obtain ⟨other, inTable, p, i⟩ := inNew row inOld
      exact ⟨other, inTable, p.trans sameProject, i.trans sameId⟩
    · rw [List.mem_singleton.mp new]
      obtain ⟨other, inTable, p, i⟩ := inNew current inPolicies
      exact ⟨other, inTable, p.trans (currentProject.trans project.symm),
        i.trans (currentId.trans id.symm)⟩
  · intro v member rollback
    rw [versions] at member ⊢
    rcases List.mem_append.mp member with old | new
    · exact (history.rollbacks v old rollback).mono
    · obtain rfl := List.mem_singleton.mp new
      exact (restores rollback).mono

end PolicyHistory

/-! ## Migrated policies -/

open ProjectPolicyRepository in
theorem migrate_eq {rows : List PolicyRow} {versions : List PolicyVersionRow}
    (keys : UniqueKey (fun row : PolicyRow => some (row.projectId, row.policyId)) rows)
    (fresh : ∀ row ∈ rows, ∀ v ∈ versions, ¬(v.projectId = row.projectId ∧ v.policyId = row.policyId)) :
    rows.foldl migrateRow versions = versions ++ rows.map migratedRow := by
  induction rows generalizing versions with
  | nil => simp
  | cons row rest ih =>
    have absent : versions.any (versionIs row.projectId row.policyId row.version) = false := by
      rw [List.any_eq_false]
      intro v member hit
      simp only [versionIs, Bool.and_eq_true, decide_eq_true_eq] at hit
      exact fresh row (List.mem_cons_self ..) v member hit.1
    obtain ⟨tail, distinct⟩ := keys.tail
    have step : migrateRow versions row = versions ++ [migratedRow row] := by
      simp [migrateRow, absent]
    rw [List.foldl_cons, step, ih tail]
    · simp
    · intro other member v inVersions
      rcases List.mem_append.mp inVersions with old | new
      · exact fresh other (List.mem_cons_of_mem _ member) v old
      · rw [List.mem_singleton.mp new]
        rintro ⟨project, id⟩
        exact distinct _ rfl other member (by rw [← project, ← id]; rfl)

/-- A database whose policies have no versions yet has a history once it is initialised. -/
theorem policyHistory_migrated (legacy : Database) (unversioned : legacy.policyVersions = [])
    (keys : UniqueKey (fun row => some (row.projectId, row.policyId)) legacy.policies)
    (fits : ∀ row ∈ legacy.policies, fitsInteger row.version = true) :
    PolicyHistory (ProjectPolicyRepository.backfillProjectPolicyVersions legacy) := by
  have versions : (ProjectPolicyRepository.backfillProjectPolicyVersions legacy).policyVersions =
      legacy.policies.map ProjectPolicyRepository.migratedRow := by
    have migrated := @migrate_eq legacy.policies [] keys (by simp)
    rw [List.nil_append] at migrated
    rw [ProjectPolicyRepository.backfillProjectPolicyVersions, unversioned, migrated]
  have single : ∀ row ∈ legacy.policies,
      (ProjectPolicyRepository.backfillProjectPolicyVersions legacy).history row.projectId
        row.policyId = [ProjectPolicyRepository.migratedRow row] := by
    intro row member
    rw [Database.history, versions, List.filter_map]
    have only : legacy.policies.filter ((fun v : PolicyVersionRow =>
        v.projectId = row.projectId && v.policyId = row.policyId) ∘
          ProjectPolicyRepository.migratedRow) = [row] := by
      refine keys.filter_eq member rfl fun other _ => ?_
      rw [Function.comp_apply, Bool.and_eq_true, decide_eq_true_eq, decide_eq_true_eq,
        Option.some.injEq, Prod.mk.injEq]
      rfl
    rw [only, List.map_singleton]
  refine ⟨keys, fits, ?_, ?_, ?_, ?_⟩
  · intro row member
    refine ⟨row.version, 1, ?_, Nat.one_pos, rfl⟩
    rw [single row member]
    simp [versionRange, ProjectPolicyRepository.migratedRow]
  · intro row member
    rw [single row member]
    exact ⟨_, List.mem_singleton_self _, rfl, rfl⟩
  · intro v member
    rw [versions] at member
    obtain ⟨row, inPolicies, rfl⟩ := List.mem_map.mp member
    exact ⟨row, inPolicies, rfl, rfl⟩
  · intro v member rollback
    rw [versions] at member
    obtain ⟨row, -, rfl⟩ := List.mem_map.mp member
    cases rollback

end DecAustrum
