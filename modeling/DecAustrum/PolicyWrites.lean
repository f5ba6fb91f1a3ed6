import DecAustrum.EvidenceStore.Administration
import DecAustrum.PolicyHistory
import DecAustrum.Storage.OutboxEffects
import DecAustrum.Transaction.Invariants

/-!
# What the policy operations write

Seeding only adds policies, disabling leaves the versions alone, and a conditional write goes by
the version that was read: it either finds that version or raises the conflict.
-/
namespace DecAustrum

open Python Transaction Table ProjectPolicyRepository

def Database.currentVersion (db : Database) (projectId : Uuid) (policyId : Str) : Option Int :=
  (db.policies.find? (policyIs projectId policyId)).map (·.version)

/-- Nothing of a history is lost. -/
structure Grown (s t : Database) : Prop where
  versions : s.policyVersions <+: t.policyVersions
  current : ∀ p i v, s.currentVersion p i = some v →
    ∃ later, t.currentVersion p i = some later ∧ v ≤ later

/-- Policies are only added. -/
structure Seeded (s t : Database) : Prop where
  policies : s.policies <+: t.policies
  versions : s.policyVersions <+: t.policyVersions
  histories : ∀ row ∈ s.policies,
    t.history row.projectId row.policyId = s.history row.projectId row.policyId

/-- Only switches and times are written. -/
structure SameContents (s t : Database) : Prop where
  policies : t.policies.map (·.content) = s.policies.map (·.content)
  versions : t.policyVersions = s.policyVersions

/-- The policy has moved on by one version. -/
def Advanced (projectId : Uuid) (policyId : Str) (s t : Database) : Prop :=
  ∃ v, t.currentVersion projectId policyId = some v ∧
    v = (s.currentVersion projectId policyId).elim 1 (· + 1)

theorem Grown.refl (s : Database) : Grown s s :=
  ⟨List.prefix_refl _, fun _ _ v found => ⟨v, found, le_refl v⟩⟩

theorem Grown.trans {s t u : Database} (first : Grown s t) (second : Grown t u) : Grown s u := by
  refine ⟨first.versions.trans second.versions, ?_⟩
  intro p i v found
  obtain ⟨later, foundLater, le⟩ := first.current p i v found
  obtain ⟨last, foundLast, le'⟩ := second.current p i later foundLater
  exact ⟨last, foundLast, le.trans le'⟩

theorem Seeded.refl (s : Database) : Seeded s s :=
  ⟨List.prefix_refl _, List.prefix_refl _, fun _ _ => rfl⟩

theorem Seeded.trans {s t u : Database} (first : Seeded s t) (second : Seeded t u) :
    Seeded s u := by
  refine ⟨first.policies.trans second.policies, first.versions.trans second.versions, ?_⟩
  intro row member
  exact (second.histories row (first.policies.mem member)).trans (first.histories row member)

theorem Seeded.grown {s t : Database} (seeded : Seeded s t) : Grown s t := by
  refine ⟨seeded.versions, ?_⟩
  intro p i v found
  obtain ⟨added, grown⟩ := seeded.policies
  refine ⟨v, ?_, le_refl v⟩
  unfold Database.currentVersion at found ⊢
  obtain ⟨row, isRow, version⟩ := Option.map_eq_some_iff.mp found
  simp [← grown, List.find?_append, isRow, version]

theorem SameContents.currentVersion {s t : Database} (same : SameContents s t) (p : Uuid)
    (i : Str) : t.currentVersion p i = s.currentVersion p i := by
  have byContent (db : Database) : db.currentVersion p i =
      ((db.policies.map (·.content)).find? fun c => c.1 = p && c.2.1 = i).map (·.2.2.1) := by
    rw [List.find?_map, Option.map_map]
    rfl
  rw [byContent, byContent, same.policies]

theorem SameContents.grown {s t : Database} (same : SameContents s t) : Grown s t := by
  refine ⟨same.versions ▸ List.prefix_refl _, ?_⟩
  intro p i v found
  exact ⟨v, (same.currentVersion p i).trans found, le_refl v⟩

section Exec

variable {platform : Platform} {draws rest : ℕ → Uuid} {db db' : Database}

/-- Recording a change leaves the policies alone. -/
theorem recordAudit_policies {occurredAt : UtcDatetime} {projectId : Uuid} {context : AuditContext}
    {action : AuditAction} {resourceType : AuditResourceType} {resourceId : Str}
    {before after : Option Json} {metadata : List (Str × Json)} {u : Unit}
    (ran : (recordAudit platform occurredAt projectId context action resourceType resourceId before
      after metadata).exec draws db = .ok (u, rest, db')) :
    db'.policies = db.policies ∧ db'.policyVersions = db.policyVersions := by
  obtain ⟨_, event, -, change⟩ := recordAudit_ok ran
  obtain ⟨_, published⟩ := change.published
  obtain ⟨_, _, -, -, -, rfl⟩ := published.rows
  exact ⟨rfl, rfl⟩

/-! ## Seeding -/

theorem insertSeed_seeded {projectId : Uuid} {policy : Policy} {updatedAt : UtcDatetime} {u : Unit}
    (history : PolicyHistory db)
    (ran : (insertSeed projectId policy updatedAt).exec draws db = .ok (u, rest, db')) :
    PolicyHistory db' ∧ Seeded db db' := by
  unfold insertSeed at ran
  rw [Block.exec_bind_eq_ok] at ran
  obtain ⟨rowcount, draws₁, db₁, inserted, ran⟩ := ran
  rw [Block.exec_statement] at inserted
  cases result : insertOrIgnorePolicy projectId policy updatedAt db with
  | error exc =>
    rw [result] at inserted
    cases inserted
  | ok r =>
    rw [result] at inserted
    cases inserted
    have fits := @insertOrIgnorePolicy_fits db r.1 projectId policy updatedAt r.2 result
    rcases @insertOrIgnorePolicy_ok db r.1 projectId policy updatedAt r.2 result with
      ⟨-, none, same⟩ | ⟨absent, one, added⟩
    · rw [if_neg (by simp [none])] at ran
      cases ran
      rw [same]
      exact ⟨history, .refl _⟩
    · rw [if_pos one] at ran
      obtain ⟨-, -, -, rfl⟩ := insertVersion_ok ran
      rw [added]
      refine ⟨history.create absent fits (by simp) ⟨rfl, rfl, rfl, rfl⟩ rfl rfl,
        List.prefix_append _ _, List.prefix_append _ _, ?_⟩
      intro row member
      have other := List.any_eq_false.mp absent row member
      refine (Database.history_append row.projectId row.policyId rfl).trans ?_
      rw [List.filter_eq_nil_iff.mpr, List.append_nil]
      · rfl
      intro v inAdded hit
      rw [List.mem_singleton.mp inAdded] at hit
      simp only [Bool.and_eq_true, decide_eq_true_eq] at hit
      exact other (by simp [policyIs, ← hit.1, ← hit.2])

theorem seedPolicies_seeded {projectId : Uuid} {updatedAt : UtcDatetime} {policies : List Policy}
    {u : Unit} (history : PolicyHistory db)
    (ran : (EvidenceStore.seedPolicies projectId updatedAt policies).exec draws db =
      .ok (u, rest, db')) :
    PolicyHistory db' ∧ Seeded db db' := by
  induction policies generalizing draws db with
  | nil =>
    cases ran
    exact ⟨history, .refl _⟩
  | cons policy later ih =>
    unfold EvidenceStore.seedPolicies at ran
    rw [Block.exec_bind_eq_ok] at ran
    obtain ⟨_, draws₁, db₁, inserted, ran⟩ := ran
    obtain ⟨history₁, seeded⟩ := insertSeed_seeded history inserted
    obtain ⟨history₂, seededLater⟩ := ih history₁ ran
    exact ⟨history₂, seeded.trans seededLater⟩

/-- The history depends on the policy tables only. -/
theorem seeded_of_tables (history : PolicyHistory db) (policies : db'.policies = db.policies)
    (versions : db'.policyVersions = db.policyVersions) : PolicyHistory db' ∧ Seeded db db' := by
  refine ⟨history.of_contents (by rw [policies]) versions, ?_, ?_, ?_⟩
  · rw [policies]
  · rw [versions]
  · intro row _
    simp only [Database.history, versions]

theorem recordSeeds_seeded {project : Project} {context : AuditContext} {policies : List Policy}
    {u : Unit} (history : PolicyHistory db)
    (ran : (EvidenceStore.recordSeeds platform project context policies).exec draws db =
      .ok (u, rest, db')) :
    PolicyHistory db' ∧ Seeded db db' := by
  induction policies generalizing draws db with
  | nil =>
    cases ran
    exact ⟨history, .refl _⟩
  | cons policy later ih =>
    unfold EvidenceStore.recordSeeds at ran
    rw [Block.exec_bind_eq_ok] at ran
    obtain ⟨_, draws₁, db₁, recorded, ran⟩ := ran
    obtain ⟨policies, versions⟩ := recordAudit_policies recorded
    obtain ⟨history₁, seeded⟩ := seeded_of_tables history policies versions
    obtain ⟨history₂, seededLater⟩ := ih history₁ ran
    exact ⟨history₂, seeded.trans seededLater⟩

theorem saveProjectBody_seeded {project : Project} {apiKey : ProjectApiKeyRecord}
    {policies : List Policy} {auditContext : Option AuditContext} {u : Unit}
    (history : PolicyHistory db)
    (ran : (EvidenceStore.saveProjectBody platform project apiKey policies auditContext).exec draws
      db = .ok (u, rest, db')) :
    PolicyHistory db' ∧ Seeded db db' := by
  unfold EvidenceStore.saveProjectBody ProjectRepository.insert ProjectApiKeyRepository.insert at ran
  rw [Block.exec_bind_eq_ok] at ran
  obtain ⟨_, draws₁, db₁, inserted, ran⟩ := ran
  rw [exec_insertRow] at inserted
  split at inserted
  case isFalse => cases inserted
  cases inserted
  rw [Block.exec_bind_eq_ok] at ran
  obtain ⟨_, draws₂, db₂, inserted, ran⟩ := ran
  rw [exec_insertRow] at inserted
  split at inserted
  case isFalse => cases inserted
  cases inserted
  rw [Block.exec_bind_eq_ok] at ran
  obtain ⟨_, draws₃, db₃, seeds, ran⟩ := ran
  have seeding := fun start => seedPolicies_seeded start seeds
  obtain ⟨history₃, seeded⟩ := seeding (history.of_contents rfl rfl)
  have base : Seeded db db₃ := ⟨seeded.policies, seeded.versions, seeded.histories⟩
  cases auditContext with
  | none =>
    cases ran
    exact ⟨history₃, base⟩
  | some context =>
    rw [Block.exec_bind_eq_ok] at ran
    obtain ⟨_, draws₄, db₄, recorded, ran⟩ := ran
    obtain ⟨policies₄, versions₄⟩ := recordAudit_policies recorded
    rw [Block.exec_bind_eq_ok] at ran
    obtain ⟨_, draws₅, db₅, recordedKey, ran⟩ := ran
    obtain ⟨policies₅, versions₅⟩ := recordAudit_policies recordedKey
    obtain ⟨history₅, seeded₅⟩ := seeded_of_tables history₃ (policies₅.trans policies₄)
      (versions₅.trans versions₄)
    obtain ⟨history', seededLater⟩ := recordSeeds_seeded history₅ ran
    exact ⟨history', (base.trans seeded₅).trans seededLater⟩

theorem recordSeed_seeded {projectId : Uuid} {policyId : Str} {seededAt : UtcDatetime}
    {auditContext : Option AuditContext} {previous : Option ProjectPolicyConfiguration} {u : Unit}
    (history : PolicyHistory db)
    (ran : (EvidenceStore.recordSeed platform projectId policyId seededAt auditContext
      previous).exec draws db = .ok (u, rest, db')) :
    PolicyHistory db' ∧ Seeded db db' := by
  unfold EvidenceStore.recordSeed at ran
  split at ran
  · unfold getConfigurationWithConnection at ran
    rw [exec_query_bind] at ran
    obtain ⟨policies, versions⟩ := recordAudit_policies ran
    exact seeded_of_tables history policies versions
  · cases ran
    exact ⟨history, .refl _⟩

/-- What was read before a seed does not matter to the policies. -/
theorem seedPolicy_seeded {projectId : Uuid} {seededAt : UtcDatetime}
    {auditContext : Option AuditContext} {policy : Policy} {later : Body Unit}
    {previous : Option ProjectPolicyConfiguration} {u : Unit}
    (kept : ∀ draws db rest db' u, PolicyHistory db → later.exec draws db = .ok (u, rest, db') →
      PolicyHistory db' ∧ Seeded db db') (history : PolicyHistory db)
    (ran : (do
      insertSeed projectId policy seededAt
      EvidenceStore.recordSeed platform projectId policy.id seededAt auditContext previous
      later : Body Unit).exec draws db = .ok (u, rest, db')) :
    PolicyHistory db' ∧ Seeded db db' := by
  rw [Block.exec_bind_eq_ok] at ran
  obtain ⟨_, draws₁, db₁, inserted, ran⟩ := ran
  obtain ⟨history₁, seeded₁⟩ := insertSeed_seeded history inserted
  rw [Block.exec_bind_eq_ok] at ran
  obtain ⟨_, draws₂, db₂, recorded, ran⟩ := ran
  obtain ⟨history₂, seeded₂⟩ := recordSeed_seeded history₁ recorded
  obtain ⟨history₃, seeded₃⟩ := kept _ _ _ _ _ history₂ ran
  exact ⟨history₃, (seeded₁.trans seeded₂).trans seeded₃⟩

theorem seedProjectPolicies_seeded {projectId : Uuid} {seededAt : UtcDatetime}
    {auditContext : Option AuditContext} {policies : List Policy} {u : Unit}
    (history : PolicyHistory db)
    (ran : (EvidenceStore.seedProjectPolicies platform projectId seededAt auditContext
      policies).exec draws db = .ok (u, rest, db')) :
    PolicyHistory db' ∧ Seeded db db' := by
  induction policies generalizing draws db rest db' u with
  | nil =>
    cases ran
    exact ⟨history, .refl _⟩
  | cons policy later ih =>
    unfold EvidenceStore.seedProjectPolicies at ran
    exact seedPolicy_seeded (fun _ _ _ _ _ => ih) history (findConfiguration_ok ran)

/-! ## Disabling -/

theorem disableRows_sameContents (history : PolicyHistory db) (projectId : Uuid) (policyId : Str)
    (updatedAt : UtcDatetime) :
    PolicyHistory { db with
      policies := updateWhere (policyIs projectId policyId) (disabledRow updatedAt) db.policies } ∧
    SameContents db { db with
      policies := updateWhere (policyIs projectId policyId) (disabledRow updatedAt) db.policies } := by
  have contents : (updateWhere (policyIs projectId policyId) (disabledRow updatedAt)
      db.policies).map (·.content) = db.policies.map (·.content) :=
    map_updateWhere_of_eq _ fun _ _ _ => rfl
  exact ⟨history.of_contents contents rfl, contents, rfl⟩

/-- The end of a disable, once the rows are updated. -/
theorem recordPolicyDisabling_sameContents {projectId : Uuid} {policyId : Str}
    {updatedAt : UtcDatetime} {auditContext : Option AuditContext}
    {previous disabled : Option ProjectPolicyConfiguration} {u : Unit} (history : PolicyHistory db)
    (ran : (EvidenceStore.recordPolicyDisabling platform projectId policyId updatedAt auditContext
      previous disabled).exec draws db = .ok (u, rest, db')) :
    PolicyHistory db' ∧ SameContents db db' := by
  unfold EvidenceStore.recordPolicyDisabling at ran
  split at ran
  · split at ran
    · obtain ⟨policies, versions⟩ := recordAudit_policies ran
      exact ⟨history.of_contents (by rw [policies]) versions, by rw [policies], versions⟩
    · cases ran
      exact ⟨history, rfl, rfl⟩
  · cases ran
    exact ⟨history, rfl, rfl⟩

/-! ## The conditional write -/

/-- The exception of a save that lost to another one. -/
def IsConflict (policyId : Str) (exc : StoreExc) : Prop :=
  ∃ expected provided, exc = .policyVersionConflict policyId expected provided

theorem currentVersion_of_found {projectId : Uuid} {policyId : Str} {row : PolicyRow}
    (found : db.policies.find? (policyIs projectId policyId) = some row) :
    db.currentVersion projectId policyId = some row.version := by
  rw [Database.currentVersion, found, Option.map_some]

theorem fitsInteger_mono {v w : Int} (positive : 1 ≤ v) (le : v ≤ w)
    (fits : fitsInteger w = true) : fitsInteger v = true := by
  unfold fitsInteger at fits ⊢
  simp only [decide_eq_true_eq, Bool.and_eq_true] at fits ⊢
  omega

theorem exec_attempt_bind {α β : Type} (st : Database → Except StoreExc (Database × α))
    (f : Except StoreExc α → Body β) :
    (Block.attempt st >>= f).exec draws db =
      match st db with
      | .ok (s, a) => (f (.ok a)).exec draws s
      | .error exc => (f (.error exc)).exec draws db := by
  simp only [Block.attempt, Block.execute_bind, Block.ret_bind, Block.exec]
  cases st db <;> rfl

/-- A save that goes by an outdated version raises the conflict. -/
theorem writePolicy_stale {projectId : Uuid} {policy : Policy} {updatedAt : UtcDatetime}
    {changeType : PolicyVersionChangeType} {read : Database} (history : PolicyHistory db)
    (grown : Grown read db)
    (next : policy.version = nextVersion (read.policies.find? (policyIs projectId policy.id)))
    (stale : db.currentVersion projectId policy.id ≠ read.currentVersion projectId policy.id) :
    (writePolicy projectId policy updatedAt changeType
      (read.policies.find? (policyIs projectId policy.id))).exec draws db =
      .error (conflict policy (db.policies.find? (policyIs projectId policy.id))) := by
  cases found : read.policies.find? (policyIs projectId policy.id) with
  | none =>
    -- another client created the policy
    rw [found] at next
    obtain ⟨row, isRow⟩ : ∃ row, db.policies.find? (policyIs projectId policy.id) = some row := by
      cases now : db.policies.find? (policyIs projectId policy.id) with
      | none => exact absurd (by rw [Database.currentVersion, Database.currentVersion, now, found]) stale
      | some row => exact ⟨row, rfl⟩
    have configured : db.policies.any (policyIs projectId policy.id) = true :=
      List.any_eq_true.mpr ⟨row, List.mem_of_find?_eq_some isRow, List.find?_some isRow⟩
    have fits : fitsInteger policy.version = true := by
      rw [next]
      decide
    have refused : insertPolicy projectId policy updatedAt db = .error integrityError := by
      simp [insertPolicy, fits, configured]
    rw [writePolicy, exec_attempt_bind, refused]
    change (if integrityError = integrityError then _ else _ : Body _).exec draws db = _
    rw [if_pos rfl, currentRow, exec_query_bind, isRow]
    rfl
  | some current =>
    obtain ⟨later, isLater, le⟩ := grown.current _ _ _ (currentVersion_of_found found)
    obtain ⟨row, isRow, rfl⟩ := Option.map_eq_some_iff.mp isLater
    have member := List.mem_of_find?_eq_some isRow
    have moved : current.version ≠ row.version := by
      intro same
      rw [isLater, currentVersion_of_found found, same] at stale
      exact stale rfl
    rw [found] at next
    have fits : fitsInteger policy.version = true := by
      refine fitsInteger_mono policy.positive ?_ (history.fits row member)
      rw [next]
      change current.version + 1 ≤ row.version
      omega
    have missed : ∀ other ∈ db.policies,
        (policyIs projectId policy.id other && other.version = current.version) = false := by
      intro other inPolicies
      by_contra hit
      simp only [Bool.not_eq_false, Bool.and_eq_true, decide_eq_true_eq] at hit
      have isCurrent := List.find?_some isRow
      simp only [policyIs, Bool.and_eq_true, decide_eq_true_eq] at hit isCurrent
      have same := history.row_eq inPolicies member (hit.1.1.trans isCurrent.1.symm)
        (hit.1.2.trans isCurrent.2.symm)
      exact moved (same ▸ hit.2).symm
    rw [writePolicy, Block.exec_bind, Block.exec_statement, updatePolicy]
    have none : db.policies.countP
        (fun row => policyIs projectId policy.id row && row.version = current.version) = 0 :=
      List.countP_eq_zero.mpr fun other member => Bool.eq_false_iff.mp (missed other member)
    simp only [fits, Bool.true_eq_false, if_false, Except.map, updateWhere_of_none missed, none]
    rw [if_pos (by decide), currentRow, exec_query_bind]
    rfl

/-- A conditional write of the next version of a policy. -/
structure Written (projectId : Uuid) (policyId : Str) (read s t : Database) : Prop where
  history : PolicyHistory t
  grown : Grown s t
  current : s.currentVersion projectId policyId = read.currentVersion projectId policyId
  advanced : Advanced projectId policyId s t

theorem createPolicy_written {projectId : Uuid} {policy : Policy} {updatedAt : UtcDatetime}
    {changeType : PolicyVersionChangeType} {sourceVersion : Option Int} {read : Database} {u : Unit}
    (history : PolicyHistory db) (first : policy.version = 1)
    (absent : db.policies.find? (policyIs projectId policy.id) = none)
    (current : db.currentVersion projectId policy.id = read.currentVersion projectId policy.id)
    (ran : (writeVersion projectId policy updatedAt changeType sourceVersion none).exec draws db =
      .ok (u, rest, db')) :
    Written projectId policy.id read db db' := by
  have fits : fitsInteger policy.version = true := by
    rw [first]
    decide
  unfold writeVersion at ran
  rw [Block.exec_bind_eq_ok] at ran
  obtain ⟨effective, draws₁, db₁, wrote, ran⟩ := ran
  rw [writePolicy, exec_attempt_bind] at wrote
  cases result : insertPolicy projectId policy updatedAt db with
  | error exc =>
    rw [result] at wrote
    dsimp only at wrote
    split at wrote
    · rw [currentRow, exec_query_bind, absent] at wrote
      cases wrote
    · cases wrote
  | ok r =>
    rw [result] at wrote
    cases wrote
    obtain ⟨fresh, added⟩ := @insertPolicy_ok db r.1 projectId policy updatedAt r.2 result
    obtain ⟨-, -, -, rfl⟩ := insertVersion_ok ran
    rw [added]
    refine ⟨history.create fresh fits (by simp) ⟨rfl, rfl, rfl, rfl⟩ rfl rfl, ⟨?_, ?_⟩, current, ?_⟩
    · exact List.prefix_append _ _
    · intro p i v found
      refine ⟨v, ?_, le_refl v⟩
      obtain ⟨row, isRow, version⟩ := Option.map_eq_some_iff.mp found
      simp [Database.currentVersion, List.find?_append, isRow, version]
    · refine ⟨policy.version, ?_, ?_⟩
      · simp [Database.currentVersion, List.find?_append, absent, policyIs, policyRow]
      · simp [Database.currentVersion, absent, first]

theorem updatePolicy_written {projectId : Uuid} {policy : Policy} {updatedAt : UtcDatetime}
    {changeType : PolicyVersionChangeType} {sourceVersion : Option Int} {read : Database} {u : Unit}
    {row current : PolicyRow} (history : PolicyHistory db)
    (next : policy.version = current.version + 1)
    (found : db.policies.find? (policyIs projectId policy.id) = some row)
    (same : row.version = current.version)
    (restores : changeType = .rollback → Restores db.policyVersions
      ⟨projectId, policy.id, policy.version, policy, .rollback, sourceVersion, updatedAt⟩)
    (fresh : db.currentVersion projectId policy.id = read.currentVersion projectId policy.id)
    (ran : (writeVersion projectId policy updatedAt changeType sourceVersion
      (some current)).exec draws db = .ok (u, rest, db')) :
    Written projectId policy.id read db db' := by
  unfold writeVersion at ran
  rw [Block.exec_bind_eq_ok] at ran
  obtain ⟨effective, draws₁, db₁, wrote, ran⟩ := ran
  rw [writePolicy, Block.exec_bind_eq_ok] at wrote
  obtain ⟨rowcount, draws₂, db₂, updated, wrote⟩ := wrote
  rw [Block.exec_statement] at updated
  cases result : updatePolicy projectId policy updatedAt current.version db with
  | error exc =>
    rw [result] at updated
    cases updated
  | ok r =>
    rw [result] at updated
    cases updated
    have fits : fitsInteger policy.version = true := by
      by_contra unfit
      rw [updatePolicy, if_pos (by simpa using unfit)] at result
      cases result
    obtain ⟨-, changed⟩ := @updatePolicy_ok db r.1 projectId policy updatedAt current.version r.2 result
    split at wrote
    · rw [currentRow, exec_query_bind] at wrote
      cases wrote
    · cases wrote
      obtain ⟨-, -, -, rfl⟩ := insertVersion_ok ran
      rw [changed, ← same]
      have keeps : ∀ p i, ∀ other ∈ db.policies,
          (policyIs projectId policy.id other && other.version = row.version) = true →
          policyIs p i (savedRow policy updatedAt other) = policyIs p i other := fun _ _ _ _ _ => rfl
      refine ⟨history.update found (by rw [next, same]) fits ⟨rfl, rfl, rfl, rfl⟩ ?_ rfl rfl,
        ⟨?_, ?_⟩, fresh, ?_⟩
      · intro rollback
        obtain rfl : changeType = .rollback := rollback
        exact restores rfl
      · exact List.prefix_append _ _
      · intro p i v isVersion
        obtain ⟨other, isOther, rfl⟩ := Option.map_eq_some_iff.mp isVersion
        simp only [Database.currentVersion, find?_updateWhere _ (keeps p i), isOther, Option.map_some]
        split
        · rename_i hit
          refine ⟨policy.version, rfl, ?_⟩
          simp only [Bool.and_eq_true, decide_eq_true_eq] at hit
          rw [next, hit.2, same]
          omega
        · exact ⟨other.version, rfl, le_refl _⟩
      · refine ⟨policy.version, ?_, ?_⟩
        · have isRow := List.find?_some found
          simp [Database.currentVersion, find?_updateWhere _ (keeps projectId policy.id), found, isRow,
            savedRow]
        · rw [currentVersion_of_found found, same]
          exact next

/-- The rest of a write leaves the policies alone. -/
theorem Written.of_tables {projectId : Uuid} {policyId : Str} {read s mid t : Database}
    (written : Written projectId policyId read s mid)
    (tables : (t.policies, t.policyVersions) = (mid.policies, mid.policyVersions)) :
    Written projectId policyId read s t := by
  obtain ⟨policies, versions⟩ := Prod.mk.injEq .. ▸ tables
  obtain ⟨history, seeded⟩ := seeded_of_tables written.history policies versions
  have current : ∀ p i, t.currentVersion p i = mid.currentVersion p i := by
    intro p i
    simp only [Database.currentVersion, policies]
  refine ⟨history, written.grown.trans seeded.grown, written.current, ?_⟩
  obtain ⟨v, found, next⟩ := written.advanced
  exact ⟨v, (current _ _).trans found, next⟩

/-- A conditional write that returns has found the version that was read. -/
theorem writeVersion_written {projectId : Uuid} {policy : Policy} {updatedAt : UtcDatetime}
    {changeType : PolicyVersionChangeType} {sourceVersion : Option Int} {read : Database} {u : Unit}
    (history : PolicyHistory db) (grown : Grown read db)
    (next : policy.version = nextVersion (read.policies.find? (policyIs projectId policy.id)))
    (restores : changeType = .rollback → Restores db.policyVersions
      ⟨projectId, policy.id, policy.version, policy, .rollback, sourceVersion, updatedAt⟩)
    (ran : (writeVersion projectId policy updatedAt changeType sourceVersion
      (read.policies.find? (policyIs projectId policy.id))).exec draws db = .ok (u, rest, db')) :
    Written projectId policy.id read db db' := by
  have fresh : db.currentVersion projectId policy.id = read.currentVersion projectId policy.id := by
    by_contra stale
    rw [writeVersion, Block.exec_bind, writePolicy_stale history grown next stale] at ran
    cases ran
  cases found : read.policies.find? (policyIs projectId policy.id) with
  | none =>
    rw [found] at ran next
    have absent : db.policies.find? (policyIs projectId policy.id) = none := by
      simpa [Database.currentVersion, found] using fresh
    exact createPolicy_written history next absent fresh ran
  | some current =>
    rw [found] at ran next
    obtain ⟨row, isRow, same⟩ : ∃ row, db.policies.find? (policyIs projectId policy.id) = some row ∧
        row.version = current.version := by
      simpa [Database.currentVersion, found] using fresh
    exact updatePolicy_written history next isRow same restores fresh ran

end Exec

end DecAustrum
