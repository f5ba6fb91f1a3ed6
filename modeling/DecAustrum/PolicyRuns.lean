import DecAustrum.DeliveryStates
import DecAustrum.EvidenceStore.Operations
import DecAustrum.PolicyWrites

/-!
# Runs of policy administrators

Administrators who seed, save, roll back and disable policies concurrently keep the history of
every policy, and of two who go by the same version at most one commits.
-/
namespace DecAustrum

open Python Transaction Table ProjectPolicyRepository

inductive PolicyCall where
  | seed (projectId : Uuid) (policies : List Policy) (seededAt : UtcDatetime)
      (auditContext : Option AuditContext)
  | saveProject (project : Project) (apiKey : ProjectApiKeyRecord) (policies : List Policy)
      (auditContext : Option AuditContext)
  | save (projectId : Uuid) (policy : Policy) (updatedAt : UtcDatetime)
      (auditContext : Option AuditContext)
  | rollback (projectId : Uuid) (policyId : Str) (sourceVersion : Int) (updatedAt : UtcDatetime)
      (auditContext : Option AuditContext)
  | disable (projectId : Uuid) (policyId : Str) (updatedAt : UtcDatetime)
      (auditContext : Option AuditContext)

namespace PolicyCall

def operation : PolicyCall → Operation
  | seed p policies moment context => .seedProjectPolicies p policies moment context
  | saveProject project key policies context => .saveProjectWithApiKey project key policies context
  | save p policy moment context => .saveProjectPolicy p policy moment context
  | rollback p i source moment context => .rollbackProjectPolicy p i source moment context
  | disable p i moment context => .disableProjectPolicy p i moment context

def seeds : PolicyCall → Bool
  | seed .. => true
  | saveProject .. => true
  | _ => false

def disables : PolicyCall → Bool
  | disable .. => true
  | _ => false

/-- The policy that a save or a rollback writes. -/
def writes : PolicyCall → Option (Uuid × Str)
  | save p policy _ _ => some (p, policy.id)
  | rollback p i _ _ _ => some (p, i)
  | _ => none

/-- The database of the read that the conditional write goes by: a save reads the configuration
for the audit event before it, a rollback also the older version and the current one. -/
def lastRead (history : List (Seen Database)) : PolicyCall → Option Database
  | save .. => (reads history)[1]?
  | rollback .. => (reads history)[3]?
  | _ => none

/-- The version of its policy that a writer read. -/
def versionRead (call : PolicyCall) (history : List (Seen Database)) : Option (Option Int) :=
  call.writes.bind fun key => (call.lastRead history).map fun read => read.currentVersion key.1 key.2

/-- What a writer writes: a save its own policy, a rollback an older version under a new number. -/
def writesPolicy (history : List (Seen Database)) (policy : Policy) : PolicyCall → Prop
  | save _ saved _ _ => policy = saved
  | rollback p i source _ _ => ∃ read ∈ reads history, ∃ row ∈ read.policyVersions,
    versionIs p i source row = true ∧
      ∃ version positive, policy = row.policy.withVersion version positive
  | _ => False

/-- The call has raised what the serializer raises of the policy that it was to write. -/
def Undumped (call : PolicyCall) (history : List (Seen Database)) (exc : StoreExc) : Prop :=
  ∃ policy raised, call.writesPolicy history policy ∧ policy.dump = .error raised ∧
    exc = .python raised

/-- What a commit of the call satisfies. -/
structure Commits (call : PolicyCall) (history : List (Seen Database)) (s t : Database) : Prop where
  seeds : call.seeds = true → Seeded s t
  disables : call.disables = true → SameContents s t
  writes : ∀ p i, call.writes = some (p, i) →
    call.versionRead history = some (s.currentVersion p i) ∧ Advanced p i s t

/-- What a call ends in: a writer that returns has committed, and one that went by a version and
raises has lost to another commit, or raised while that version was current, or could not write
its policy as JSON. -/
def Ends (call : PolicyCall) : Except StoreExc Unit → List (Seen Database) → Prop
  | .ok _, history => call.writes ≠ none → ∃ s t, .commit s t ∈ history
  | .error exc, history => ∀ p i, call.writes = some (p, i) → ∀ version,
      call.versionRead history = some version →
      IsConflict i exc ∨ (∃ s, .rollback s ∈ history ∧ s.currentVersion p i = version) ∨
        call.Undumped history exc

end PolicyCall

/-- The contract of the calls. -/
def policyContract {C : Type} (calls : C → PolicyCall) : Contract C Database where
  inv := PolicyHistory
  rel := Grown
  refl := .refl
  trans _ _ _ := .trans
  allowed _ _ _ := True
  commits c history before after := (calls c).Commits history before after

variable {platform : Platform}

section Calls

variable {C ω : Type} {calls : C → PolicyCall} {c : C}

/-- A call that writes no policy conditionally is safe if what it commits is right. -/
theorem safe_plain {β : Type} {body : Body β} {call : PolicyCall} (isCall : calls c = call)
    (plain : call.writes = none) {next : Except StoreExc β → Session Database Uuid ω StoreExc Unit}
    (returns : ∀ b, next (.ok b) = .ret ()) (raises : ∀ exc, next (.error exc) = .raise exc)
    (safe : body.Outside (policyContract calls) c (fun _ _ => True)
      (fun _ h s t => PolicyHistory t ∧ Grown s t ∧ call.Commits h s t) (fun _ _ => True) []) :
    (Session.connect body next).Safe (policyContract calls) c (fun r h => call.Ends r h) [] := by
  subst isCall
  have ends : ∀ r h, (calls c).Ends r h := by
    intro r h
    cases r with
    | ok u => exact fun writes => absurd plain writes
    | error exc =>
      intro p i writes
      rw [plain] at writes
      cases writes
  refine Block.Outside.mono safe ?_ ?_ ?_
  · intro b h _
    rw [returns]
    exact ends (.ok ()) h
  · intro b h s t ⟨history, grown, commits⟩
    rw [returns]
    exact ⟨history, grown, commits, ends (.ok ()) _⟩
  · intro exc h _
    rw [raises]
    exact ends (.error exc) h

/-- What a writer of the policy ends in, once it has read the version. -/
def WriteEnds (projectId : Uuid) (policy : Policy) (history : List (Seen Database)) (exc : StoreExc)
    (h : List (Seen Database)) : Prop :=
  ∃ read later, h = history ++ .read read :: later ∧ reads later = [] ∧
    (IsConflict policy.id exc ∨ (∃ s, .rollback s ∈ later ∧
      s.currentVersion projectId policy.id = read.currentVersion projectId policy.id) ∨
        ∃ raised, policy.dump = .error raised ∧ exc = .python raised)

theorem writeVersion_ensures {projectId : Uuid} {policy : Policy} {updatedAt : UtcDatetime}
    {changeType : PolicyVersionChangeType} {sourceVersion : Option Int} {read s : Database}
    {current : Option PolicyRow} {β : Type} {rest : Unit → Body β}
    (isCurrent : read.policies.find? (policyIs projectId policy.id) = current)
    (leaves : ∀ u, (rest u).Leaves fun db => (db.policies, db.policyVersions))
    (history : PolicyHistory s) (grown : Grown read s)
    (next : policy.version = nextVersion current)
    (restores : changeType = .rollback → Restores s.policyVersions
      ⟨projectId, policy.id, policy.version, policy, .rollback, sourceVersion, updatedAt⟩) :
    (writeVersion projectId policy updatedAt changeType sourceVersion current >>= rest).Ensures
      (fun _ t => Written projectId policy.id read s t)
      (fun exc => IsConflict policy.id exc ∨
        s.currentVersion projectId policy.id = read.currentVersion projectId policy.id) s := by
  subst isCurrent
  refine Block.ensures_of_exec ?_ ?_
  · intro draws b left t ran
    rw [Block.exec_bind_eq_ok] at ran
    obtain ⟨u, draws₁, mid, wrote, ran⟩ := ran
    have written := writeVersion_written history grown next restores wrote
    exact written.of_tables (leaves _ _ _ _ _ _ ran)
  · intro draws exc ran
    by_cases fresh : s.currentVersion projectId policy.id = read.currentVersion projectId policy.id
    · exact .inr fresh
    · rw [writeVersion, Block.exec_bind, Block.exec_bind,
        writePolicy_stale history grown next fresh] at ran
      cases ran
      exact .inl ⟨_, _, rfl⟩

theorem leaves_getConfiguration {β ρ : Type} {view : Database → ρ} (projectId : Uuid)
    (policyId : Str) {f : Option ProjectPolicyConfiguration → Body β} (later : ∀ b, (f b).Leaves view) :
    (getConfigurationWithConnection projectId policyId >>= f).Leaves view :=
  (Block.leaves_query _).bind later

/-- A save reads the current row and writes; then it reads the configuration again. -/
theorem saveWithConnection_rereads (projectId : Uuid) (policy : Policy) (updatedAt : UtcDatetime)
    (changeType : PolicyVersionChangeType) (sourceVersion : Option Int) :
    ∃ reread : Option ProjectPolicyConfiguration → Body ProjectPolicyConfiguration,
      (∀ found, (reread found).Leaves fun db => (db.policies, db.policyVersions)) ∧
        saveWithConnection projectId policy updatedAt changeType sourceVersion =
          currentRow projectId policy.id >>= fun current =>
            if policy.version ≠ nextVersion current then .raise (conflict policy current)
            else ofPython policy.dump >>= fun _ =>
              writeVersion projectId policy updatedAt changeType sourceVersion current >>= fun _ =>
                getConfigurationWithConnection projectId policy.id >>= reread := by
  refine ⟨_, ?_, rfl⟩
  intro found
  cases found with
  | none => exact Block.leaves_raise _
  | some configuration => exact Block.leaves_ret _

theorem saveWithConnection_outside {projectId : Uuid} {policy : Policy} {updatedAt : UtcDatetime}
    {changeType : PolicyVersionChangeType} {sourceVersion : Option Int}
    (history : List (Seen Database))
    (restores : ∀ s, (policyContract calls).Knows history s → changeType = .rollback →
      Restores s.policyVersions
        ⟨projectId, policy.id, policy.version, policy, .rollback, sourceVersion, updatedAt⟩) :
    (saveWithConnection projectId policy updatedAt changeType sourceVersion).Outside
      (policyContract calls) c (fun _ _ => False)
      (fun _ h s t => ∃ read, h = history ++ [.read read] ∧ Written projectId policy.id read s t)
      (WriteEnds projectId policy history) history := by
  obtain ⟨reread, leaves, rereads⟩ :=
    saveWithConnection_rereads projectId policy updatedAt changeType sourceVersion
  rw [rereads]
  intro read _ _
  change Block.Outside _ c _ _ _ _ (if policy.version ≠
      nextVersion (read.policies.find? (policyIs projectId policy.id)) then _ else _)
  split
  · exact ⟨read, [], rfl, rfl, .inl ⟨_, _, rfl⟩⟩
  · rename_i isNext
    have next := not_not.mp isNext
    have written : ∀ current,
        read.policies.find? (policyIs projectId policy.id) = current →
        ∀ s, PolicyHistory s → (policyContract calls).Knows (history ++ [.read read]) s →
        (writeVersion projectId policy updatedAt changeType sourceVersion current >>= fun _ =>
          getConfigurationWithConnection projectId policy.id >>= reread).Ensures
          (fun _ t => ∃ r, history ++ [.read read] = history ++ [.read r] ∧
            Written projectId policy.id r s t)
          (fun exc => WriteEnds projectId policy history exc
            (history ++ [.read read] ++ [.rollback s])) s := by
      intro current isCurrent s inv knows
      refine Block.Ensures.mono (writeVersion_ensures isCurrent ?_ inv ?_ (isCurrent ▸ next) ?_) ?_ ?_
      · exact fun _ => leaves_getConfiguration projectId policy.id leaves
      · exact knows (.read read) (by simp)
      · exact restores s fun event member => knows event (List.mem_append_left _ member)
      · exact fun _ t done => ⟨read, rfl, done⟩
      · intro exc raised
        refine ⟨read, [.rollback s], by simp, rfl,
          raised.imp_right fun fresh => .inl ⟨s, by simp, fresh⟩⟩
    beta_reduce
    cases dumped : policy.dump with
    | error raised => exact ⟨read, [], rfl, rfl, .inr (.inr ⟨raised, dumped, rfl⟩)⟩
    | ok json =>
    change Block.Outside _ c _ _ _ _ (writeVersion projectId policy updatedAt changeType sourceVersion
      (read.policies.find? (policyIs projectId policy.id)) >>= fun _ =>
        getConfigurationWithConnection projectId policy.id >>= reread)
    cases found : read.policies.find? (policyIs projectId policy.id) with
    | none => exact fun s inv knows _ => written _ found s inv knows
    | some current => exact fun s inv knows _ => written _ found s inv knows

/-- A conditional write is safe if it ends as it should. -/
theorem safe_writer {β : Type} {body : Body β} {call : PolicyCall} (isCall : calls c = call)
    {next : Except StoreExc β → Session Database Uuid ω StoreExc Unit}
    (returns : ∀ b, next (.ok b) = .ret ()) (raises : ∀ exc, next (.error exc) = .raise exc)
    (safe : body.Outside (policyContract calls) c (fun _ _ => False)
      (fun _ h s t => PolicyHistory t ∧ Grown s t ∧ call.Commits h s t)
      (fun exc h => call.Ends (.error exc) h) []) :
    (Session.connect body next).Safe (policyContract calls) c (fun r h => call.Ends r h) [] := by
  subst isCall
  refine Block.Outside.mono safe ?_ ?_ ?_
  · exact fun _ _ never => never.elim
  · intro b h s t ⟨history, grown, commits⟩
    rw [returns]
    exact ⟨history, grown, commits, fun _ => ⟨s, t, by simp⟩⟩
  · intro exc h ends
    rw [raises]
    exact ends

theorem leaves_recordAudit (occurredAt : UtcDatetime) (projectId : Uuid) (context : AuditContext)
    (action : AuditAction) (resourceType : AuditResourceType) (resourceId : Str)
    (before after : Option Json) (metadata : List (Str × Json)) :
    (recordAudit platform occurredAt projectId context action resourceType resourceId before after
      metadata).Leaves fun db => (db.policies, db.policyVersions) := by
  intro draws s u rest t ran
  obtain ⟨policies, versions⟩ := recordAudit_policies ran
  beta_reduce
  rw [policies, versions]

/-- A write and the recording of it. -/
theorem written_outside {projectId : Uuid} {policy : Policy} {call : PolicyCall} {β γ : Type}
    (body : Body β) {record : β → Body γ} {history : List (Seen Database)}
    (its : call.writes = some (projectId, policy.id))
    (own : ∀ later, call.writesPolicy (history ++ later) policy)
    (unconditional : call.seeds = false ∧ call.disables = false)
    (last : ∀ read later, reads later = [] →
      call.lastRead (history ++ .read read :: later) = some read)
    (leaves : ∀ b, (record b).Leaves fun db => (db.policies, db.policyVersions))
    (safe : body.Outside (policyContract calls) c (fun _ _ => False)
      (fun _ h s t => ∃ read, h = history ++ [.read read] ∧ Written projectId policy.id read s t)
      (WriteEnds projectId policy history) history) :
    (body >>= record).Outside (policyContract calls) c (fun _ _ => False)
      (fun _ h s t => PolicyHistory t ∧ Grown s t ∧ call.Commits h s t)
      (fun exc h => call.Ends (.error exc) h) history := by
  have version : ∀ read later, reads later = [] →
      call.versionRead (history ++ .read read :: later) =
        some (read.currentVersion projectId policy.id) := by
    intro read later none
    rw [PolicyCall.versionRead, its, Option.bind_some, last read later none, Option.map_some]
  refine (Block.outside_bind body record history).mpr (Block.Outside.mono safe ?_ ?_ ?_)
  · exact fun _ _ never => never.elim
  · rintro b h s mid ⟨read, rfl, written⟩
    refine Block.ensures_of_exec ?_ ?_
    · intro draws a rest t ran
      have done := written.of_tables (leaves b _ _ _ _ _ ran)
      refine ⟨done.history, done.grown, ⟨?_, ?_, ?_⟩⟩
      · exact fun seeds => absurd (unconditional.1.symm.trans seeds) (by decide)
      · exact fun disables => absurd (unconditional.2.symm.trans disables) (by decide)
      · intro p i writes
        rw [its] at writes
        cases writes
        exact ⟨done.current ▸ version read [] rfl, done.advanced⟩
    · -- the write found the version that was read
      intro draws exc _ p i writes v isVersion
      rw [its] at writes
      cases writes
      rw [List.append_assoc, List.singleton_append, version read _ rfl] at isVersion
      cases isVersion
      exact .inr (.inl ⟨s, by simp, written.current⟩)
  · rintro exc h ⟨read, later, rfl, none, ends⟩ p i writes v isVersion
    rw [its] at writes
    cases writes
    rw [version read later none] at isVersion
    cases isVersion
    refine ends.imp_right fun other => ?_
    rcases other with ⟨s, member, fresh⟩ | ⟨raised, undumped, rfl⟩
    · exact .inl ⟨s, by simp [member], fresh⟩
    · exact .inr ⟨policy, raised, own _, undumped, rfl⟩

theorem saveProjectPolicy_outside (projectId : Uuid) (policy : Policy) (updatedAt : UtcDatetime)
    (auditContext : Option AuditContext) :
    (EvidenceStore.saveProjectPolicy platform projectId policy updatedAt auditContext).Outside
      (policyContract calls) c (fun _ _ => False)
      (fun _ h s t => PolicyHistory t ∧ Grown s t ∧
        (PolicyCall.save projectId policy updatedAt auditContext).Commits h s t)
      (fun exc h => (PolicyCall.save projectId policy updatedAt auditContext).Ends (.error exc) h)
      [] := by
  unfold EvidenceStore.saveProjectPolicy
  rcases findConfiguration_cases projectId policy.id with raises | finds
  · rw [raises]
    intro p i _ v isVersion
    cases isVersion
  rw [finds]
  intro read _ _
  refine @written_outside C calls c projectId policy _ _ _
    (saveWithConnection projectId policy updatedAt .updated none) _ _ rfl
    (fun _ => rfl) ⟨rfl, rfl⟩ ?_ ?_ ?_
  · intro last later none
    simp [PolicyCall.lastRead, reads]
  · refine fun saved => Block.Leaves.bind ?_ fun _ => Block.leaves_ret _
    cases auditContext with
    | none => exact Block.leaves_ret _
    | some context => exact leaves_recordAudit _ _ _ _ _ _ _ _ _
  · exact saveWithConnection_outside [.read read] fun _ _ plain => by cases plain

theorem rowToVersion_ok {row : PolicyVersionRow} {version : ProjectPolicyVersion}
    (isVersion : rowToVersion row = .ok version) :
    version.policy = row.policy ∧ row.policy.id = row.policyId := by
  unfold rowToVersion at isVersion
  split at isVersion
  · rename_i identity
    cases isVersion
    simp only [validVersionIdentity, Bool.and_eq_true, decide_eq_true_eq] at identity
    exact ⟨rfl, identity.1.1⟩
  · cases isVersion

theorem bindInteger_eq (n : Int) :
    bindInteger n = if fitsInteger n then .ret () else .raise (.python .overflowError) := by
  unfold bindInteger
  split <;> rfl

/-- The source of a rollback is older than the version it makes. -/
theorem restores_of_rollback {projectId : Uuid} {policyId : Str} {sourceVersion : Int}
    {updatedAt : UtcDatetime} {read₁ read₂ s : Database} {historical : PolicyVersionRow}
    {current : PolicyRow} {version : ProjectPolicyVersion} (history : PolicyHistory read₁)
    (found : read₁.policyVersions.find? (versionIs projectId policyId sourceVersion) = some historical)
    (isCurrent : read₂.policies.find? (policyIs projectId policyId) = some current)
    (isVersion : rowToVersion historical = .ok version) (grown : Grown read₁ read₂)
    (later : Grown read₁ s) (positive : 1 ≤ current.version + 1) :
    Restores s.policyVersions
      ⟨projectId, version.policy.id, current.version + 1,
        version.policy.withVersion (current.version + 1) positive, .rollback, some sourceVersion,
        updatedAt⟩ := by
  have member := List.mem_of_find?_eq_some found
  have its := List.find?_some found
  simp only [versionIs, Bool.and_eq_true, decide_eq_true_eq] at its
  obtain ⟨⟨project, id⟩, number⟩ := its
  obtain ⟨row, configured, sameProject, sameId⟩ := history.configured historical member
  have older : historical.version ≤ row.version := by
    refine history.version_le configured ?_
    simp [Database.history, member, sameProject, sameId]
  have isRow := history.find?_eq configured (sameProject.trans project) (sameId.trans id)
  obtain ⟨v, isNow, le⟩ := grown.current _ _ _ (currentVersion_of_found isRow)
  rw [currentVersion_of_found isCurrent] at isNow
  cases isNow
  obtain ⟨samePolicy, sameKey⟩ := rowToVersion_ok isVersion
  refine ⟨historical, later.versions.mem member, project, ?_, by rw [number], ?_, positive, ?_⟩
  · rw [samePolicy, sameKey]
  · change historical.version < current.version + 1
    omega
  · rw [samePolicy]

theorem rollbackProjectPolicy_outside (projectId : Uuid) (policyId : Str) (sourceVersion : Int)
    (updatedAt : UtcDatetime) (auditContext : Option AuditContext) :
    (EvidenceStore.rollbackProjectPolicy platform projectId policyId sourceVersion updatedAt
      auditContext).Outside
      (policyContract calls) c (fun _ _ => False)
      (fun _ h s t => PolicyHistory t ∧ Grown s t ∧
        (PolicyCall.rollback projectId policyId sourceVersion updatedAt auditContext).Commits h s t)
      (fun exc h =>
        (PolicyCall.rollback projectId policyId sourceVersion updatedAt auditContext).Ends
          (.error exc) h)
      [] := by
  have early : ∀ (exc : StoreExc) (h : List (Seen Database)), (reads h).length ≤ 3 →
      (PolicyCall.rollback projectId policyId sourceVersion updatedAt auditContext).Ends
        (.error exc) h := by
    intro exc h short p i _ v isVersion
    have none : (reads h)[3]? = none := List.getElem?_eq_none short
    simp [PolicyCall.versionRead, PolicyCall.lastRead, PolicyCall.writes, none] at isVersion
  have leaves : ∀ previous restored, ((do
      EvidenceStore.recordRollback platform projectId policyId sourceVersion updatedAt previous
        restored auditContext
      return restored : Body ProjectPolicyConfiguration)).Leaves
        fun db => (db.policies, db.policyVersions) := by
    refine fun previous restored => Block.Leaves.bind ?_ fun _ => Block.leaves_ret _
    cases auditContext with
    | none => exact Block.leaves_ret _
    | some context => exact leaves_recordAudit _ _ _ _ _ _ _ _ _
  unfold EvidenceStore.rollbackProjectPolicy
  rcases findConfiguration_cases projectId policyId with raises | finds
  · rw [raises]
    exact early _ [] (Nat.zero_le _)
  rw [finds]
  intro read₀ _ _
  change Block.Outside _ c _ _ _ [.read read₀]
    (rollbackWithConnection projectId policyId sourceVersion updatedAt >>= fun _ => _)
  rw [rollbackWithConnection, bindInteger_eq]
  split
  case isFalse => exact early _ _ (by simp [reads])
  intro read₁ inv₁ knows₁
  simp only [Block.bind]
  split
  · exact early _ _ (by simp [reads])
  rename_i historical found
  intro read₂ inv₂ knows₂
  simp only [Block.bind]
  split
  · exact early _ _ (by simp [reads])
  rename_i current isCurrent
  split
  · exact early _ _ (by simp [reads])
  cases isVersion : rowToVersion historical with
  | error exc => exact early _ _ (by simp [reads])
  | ok version =>
    have its : version.policy.id = policyId := by
      have number := List.find?_some found
      simp only [versionIs, Bool.and_eq_true, decide_eq_true_eq] at number
      rw [(rowToVersion_ok isVersion).1, (rowToVersion_ok isVersion).2, number.1.2]
    have writes : (PolicyCall.rollback projectId policyId sourceVersion updatedAt
        auditContext).writes = some (projectId, version.policy.id) := by
      rw [its]
      rfl
    have positive : 1 ≤ current.version + 1 := by
      have one := current.positive
      omega
    change Block.Outside _ c _ _ _ [.read read₀, .read read₁, .read read₂]
      (saveWithConnection projectId (version.policy.withVersion (current.version + 1) positive) updatedAt
        .rollback (some sourceVersion) >>= fun _ => _)
    refine @written_outside C calls c projectId
      (version.policy.withVersion (current.version + 1) positive) _ _ _ (saveWithConnection projectId
      (version.policy.withVersion (current.version + 1) positive) updatedAt .rollback (some sourceVersion))
      _ _ writes ?_ ⟨rfl, rfl⟩ ?_ (fun _ => leaves _ _) ?_
    · intro later
      refine ⟨read₁, by simp [reads], historical, List.mem_of_find?_eq_some found,
        List.find?_some found, current.version + 1, positive, ?_⟩
      rw [(rowToVersion_ok isVersion).1]
    · intro last later none
      simp [PolicyCall.lastRead, reads]
    · refine @saveWithConnection_outside C calls c projectId
        (version.policy.withVersion (current.version + 1) positive) updatedAt .rollback (some sourceVersion)
        [.read read₀, .read read₁, .read read₂] ?_
      intro s knows _
      exact restores_of_rollback inv₁ found isCurrent isVersion
        (knows₂ (.read read₁) (by simp)) (knows (.read read₁) (by simp)) _

/-- An insert of seeds is safe wherever it opens its transaction. -/
theorem seeds_outside {call : PolicyCall} (disables : call.disables = false)
    (plain : call.writes = none) {β : Type} {body : Body β} (immediate : body.ReadsBy fun _ _ => True)
    (seeded : ∀ draws s b rest t, PolicyHistory s → body.exec draws s = .ok (b, rest, t) →
      PolicyHistory t ∧ Seeded s t) (history : List (Seen Database)) :
    body.Outside (policyContract calls) c (fun _ _ => True)
      (fun _ h s t => PolicyHistory t ∧ Grown s t ∧ call.Commits h s t) (fun _ _ => True)
      history := by
  refine Block.outside_of_exec immediate (fun _ _ => trivial) (fun _ _ => trivial) history
    (fun _ _ _ _ _ => trivial) ?_
  intro later draws s b rest t inv _ _ ran
  obtain ⟨kept, grown⟩ := seeded draws s b rest t inv ran
  refine ⟨kept, grown.grown, fun _ => grown, ?_, ?_⟩
  · exact fun its => absurd (disables.symm.trans its) (by decide)
  · exact fun p i its => absurd (plain.symm.trans its) (by simp)

theorem seedProjectPolicies_outside (projectId : Uuid) (policies : List Policy)
    (seededAt : UtcDatetime) (auditContext : Option AuditContext) :
    (EvidenceStore.seedProjectPolicies platform projectId seededAt auditContext policies).Outside
      (policyContract calls) c (fun _ _ => True)
      (fun _ h s t => PolicyHistory t ∧ Grown s t ∧
        (PolicyCall.seed projectId policies seededAt auditContext).Commits h s t) (fun _ _ => True)
      [] := by
  cases policies with
  | nil => trivial
  | cons policy later =>
    unfold EvidenceStore.seedProjectPolicies
    rcases findConfiguration_cases projectId policy.id with raises | finds
    · rw [raises]
      trivial
    rw [finds]
    intro read _ _
    have immediate : ∀ previous, (do
        insertSeed projectId policy seededAt
        EvidenceStore.recordSeed platform projectId policy.id seededAt auditContext previous
        EvidenceStore.seedProjectPolicies platform projectId seededAt auditContext later :
          Body Unit).ReadsBy fun _ _ => True := fun _ => trivial
    refine seeds_outside rfl rfl (immediate _) ?_ _
    intro draws s u rest t history ran
    exact seedPolicy_seeded (fun _ _ _ _ _ => seedProjectPolicies_seeded) history ran

theorem disableProjectPolicy_outside (projectId : Uuid) (policyId : Str) (updatedAt : UtcDatetime)
    (auditContext : Option AuditContext) :
    (EvidenceStore.disableProjectPolicy platform projectId policyId updatedAt auditContext).Outside
      (policyContract calls) c (fun _ _ => True)
      (fun _ h s t => PolicyHistory t ∧ Grown s t ∧
        (PolicyCall.disable projectId policyId updatedAt auditContext).Commits h s t) (fun _ _ => True)
      [] := by
  unfold EvidenceStore.disableProjectPolicy
  rcases findConfiguration_cases projectId policyId with raises | finds
  · rw [raises]
    trivial
  rw [finds]
  intro read₀ _ _ read₁ _ _
  simp only [Block.bind]
  split
  · -- nothing is configured
    cases auditContext with
    | none => trivial
    | some context =>
      cases read₀.policies.find? (policyIs projectId policyId) <;> trivial
  · intro s history _ _
    refine Block.ensures_of_exec ?_ fun _ _ _ => trivial
    intro draws b rest t ran
    have recording : (do
        let disabled ← getConfigurationWithConnection projectId policyId
        EvidenceStore.recordPolicyDisabling platform projectId policyId updatedAt auditContext
          ((read₀.policies.find? (policyIs projectId policyId)).map (·.configuration)) disabled
        return disabled : Body (Option ProjectPolicyConfiguration)).exec draws { s with
          policies := updateWhere (policyIs projectId policyId) (disabledRow updatedAt) s.policies } =
        .ok (b, rest, t) := ran
    obtain ⟨updated, same⟩ := disableRows_sameContents history projectId policyId updatedAt
    rw [getConfigurationWithConnection, exec_query_bind, Block.exec_bind_eq_ok] at recording
    obtain ⟨_, draws₁, db₁, recorded, returned⟩ := recording
    obtain ⟨kept, sameLater⟩ := recordPolicyDisabling_sameContents updated recorded
    cases returned
    have both : SameContents s t :=
      ⟨sameLater.policies.trans same.policies, sameLater.versions.trans same.versions⟩
    refine ⟨kept, both.grown, ?_, fun _ => both, ?_⟩
    · exact fun seeds => by cases seeds
    · exact fun p i writes => by cases writes

theorem policyCall_safe (c : C) :
    ((calls c).operation.session platform : Session Database Uuid ω StoreExc Unit).Safe
      (policyContract calls) c (fun r h => (calls c).Ends r h) [] := by
  cases isCall : calls c with
  | seed p policies moment context =>
    refine safe_plain isCall rfl (fun _ => rfl) (fun _ => rfl) ?_
    exact seedProjectPolicies_outside p policies moment context
  | saveProject project key policies context =>
    change Session.Safe _ c _ [] (if key.projectId ≠ project.projectId then _ else _)
    split
    · intro p i writes
      cases writes
    · refine safe_plain isCall rfl (fun _ => rfl) (fun _ => rfl) (seeds_outside rfl rfl ?_ ?_ _)
      · trivial
      · exact fun _ _ _ _ _ history ran => saveProjectBody_seeded history ran
  | save p policy moment context =>
    refine safe_writer isCall (fun _ => rfl) (fun _ => rfl) ?_
    exact saveProjectPolicy_outside p policy moment context
  | rollback p i source moment context =>
    refine safe_writer isCall (fun _ => rfl) (fun _ => rfl) ?_
    exact rollbackProjectPolicy_outside p i source moment context
  | disable p i moment context =>
    refine safe_plain isCall rfl (fun _ => rfl) (fun _ => rfl) ?_
    exact disableProjectPolicy_outside p i moment context

end Calls

/-! ## Runs -/

section Runs

variable {C ω : Type} [DecidableEq C] {calls : C → PolicyCall} {start : Database}
variable {w : World C Database Uuid ω StoreExc Unit}

/-- What the contract promises of a run of the calls. -/
abbrev PolicyHolds (calls : C → PolicyCall) (start : Database)
    (w : World C Database Uuid ω StoreExc Unit) : Prop :=
  (policyContract calls).Holds (fun c r h => (calls c).Ends r h) start w

/-- What a call read does not depend on what it did later. -/
theorem versionRead_of_prefix {call : PolicyCall} {history : List (Seen Database)}
    {version : Option Int} (later : List (Seen Database))
    (read : call.versionRead history = some version) :
    call.versionRead (history ++ later) = some version := by
  have kept {i : Nat} {s : Database} (found : (reads history)[i]? = some s) :
      (reads (history ++ later))[i]? = some s := by
    obtain ⟨below, -⟩ := List.getElem?_eq_some_iff.mp found
    rw [reads, List.filterMap_append]
    rw [reads] at below found
    rw [List.getElem?_append_left below, found]
  unfold PolicyCall.versionRead at read ⊢
  obtain ⟨key, writes, found⟩ := Option.bind_eq_some_iff.mp read
  obtain ⟨s, last, rfl⟩ := Option.map_eq_some_iff.mp found
  have lastLater : call.lastRead (history ++ later) = some s := by
    cases call with
    | save => exact kept last
    | rollback => exact kept last
    | seed => cases last
    | saveProject => cases last
    | disable => cases last
  rw [writes, Option.bind_some, lastLater, Option.map_some]

/-- Two writers of a policy that commit went by different versions. -/
theorem versions_apart (holds : PolicyHolds calls start w) :
    w.log.Pairwise fun a b => (calls a.client).writes ≠ none →
      (calls a.client).writes = (calls b.client).writes →
        (calls a.client).versionRead a.history ≠ (calls b.client).versionRead b.history := by
  have grown : w.log.Pairwise fun a b => Grown a.after b.before :=
    holds.linked.pairwise Grown.refl (fun _ _ _ => Grown.trans)
      fun entry member => (holds.entries entry member).1
  refine grown.imp_of_mem ?_
  intro a b inA inB evolves writes same equal
  obtain ⟨⟨p, i⟩, its⟩ := Option.ne_none_iff_exists'.mp writes
  obtain ⟨readA, v, after, next⟩ := (holds.entries a inA).2.2.2.2.2.writes p i its
  obtain ⟨readB, -⟩ := (holds.entries b inB).2.2.2.2.2.writes p i (same.symm.trans its)
  obtain ⟨later, before, le⟩ := evolves.current p i v after
  rw [readA, readB, Option.some.injEq, before] at equal
  rw [equal] at next
  change v = later + 1 at next
  omega

/-- A call that has ended ends as the contract says. -/
theorem ends_of_session (holds : PolicyHolds calls start w) {c : C} {r : Except StoreExc Unit}
    (ended : w.session c = some (match r with | .ok u => .ret u | .error exc => .raise exc)) :
    (calls c).Ends r (w.history c) := by
  have outside : w.Outside c := by
    intro t inside
    obtain ⟨-, β, body, next, open_, -⟩ := holds.inside c t inside
    rw [ended] at open_
    cases r <;> cases open_
  have safe := holds.safe c _ ended outside
  cases r <;> exact safe

/-- A writer that went by the same version as one that commits does not commit. -/
theorem loser_commits_nothing (holds : PolicyHolds calls start w) {entry : Commit C Database}
    (inLog : entry ∈ w.log) (writes : (calls entry.client).writes ≠ none) {d : C}
    (other : d ≠ entry.client) (same : (calls d).writes = (calls entry.client).writes)
    (read : (calls d).versionRead (w.history d) =
      (calls entry.client).versionRead entry.history) :
    ∀ e ∈ w.log, e.client ≠ d := by
  rintro e member rfl
  obtain ⟨⟨p, i⟩, its⟩ := Option.ne_none_iff_exists'.mp writes
  obtain ⟨readE, -⟩ := (holds.entries e member).2.2.2.2.2.writes p i (same.trans its)
  obtain ⟨later, remembered⟩ := holds.remembered e member
  rw [remembered, versionRead_of_prefix _ readE] at read
  have symmetric : Std.Symm fun a b : Commit C Database => (calls a.client).writes ≠ none →
      (calls a.client).writes = (calls b.client).writes →
        (calls a.client).versionRead a.history ≠ (calls b.client).versionRead b.history :=
    ⟨fun a b apart writesB equal versions => apart (equal ▸ writesB) equal.symm versions.symm⟩
  have apart := (versions_apart holds).forall inLog member fun equal => other (equal ▸ rfl)
  exact apart writes same.symm (read ▸ readE.symm)

end Runs

/-- In every run of seeds, saves, rollbacks and disables from an initialised database: every
policy has a history; the history only grows; a seed alters no configured policy and a disable
adds no version; two commits that write a policy went by different versions; and a writer that
went by the version another one commits on never commits or returns, and raises the conflict
unless it raised while that version was still current or its policy cannot be written as JSON. -/
theorem policy_version_history {C ω : Type} [DecidableEq C] (platform : Platform)
    (legacy : Database) (unversioned : legacy.policyVersions = [])
    (keys : UniqueKey (fun row => some (row.projectId, row.policyId)) legacy.policies)
    (fits : ∀ row ∈ legacy.policies, fitsInteger row.version = true) (calls : C → PolicyCall)
    (w : World C Database Uuid ω StoreExc Unit)
    (reachable : Reachable anyOpening (backfillProjectPolicyVersions legacy)
      (fun c => (calls c).operation.session platform) w) :
    PolicyHistory w.committed ∧
      (backfillProjectPolicyVersions legacy).policyVersions <+: w.committed.policyVersions ∧
      (∀ entry ∈ w.log, PolicyHistory entry.before ∧ PolicyHistory entry.after ∧
        entry.before.policyVersions <+: entry.after.policyVersions ∧
        ((calls entry.client).seeds = true → Seeded entry.before entry.after) ∧
        ((calls entry.client).disables = true →
          entry.after.policyVersions = entry.before.policyVersions)) ∧
      (w.log.Pairwise fun a b => (calls a.client).writes ≠ none →
        (calls a.client).writes = (calls b.client).writes →
          (calls a.client).versionRead a.history ≠ (calls b.client).versionRead b.history) ∧
      ∀ entry ∈ w.log, ∀ p i, (calls entry.client).writes = some (p, i) →
        ∀ d ≠ entry.client, (calls d).writes = some (p, i) →
          (calls d).versionRead (w.history d) =
            (calls entry.client).versionRead entry.history →
          (∀ other ∈ w.log, other.client ≠ d) ∧ w.session d ≠ some (.ret ()) ∧
            ∀ exc, w.session d = some (.raise exc) → IsConflict i exc ∨
              (∃ s, .rollback s ∈ w.history d ∧
                s.currentVersion p i = entry.before.currentVersion p i) ∨
              (calls d).Undumped (w.history d) exc := by
  have holds : PolicyHolds calls (backfillProjectPolicyVersions legacy) w :=
    (policyContract calls).sound _ (policyHistory_migrated legacy unversioned keys fits)
      (fun c => (calls c).operation.session platform) (fun c => policyCall_safe c) w
      (reachable.mono fun _ _ _ _ => trivial)
  have entries := holds.entries
  refine ⟨holds.inv, ?_, ?_, versions_apart holds, ?_⟩
  · have grown : Grown (backfillProjectPolicyVersions legacy) w.committed :=
      holds.linked.rel Grown.refl (fun _ _ _ => Grown.trans) fun entry member =>
        (entries entry member).1
    exact grown.versions
  · intro entry member
    obtain ⟨grown, before, after, -, -, commits⟩ := entries entry member
    exact ⟨before, after, grown.versions, commits.seeds, fun disables =>
      (commits.disables disables).versions⟩
  · intro entry member p i its d other same read
    have writes : (calls entry.client).writes ≠ none := by
      rw [its]
      exact Option.some_ne_none _
    have nothing := loser_commits_nothing holds member writes other (same.trans its.symm) read
    obtain ⟨readE, -⟩ := (entries entry member).2.2.2.2.2.writes p i its
    refine ⟨nothing, ?_, ?_⟩
    · intro returned
      obtain ⟨s, t, committed⟩ := ends_of_session (r := .ok ()) holds returned (by simp [same])
      obtain ⟨e, inLog, client, -⟩ := holds.logged d s t committed
      exact nothing e inLog client
    · intro exc raised
      exact ends_of_session (r := .error exc) holds raised p i same _ (read.trans readE)

/-! ## Two saves of one policy -/

def samplePolicyText (version : Int) (positive : 1 ≤ version) (reason : Str) : Policy where
  id := [0x70]
  version := version
  action := [0x61]
  matchMode := .all
  conditions := [⟨[0x66], .equals, sampleTrue⟩]
  decision := .deny
  reason := reason
  positive := positive
  conditional := by decide

/-- A project with one policy, written before policies had a history. -/
def sampleLegacy : Database :=
  { Database.empty with
    projects := [⟨⟨1⟩, [0x50], .active, sampleTime 0, sampleTime 0⟩]
    policies := [policyRow ⟨1⟩ (samplePolicyText 1 sampleVersion_positive []) (sampleTime 0)] }

/-- Two administrators save the second version, a third restores the first one. -/
def bothSave : Fin 3 → PolicyCall
  | 0 => .save ⟨1⟩ (samplePolicyText 2 sampleNextVersion_positive [0x31]) (sampleTime 5) none
  | 1 => .save ⟨1⟩ (samplePolicyText 2 sampleNextVersion_positive [0x32]) (sampleTime 6) none
  | 2 => .rollback ⟨1⟩ [0x70] 1 (sampleTime 7) none

/-- Both read the first version, the first one commits, then the second one tries. -/
def bothSaveRun : World (Fin 3) Database Uuid Unit StoreExc Unit :=
  (World.start (backfillProjectPolicyVersions sampleLegacy)
    fun c => (bothSave c).operation.session (referencePlatform fun _ => [])).play
      (turns () ([0, 0, 1, 1] ++ List.replicate 9 0 ++ List.replicate 9 1 ++ List.replicate 12 2))

/-- The exception that a client has ended in. -/
def World.raised {n : Nat} (w : World (Fin n) Database Uuid Unit StoreExc Unit) (c : Fin n) :
    Option StoreExc :=
  match w.session c with
  | some (.raise exc) => some exc
  | _ => none

theorem policy_version_history_sample :
    (bothSaveRun.log.map (·.client) = [0, 2] ∧
      World.raised bothSaveRun 1 = some (.policyVersionConflict [0x70] 3 2)) ∧
      PolicyHistory bothSaveRun.committed :=
  ⟨by decide +kernel, (policy_version_history (referencePlatform fun _ => []) sampleLegacy rfl
    (List.nodup_singleton _) (by decide) bothSave bothSaveRun (play_reachable _ _ _)).1⟩

/-! ## A policy that is accepted and cannot be written as JSON -/

/-- A key without a UTF-8 form below the top of a value. -/
def undumpedPolicy : Policy where
  id := [0x70]
  version := 2
  action := [0x61]
  matchMode := .all
  conditions := [⟨[0x66], .equals, ⟨.obj [([0xd800], .null)], by decide, by decide, rfl⟩⟩]
  decision := .deny
  reason := []
  positive := sampleNextVersion_positive
  conditional := by decide

/-- Two administrators save the second version, one of them the policy above. -/
def undumpedSave : Fin 2 → PolicyCall
  | 0 => .save ⟨1⟩ (samplePolicyText 2 sampleNextVersion_positive [0x31]) (sampleTime 5) none
  | 1 => .save ⟨1⟩ undumpedPolicy (sampleTime 6) none

/-- Both read the first version, the first one commits, then the second one raises. -/
def undumpedSaveRun : World (Fin 2) Database Uuid Unit StoreExc Unit :=
  (World.start (backfillProjectPolicyVersions sampleLegacy)
    fun c => (undumpedSave c).operation.session (referencePlatform fun _ => [])).play
      (turns () ([firstClient, firstClient, secondClient, secondClient] ++
        List.replicate 9 firstClient ++ List.replicate 3 secondClient))

/-- Both go by the first version, one commits, and the other raises no conflict. -/
theorem undumped_save_raises :
    Reachable anyOpening (backfillProjectPolicyVersions sampleLegacy)
        (fun c => (undumpedSave c).operation.session (referencePlatform fun _ => []))
        undumpedSaveRun ∧
      undumpedSaveRun.log.map (·.client) = [0] ∧
      (undumpedSave 0).versionRead (undumpedSaveRun.history 0) = some (some 1) ∧
      (undumpedSave 1).versionRead (undumpedSaveRun.history 1) = some (some 1) ∧
      (∃ exc, undumpedSaveRun.session 1 = some (.raise exc) ∧ ¬ IsConflict [0x70] exc) := by
  have ended : World.raised undumpedSaveRun 1 = some (.python .unicodeEncodeError) := by decide +kernel
  refine ⟨play_reachable _ _ _, by decide +kernel, by decide +kernel, by decide +kernel,
    .python .unicodeEncodeError, ?_, ?_⟩
  · unfold World.raised at ended
    split at ended
    · next raised =>
      rw [raised, Option.some.inj ended]
    · cases ended
  · rintro ⟨expected, provided, conflict⟩
    cases conflict

end DecAustrum
