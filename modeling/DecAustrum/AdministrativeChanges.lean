import DecAustrum.AuditTrail
import DecAustrum.Storage.PolicyEffects

/-!
# Administrative changes

Each administrative operation records the resources it changes, as they were and as they are, and
records nothing where it changes nothing.
-/
namespace DecAustrum

open Python Transaction Table

namespace EvidenceStore

variable {platform : Platform} {draws rest : ℕ → Uuid} {db db' : Database}

/-! ## Projects and keys -/

theorem form_updateProjects {projectId : Uuid} {f : Project → Project}
    (kept : ∀ project, (f project).projectId = project.projectId) {r : Resource}
    (other : r ≠ .project projectId) :
    ({ db with projects := updateWhere (·.projectId = projectId) f db.projects } : Database).form r =
      db.form r := by
  cases r with
  | project p =>
    refine congrArg (Option.map _) (find?_updateWhere_other _ fun row _ hit => ?_)
    have apart : p ≠ projectId := fun same => other (same ▸ rfl)
    simp only [decide_eq_true_eq] at hit
    simp [kept, hit, apart.symm]
  | _ => rfl

theorem Project.dump_status {p q : Project} (same : p.dump = q.dump) : p.status = q.status := by
  have texts : p.status.text = q.status.text := by
    simp only [Project.dump, Json.obj.injEq, List.cons.injEq, Prod.mk.injEq, Json.str.injEq] at same
    exact same.2.2.1.2
  revert texts
  cases p.status <;> cases q.status <;> decide

/-- The project read before the update may be out of date where both have the new status. -/
theorem updatedStatus_audited {projectId : Uuid} {status : ProjectStatus}
    {updatedAt : UtcDatetime} {context : AuditContext} {previous updated : Option Project}
    (fresh : previous = db.projects.find? (fun project => project.projectId = projectId) ∨
      previous.any (fun project => project.status = status) ∧
        (db.projects.find? fun project => project.projectId = projectId).any
          fun project => project.status = status)
    (ran : (do
      let updated ← ProjectRepository.updateStatusWithConnection projectId status updatedAt
      recordStatusChange platform projectId updatedAt (some context) previous updated
      return updated : Body (Option Project)).exec draws db = .ok (updated, rest, db')) :
    AuditedAt (.project projectId) db db' := by
  unfold ProjectRepository.updateStatusWithConnection ProjectRepository.getWithConnection at ran
  rw [bind_assoc, exec_updateRows_bind, exec_query_bind, Block.exec_bind_eq_ok] at ran
  obtain ⟨_, draws₁, db₁, recorded, ran⟩ := ran
  cases ran
  have others : ∀ r, r ≠ .project projectId → Database.form _ r = db.form r :=
    fun r => form_updateProjects (f := ProjectRepository.withStatus status updatedAt) fun _ => rfl
  have refound := @find?_updateWhere Project (fun project => project.projectId = projectId)
    (ProjectRepository.withStatus status updatedAt) db.projects
    (fun project => project.projectId = projectId) fun row _ _ => rfl
  rw [refound] at recorded
  cases found : db.projects.find? fun project => project.projectId = projectId with
  | none =>
    have nothing : db' = { db with
        projects := updateWhere (fun project => project.projectId = projectId)
          (ProjectRepository.withStatus status updatedAt) db.projects } := by
      simp only [found, Option.map_none] at recorded
      cases previous <;> cases recorded <;> rfl
    subst nothing
    exact .still rfl rfl (congrArg (Option.map _) (by rw [refound, found]; rfl)) (fun r _ => others r)
          (noNewDeadLetters_refl _)
  | some current =>
    have named : current.projectId = projectId := by simpa using List.find?_some found
    simp only [found, Option.map_some, named, decide_true, if_true] at recorded
    have isAfter : ({ db with
        projects := updateWhere (fun project => project.projectId = projectId)
          (ProjectRepository.withStatus status updatedAt) db.projects } : Database).form
        (.project projectId) = some (ProjectRepository.withStatus status updatedAt current).dump := by
      simp only [Database.form, refound, found, Option.map_some, named, decide_true, if_true]
    have isBefore : db.form (.project projectId) = some current.dump := by
      simp only [Database.form, found, Option.map_some]
    have still (same : current.status = status) :
        AuditedAt (.project projectId) db { db with
          projects := updateWhere (fun project => project.projectId = projectId)
            (ProjectRepository.withStatus status updatedAt) db.projects } := by
      refine .still rfl rfl ?_ (fun r _ => others r)
          (noNewDeadLetters_refl _)
      rw [isAfter, isBefore]
      simp [ProjectRepository.withStatus, ← same]
    rcases fresh with isPrevious | ⟨had, has⟩
    · rw [isPrevious, found] at recorded
      simp only [recordStatusChange] at recorded
      split at recorded
      · rename_i changed
        have trail := recordAudit_trail recorded (.project projectId) rfl rfl rfl
        refine AuditedAt.single trail rfl rfl isBefore isAfter ?_ (fun r _ => others r)
          (noNewDeadLetters_refl _)
        intro same
        exact changed (Project.dump_status (Option.some.inj same))
      · rename_i unchanged
        cases recorded
        exact still (by simpa [ProjectRepository.withStatus] using unchanged)
    · obtain ⟨read, rfl, hadStatus⟩ : ∃ read, previous = some read ∧ read.status = status := by
        cases previous with
        | none => cases had
        | some read => exact ⟨read, rfl, by simpa using had⟩
      simp only [recordStatusChange] at recorded
      rw [if_neg (by simp [ProjectRepository.withStatus, hadStatus])] at recorded
      cases recorded
      exact still (by simpa [found] using has)

theorem form_updateKeys {projectId apiKeyId : Uuid} {f : ProjectApiKeyRecord → ProjectApiKeyRecord}
    (kept : ∀ key, (f key).projectId = key.projectId ∧ (f key).apiKeyId = key.apiKeyId)
    {r : Resource} (other : r ≠ .apiKey projectId apiKeyId) :
    ({ db with
      apiKeys := updateWhere (fun key => key.projectId = projectId && key.apiKeyId = apiKeyId) f
        db.apiKeys } : Database).form r = db.form r := by
  cases r with
  | apiKey p k =>
    refine congrArg (Option.map _) (find?_updateWhere_other _ fun row _ hit => ?_)
    simp only [Bool.and_eq_true, decide_eq_true_eq] at hit
    have apart : ¬(projectId = p ∧ apiKeyId = k) := by
      rintro ⟨rfl, rfl⟩
      exact other rfl
    simpa [kept, hit] using apart
  | _ => rfl

theorem revokeProjectApiKey_audited {projectId apiKeyId : Uuid} {revokedAt : UtcDatetime}
    {context : AuditContext} {revoked : Option ProjectApiKeyMetadata}
    (ran : (revokeProjectApiKey platform projectId apiKeyId revokedAt (some context)).exec draws db =
      .ok (revoked, rest, db')) :
    AuditedAt (.apiKey projectId apiKeyId) db db' := by
  unfold revokeProjectApiKey ProjectApiKeyRepository.revokeWithConnection
    ProjectApiKeyRepository.getMetadataWithConnection at ran
  rw [exec_query_bind, bind_assoc, exec_updateRows_bind, exec_query_bind,
    Block.exec_bind_eq_ok] at ran
  obtain ⟨_, draws₁, db₁, recorded, ran⟩ := ran
  cases ran
  have others : ∀ r, r ≠ .apiKey projectId apiKeyId → Database.form _ r = db.form r :=
    fun r => form_updateKeys (f := ProjectApiKeyRepository.revoked revokedAt) fun _ => ⟨rfl, rfl⟩
  have refound := @find?_updateWhere ProjectApiKeyRecord
    (fun key => key.projectId = projectId && key.apiKeyId = apiKeyId)
    (ProjectApiKeyRepository.revoked revokedAt) db.apiKeys
    (fun key => key.projectId = projectId && key.apiKeyId = apiKeyId) fun row _ _ => rfl
  rw [refound] at recorded
  cases found : db.apiKeys.find? fun key => key.projectId = projectId && key.apiKeyId = apiKeyId with
  | none =>
    simp only [found, Option.map_none, recordRevocation] at recorded
    cases recorded
    exact .still rfl rfl (congrArg (Option.map _) (by rw [refound, found]; rfl)) (fun r _ => others r)
          (noNewDeadLetters_refl _)
  | some previous =>
    have named := List.find?_some found
    simp only [found, Option.map_some, named, if_true, recordRevocation] at recorded
    have isAfter : ({ db with
        apiKeys := updateWhere (fun key => key.projectId = projectId && key.apiKeyId = apiKeyId)
          (ProjectApiKeyRepository.revoked revokedAt) db.apiKeys } : Database).form
        (.apiKey projectId apiKeyId) =
          some (ProjectApiKeyRepository.revoked revokedAt previous).toProjectApiKeyMetadata.dump := by
      simp only [Database.form, refound, found, Option.map_some, named, if_true]
    have isBefore : db.form (.apiKey projectId apiKeyId) =
        some previous.toProjectApiKeyMetadata.dump := by
      simp only [Database.form, found, Option.map_some]
    split at recorded
    · rename_i valid
      have trail := recordAudit_trail recorded (.apiKey projectId apiKeyId) rfl rfl rfl
      refine AuditedAt.single trail rfl rfl isBefore isAfter ?_ (fun r _ => others r)
          (noNewDeadLetters_refl _)
      simp [ProjectApiKeyMetadata.dump, ProjectApiKeyRepository.revoked, valid, dumpOptional, dumpUtc]
    · rename_i already
      cases recorded
      refine .still rfl rfl ?_ (fun r _ => others r)
          (noNewDeadLetters_refl _)
      rw [isAfter, isBefore]
      obtain ⟨moment, isRevoked⟩ := Option.ne_none_iff_exists'.mp already
      simp [ProjectApiKeyRepository.revoked, ProjectApiKeyMetadata.dump, isRevoked]

/-! ## Webhooks -/

open WebhookRepository

theorem form_updateSubscriptions {projectId subscriptionId : Uuid}
    {p : WebhookSubscription → Bool} {f : WebhookSubscription → WebhookSubscription}
    {deliveries : List WebhookDelivery}
    (hits : ∀ s, p s = true → subscriptionIs projectId subscriptionId s = true)
    (kept : ∀ s, (f s).projectId = s.projectId ∧ (f s).subscriptionId = s.subscriptionId)
    {r : Resource} (administrative : r.administrative)
    (other : r ≠ .webhookSubscription projectId subscriptionId) :
    ({ db with
      subscriptions := updateWhere p f db.subscriptions
      deliveries := deliveries } : Database).form r = db.form r := by
  cases r with
  | webhookSubscription owner id =>
    refine congrArg (Option.map _) (find?_updateWhere_other _ fun row _ hit => ?_)
    have named := hits row hit
    simp only [subscriptionIs, Bool.and_eq_true, decide_eq_true_eq] at named
    have apart : ¬(projectId = owner ∧ subscriptionId = id) := by
      rintro ⟨rfl, rfl⟩
      exact other rfl
    simpa [subscriptionIs, kept, named] using apart
  | webhookDelivery => exact administrative.elim
  | _ => rfl

/-- An update of one subscription, as its key finds it. -/
theorem find?_updateSubscription {projectId subscriptionId : Uuid}
    {f : WebhookSubscription → WebhookSubscription} {current : WebhookSubscription}
    (kept : ∀ s, (f s).projectId = s.projectId ∧ (f s).subscriptionId = s.subscriptionId)
    (found : db.subscriptions.find? (subscriptionIs projectId subscriptionId) = some current)
    (active : current.status = .active) :
    (updateWhere (fun s => subscriptionIs projectId subscriptionId s && s.status = .active) f
      db.subscriptions).find? (subscriptionIs projectId subscriptionId) = some (f current) := by
  rw [find?_updateWhere _ fun row _ _ => by simp [subscriptionIs, kept], found]
  simp [List.find?_some found, active]

theorem disableWebhookSubscription_audited {projectId subscriptionId : Uuid}
    {disabledAt : UtcDatetime} {context : AuditContext} {disabled : WebhookSubscription}
    (ran : (disableWebhookSubscription platform projectId subscriptionId disabledAt context).exec
      draws db = .ok (disabled, rest, db')) :
    AuditedAt (.webhookSubscription projectId subscriptionId) db db' := by
  unfold disableWebhookSubscription getSubscriptionWithConnection at ran
  rw [exec_query_bind, Block.exec_bind_eq_ok] at ran
  obtain ⟨left, draws₁, db₁, disabling, ran⟩ := ran
  rw [Block.exec_bind_eq_ok] at ran
  obtain ⟨_, draws₂, db₂, recorded, ran⟩ := ran
  cases ran
  obtain ⟨current, found, ⟨status, rfl, rfl⟩ | ⟨status, rfl, refound⟩⟩ := disableSubscription_ok disabling
  · simp only [found, recordDisabling, status] at recorded
    cases recorded
    exact .still rfl rfl rfl (fun _ _ _ => rfl) (noNewDeadLetters_refl _)
  · have kept : ∀ s, (disabledSubscription disabledAt s).projectId = s.projectId ∧
        (disabledSubscription disabledAt s).subscriptionId = s.subscriptionId :=
      fun _ => ⟨rfl, rfl⟩
    simp only [found, recordDisabling, status, if_true] at recorded
    have trail := recordAudit_trail recorded (.webhookSubscription projectId subscriptionId) rfl rfl rfl
    have isAfter : (db.disableSubscription projectId subscriptionId disabledAt).form
        (.webhookSubscription projectId subscriptionId) = some disabled.dump := by
      simp only [Database.form, refound, Option.map_some]
    refine AuditedAt.single trail rfl rfl ?_ isAfter ?_ ?_ ?_
    · simp only [Database.form, found, Option.map_some]
    · have updated : disabled = disabledSubscription disabledAt current :=
        Option.some.inj (refound.symm.trans (find?_updateSubscription kept found status))
      have apart : WebhookSubscriptionStatus.active.text ≠ WebhookSubscriptionStatus.disabled.text := by
        decide
      simp [updated, WebhookSubscription.dump, disabledSubscription, status, apart]
    · refine fun r administrative other => form_updateSubscriptions (fun s hit => ?_) kept
        administrative other
      exact (Bool.and_eq_true_iff.mp hit).1
    · refine noNewDeadLetters_update (f := cancelledDelivery subscriptionDisabledError disabledAt)
        (fun _ => ⟨rfl, rfl⟩) (fun d => ?_) rfl
      simp [cancelledDelivery]

theorem rotateWebhookSecret_audited {projectId subscriptionId : Uuid} {rotatedAt : UtcDatetime}
    {context : AuditContext} {rotated : WebhookSubscription}
    (ran : (rotateWebhookSecret platform projectId subscriptionId rotatedAt context).exec draws db =
      .ok (rotated, rest, db')) :
    AuditedAt (.webhookSubscription projectId subscriptionId) db db' := by
  unfold rotateWebhookSecret getSubscriptionWithConnection at ran
  rw [exec_query_bind, Block.exec_bind_eq_ok] at ran
  obtain ⟨left, draws₁, db₁, rotating, ran⟩ := ran
  rw [Block.exec_bind_eq_ok] at ran
  obtain ⟨_, draws₂, db₂, recorded, ran⟩ := ran
  cases ran
  obtain ⟨current, found, status, rfl, refound⟩ := rotateSubscriptionSecret_ok rotating
  have kept : ∀ s, (rotatedSubscription rotatedAt s).projectId = s.projectId ∧
      (rotatedSubscription rotatedAt s).subscriptionId = s.subscriptionId := fun _ => ⟨rfl, rfl⟩
  simp only [found, Option.map_some] at recorded
  have trail := recordAudit_trail recorded (.webhookSubscription projectId subscriptionId) rfl rfl rfl
  refine AuditedAt.single trail rfl rfl ?_ ?_ ?_ ?_ (noNewDeadLetters_refl _)
  · simp only [Database.form, found, Option.map_some]
  · simp only [Database.form, refound, Option.map_some]
  · have updated : rotated = rotatedSubscription rotatedAt current :=
      Option.some.inj (refound.symm.trans (find?_updateSubscription kept found status))
    simp [updated, WebhookSubscription.dump, rotatedSubscription]
  · refine fun r administrative other => form_updateSubscriptions (fun s hit => ?_) kept
      administrative other
    exact (Bool.and_eq_true_iff.mp hit).1

/-- The database after the update of a redelivery. -/
def redelivered (db : Database) (projectId deliveryId : Uuid) (requestedAt : UtcDatetime) :
    Database :=
  { db with
    deliveries := updateWhere (fun d => deliveryIs projectId deliveryId d && d.status = .deadLetter)
      (redelivery requestedAt) db.deliveries }

/-- A redelivery of the dead letter that is in the table. -/
theorem redelivered_audited {projectId deliveryId : Uuid} {requestedAt : UtcDatetime}
    {context : AuditContext} {metadata : List (Str × Json)} {current found' : WebhookDelivery}
    {u : Unit} (found : db.deliveries.find? (deliveryIs projectId deliveryId) = some current)
    (dead : current.status = .deadLetter)
    (refound : (redelivered db projectId deliveryId requestedAt).deliveries.find?
      (deliveryIs projectId deliveryId) = some found')
    (recorded : (recordAudit platform requestedAt projectId context .webhookRedeliveryRequested
      .webhookDelivery deliveryId.str (some current.dump) (some found'.dump) metadata).exec draws
        (redelivered db projectId deliveryId requestedAt) = .ok (u, rest, db')) :
    AuditedAt (.webhookDelivery projectId deliveryId) db db' ∧
      found' = redelivery requestedAt current := by
  have updated : found' = redelivery requestedAt current := by
    refine Option.some.inj (refound.symm.trans ?_)
    rw [redelivered, find?_updateWhere _ fun row _ _ => by rfl, found]
    simp [List.find?_some found, dead]
  have trail := recordAudit_trail recorded (.webhookDelivery projectId deliveryId) rfl rfl rfl
  refine ⟨AuditedAt.single trail rfl rfl ?_ ?_ ?_ ?_ ?_, updated⟩
  · simp only [Database.form, found, Option.map_some]
  · simp only [Database.form, refound, Option.map_some]
  · have apart : WebhookDeliveryStatus.deadLetter.text ≠ WebhookDeliveryStatus.pending.text := by
      decide
    simp [updated, WebhookDelivery.dump, redelivery, dead, apart]
  · intro r administrative _
    cases r with
    | webhookDelivery => exact administrative.elim
    | _ => rfl
  · refine noNewDeadLetters_update (f := redelivery requestedAt) (fun _ => ⟨rfl, rfl⟩) (fun d => ?_) rfl
    simp [redelivery]

/-! ## Policies -/

theorem form_updatePolicies {projectId : Uuid} {policyId : Str} {p : PolicyRow → Bool}
    {f : PolicyRow → PolicyRow} {versions : List PolicyVersionRow}
    (hits : ∀ row, p row = true → policyIs projectId policyId row = true)
    (kept : ∀ row, (f row).projectId = row.projectId ∧ (f row).policyId = row.policyId)
    {r : Resource} (other : r ≠ .policy projectId policyId) :
    ({ db with
      policies := updateWhere p f db.policies
      policyVersions := versions } : Database).form r = db.form r := by
  cases r with
  | policy owner id =>
    refine congrArg (Option.map _) (find?_updateWhere_other _ fun row _ hit => ?_)
    have named := hits row hit
    simp only [policyIs, Bool.and_eq_true, decide_eq_true_eq] at named
    have apart : ¬(projectId = owner ∧ policyId = id) := by
      rintro ⟨rfl, rfl⟩
      exact other rfl
    simpa [policyIs, kept, named] using apart
  | _ => rfl

theorem disableProjectPolicy_audited {projectId : Uuid} {policyId : Str} {updatedAt : UtcDatetime}
    {context : AuditContext} {disabled : Option ProjectPolicyConfiguration}
    (ran : (disableProjectPolicy platform projectId policyId updatedAt (some context)).exec draws db =
      .ok (disabled, rest, db')) : AuditedAt (.policy projectId policyId) db db' := by
  unfold disableProjectPolicy at ran
  have ran := findConfiguration_ok ran
  rw [Block.exec_bind_eq_ok] at ran
  obtain ⟨left, draws₁, db₁, disabling, ran⟩ := ran
  rw [Block.exec_bind_eq_ok] at ran
  obtain ⟨_, draws₂, db₂, recorded, ran⟩ := ran
  cases ran
  obtain ⟨found, rfl, rfl⟩ | ⟨row, found, rfl, rfl⟩ := disablePolicy_ok disabling
  · simp only [found, Option.map_none, recordPolicyDisabling] at recorded
    cases recorded
    exact .still rfl rfl rfl (fun _ _ _ => rfl) (noNewDeadLetters_refl _)
  · have others : ∀ r, r ≠ .policy projectId policyId → ({ db with
        policies := updateWhere (policyIs projectId policyId)
          (ProjectPolicyRepository.disabledRow updatedAt) db.policies } : Database).form r =
        db.form r := by
      intro r other
      refine form_updatePolicies (f := ProjectPolicyRepository.disabledRow updatedAt) ?_ ?_ other
      · exact fun _ hit => hit
      · exact fun _ => ⟨rfl, rfl⟩
    have refound : (updateWhere (policyIs projectId policyId)
        (ProjectPolicyRepository.disabledRow updatedAt) db.policies).find?
          (policyIs projectId policyId) =
            some (ProjectPolicyRepository.disabledRow updatedAt row) := by
      rw [find?_updateWhere _ fun row _ _ => by rfl, found]
      simp [List.find?_some found]
    have isBefore : db.form (.policy projectId policyId) = some row.configuration.dump := by
      simp only [Database.form, found, Option.map_some]
    simp only [found, Option.map_some, recordPolicyDisabling] at recorded
    split at recorded
    · rename_i enabled
      have trail := recordAudit_trail recorded (.policy projectId policyId) rfl rfl rfl
      refine AuditedAt.single trail rfl rfl isBefore ?_ ?_ (fun r _ => others r)
          (noNewDeadLetters_refl _)
      · simp only [Database.form, refound, Option.map_some]
      · have isEnabled : row.enabled = true := enabled
        simp [ProjectPolicyConfiguration.dump, PolicyRow.configuration,
          ProjectPolicyRepository.disabledRow, isEnabled]
    · rename_i already
      cases recorded
      have isDisabled : row.enabled = false := by simpa [PolicyRow.configuration] using already
      refine .still rfl rfl ?_ (fun r _ => others r)
          (noNewDeadLetters_refl _)
      rw [isBefore]
      simp only [Database.form, refound, Option.map_some]
      simp [PolicyRow.configuration, ProjectPolicyRepository.disabledRow, isDisabled]

end EvidenceStore

end DecAustrum
