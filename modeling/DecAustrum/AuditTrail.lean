import DecAustrum.EvidenceStore.Administration
import DecAustrum.EvidenceStore.Authorizations
import DecAustrum.Storage.WebhookEffects

/-!
# The audit trail

The public form of each resource that administrative operations change, and what it means that
the audit events and the webhook events of a call are exactly those of its changes.
-/
namespace DecAustrum

open Python Transaction Table

/-! ## Resources -/

inductive Resource where
  | project (projectId : Uuid)
  | apiKey (projectId apiKeyId : Uuid)
  | policy (projectId : Uuid) (policyId : Str)
  | approval (projectId decisionId : Uuid)
  | executionGrant (projectId grantId : Uuid)
  | webhookSubscription (projectId subscriptionId : Uuid)
  | webhookDelivery (projectId deliveryId : Uuid)
  deriving DecidableEq

namespace Resource

def type : Resource → AuditResourceType
  | project _ => .project
  | apiKey _ _ => .apiKey
  | policy _ _ => .policy
  | approval _ _ => .approval
  | executionGrant _ _ => .executionGrant
  | webhookSubscription _ _ => .webhookSubscription
  | webhookDelivery _ _ => .webhookDelivery

def projectId : Resource → Uuid
  | project p => p
  | apiKey p _ => p
  | policy p _ => p
  | approval p _ => p
  | executionGrant p _ => p
  | webhookSubscription p _ => p
  | webhookDelivery p _ => p

/-- The text that audit events refer to it by. -/
def id : Resource → Str
  | project p => p.str
  | apiKey _ k => k.str
  | policy _ i => i
  | approval _ d => d.str
  | executionGrant _ g => g.str
  | webhookSubscription _ s => s.str
  | webhookDelivery _ d => d.str

/-- Deliveries come and go with the outbox; every other resource is changed by operations only. -/
def administrative : Resource → Prop
  | webhookDelivery _ _ => False
  | _ => True

end Resource

/-- The public form of a resource, if it exists. -/
def Database.form (db : Database) : Resource → Option Json
  | .project p => (db.projects.find? fun project => project.projectId = p).map (·.dump)
  | .apiKey p k => (db.apiKeys.find? fun key => key.projectId = p && key.apiKeyId = k).map
      (·.toProjectApiKeyMetadata.dump)
  | .policy p i => (db.policies.find? (policyIs p i)).map (·.configuration.dump)
  | .approval p d => (db.lifecycle.approvals.find? (ApprovalRepository.approvalIs db p d)).bind
      fun row => (rowToApproval row).toOption.map (·.dump)
  | .executionGrant p g => (db.lifecycle.grants.find? (ExecutionGrantRepository.grantIs g p)).bind
      fun row => (rowToGrant row).toOption.map (·.dump)
  | .webhookSubscription p s =>
      (db.subscriptions.find? (WebhookRepository.subscriptionIs p s)).map (·.dump)
  | .webhookDelivery p d => (db.deliveries.find? (WebhookRepository.deliveryIs p d)).map (·.dump)

/-! ## Recorded changes -/

structure Change where
  resource : Resource
  before : Option Json
  after : Option Json

/-- The audit event records the change. -/
structure Records (change : Change) (event : AdministrativeAuditEvent) : Prop where
  type : event.resourceType = change.resource.type
  projectId : event.projectId = change.resource.projectId
  resourceId : SearchText.validate (.str change.resource.id) = some event.resourceId
  before : event.before = change.before
  after : event.after = change.after

/-- The webhook event is the one derived from the audit event. -/
def Derives (event : AdministrativeAuditEvent) (row : WebhookEventRow) : Prop :=
  ∃ eventId, row.event = buildWebhookEventFromAudit eventId event

/-- One audit event and one webhook event for each change, and nothing else but deliveries. -/
structure Trail (changes : List Change) (db db' : Database) : Prop where
  recorded : ∃ events rows, db'.audit = db.audit ++ events ∧ db'.events = db.events ++ rows ∧
    List.Forall₂ Records changes events ∧ List.Forall₂ Derives events rows
  deliveries : ∃ added, db'.deliveries = db.deliveries ++ added
  frame : db' = { db with
    audit := db'.audit, events := db'.events, deliveries := db'.deliveries }

variable {platform : Platform} {draws rest : ℕ → Uuid} {db mid db' : Database}

theorem Trail.refl (db : Database) : Trail [] db db :=
  ⟨⟨[], [], by simp, by simp, .nil, .nil⟩, ⟨[], by simp⟩, rfl⟩

theorem Trail.trans {first second : List Change} (one : Trail first db mid)
    (two : Trail second mid db') : Trail (first ++ second) db db' := by
  obtain ⟨⟨events₁, rows₁, audit₁, outbox₁, records₁, derives₁⟩, ⟨added₁, deliveries₁⟩, frame₁⟩ := one
  obtain ⟨⟨events₂, rows₂, audit₂, outbox₂, records₂, derives₂⟩, ⟨added₂, deliveries₂⟩, frame₂⟩ := two
  refine ⟨⟨events₁ ++ events₂, rows₁ ++ rows₂, ?_, ?_, ?_, ?_⟩, ⟨added₁ ++ added₂, ?_⟩, ?_⟩
  · rw [audit₂, audit₁, List.append_assoc]
  · rw [outbox₂, outbox₁, List.append_assoc]
  · exact List.rel_append records₁ records₂
  · exact List.rel_append derives₁ derives₂
  · rw [deliveries₂, deliveries₁, List.append_assoc]
  · rw [frame₂, frame₁]

theorem recordAudit_trail {occurredAt : UtcDatetime} {projectId : Uuid} {context : AuditContext}
    {action : AuditAction} {resourceType : AuditResourceType} {resourceId : Str}
    {before after : Option Json} {metadata : List (Str × Json)} {u : Unit}
    (ran : (recordAudit platform occurredAt projectId context action resourceType resourceId before
      after metadata).exec draws db = .ok (u, rest, db')) (resource : Resource)
    (type : resource.type = resourceType) (owner : resource.projectId = projectId)
    (id : resource.id = resourceId) : Trail [⟨resource, before, after⟩] db db' := by
  subst type owner id
  obtain ⟨eventId, event, built, -, webhookId, published⟩ := recordAudit_ok ran
  obtain ⟨-, payload, deliveries, -, -, -, rfl⟩ := published
  refine ⟨⟨[event], [_], rfl, rfl, .cons ?_ .nil, .cons ⟨webhookId, rfl⟩ .nil⟩, ⟨deliveries, rfl⟩, rfl⟩
  unfold buildAuditEvent at built
  split at built
  · cases built
  · rename_i resourceId named
    cases built
    exact ⟨rfl, rfl, named, rfl, rfl⟩

/-- Recording a change leaves the resources as they are. -/
theorem Trail.form {changes : List Change} (trail : Trail changes db db') {r : Resource}
    (known : r.administrative ∨ db.form r ≠ none) : db'.form r = db.form r := by
  cases r with
  | webhookDelivery p d =>
    obtain ⟨added, grown⟩ := trail.deliveries
    rcases known with administrative | exists_
    · exact administrative.elim
    · simp only [Database.form, grown, List.find?_append]
      cases found : db.deliveries.find? (WebhookRepository.deliveryIs p d) with
      | none => simp [Database.form, found] at exists_
      | some d => rfl
  | _ =>
    rw [trail.frame]
    rfl

/-! ## Exact trails -/

/-- The trail of a call: one audit event, with the form before and the form after, for each
concerned resource that changed, and none for a resource that did not change. -/
structure Audited (concerned : Resource → Prop) (changes : List Change) (db db' : Database) :
    Prop where
  recorded : ∃ events rows, db'.audit = db.audit ++ events ∧ db'.events = db.events ++ rows ∧
    List.Forall₂ Records changes events ∧ List.Forall₂ Derives events rows
  distinct : (changes.map (·.resource)).Nodup
  forms : ∀ change ∈ changes, change.before = db.form change.resource ∧
    change.after = db'.form change.resource ∧ change.before ≠ change.after
  complete : ∀ r, concerned r → db'.form r ≠ db.form r → ∃ change ∈ changes, change.resource = r

/-- Nothing changed, and nothing was recorded. -/
theorem Audited.unchanged {concerned : Resource → Prop} (audit : db'.audit = db.audit)
    (events : db'.events = db.events) (same : ∀ r, concerned r → db'.form r = db.form r) :
    Audited concerned [] db db' where
  recorded := ⟨[], [], by simp [audit], by simp [events], .nil, .nil⟩
  distinct := List.nodup_nil
  forms change member := by cases member
  complete r inside changed := absurd (same r inside) changed

/-- The one resource that a call might have changed did not change. -/
theorem Audited.still {concerned : Resource → Prop} {resource : Resource}
    (audit : db'.audit = db.audit) (events : db'.events = db.events)
    (same : db'.form resource = db.form resource)
    (others : ∀ r, concerned r → r ≠ resource → db'.form r = db.form r) :
    Audited concerned [] db db' := by
  refine .unchanged audit events fun r isConcerned => ?_
  by_cases it : r = resource
  · rw [it, same]
  · exact others r isConcerned it

/-- The tables change first, and the changes are recorded then. -/
theorem Audited.of_trail {concerned : Resource → Prop} {changes : List Change}
    (trail : Trail changes mid db') (audit : mid.audit = db.audit) (events : mid.events = db.events)
    (distinct : (changes.map (·.resource)).Nodup)
    (known : ∀ r, concerned r → r.administrative ∨ mid.form r ≠ none)
    (inside : ∀ change ∈ changes, concerned change.resource)
    (forms : ∀ change ∈ changes, change.before = db.form change.resource ∧
      change.after = mid.form change.resource ∧ change.before ≠ change.after)
    (others : ∀ r, concerned r → (∀ change ∈ changes, change.resource ≠ r) →
      mid.form r = db.form r) : Audited concerned changes db db' where
  recorded := by
    obtain ⟨recorded, rows, isAudit, isOutbox, records, derives⟩ := trail.recorded
    exact ⟨recorded, rows, by rw [isAudit, audit], by rw [isOutbox, events], records, derives⟩
  distinct := distinct
  forms change member := by
    obtain ⟨before, after, differ⟩ := forms change member
    exact ⟨before, after.trans (trail.form (known _ (inside change member))).symm, differ⟩
  complete r isConcerned changed := by
    by_contra absent
    refine changed ?_
    rw [trail.form (known r isConcerned)]
    exact others r isConcerned fun change member same => absent ⟨change, member, same⟩

/-- One resource changed, and its change was recorded. -/
theorem Audited.single {concerned : Resource → Prop} {resource : Resource}
    {before after : Option Json} (trail : Trail [⟨resource, before, after⟩] mid db')
    (audit : mid.audit = db.audit) (events : mid.events = db.events)
    (known : ∀ r, concerned r → r.administrative ∨ mid.form r ≠ none)
    (inside : concerned resource) (isBefore : db.form resource = before)
    (isAfter : mid.form resource = after) (differ : before ≠ after)
    (others : ∀ r, concerned r → r ≠ resource → mid.form r = db.form r) :
    Audited concerned [⟨resource, before, after⟩] db db' := by
  refine Audited.of_trail trail audit events (List.nodup_singleton _) known ?_ ?_ ?_
  · intro change member
    rw [List.mem_singleton.mp member]
    exact inside
  · intro change member
    rw [List.mem_singleton.mp member]
    exact ⟨isBefore.symm, isAfter.symm, differ⟩
  · intro r isConcerned apart
    exact others r isConcerned fun same => apart _ (List.mem_singleton_self _) same.symm

/-! ## Calls on one resource -/

/-- The deliveries that are no dead letters stay none. -/
def NoNewDeadLetters (s t : Database) : Prop :=
  ∀ p i d, s.deliveries.find? (WebhookRepository.deliveryIs p i) = some d → d.status ≠ .deadLetter →
    ∃ e, t.deliveries.find? (WebhookRepository.deliveryIs p i) = some e ∧ e.status ≠ .deadLetter

theorem noNewDeadLetters_refl (s : Database) : NoNewDeadLetters s s :=
  fun _ _ d found alive => ⟨d, found, alive⟩

theorem noNewDeadLetters_trans (s t u : Database) (first : NoNewDeadLetters s t)
    (second : NoNewDeadLetters t u) : NoNewDeadLetters s u := by
  intro p i d found alive
  obtain ⟨e, found, alive⟩ := first p i d found alive
  exact second p i e found alive

theorem noNewDeadLetters_append {added : List WebhookDelivery}
    (grown : db'.deliveries = db.deliveries ++ added) : NoNewDeadLetters db db' := by
  intro p i d found alive
  refine ⟨d, ?_, alive⟩
  rw [grown, List.find?_append, found]
  rfl

theorem noNewDeadLetters_update {p : WebhookDelivery → Bool} {f : WebhookDelivery → WebhookDelivery}
    (kept : ∀ d, (f d).projectId = d.projectId ∧ (f d).deliveryId = d.deliveryId)
    (alive : ∀ d, (f d).status ≠ .deadLetter)
    (updated : db'.deliveries = updateWhere p f db.deliveries) : NoNewDeadLetters db db' := by
  intro owner i d found isAlive
  refine ⟨if p d then f d else d, ?_, ?_⟩
  · rw [updated, find?_updateWhere _ fun row _ _ => by simp [WebhookRepository.deliveryIs, kept], found]
    rfl
  · split
    · exact alive d
    · exact isAlive

/-- The resources that a call on one resource answers for. -/
def Resource.concerned (resource : Resource) (r : Resource) : Prop :=
  r.administrative ∨ r = resource

/-- What a call that changes at most one resource leaves. -/
structure AuditedAt (resource : Resource) (db db' : Database) : Prop where
  audited : ∃ changes, (∀ change ∈ changes, change.resource = resource) ∧
    Audited resource.concerned changes db db'
  deadLetters : NoNewDeadLetters db db'

theorem AuditedAt.single {resource : Resource} {before : Option Json} {after : Json}
    (trail : Trail [⟨resource, before, some after⟩] mid db') (audit : mid.audit = db.audit)
    (events : mid.events = db.events) (isBefore : db.form resource = before)
    (isAfter : mid.form resource = some after) (differ : before ≠ some after)
    (others : ∀ r, r.administrative → r ≠ resource → mid.form r = db.form r)
    (deadLetters : NoNewDeadLetters db mid) : AuditedAt resource db db' := by
  obtain ⟨added, grown⟩ := trail.deliveries
  refine ⟨?_, noNewDeadLetters_trans _ _ _ deadLetters (noNewDeadLetters_append grown)⟩
  refine ⟨_, by simp, .single trail audit events ?_ (.inr rfl) isBefore isAfter differ ?_⟩
  · rintro r (administrative | rfl)
    · exact .inl administrative
    · exact .inr (by simp [isAfter])
  · rintro r (administrative | rfl) apart
    · exact others r administrative apart
    · exact absurd rfl apart

theorem AuditedAt.still {resource : Resource} (audit : db'.audit = db.audit)
    (events : db'.events = db.events) (same : db'.form resource = db.form resource)
    (others : ∀ r, r.administrative → r ≠ resource → db'.form r = db.form r)
    (deadLetters : NoNewDeadLetters db db') : AuditedAt resource db db' := by
  refine ⟨⟨[], by simp, .still audit events same ?_⟩, deadLetters⟩
  rintro r (administrative | rfl) apart
  · exact others r administrative apart
  · exact absurd rfl apart

/-- A call on one resource records nothing, and its resource is as it was, or one event. -/
theorem AuditedAt.event {resource : Resource} (audited : AuditedAt resource db db') :
    (db'.audit = db.audit ∧ db'.form resource = db.form resource) ∨
      ∃ event, db'.audit = db.audit ++ [event] ∧ event.before = db.form resource ∧
        event.after = db'.form resource ∧ event.before ≠ event.after := by
  obtain ⟨changes, within, ⟨events, rows, audit, -, records, -⟩, distinct, forms, complete⟩ :=
    audited.audited
  cases changes with
  | nil =>
    cases records
    refine .inl ⟨by simpa using audit, ?_⟩
    by_contra changed
    obtain ⟨change, member, -⟩ := complete resource (.inr rfl) changed
    cases member
  | cons change later =>
    cases later with
    | nil =>
      cases records with
      | cons recorded none =>
        cases none
        rename_i event
        have isResource := within change (List.mem_singleton_self _)
        obtain ⟨before, after, differ⟩ := forms change (List.mem_singleton_self _)
        rw [isResource] at before after
        refine .inr ⟨event, audit, ?_, ?_, ?_⟩
        · rw [recorded.before, before]
        · rw [recorded.after, after]
        · rwa [recorded.before, recorded.after]
    | cons second rest =>
      -- two changes of one resource
      have same : change.resource = second.resource := by
        rw [within change (by simp), within second (by simp)]
      simp [same] at distinct

/-- No other administrative resource changed. -/
theorem AuditedAt.others {resource : Resource} (audited : AuditedAt resource db db') {r : Resource}
    (administrative : r.administrative) (other : r ≠ resource) : db'.form r = db.form r := by
  obtain ⟨changes, within, exact⟩ := audited.audited
  by_contra changed
  obtain ⟨change, member, same⟩ := exact.complete r (.inl administrative) changed
  exact other (same.symm.trans (within change member))

end DecAustrum
