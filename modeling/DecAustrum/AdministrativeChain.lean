import DecAustrum.AdministrativeChanges
import DecAustrum.DeliveryStates
import DecAustrum.EvidenceStore.Operations

/-!
# The audit chain of administrative mutations

Concurrent calls that change one resource each: where no call goes by an outdated read of its
resource, the audit events of a resource form a chain from one form to the next.
-/
namespace DecAustrum

open Python Transaction Table WebhookRepository

inductive AdministrativeCall where
  | updateProjectStatus (projectId : Uuid) (status : ProjectStatus) (updatedAt : UtcDatetime)
      (context : AuditContext)
  | revokeProjectApiKey (projectId apiKeyId : Uuid) (revokedAt : UtcDatetime)
      (context : AuditContext)
  | disableProjectPolicy (projectId : Uuid) (policyId : Str) (updatedAt : UtcDatetime)
      (context : AuditContext)
  | disableWebhookSubscription (projectId subscriptionId : Uuid) (disabledAt : UtcDatetime)
      (context : AuditContext)
  | rotateWebhookSecret (projectId subscriptionId : Uuid) (rotatedAt : UtcDatetime)
      (context : AuditContext)
  | requestWebhookRedelivery (projectId deliveryId : Uuid) (requestedAt : UtcDatetime)
      (context : AuditContext)

namespace AdministrativeCall

def operation : AdministrativeCall → Operation
  | updateProjectStatus p status moment context => .updateProjectStatus p status moment (some context)
  | revokeProjectApiKey p k moment context => .revokeProjectApiKey p k moment (some context)
  | disableProjectPolicy p i moment context => .disableProjectPolicy p i moment (some context)
  | disableWebhookSubscription p s moment context => .disableWebhookSubscription p s moment context
  | rotateWebhookSecret p s moment context => .rotateWebhookSecret p s moment context
  | requestWebhookRedelivery p d moment context => .requestWebhookRedelivery p d moment context

def resource : AdministrativeCall → Resource
  | updateProjectStatus p _ _ _ => .project p
  | revokeProjectApiKey p k _ _ => .apiKey p k
  | disableProjectPolicy p i _ _ => .policy p i
  | disableWebhookSubscription p s _ _ => .webhookSubscription p s
  | rotateWebhookSecret p s _ _ => .webhookSubscription p s
  | requestWebhookRedelivery p d _ _ => .webhookDelivery p d

end AdministrativeCall

/-- The row of a resource is the same. -/
def Resource.SameRow (s t : Database) : Resource → Prop
  | .project p => s.projects.find? (fun project => project.projectId = p) =
      t.projects.find? fun project => project.projectId = p
  | .apiKey p k => s.apiKeys.find? (fun key => key.projectId = p && key.apiKeyId = k) =
      t.apiKeys.find? fun key => key.projectId = p && key.apiKeyId = k
  | .policy p i => s.policies.find? (policyIs p i) = t.policies.find? (policyIs p i)
  | .approval p d => s.lifecycle.approvals.find? (ApprovalRepository.approvalIs s p d) =
      t.lifecycle.approvals.find? (ApprovalRepository.approvalIs t p d)
  | .executionGrant p g => s.lifecycle.grants.find? (ExecutionGrantRepository.grantIs g p) =
      t.lifecycle.grants.find? (ExecutionGrantRepository.grantIs g p)
  | .webhookSubscription p i =>
      s.subscriptions.find? (subscriptionIs p i) = t.subscriptions.find? (subscriptionIs p i)
  | .webhookDelivery p d => s.deliveries.find? (deliveryIs p d) = t.deliveries.find? (deliveryIs p d)

/-- The project has the status. -/
def Database.hasStatus (db : Database) (projectId : Uuid) (status : ProjectStatus) : Bool :=
  (db.projects.find? fun project => project.projectId = projectId).any
    fun project => project.status = status

/-- What the call read is not out of date: the row of its resource is still the same, or its
status is already the new one in both. -/
def AdministrativeCall.Fresh (call : AdministrativeCall) (read now : Database) : Prop :=
  call.resource.SameRow read now ∨
    match call with
    | .updateProjectStatus p status _ _ => read.hasStatus p status = true ∧ now.hasStatus p status = true
    | _ => False

/-! ## One call -/

/-- What a commit of the call satisfies. -/
structure AdministrativeCall.Commits (call : AdministrativeCall) (s t : Database) : Prop where
  audited : AuditedAt call.resource s t
  /-- A delivery changes hands once. -/
  redelivered : ∀ p i, call.resource = .webhookDelivery p i →
    (∃ d, s.deliveries.find? (deliveryIs p i) = some d ∧ d.status = .deadLetter) ∧
      ∃ d, t.deliveries.find? (deliveryIs p i) = some d ∧ d.status ≠ .deadLetter

variable {platform : Platform}

/-- The contract of the six calls. -/
def auditContract {C : Type} (calls : C → AdministrativeCall) : Contract C Database where
  inv _ := True
  rel := NoNewDeadLetters
  refl := noNewDeadLetters_refl
  trans := noNewDeadLetters_trans
  allowed c history now := ∀ read ∈ reads history, (calls c).Fresh read now
  commits c _ before after := (calls c).Commits before after

section Calls

variable {C : Type} {calls : C → AdministrativeCall} {c : C}

/-- A call is safe if its body is. -/
theorem safe_forget {ω β : Type} {contract : Contract C Database} {body : Body β}
    (safe : body.Outside contract c (fun _ _ => True)
      (fun _ h s t => contract.inv t ∧ contract.rel s t ∧ contract.commits c h s t)
      (fun _ _ => True) []) :
    (forget (.within body) : Session Database Uuid ω StoreExc Unit).Safe contract c
      (fun _ _ => True) [] := by
  refine Block.Outside.mono safe (fun _ _ _ => trivial) ?_ fun _ _ _ => trivial
  exact fun _ _ _ _ ⟨inv, rel, commits⟩ => ⟨inv, rel, commits, trivial⟩

theorem commits_of_audited {call : AdministrativeCall} {s t : Database}
    (audited : AuditedAt call.resource s t)
    (redelivered : ∀ p i, call.resource = .webhookDelivery p i →
      (∃ d, s.deliveries.find? (deliveryIs p i) = some d ∧ d.status = .deadLetter) ∧
        ∃ d, t.deliveries.find? (deliveryIs p i) = some d ∧ d.status ≠ .deadLetter) :
    True ∧ NoNewDeadLetters s t ∧ call.Commits s t :=
  ⟨trivial, audited.deadLetters, audited, redelivered⟩

/-- The reads of a body that reads its resource only are not out of date. -/
theorem outside_of_audited {β : Type} {body : Body β} {call : AdministrativeCall}
    (isCall : calls c = call)
    (plain : ∀ s t, call.Fresh s t → call.resource.SameRow s t)
    (apart : ∀ p i, call.resource ≠ .webhookDelivery p i)
    (reads : body.ReadsBy fun s t => call.resource.SameRow s t)
    (audited : ∀ draws s b rest t, body.exec draws s = .ok (b, rest, t) →
      AuditedAt call.resource s t) :
    body.Outside (auditContract calls) c (fun _ _ => True)
      (fun _ h s t => (auditContract calls).inv t ∧ (auditContract calls).rel s t ∧
        (auditContract calls).commits c h s t) (fun _ _ => True) [] := by
  subst isCall
  refine Block.outside_of_exec reads (fun _ _ => trivial) (fun _ _ => trivial) [] ?_ ?_
  · exact fun later s allowed d member => plain d s (allowed d (mem_reads.mpr member))
  · intro later draws s b rest t _ _ _ ran
    exact commits_of_audited (audited draws s b rest t ran) fun p i same => absurd same (apart p i)

theorem readsBy_recordAudit {same : Database → Database → Prop} (occurredAt : UtcDatetime)
    (projectId : Uuid) (context : AuditContext) (action : AuditAction)
    (resourceType : AuditResourceType) (resourceId : Str) (before after : Option Json)
    (metadata : List (Str × Json)) :
    (recordAudit platform occurredAt projectId context action resourceType resourceId before after
      metadata).ReadsBy same := by
  unfold recordAudit
  exact fun _ => (Block.readsBy_check _).bind fun _ => trivial

theorem updateProjectStatus_outside (projectId : Uuid) (status : ProjectStatus)
    (updatedAt : UtcDatetime) (context : AuditContext)
    (isCall : calls c = .updateProjectStatus projectId status updatedAt context) :
    (EvidenceStore.updateProjectStatus platform projectId status updatedAt (some context)).Outside
      (auditContract calls) c (fun _ _ => True)
      (fun _ h s t => (auditContract calls).inv t ∧ (auditContract calls).rel s t ∧
        (auditContract calls).commits c h s t) (fun _ _ => True) [] := by
  intro read _ _
  have reads : ∀ previous, (do
      let updated ← ProjectRepository.updateStatusWithConnection projectId status updatedAt
      EvidenceStore.recordStatusChange platform projectId updatedAt (some context) previous updated
      return updated : Body (Option Project)).ReadsBy fun _ _ => True := fun _ => trivial
  refine Block.outside_of_exec (reads _) (fun _ _ => trivial) (fun _ _ => trivial) [.read read]
    (fun _ _ _ _ _ => trivial) ?_
  intro later draws s updated rest t _ _ allowed ran
  have fresh : (calls c).Fresh read s := allowed read (mem_reads.mpr (by simp))
  rw [isCall] at fresh
  have audited : AuditedAt (calls c).resource s t := by
    rw [isCall]
    exact EvidenceStore.updatedStatus_audited fresh ran
  refine commits_of_audited audited fun p i same => ?_
  rw [isCall] at same
  cases same

theorem disableWebhookSubscription_readsBy (projectId subscriptionId : Uuid)
    (disabledAt : UtcDatetime) (context : AuditContext) :
    (EvidenceStore.disableWebhookSubscription platform projectId subscriptionId disabledAt
      context).ReadsBy fun s t => (Resource.webhookSubscription projectId subscriptionId).SameRow s t := by
  refine Block.readsBy_query_bind (fun _ _ same => same) fun read => Block.ReadsBy.bind
    (x := disableSubscriptionWithConnection projectId subscriptionId disabledAt) ?_ fun disabled => ?_
  · refine Block.readsBy_query_bind (fun _ _ same => same) fun read => ?_
    split
    · trivial
    · split <;> trivial
  · refine Block.ReadsBy.bind ?_ fun _ => trivial
    unfold EvidenceStore.recordDisabling
    split
    · split
      · exact readsBy_recordAudit _ _ _ _ _ _ _ _ _
      · trivial
    · trivial

theorem rotateWebhookSecret_readsBy (projectId subscriptionId : Uuid) (rotatedAt : UtcDatetime)
    (context : AuditContext) :
    (EvidenceStore.rotateWebhookSecret platform projectId subscriptionId rotatedAt context).ReadsBy
      fun s t => (Resource.webhookSubscription projectId subscriptionId).SameRow s t := by
  refine Block.readsBy_query_bind (fun _ _ same => same) fun read => Block.ReadsBy.bind
    (x := rotateSubscriptionSecretWithConnection projectId subscriptionId rotatedAt) ?_
    fun rotated => ?_
  · refine Block.readsBy_query_bind (fun _ _ same => same) fun read => ?_
    split
    · trivial
    · split <;> trivial
  · refine Block.ReadsBy.bind (x := recordAudit platform _ _ _ _ _ _ _ _ _) ?_ ?_
    · exact readsBy_recordAudit _ _ _ _ _ _ _ _ _
    · exact fun _ => trivial

theorem disableProjectPolicy_readsBy (projectId : Uuid) (policyId : Str) (updatedAt : UtcDatetime)
    (context : AuditContext) :
    (EvidenceStore.disableProjectPolicy platform projectId policyId updatedAt (some context)).ReadsBy
      fun s t => (Resource.policy projectId policyId).SameRow s t := by
  have configuration : ∀ s t, (Resource.policy projectId policyId).SameRow s t →
      (s.policies.find? (policyIs projectId policyId)).map (·.configuration) =
        (t.policies.find? (policyIs projectId policyId)).map (·.configuration) :=
    fun s t same => congrArg _ same
  unfold EvidenceStore.disableProjectPolicy
  rcases ProjectPolicyRepository.findConfiguration_cases projectId policyId with raises | finds
  · rw [raises]
    trivial
  rw [finds]
  refine Block.readsBy_query_bind configuration fun read => Block.ReadsBy.bind
    (x := ProjectPolicyRepository.disableWithConnection projectId policyId updatedAt) ?_
    fun disabled => ?_
  · refine Block.readsBy_query_bind configuration fun read => ?_
    split <;> trivial
  · refine Block.ReadsBy.bind ?_ fun _ => trivial
    unfold EvidenceStore.recordPolicyDisabling
    split
    · split
      · exact readsBy_recordAudit _ _ _ _ _ _ _ _ _
      · trivial
    · trivial

/-- The end of a redelivery that read the dead letter as it is. -/
theorem redelivery_ensures {projectId deliveryId : Uuid} {requestedAt : UtcDatetime}
    {context : AuditContext} {current updated : WebhookDelivery} {s : Database}
    (found : s.deliveries.find? (deliveryIs projectId deliveryId) = some current)
    (dead : current.status = .deadLetter)
    (refound : (EvidenceStore.redelivered s projectId deliveryId requestedAt).deliveries.find?
      (deliveryIs projectId deliveryId) = some updated) (metadata : List (Str × Json)) :
    (recordAudit platform requestedAt projectId context .webhookRedeliveryRequested .webhookDelivery
      deliveryId.str (some current.dump) (some updated.dump) metadata).Ensures
      (fun _ t => True ∧ NoNewDeadLetters s t ∧
        (AdministrativeCall.requestWebhookRedelivery projectId deliveryId requestedAt context).Commits
          s t) (fun _ => True)
      (EvidenceStore.redelivered s projectId deliveryId requestedAt) := by
  refine Block.ensures_of_exec ?_ ?_
  case refine_2 => exact fun _ _ _ => trivial
  intro draws u rest t recorded
  obtain ⟨audited, isUpdated⟩ := EvidenceStore.redelivered_audited found dead refound recorded
  refine commits_of_audited audited ?_
  rintro p i ⟨⟩
  have trail := recordAudit_trail recorded (.webhookDelivery projectId deliveryId) rfl rfl rfl
  obtain ⟨added, grown⟩ := trail.deliveries
  refine ⟨⟨current, found, dead⟩, updated, ?_, by simp [isUpdated, redelivery]⟩
  rw [grown, List.find?_append, refound]
  rfl

theorem requestWebhookRedelivery_outside (projectId deliveryId : Uuid) (requestedAt : UtcDatetime)
    (context : AuditContext)
    (isCall : calls c = .requestWebhookRedelivery projectId deliveryId requestedAt context) :
    (EvidenceStore.requestWebhookRedelivery platform projectId deliveryId requestedAt context).Outside
      (auditContract calls) c (fun _ _ => True)
      (fun _ h s t => (auditContract calls).inv t ∧ (auditContract calls).rel s t ∧
        (auditContract calls).commits c h s t) (fun _ _ => True) [] := by
  have fresh {history : List (Seen Database)} {s : Database}
      (allowed : (auditContract calls).allowed c history s) (read : Database)
      (member : .read read ∈ history) :
      read.deliveries.find? (deliveryIs projectId deliveryId) =
        s.deliveries.find? (deliveryIs projectId deliveryId) := by
    have isFresh : (calls c).Fresh read s := allowed read (mem_reads.mpr member)
    rw [isCall] at isFresh
    exact isFresh.elim (fun same => same) False.elim
  intro read₀ _ _
  refine (Block.outside_bind (requestRedeliveryWithConnection projectId deliveryId requestedAt) _
    _).mpr ?_
  intro read₁ _ _
  simp only [Block.bind]
  split
  · trivial
  · rename_i current found
    split
    · trivial
    · rename_i dead
      intro read₂ _ _
      simp only [Block.bind]
      split
      · trivial
      · split
        · trivial
        · intro s _ _ allowed
          refine Block.ensures_of_exec ?_ fun _ _ _ => trivial
          intro draws redelivered rest t ran
          have isPrevious := fresh allowed read₀ (by simp)
          have isCurrent := fresh allowed read₁ (by simp)
          rw [found] at isCurrent
          change (redeliverRows projectId deliveryId requestedAt >>= fun _ =>
            getDeliveryWithConnection projectId deliveryId >>= _).exec draws s = _ at ran
          rw [redeliverRows, exec_updateRows_bind, getDeliveryWithConnection, exec_query_bind] at ran
          split at ran
          · cases ran
          · rename_i updated refound
            cases ran
            have before : (read₀.deliveries.find? (deliveryIs projectId deliveryId)).map (·.dump) =
                some current.dump := by
              rw [isPrevious, ← isCurrent]
              rfl
            have kept := @redelivery_ensures platform projectId deliveryId requestedAt context current
              redelivered s isCurrent.symm (by simpa using dead) refound
            beta_reduce
            rw [Block.ensures_bind, before]
            refine Block.Ensures.mono (kept _) ?_ ?_
            · intro u t commits
              change True ∧ NoNewDeadLetters s t ∧ (calls c).Commits s t
              rw [isCall]
              exact commits
            · exact fun _ _ => trivial

theorem call_safe {ω : Type} (c : C) :
    ((calls c).operation.session platform : Session Database Uuid ω StoreExc Unit).Safe
      (auditContract calls) c (fun _ _ => True) [] := by
  cases isCall : calls c with
  | updateProjectStatus projectId status updatedAt context =>
    exact safe_forget (updateProjectStatus_outside projectId status updatedAt context isCall)
  | revokeProjectApiKey projectId apiKeyId revokedAt context =>
    refine safe_forget (outside_of_audited isCall ?_ (by simp [AdministrativeCall.resource]) ?_ ?_)
    · exact fun s t fresh => fresh.elim (fun same => same) False.elim
    · exact Block.readsBy_query_bind (fun s t same => congrArg _ same) fun _ => trivial
    · exact fun draws s b rest t ran => EvidenceStore.revokeProjectApiKey_audited ran
  | disableProjectPolicy projectId policyId updatedAt context =>
    refine safe_forget (outside_of_audited isCall ?_ (by simp [AdministrativeCall.resource]) ?_ ?_)
    · exact fun s t fresh => fresh.elim (fun same => same) False.elim
    · exact disableProjectPolicy_readsBy projectId policyId updatedAt context
    · exact fun draws s b rest t ran => EvidenceStore.disableProjectPolicy_audited ran
  | disableWebhookSubscription projectId subscriptionId disabledAt context =>
    refine safe_forget (outside_of_audited isCall ?_ (by simp [AdministrativeCall.resource]) ?_ ?_)
    · exact fun s t fresh => fresh.elim (fun same => same) False.elim
    · exact disableWebhookSubscription_readsBy projectId subscriptionId disabledAt context
    · exact fun draws s b rest t ran => EvidenceStore.disableWebhookSubscription_audited ran
  | rotateWebhookSecret projectId subscriptionId rotatedAt context =>
    refine safe_forget (outside_of_audited isCall ?_ (by simp [AdministrativeCall.resource]) ?_ ?_)
    · exact fun s t fresh => fresh.elim (fun same => same) False.elim
    · exact rotateWebhookSecret_readsBy projectId subscriptionId rotatedAt context
    · exact fun draws s b rest t ran => EvidenceStore.rotateWebhookSecret_audited ran
  | requestWebhookRedelivery projectId deliveryId requestedAt context =>
    exact safe_forget (requestWebhookRedelivery_outside projectId deliveryId requestedAt context isCall)

end Calls

/-! ## The chain -/

/-- The audit events of a commit. -/
def recorded {C : Type} (entry : Commit C Database) : List AdministrativeAuditEvent :=
  entry.after.audit.drop entry.before.audit.length

section Chain

variable {C : Type} (calls : C → AdministrativeCall)

/-- The audit events of a resource, in the order of the commits. -/
def eventsOf (resource : Resource) (log : List (Commit C Database)) :
    List AdministrativeAuditEvent :=
  (log.filter fun entry => (calls entry.client).resource = resource).flatMap recorded

variable {calls} {start final : Database} {log : List (Commit C Database)}

/-- The delivery is in the table, and no dead letter. -/
def Alive (db : Database) (projectId deliveryId : Uuid) : Prop :=
  ∃ d, db.deliveries.find? (deliveryIs projectId deliveryId) = some d ∧ d.status ≠ .deadLetter

theorem not_redelivered {projectId deliveryId : Uuid} (alive : Alive start projectId deliveryId)
    (linked : Linked start log final)
    (commits : ∀ entry ∈ log, (calls entry.client).Commits entry.before entry.after) :
    eventsOf calls (.webhookDelivery projectId deliveryId) log = [] := by
  induction log generalizing start with
  | nil => rfl
  | cons entry rest ih =>
    obtain ⟨rfl, tail⟩ := linked
    have commit := commits entry (List.mem_cons_self ..)
    have others : (calls entry.client).resource ≠ .webhookDelivery projectId deliveryId := by
      intro same
      obtain ⟨⟨d, found, dead⟩, -⟩ := commit.redelivered projectId deliveryId same
      obtain ⟨d', found', notDead⟩ := alive
      rw [found] at found'
      cases found'
      exact notDead dead
    obtain ⟨d, found, notDead⟩ := alive
    have later := ih (commit.audited.deadLetters _ _ d found notDead) tail fun e member =>
      commits e (List.mem_cons_of_mem _ member)
    simpa [eventsOf, List.filter_cons, others] using later

/-- The events of a resource are a chain from the form it starts with. -/
theorem chain_of_linked (resource : Resource) (linked : Linked start log final)
    (commits : ∀ entry ∈ log, (calls entry.client).Commits entry.before entry.after) :
    (eventsOf calls resource log).IsChain (fun a b => a.after = b.before) ∧
      (resource.administrative →
        ∀ event ∈ (eventsOf calls resource log).head?, event.before = start.form resource) := by
  induction log generalizing start with
  | nil => exact ⟨.nil, fun _ _ member => by cases member⟩
  | cons entry rest ih =>
    obtain ⟨rfl, tail⟩ := linked
    have commit := commits entry (List.mem_cons_self ..)
    have later : ∀ e ∈ rest, (calls e.client).Commits e.before e.after :=
      fun e member => commits e (List.mem_cons_of_mem _ member)
    obtain ⟨chain, head⟩ := ih tail later
    by_cases its : (calls entry.client).resource = resource
    · have split : eventsOf calls resource (entry :: rest) =
          recorded entry ++ eventsOf calls resource rest := by
        simp [eventsOf, its]
      have audited := commit.audited
      rw [its] at audited
      rcases audited.event with ⟨same, unchanged⟩ | ⟨event, audit, before, after, -⟩
      · -- a repeat
        have nothing : recorded entry = [] := by simp [recorded, same]
        rw [split, nothing, List.nil_append]
        exact ⟨chain, fun administrative e first =>
          (head administrative e first).trans unchanged⟩
      · have one : recorded entry = [event] := by simp [recorded, audit]
        rw [split, one, List.singleton_append]
        refine ⟨List.isChain_cons.mpr ⟨?_, chain⟩, fun _ e first => ?_⟩
        · intro next first
          by_cases administrative : resource.administrative
          · rw [after, head administrative next first]
          · -- a delivery that was redelivered is not redelivered again
            cases resource with
            | webhookDelivery p i =>
              have none := not_redelivered (commit.redelivered p i its).2 tail later
              rw [none] at first
              cases first
            | _ => exact absurd trivial administrative
        · cases first
          exact before
    · have skip : eventsOf calls resource (entry :: rest) = eventsOf calls resource rest := by
        simp [eventsOf, its]
      rw [skip]
      refine ⟨chain, fun administrative e first => (head administrative e first).trans ?_⟩
      exact commit.audited.others administrative fun same => its same.symm

theorem audit_of_linked (linked : Linked start log final)
    (commits : ∀ entry ∈ log, (calls entry.client).Commits entry.before entry.after) :
    final.audit = start.audit ++ log.flatMap recorded := by
  induction log generalizing start with
  | nil =>
    cases linked
    simp
  | cons entry rest ih =>
    obtain ⟨rfl, tail⟩ := linked
    have grown : entry.after.audit = entry.before.audit ++ recorded entry := by
      rcases (commits entry (List.mem_cons_self ..)).audited.event with ⟨same, -⟩ | ⟨e, audit, -⟩
      · simp [recorded, same]
      · simp [recorded, audit]
    rw [ih tail fun e member => commits e (List.mem_cons_of_mem _ member), grown,
      List.flatMap_cons, List.append_assoc]

end Chain

/-- In every run of administrative calls that open their transactions where what they read of
their resource is not out of date: each audit event holds the form of its resource just before its
transaction and just after it, and the two differ; and the events of each resource, in the order
of the commits, are an unbroken chain. -/
theorem administrative_chain {C ω : Type} [DecidableEq C] (platform : Platform) (start : Database)
    (calls : C → AdministrativeCall) (w : World C Database Uuid ω StoreExc Unit)
    (reachable : Reachable
      (fun c history now => ∀ read ∈ reads history, (calls c).Fresh read now) start
      (fun c => (calls c).operation.session platform) w) :
    w.committed.audit = start.audit ++ w.log.flatMap recorded ∧
      (∀ entry ∈ w.log, ∀ event ∈ recorded entry,
        event.before = entry.before.form (calls entry.client).resource ∧
          event.after = entry.after.form (calls entry.client).resource ∧
          event.before ≠ event.after) ∧
      ∀ resource, (eventsOf calls resource w.log).IsChain fun a b => a.after = b.before := by
  have sound := (auditContract calls).sound start trivial
    (fun c => (calls c).operation.session platform) (fun c => call_safe c) w reachable
  have commits : ∀ entry ∈ w.log, (calls entry.client).Commits entry.before entry.after :=
    fun entry member => (sound.entries entry member).2.2.2.2.2
  refine ⟨audit_of_linked sound.linked commits, ?_,
    fun resource => (chain_of_linked resource sound.linked commits).1⟩
  intro entry inLog event member
  rcases (commits entry inLog).audited.event with ⟨same, -⟩ | ⟨e, audit, facts⟩
  · simp [recorded, same] at member
  · obtain rfl : event = e := by simpa [recorded, audit] using member
    exact facts

/-! ## Two calls on one project -/

def sampleActiveProject : Database :=
  { Database.empty with
    projects := [⟨⟨1⟩, [0x50], .active, sampleTime 0, sampleTime 0⟩] }

/-- The status in a public form. -/
def statusText (form : Option Json) : Option Str :=
  match form.bind (Json.get? "status") with
  | some (.str text) => some text
  | _ => none

/-- Two administrators disable the project. -/
def bothDisable : Fin 2 → AdministrativeCall
  | 0 => .updateProjectStatus ⟨1⟩ .disabled (sampleTime 5) sampleContext
  | 1 => .updateProjectStatus ⟨1⟩ .disabled (sampleTime 6) sampleContext

/-- Both read the active project, then one after the other disables it. -/
def bothDisableRun : World (Fin 2) Database Uuid Unit StoreExc Unit :=
  (World.start sampleActiveProject
    fun c => (bothDisable c).operation.session (referencePlatform fun _ => [])).play
      (turns () ([firstClient, secondClient] ++ List.replicate 12 firstClient ++
        List.replicate 12 secondClient))

theorem stale_status_recorded :
    ∃ w : World (Fin 2) Database Uuid Unit StoreExc Unit,
      Reachable anyOpening sampleActiveProject
        (fun c => (bothDisable c).operation.session (referencePlatform fun _ => [])) w ∧
      ∃ entry ∈ w.log, ∃ event ∈ recorded entry,
        event.before ≠ entry.before.form (bothDisable entry.client).resource ∧
          entry.before.form (bothDisable entry.client).resource =
            entry.after.form (bothDisable entry.client).resource := by
  have ran : ∃ entry ∈ bothDisableRun.log, entry.client = 1 ∧
      entry.before.projects = entry.after.projects ∧ ∃ event ∈ recorded entry,
        statusText event.before ≠ statusText (entry.before.form (.project ⟨1⟩)) := by decide +kernel
  obtain ⟨entry, inLog, client, same, event, member, differ⟩ := ran
  refine ⟨bothDisableRun, play_reachable _ _ _, entry, inLog, event, member, ?_, ?_⟩
  · rw [client]
    exact fun equal => differ (congrArg statusText equal)
  · rw [client]
    simp only [Database.form, bothDisable, AdministrativeCall.resource, same]

/-- One administrator disables the project, then the other enables it. -/
def disableThenEnable : Fin 2 → AdministrativeCall
  | 0 => .updateProjectStatus ⟨1⟩ .disabled (sampleTime 5) sampleContext
  | 1 => .updateProjectStatus ⟨1⟩ .active (sampleTime 6) sampleContext

def disableThenEnableTurns : List (Turn (Fin 2) Uuid Unit) :=
  turns () (List.replicate 13 firstClient ++ List.replicate 13 secondClient)

def disableThenEnableRun : World (Fin 2) Database Uuid Unit StoreExc Unit :=
  (World.start sampleActiveProject
    fun c => (disableThenEnable c).operation.session (referencePlatform fun _ => [])).play
      disableThenEnableTurns

instance (c : Fin 2) (history : List (Seen Database)) (now : Database) :
    Decidable (∀ read ∈ reads history, (disableThenEnable c).Fresh read now) := by
  match c with
  | 0 => exact inferInstanceAs (Decidable (∀ read ∈ reads history, _ = _ ∨ _ = true ∧ _ = true))
  | 1 => exact inferInstanceAs (Decidable (∀ read ∈ reads history, _ = _ ∨ _ = true ∧ _ = true))

theorem administrative_chain_sample :
    ((eventsOf disableThenEnable (.project ⟨1⟩) disableThenEnableRun.log).map fun event =>
        statusText event.before) =
          [some ProjectStatus.active.text, some ProjectStatus.disabled.text] ∧
      (eventsOf disableThenEnable (.project ⟨1⟩) disableThenEnableRun.log).IsChain
        fun a b => a.after = b.before :=
  ⟨by decide +kernel, (administrative_chain (referencePlatform fun _ => []) sampleActiveProject
    disableThenEnable disableThenEnableRun
    (play_permitted _ _ disableThenEnableTurns (by decide +kernel))).2.2 _⟩

end DecAustrum
