import DecAustrum.Storage.Outbox
import DecAustrum.Table

/-!
# What publishing leaves

The audit table, the events and the deliveries only grow when a change is recorded, and the new
rows are determined by the event and the subscriptions of the moment.
-/
namespace DecAustrum

open Python Transaction Table

/-! ## The deliveries of an event -/

/-- One delivery for each subscription that selects the event, in order. -/
def Delivers (event : WebhookEvent) (subscriptions : List WebhookSubscription)
    (deliveries : List WebhookDelivery) : Prop :=
  ∃ ids : List Uuid,
    ids.length = (subscriptions.filter fun s => s.selects event.eventType).length ∧
      deliveries = (ids.zip (subscriptions.filter fun s => s.selects event.eventType)).map
        fun p => pendingDelivery p.1 event p.2

section Delivers

variable {event : WebhookEvent} {subscriptions : List WebhookSubscription}
variable {deliveries : List WebhookDelivery}

theorem Delivers.mem (delivers : Delivers event subscriptions deliveries) {d : WebhookDelivery}
    (member : d ∈ deliveries) : ∃ s ∈ subscriptions, s.selects event.eventType = true ∧
      ∃ deliveryId, d = pendingDelivery deliveryId event s := by
  obtain ⟨ids, -, rfl⟩ := delivers
  obtain ⟨p, inZip, rfl⟩ := List.mem_map.mp member
  obtain ⟨inSubscriptions, selects⟩ := List.mem_filter.mp (List.of_mem_zip inZip).2
  exact ⟨p.2, inSubscriptions, selects, p.1, rfl⟩

end Delivers

/-- Rows added under fresh keys. -/
structure FreshDeliveries (db : Database) (deliveries : List WebhookDelivery) : Prop where
  keys : UniqueKey (fun d => some d.deliveryId) db.deliveries →
    UniqueKey (fun d => some d.deliveryId) (db.deliveries ++ deliveries)
  pairs : UniqueKey (fun d => some (d.eventId, d.subscriptionId)) db.deliveries →
    UniqueKey (fun d => some (d.eventId, d.subscriptionId)) (db.deliveries ++ deliveries)
  fresh : ∀ d ∈ deliveries, ∀ other ∈ db.deliveries, other.deliveryId ≠ d.deliveryId

/-! ## Statements -/

theorem insertDelivery_ok {delivery : WebhookDelivery} {draws rest : ℕ → Uuid}
    {db db' : Database} {u : Unit}
    (ran : (WebhookRepository.insertDelivery delivery).exec draws db = .ok (u, rest, db')) :
    db.deliveryAccepted delivery = true ∧ rest = draws ∧
      db' = { db with deliveries := db.deliveries ++ [delivery] } := by
  rw [WebhookRepository.insertDelivery, exec_insertRow] at ran
  split at ran
  · rename_i accepted
    cases ran
    exact ⟨accepted, rfl, rfl⟩
  · cases ran

theorem FreshDeliveries.single {db : Database} {delivery : WebhookDelivery}
    (accepted : db.deliveryAccepted delivery = true) : FreshDeliveries db [delivery] := by
  have apart : ∀ other ∈ db.deliveries, other.deliveryId ≠ delivery.deliveryId ∧
      ¬(other.eventId = delivery.eventId ∧ other.subscriptionId = delivery.subscriptionId) := by
    intro other member
    simp only [Database.deliveryAccepted, Bool.and_eq_true, Bool.not_eq_true', List.any_eq_false,
      Bool.or_eq_true, not_or, decide_eq_true_eq] at accepted
    exact accepted.1.1.1 other member
  refine ⟨?_, ?_, ?_⟩
  · intro unique
    refine (uniqueKey_append delivery).mpr ⟨unique, fun other member k same => ?_⟩
    cases same
    simpa using (apart other member).1
  · intro unique
    refine (uniqueKey_append delivery).mpr ⟨unique, fun other member k same => ?_⟩
    cases same
    simpa using (apart other member).2
  · intro d member other inOld
    rw [List.mem_singleton.mp member]
    exact (apart other inOld).1

theorem FreshDeliveries.append {db : Database} {first second : List WebhookDelivery}
    (one : FreshDeliveries db first)
    (two : FreshDeliveries { db with deliveries := db.deliveries ++ first } second) :
    FreshDeliveries db (first ++ second) := by
  refine ⟨?_, ?_, ?_⟩
  · intro unique
    rw [← List.append_assoc]
    exact two.keys (one.keys unique)
  · intro unique
    rw [← List.append_assoc]
    exact two.pairs (one.pairs unique)
  · intro d member other inOld
    rcases List.mem_append.mp member with inFirst | inSecond
    · exact one.fresh d inFirst other inOld
    · exact two.fresh d inSecond other (List.mem_append_left _ inOld)

theorem FreshDeliveries.nil (db : Database) : FreshDeliveries db [] := by
  refine ⟨?_, ?_, ?_⟩
  · intro unique
    rwa [List.append_nil]
  · intro unique
    rwa [List.append_nil]
  · intro d member
    cases member

theorem insertDeliveries_ok {event : WebhookEvent} (subscriptions : List WebhookSubscription)
    {draws rest : ℕ → Uuid} {db db' : Database} {deliveries : List WebhookDelivery}
    (ran : (WebhookRepository.insertDeliveries event subscriptions).exec draws db =
      .ok (deliveries, rest, db')) :
    db' = { db with deliveries := db.deliveries ++ deliveries } ∧
      Delivers event subscriptions deliveries ∧ FreshDeliveries db deliveries := by
  induction subscriptions generalizing draws db deliveries with
  | nil =>
    cases ran
    exact ⟨by rw [List.append_nil], ⟨[], rfl, rfl⟩, .nil _⟩
  | cons subscription later ih =>
    unfold WebhookRepository.insertDeliveries at ran
    split at ran
    · rename_i selects
      rw [Block.exec_bind_eq_ok] at ran
      obtain ⟨deliveryId, draws₁, db₁, drawn, ran⟩ := ran
      cases drawn
      rw [Block.exec_bind_eq_ok] at ran
      obtain ⟨_, draws₂, db₂, inserted, ran⟩ := ran
      obtain ⟨accepted, rfl, rfl⟩ := insertDelivery_ok inserted
      rw [Block.exec_bind_eq_ok] at ran
      obtain ⟨ds, draws₃, db₃, looped, ran⟩ := ran
      cases ran
      obtain ⟨rfl, ⟨ids, length, rfl⟩, fresh⟩ := ih looped
      refine ⟨by simp, ⟨draws 0 :: ids, ?_, ?_⟩, (FreshDeliveries.single accepted).append fresh⟩
      · simp [selects, length]
      · simp [selects]
    · rename_i skipped
      obtain ⟨rfl, ⟨ids, length, rfl⟩, fresh⟩ := ih ran
      exact ⟨rfl, ⟨ids, by simpa [skipped] using length, by simp [skipped]⟩, fresh⟩

/-! ## Events -/

/-- `db'` is `db` with the event and its deliveries. -/
structure Published (platform : Platform) (event : WebhookEvent) (db db' : Database) : Prop where
  accepted : db.eventAccepted event = true
  rows : ∃ payload deliveries, canonicalWebhookPayload platform event = .ok payload ∧
    Delivers event (db.activeSubscriptions event.projectId) deliveries ∧
    FreshDeliveries db deliveries ∧
    db' = { db with
      events := db.events ++ [⟨event, payload, db.subscriptions⟩]
      deliveries := db.deliveries ++ deliveries }

variable {platform : Platform} {draws rest : ℕ → Uuid} {db db' : Database}

theorem insertEventWithDeliveries_ok {event : WebhookEvent} {deliveries : List WebhookDelivery}
    (ran : (WebhookRepository.insertEventWithDeliveries platform event).exec draws db =
      .ok (deliveries, rest, db')) : Published platform event db db' := by
  unfold WebhookRepository.insertEventWithDeliveries at ran
  rw [Block.exec_bind_eq_ok] at ran
  obtain ⟨payload, draws₁, db₁, dumped, ran⟩ := ran
  obtain ⟨isPayload, rfl, rfl⟩ := ofPython_ok dumped
  rw [Block.exec_bind_eq_ok] at ran
  obtain ⟨_, draws₂, db₂, inserted, ran⟩ := ran
  rw [exec_insertRow] at inserted
  split at inserted
  · rename_i accepted
    cases inserted
    rw [Block.exec_bind_eq_ok] at ran
    obtain ⟨subscriptions, draws₃, db₃, selected, ran⟩ := ran
    cases selected
    obtain ⟨rfl, delivers, fresh⟩ := insertDeliveries_ok _ ran
    exact ⟨accepted, payload, deliveries, isPayload, delivers,
      ⟨fresh.keys, fresh.pairs, fresh.fresh⟩, rfl⟩
  · cases inserted

/-- An event of a project that does not exist is dropped. -/
def Enqueued (platform : Platform) (event : WebhookEvent) (db db' : Database) : Prop :=
  (db.projects.find? (fun p => p.projectId = event.projectId) = none ∧ db' = db) ∨
    Published platform event db db'

theorem enqueueWebhookEvent_ok {event : WebhookEvent} {u : Unit}
    (ran : (enqueueWebhookEvent platform event).exec draws db = .ok (u, rest, db')) :
    Enqueued platform event db db' := by
  unfold enqueueWebhookEvent at ran
  rw [Block.exec_bind_eq_ok] at ran
  obtain ⟨project, draws₁, db₁, selected, ran⟩ := ran
  cases selected
  split at ran
  · rename_i absent
    cases ran
    exact .inl ⟨absent, rfl⟩
  · rw [Block.exec_bind_eq_ok] at ran
    obtain ⟨deliveries, draws₂, db₂, published, ran⟩ := ran
    cases ran
    exact .inr (insertEventWithDeliveries_ok published)

/-- A recorded change: the audit event, and the webhook event derived from it. -/
structure RecordedChange (platform : Platform) (event : AdministrativeAuditEvent)
    (db db' : Database) : Prop where
  accepted : db.auditAccepted event = true
  published : ∃ eventId, Published platform (buildWebhookEventFromAudit eventId event)
    { db with audit := db.audit ++ [event] } db'

theorem recordAdministrativeChange_ok {event : AdministrativeAuditEvent} {u : Unit}
    (ran : (recordAdministrativeChange platform event).exec draws db = .ok (u, rest, db')) :
    RecordedChange platform event db db' := by
  unfold recordAdministrativeChange AdministrativeAuditRepository.insert at ran
  rw [Block.exec_bind_eq_ok] at ran
  obtain ⟨_, draws₁, db₁, inserted, ran⟩ := ran
  rw [exec_insertRow] at inserted
  split at inserted
  · rename_i accepted
    cases inserted
    rw [Block.exec_bind_eq_ok] at ran
    obtain ⟨eventId, draws₂, db₂, drawn, ran⟩ := ran
    cases drawn
    refine ⟨accepted, draws 0, ?_⟩
    rcases enqueueWebhookEvent_ok ran with ⟨absent, -⟩ | published
    · -- the audit event refers to the project
      simp only [Database.auditAccepted, Bool.and_eq_true, List.any_eq_true] at accepted
      obtain ⟨-, project, member, same⟩ := accepted
      exact absurd same (List.find?_eq_none.mp absent project member)
    · exact published
  · cases inserted

theorem recordAudit_ok {occurredAt : UtcDatetime} {projectId : Uuid} {context : AuditContext}
    {action : AuditAction} {resourceType : AuditResourceType} {resourceId : Str}
    {before after : Option Json} {metadata : List (Str × Json)} {u : Unit}
    (ran : (recordAudit platform occurredAt projectId context action resourceType resourceId before
      after metadata).exec draws db = .ok (u, rest, db')) :
    ∃ eventId event, buildAuditEvent eventId occurredAt projectId context action resourceType
      resourceId before after metadata = .ok event ∧ RecordedChange platform event db db' := by
  unfold recordAudit at ran
  rw [Block.exec_bind_eq_ok] at ran
  obtain ⟨eventId, draws₁, db₁, drawn, ran⟩ := ran
  cases drawn
  rw [Block.exec_bind_eq_ok] at ran
  obtain ⟨event, draws₂, db₂, built, ran⟩ := ran
  obtain ⟨isEvent, rfl, rfl⟩ := ofPython_ok built
  exact ⟨_, event, isEvent, recordAdministrativeChange_ok ran⟩

end DecAustrum
