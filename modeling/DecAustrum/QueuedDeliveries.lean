import DecAustrum.DeliveryStates
import DecAustrum.EvidenceStore.OutboxUnits

/-!
# Queued deliveries of active subscriptions

A disable cancels what is queued, and nothing is queued for a disabled subscription afterwards,
unless a redelivery opens its transaction when the subscription it read is disabled already.
-/
namespace DecAustrum

open Python Transaction Table WebhookRepository

structure ActiveQueue (db : Database) : Prop where
  subscriptions : UniqueKey (fun s => some s.subscriptionId) db.subscriptions
  deliveries : UniqueKey (fun d => some d.deliveryId) db.deliveries
  owned : ∀ d ∈ db.deliveries, ∃ s ∈ db.subscriptions,
    s.subscriptionId = d.subscriptionId ∧ s.projectId = d.projectId
  queued : ∀ d ∈ db.deliveries, isQueued d = true →
    ∀ s ∈ db.subscriptions, s.subscriptionId = d.subscriptionId → s.status = .active

/-- Every delivery keeps its subscription and its project. -/
def DeliveriesStay (db db' : Database) : Prop :=
  ∀ d ∈ db.deliveries, ∃ d' ∈ db'.deliveries,
    d'.deliveryId = d.deliveryId ∧ d'.subscriptionId = d.subscriptionId ∧ d'.projectId = d.projectId

theorem deliveriesStay_refl (db : Database) : DeliveriesStay db db :=
  fun d member => ⟨d, member, rfl, rfl, rfl⟩

theorem deliveriesStay_trans (db₁ db₂ db₃ : Database) (first : DeliveriesStay db₁ db₂)
    (second : DeliveriesStay db₂ db₃) : DeliveriesStay db₁ db₃ := by
  intro d member
  obtain ⟨d₂, member₂, key₂, subscription₂, project₂⟩ := first d member
  obtain ⟨d₃, member₃, key₃, subscription₃, project₃⟩ := second d₂ member₂
  exact ⟨d₃, member₃, key₃.trans key₂, subscription₃.trans subscription₂, project₃.trans project₂⟩

variable {platform : Platform} {db db' : Database}

/-! ## Updates -/

theorem ActiveQueue.of_outbox (queue : ActiveQueue db) (same : db'.outbox = db.outbox) :
    ActiveQueue db' ∧ DeliveriesStay db db' := by
  simp only [Database.outbox, Prod.mk.injEq] at same
  obtain ⟨subscriptions, -, deliveries⟩ := same
  obtain ⟨uniqueS, uniqueD, owned, queued⟩ := queue
  refine ⟨⟨?_, ?_, ?_, ?_⟩, ?_⟩
  · rwa [subscriptions]
  · rwa [deliveries]
  · rwa [deliveries, subscriptions]
  · rwa [deliveries, subscriptions]
  · rw [DeliveriesStay, deliveries]
    exact deliveriesStay_refl db

/-- An update of deliveries that queues only what belongs to active subscriptions. -/
theorem ActiveQueue.update (queue : ActiveQueue db) {p : WebhookDelivery → Bool}
    {f : WebhookDelivery → WebhookDelivery} (subscriptions : db'.subscriptions = db.subscriptions)
    (deliveries : db'.deliveries = updateWhere p f db.deliveries)
    (kept : ∀ d, (f d).deliveryId = d.deliveryId ∧ (f d).subscriptionId = d.subscriptionId ∧
      (f d).projectId = d.projectId)
    (queued : ∀ d ∈ db.deliveries, p d = true → isQueued (f d) = true →
      ∀ s ∈ db.subscriptions, s.subscriptionId = d.subscriptionId → s.status = .active) :
    ActiveQueue db' ∧ DeliveriesStay db db' := by
  refine ⟨⟨?_, ?_, ?_, ?_⟩, ?_⟩
  · rw [subscriptions]
    exact queue.subscriptions
  · rw [deliveries]
    refine (uniqueKey_updateWhere ?_).mpr queue.deliveries
    intro d _ _
    rw [(kept d).1]
  · rw [deliveries, subscriptions]
    intro d member
    obtain ⟨old, inOld, ⟨-, rfl⟩ | ⟨-, rfl⟩⟩ := mem_updateWhere.mp member
    · obtain ⟨s, inSubscriptions, key, project⟩ := queue.owned old inOld
      exact ⟨s, inSubscriptions, key.trans (kept old).2.1.symm, project.trans (kept old).2.2.symm⟩
    · exact queue.owned d inOld
  · rw [deliveries, subscriptions]
    intro d member isQueuedNow s inSubscriptions key
    obtain ⟨old, inOld, ⟨hit, rfl⟩ | ⟨-, rfl⟩⟩ := mem_updateWhere.mp member
    · exact queued old inOld hit isQueuedNow s inSubscriptions (key.trans (kept old).2.1)
    · exact queue.queued d inOld isQueuedNow s inSubscriptions key
  · rw [DeliveriesStay, deliveries]
    intro d member
    by_cases hit : p d = true
    · exact ⟨f d, mem_updateWhere.mpr ⟨d, member, .inl ⟨hit, rfl⟩⟩, kept d⟩
    · exact ⟨d, mem_updateWhere.mpr ⟨d, member, .inr ⟨by simpa using hit, rfl⟩⟩, rfl, rfl, rfl⟩

theorem queue_insertEvent (queue : ActiveQueue db) {event : WebhookEvent}
    (published : Published platform event db db') : ActiveQueue db' ∧ DeliveriesStay db db' := by
  obtain ⟨-, payload, deliveries, -, delivers, fresh, rfl⟩ := published
  -- the new deliveries belong to active subscriptions
  have audience : ∀ d ∈ deliveries, ∃ s ∈ db.subscriptions, s.subscriptionId = d.subscriptionId ∧
      s.projectId = d.projectId ∧ s.status = .active := by
    intro d member
    obtain ⟨s, inActive, -, deliveryId, rfl⟩ := delivers.mem member
    rw [Database.activeSubscriptions, List.mem_insertionSort, List.mem_filter] at inActive
    obtain ⟨inSubscriptions, chosen⟩ := inActive
    simp only [Bool.and_eq_true, decide_eq_true_eq] at chosen
    exact ⟨s, inSubscriptions, rfl, chosen.1, chosen.2⟩
  refine ⟨⟨queue.subscriptions, fresh.keys queue.deliveries, ?_, ?_⟩, ?_⟩
  · intro d member
    rcases List.mem_append.mp member with old | new
    · exact queue.owned d old
    · obtain ⟨s, inSubscriptions, key, project, -⟩ := audience d new
      exact ⟨s, inSubscriptions, key, project⟩
  · intro d member isQueuedNow s inSubscriptions key
    rcases List.mem_append.mp member with old | new
    · exact queue.queued d old isQueuedNow s inSubscriptions key
    · obtain ⟨other, inOther, keyOther, -, active⟩ := audience d new
      have same : s = other :=
        queue.subscriptions.eq inSubscriptions inOther (by rw [key]) (by rw [keyOther])
      rw [same, active]
  · exact fun d member => ⟨d, List.mem_append_left _ member, rfl, rfl, rfl⟩

theorem queue_insertSubscription (queue : ActiveQueue db) {subscription : WebhookSubscription}
    (fresh : ∀ other ∈ db.subscriptions, other.subscriptionId ≠ subscription.subscriptionId)
    (left : db' = { db with subscriptions := db.subscriptions ++ [subscription] }) :
    ActiveQueue db' ∧ DeliveriesStay db db' := by
  subst left
  refine ⟨⟨?_, queue.deliveries, ?_, ?_⟩, deliveriesStay_refl db⟩
  · refine (uniqueKey_append _).mpr ⟨queue.subscriptions, fun other member k same => ?_⟩
    cases same
    simpa using fresh other member
  · intro d member
    obtain ⟨s, inSubscriptions, owned⟩ := queue.owned d member
    exact ⟨s, List.mem_append_left _ inSubscriptions, owned⟩
  · intro d member isQueuedNow s inSubscriptions key
    rcases List.mem_append.mp inSubscriptions with old | new
    · exact queue.queued d member isQueuedNow s old key
    · -- a delivery has its subscription already
      obtain ⟨owner, inOld, owned, -⟩ := queue.owned d member
      obtain rfl := List.mem_singleton.mp new
      exact absurd (owned.trans key.symm) (fresh owner inOld)

theorem queue_disable (queue : ActiveQueue db) (projectId subscriptionId : Uuid)
    (disabledAt : UtcDatetime) :
    ActiveQueue (db.disableSubscription projectId subscriptionId disabledAt) ∧
      DeliveriesStay db (db.disableSubscription projectId subscriptionId disabledAt) := by
  have subscriptionOf : ∀ s ∈ (db.disableSubscription projectId subscriptionId
      disabledAt).subscriptions, ∃ old ∈ db.subscriptions, s.subscriptionId = old.subscriptionId ∧
        (s.status = old.status ∨ subscriptionIs projectId subscriptionId old = true) := by
    intro s member
    obtain ⟨old, inOld, ⟨hit, rfl⟩ | ⟨-, rfl⟩⟩ := mem_updateWhere.mp member
    · exact ⟨old, inOld, rfl, .inr (Bool.and_eq_true_iff.mp hit).1⟩
    · exact ⟨s, inOld, rfl, .inl rfl⟩
  refine ⟨⟨?_, ?_, ?_, ?_⟩, ?_⟩
  · refine (uniqueKey_updateWhere ?_).mpr queue.subscriptions
    exact fun _ _ _ => rfl
  · refine (uniqueKey_updateWhere ?_).mpr queue.deliveries
    exact fun _ _ _ => rfl
  · intro d member
    have kept : ∃ old ∈ db.deliveries, d.subscriptionId = old.subscriptionId ∧
        d.projectId = old.projectId := by
      obtain ⟨old, inOld, ⟨-, rfl⟩ | ⟨-, rfl⟩⟩ := mem_updateWhere.mp member
      · exact ⟨old, inOld, rfl, rfl⟩
      · exact ⟨d, inOld, rfl, rfl⟩
    obtain ⟨old, inOld, key, project⟩ := kept
    obtain ⟨s, inSubscriptions, keyS, projectS⟩ := queue.owned old inOld
    rw [key, project]
    by_cases hit : (subscriptionIs projectId subscriptionId s && s.status = .active) = true
    · exact ⟨_, mem_updateWhere.mpr ⟨s, inSubscriptions, .inl ⟨hit, rfl⟩⟩, keyS, projectS⟩
    · exact ⟨s, mem_updateWhere.mpr ⟨s, inSubscriptions, .inr ⟨by simpa using hit, rfl⟩⟩, keyS,
        projectS⟩
  · intro d member isQueuedNow s inSubscriptions key
    obtain ⟨old, inOld, ⟨-, rfl⟩ | ⟨skipped, rfl⟩⟩ := mem_updateWhere.mp member
    · simp [isQueued, cancelledDelivery] at isQueuedNow
    · obtain ⟨was, inWas, keyWas, status | hit⟩ := subscriptionOf s inSubscriptions
      · rw [status]
        exact queue.queued d inOld isQueuedNow was inWas (keyWas.symm.trans key)
      · -- the delivery would have been cancelled with its subscription
        simp only [subscriptionIs, Bool.and_eq_true, decide_eq_true_eq] at hit
        obtain ⟨owner, inOwner, keyOwner, projectOwner⟩ := queue.owned d inOld
        have same : owner = was := queue.subscriptions.eq inOwner inWas (by rw [keyOwner])
          (by rw [← keyWas, key])
        subst same
        simp [isQueuedNow, ← keyOwner, ← projectOwner, hit.1, hit.2] at skipped
  · intro d member
    by_cases hit : (d.projectId = projectId && d.subscriptionId = subscriptionId && isQueued d) = true
    · exact ⟨_, mem_updateWhere.mpr ⟨d, member, .inl ⟨hit, rfl⟩⟩, rfl, rfl, rfl⟩
    · exact ⟨d, mem_updateWhere.mpr ⟨d, member, .inr ⟨by simpa using hit, rfl⟩⟩, rfl, rfl, rfl⟩

theorem queue_rotate (queue : ActiveQueue db) (projectId subscriptionId : Uuid)
    (rotatedAt : UtcDatetime) (left : db' = { db with
      subscriptions := updateWhere
        (fun s => subscriptionIs projectId subscriptionId s && s.status = .active)
        (rotatedSubscription rotatedAt) db.subscriptions }) :
    ActiveQueue db' ∧ DeliveriesStay db db' := by
  subst left
  have rotated : ∀ s ∈ updateWhere
      (fun s => subscriptionIs projectId subscriptionId s && s.status = .active)
      (rotatedSubscription rotatedAt) db.subscriptions, ∃ old ∈ db.subscriptions,
        s.subscriptionId = old.subscriptionId ∧ s.status = old.status := by
    intro s member
    obtain ⟨old, inOld, ⟨-, rfl⟩ | ⟨-, rfl⟩⟩ := mem_updateWhere.mp member
    · exact ⟨old, inOld, rfl, rfl⟩
    · exact ⟨s, inOld, rfl, rfl⟩
  refine ⟨⟨?_, queue.deliveries, ?_, ?_⟩, deliveriesStay_refl db⟩
  · refine (uniqueKey_updateWhere ?_).mpr queue.subscriptions
    exact fun _ _ _ => rfl
  · intro d member
    obtain ⟨s, inSubscriptions, key, project⟩ := queue.owned d member
    by_cases hit : (subscriptionIs projectId subscriptionId s && s.status = .active) = true
    · exact ⟨_, mem_updateWhere.mpr ⟨s, inSubscriptions, .inl ⟨hit, rfl⟩⟩, key, project⟩
    · exact ⟨s, mem_updateWhere.mpr ⟨s, inSubscriptions, .inr ⟨by simpa using hit, rfl⟩⟩, key,
        project⟩
  · intro d member isQueuedNow s inSubscriptions key
    obtain ⟨old, inOld, keyOld, status⟩ := rotated s inSubscriptions
    rw [status]
    exact queue.queued d member isQueuedNow old inOld (keyOld.symm.trans key)

/-- What the attempt decides was decided on the subscription of the row it updates. -/
theorem queue_recordAttempt (queue : ActiveQueue db) {read : Database} (stayed : DeliveriesStay read db)
    {policy : RetryPolicy} {projectId deliveryId : Uuid} {attemptedAt completedAt : UtcDatetime}
    {outcome : WebhookDeliveryOutcome} {statusCode : Option Int} {error : Option Str}
    {current : WebhookDelivery} {updated : Option WebhookDelivery} {draws rest : ℕ → Uuid}
    (found : read.deliveries.find? (deliveryIs projectId deliveryId) = some current)
    (ran : (recordAttempt policy projectId deliveryId attemptedAt completedAt outcome statusCode
      error current).exec draws db = .ok (updated, rest, db')) :
    ActiveQueue db' ∧ DeliveriesStay db db' := by
  obtain ⟨attemptId, result, -, decided, rfl, -⟩ := recordAttempt_ok ran
  refine queue.update rfl rfl (fun _ => ⟨rfl, rfl, rfl⟩) ?_
  intro d member hit isQueuedNow s inSubscriptions key
  simp only [deliveryIs, Bool.and_eq_true, decide_eq_true_eq] at hit
  obtain ⟨now, inNow, keyNow, subscriptionNow, -⟩ := stayed current (List.mem_of_find?_eq_some found)
  have owned := List.find?_some found
  simp only [deliveryIs, Bool.and_eq_true, decide_eq_true_eq] at owned
  have same : d = now := queue.deliveries.eq member inNow (by rw [hit.1.2]) (by rw [keyNow, owned.2])
  cases decided with
  | success => simp [isQueued, attemptedDelivery] at isQueuedNow
  | cancelled => simp [isQueued, attemptedDelivery] at isQueuedNow
  | dead => simp [isQueued, attemptedDelivery] at isQueuedNow
  | retry _ _ other active =>
    have keyed := List.find?_some active.1
    simp only [subscriptionIs, Bool.and_eq_true, decide_eq_true_eq] at keyed
    have sameSubscription : s = other := by
      refine queue.subscriptions.eq inSubscriptions (List.mem_of_find?_eq_some active.1) ?_ rfl
      rw [key, same, subscriptionNow, keyed.2]
    rw [sameSubscription, active.2]

/-! ## One unit -/

/-- The subscriptions of the delivery are active, if it is a dead letter. -/
def Redeliverable (projectId deliveryId : Uuid) (db : Database) : Prop :=
  ∀ d ∈ db.deliveries, deliveryIs projectId deliveryId d = true → d.status = .deadLetter →
    ∀ s ∈ db.subscriptions, s.subscriptionId = d.subscriptionId → s.status = .active

theorem queue_claim (queue : ActiveQueue db) (now lease : UtcDatetime) (limit : Nat)
    {claimed : List WebhookDelivery} {draws rest : ℕ → Uuid}
    (ran : (claimBody now lease limit).exec draws db = .ok (claimed, rest, db')) :
    (ActiveQueue db' ∧ DeliveriesStay db db') ∧
      ∀ d ∈ claimed, ∀ s ∈ db'.subscriptions, s.subscriptionId = d.subscriptionId →
        s.status = .active := by
  have cancelled : ActiveQueue (db.cancelEnded now) ∧ DeliveriesStay db (db.cancelEnded now) := by
    refine queue.update rfl rfl (fun _ => ⟨rfl, rfl, rfl⟩) ?_
    intro d _ _ isQueuedNow
    simp [isQueued, cancelledDelivery] at isQueuedNow
  rw [exec_claimBody] at ran
  split at ran
  · cases ran
    exact ⟨cancelled, by simp⟩
  · cases ran
    have leased : ActiveQueue ((db.cancelEnded now).lease
        (dueDeliveries now limit (db.cancelEnded now)) lease now) ∧
        DeliveriesStay (db.cancelEnded now) ((db.cancelEnded now).lease
          (dueDeliveries now limit (db.cancelEnded now)) lease now) := by
      refine cancelled.1.update rfl rfl (fun _ => ⟨rfl, rfl, rfl⟩) ?_
      intro d _ _ isQueuedNow
      simp [isQueued, claimedDelivery] at isQueuedNow
    refine ⟨⟨leased.1, deliveriesStay_trans _ _ _ cancelled.2 leased.2⟩, ?_⟩
    intro d member s inSubscriptions key
    rw [List.mem_insertionSort, List.mem_filter] at member
    obtain ⟨inLeased, chosen⟩ := member
    -- the row was selected with an active subscription, and no row changes its own
    obtain ⟨due, inDue, keyDue, active, -⟩ := mem_dueDeliveries (by simpa using chosen)
    obtain ⟨now', inNow, keyNow, subscriptionNow, -⟩ := leased.2 due inDue
    have same : d = now' := leased.1.deliveries.eq inLeased inNow rfl (by rw [keyNow, keyDue])
    simp only [subscriptionHas, List.any_eq_true, Bool.and_eq_true, decide_eq_true_eq] at active
    obtain ⟨other, inOther, keyOther, activeOther⟩ := active
    have sameSubscription : s = other := by
      refine cancelled.1.subscriptions.eq inSubscriptions inOther ?_ rfl
      rw [key, same, subscriptionNow, keyOther]
    rw [sameSubscription, activeOther]

theorem keeps_requestRedelivery (projectId deliveryId : Uuid) (requestedAt : UtcDatetime) :
    (requestRedeliveryWithConnection projectId deliveryId requestedAt).KeepsFrom ActiveQueue
      DeliveriesStay (Redeliverable projectId deliveryId) := by
  refine Block.keeps_query_bind fun read _ => ?_
  split
  · trivial
  · split
    · trivial
    · refine Block.keeps_query_bind fun later _ => ?_
      split
      · trivial
      · split
        · trivial
        · refine Block.KeepsFrom.bind deliveriesStay_refl deliveriesStay_trans ?_ fun _ =>
            Block.keeps_query_bind fun _ _ => ?_
          · refine Block.keeps_of_exec trivial fun draws s u rest t queue opens ran => ?_
            rw [redeliverRows, exec_updateRows] at ran
            cases ran
            refine queue.update rfl rfl (fun _ => ⟨rfl, rfl, rfl⟩) ?_
            intro d member hit _ s inSubscriptions key
            simp only [Bool.and_eq_true, decide_eq_true_eq] at hit
            exact opens.1.1 d member hit.1 hit.2 s inSubscriptions key
          · split <;> trivial

theorem queue_unit {scope : StoreScope} (plain : scope.redelivers = false) {β : Type} {x : Body β}
    (unit : StoreUnit platform scope β x) :
    x.Keeps ActiveQueue DeliveriesStay := by
  rcases unit.outbox with outbox | ⟨immediate, leaves⟩
  · cases outbox with
    | insertEvent event =>
      refine Block.keeps_of_exec ((Block.immediate_check _).bind fun _ => trivial) ?_
      intro draws s deliveries rest t queue _ ran
      exact queue_insertEvent queue (insertEventWithDeliveries_ok ran)
    | insertSubscription subscription =>
      refine Block.keeps_of_exec trivial fun draws s u rest t queue _ ran => ?_
      rw [insertSubscription, exec_insertRow] at ran
      split at ran
      · rename_i accepted
        cases ran
        simp only [Bool.and_eq_true, Bool.not_eq_true', List.any_eq_false,
          decide_eq_true_eq] at accepted
        exact queue_insertSubscription queue accepted.1.1.1 rfl
      · cases ran
    | disableSubscription projectId subscriptionId disabledAt =>
      refine Block.keeps_of_exec trivial fun draws s u rest t queue _ ran => ?_
      rw [exec_disableRows] at ran
      cases ran
      exact queue_disable queue projectId subscriptionId disabledAt
    | rotateSecret projectId subscriptionId rotatedAt =>
      refine Block.keeps_of_exec trivial fun draws s u rest t queue _ ran => ?_
      rw [rotateRows, exec_updateRows] at ran
      cases ran
      exact queue_rotate queue projectId subscriptionId rotatedAt rfl
    | claim now lease limit =>
      refine Block.keeps_of_exec trivial fun draws s claimed rest t queue _ ran => ?_
      exact (queue_claim queue now lease limit ran).1
    | record policy projectId deliveryId attemptedAt completedAt outcome code error =>
      refine Block.keeps_query_bind fun read _ => ?_
      split
      · trivial
      · rename_i current found
        split
        · trivial
        · refine Block.keeps_of_exec (fun _ => trivial) fun draws s updated rest t queue known ran => ?_
          exact queue_recordAttempt queue known.2 found ran
    | cancel projectId deliveryId cancelledAt reason =>
      refine Block.keeps_of_exec trivial fun draws s cancelled rest t queue _ ran => ?_
      rw [exec_cancelBody] at ran
      cases ran
      refine queue.update rfl rfl (fun _ => ⟨rfl, rfl, rfl⟩) ?_
      intro d _ _ isQueuedNow
      simp [isQueued, cancelledDelivery] at isQueuedNow
    | redeliver _ _ _ does =>
      rw [plain] at does
      cases does
  · exact Block.keeps_of_exec immediate fun draws s b rest t queue _ ran =>
      queue.of_outbox (leaves draws s b rest t ran)

/-! ## Every run -/

/-- Where the operation may open its transaction: a redelivery, where the subscription is still
active. -/
def QueueOpening : Operation → Database → Prop
  | .requestWebhookRedelivery projectId deliveryId _ _ => Redeliverable projectId deliveryId
  | _ => fun _ => True

instance (operation : Operation) (db : Database) : Decidable (QueueOpening operation db) := by
  unfold QueueOpening Redeliverable
  cases operation <;> infer_instance

theorem keeps_recordAudit (occurredAt : UtcDatetime) (projectId : Uuid) (context : AuditContext)
    (action : AuditAction) (resourceType : AuditResourceType) (resourceId : Str)
    (before after : Option Json) (metadata : List (Str × Json)) :
    (recordAudit platform occurredAt projectId context action resourceType resourceId before after
      metadata).Keeps ActiveQueue DeliveriesStay := by
  have composed : StoreBody platform ⟨false, fun _ => False⟩ _ (recordAudit platform occurredAt
      projectId context action resourceType resourceId before after metadata) :=
    StoreBody.recordAudit platform ..
  exact composed.keeps deliveriesStay_refl deliveriesStay_trans fun _ _ => queue_unit rfl

theorem queue_bodies {ω : Type} (operation : Operation) :
    (operation.session platform : Session Database Uuid ω StoreExc Unit).Bodies
      fun _ body => body.KeepsFrom ActiveQueue DeliveriesStay (QueueOpening operation) := by
  have composed : operation.redelivers = false →
      (operation.session platform : Session Database Uuid ω StoreExc Unit).Bodies
        fun _ body => body.KeepsFrom ActiveQueue DeliveriesStay (QueueOpening operation) := by
    intro plain
    refine (operation.bodies platform).mono fun _ _ composed => ?_
    exact (composed.keeps deliveriesStay_refl deliveriesStay_trans fun _ _ => queue_unit plain).mono
      fun _ _ => trivial
  cases operation with
  | requestWebhookRedelivery projectId deliveryId requestedAt context =>
    refine bodies_forget (Session.bodies_within ?_)
    refine Block.keeps_query_bind fun read _ => ?_
    refine Block.KeepsFrom.bind deliveriesStay_refl deliveriesStay_trans
      ((keeps_requestRedelivery projectId deliveryId requestedAt).mono fun _ h => h.1) fun d => ?_
    refine Block.KeepsFrom.bind (x := recordAudit platform _ _ _ _ _ _ _ _ _) deliveriesStay_refl
      deliveriesStay_trans ?_ ?_
    · exact keeps_recordAudit _ _ _ _ _ _ _ _ _
    · exact fun _ => Block.keeps_ret _
  | _ => exact composed rfl

/-- From an outbox without deliveries on, in every run of calls of the store whose redeliveries
open their transactions while the subscription is still active: nothing is queued for a disabled
subscription, and a claim returns no delivery of one. -/
theorem queue_of_active_subscriptions {C ω : Type} [DecidableEq C] (platform : Platform)
    (start : Database) (deliveries : start.deliveries = [])
    (keys : UniqueKey (fun s => some s.subscriptionId) start.subscriptions)
    (operations : C → Operation) (w : World C Database Uuid ω StoreExc Unit)
    (reachable : Reachable (fun c _ db => QueueOpening (operations c) db) start
      (fun c => (operations c).session platform) w) :
    (∀ d ∈ w.committed.deliveries, isQueued d = true → ∀ s ∈ w.committed.subscriptions,
      s.subscriptionId = d.subscriptionId → s.status ≠ .disabled) ∧
      ∀ (now leaseExpiresAt : UtcDatetime) (limit : Nat) (draws rest : ℕ → Uuid)
        (claimed : List WebhookDelivery) (db' : Database),
        (claimBody now leaseExpiresAt limit).exec draws w.committed = .ok (claimed, rest, db') →
        ∀ d ∈ claimed, ∀ s ∈ db'.subscriptions, s.subscriptionId = d.subscriptionId →
          s.status ≠ .disabled := by
  have queue : ActiveQueue start := by
    refine ⟨keys, ?_, ?_, ?_⟩
    · rw [deliveries]
      exact uniqueKey_nil
    · simp [deliveries]
    · simp [deliveries]
  obtain ⟨holds, -, -⟩ := invariant_reachable deliveriesStay_refl deliveriesStay_trans _
    (fun c => QueueOpening (operations c)) (fun _ _ _ opens => opens) start queue
    (fun c => (operations c).session platform) (fun c => queue_bodies (operations c)) w reachable
  refine ⟨?_, ?_⟩
  · intro d member isQueuedNow s inSubscriptions key
    simp [holds.queued d member isQueuedNow s inSubscriptions key]
  · intro now lease limit draws rest claimed db' ran d member s inSubscriptions key
    simp [(queue_claim holds now lease limit ran).2 d member s inSubscriptions key]

/-! ## A redelivery that comes too late -/

/-- An event is claimed and its only attempt fails; then a redelivery and a disable. -/
def lateRedelivery : Fin 5 → Operation
  | 0 => .updateProjectStatus ⟨1⟩ .disabled (sampleTime 5) (some sampleContext)
  | 1 => .claimDueWebhookDeliveries (sampleTime 6) 5 30
  | 2 => .recordWebhookDeliveryResult ⟨1, 10, 60⟩ ⟨1⟩ ⟨25⟩ (sampleTime 7)
      (sampleTime 7) .networkError none none
  | 3 => .requestWebhookRedelivery ⟨1⟩ ⟨25⟩ (sampleTime 8) sampleContext
  | 4 => .disableWebhookSubscription ⟨1⟩ ⟨2⟩ (sampleTime 9) sampleContext

/-- The redelivery reads the subscription, the disable runs, the redelivery goes on. -/
def lateRedeliveryRun : World (Fin 5) Database Uuid Unit StoreExc Unit :=
  (World.start sampleOutbox fun c => (lateRedelivery c).session (referencePlatform fun _ => [])).play
    (turns () (List.replicate 14 0 ++ List.replicate 8 1 ++ List.replicate 9 2 ++
      List.replicate 3 3 ++ List.replicate 18 4 ++ List.replicate 15 3))

theorem disabled_subscription_requeued :
    ∃ w : World (Fin 5) Database Uuid Unit StoreExc Unit,
      Reachable anyOpening sampleOutbox
        (fun c => (lateRedelivery c).session (referencePlatform fun _ => [])) w ∧
      ∃ d ∈ w.committed.deliveries, isQueued d = true ∧ ∃ s ∈ w.committed.subscriptions,
        s.subscriptionId = d.subscriptionId ∧ s.status = .disabled :=
  ⟨lateRedeliveryRun, play_reachable _ _ _, by decide +kernel⟩

/-- The redelivery is through when the disable reads the subscription. -/
def earlyRedelivery : List (Turn (Fin 5) Uuid Unit) :=
  turns () (List.replicate 14 0 ++ List.replicate 8 1 ++ List.replicate 9 2 ++
    List.replicate 18 3 ++ List.replicate 2 4)

def earlyRedeliveryRun : World (Fin 5) Database Uuid Unit StoreExc Unit :=
  (World.start sampleOutbox fun c => (lateRedelivery c).session (referencePlatform fun _ => [])).play
    earlyRedelivery

theorem queue_of_active_subscriptions_sample :
    (earlyRedeliveryRun.committed.deliveries.map fun d => isQueued d) = [true, true] ∧
      ∀ d ∈ earlyRedeliveryRun.committed.deliveries, isQueued d = true →
        ∀ s ∈ earlyRedeliveryRun.committed.subscriptions, s.subscriptionId = d.subscriptionId →
          s.status ≠ .disabled :=
  ⟨by decide +kernel, (queue_of_active_subscriptions (referencePlatform fun _ => []) sampleOutbox
    rfl (by unfold UniqueKey; decide) lateRedelivery earlyRedeliveryRun
    (play_permitted _ _ earlyRedelivery (by decide +kernel))).1⟩

end DecAustrum
