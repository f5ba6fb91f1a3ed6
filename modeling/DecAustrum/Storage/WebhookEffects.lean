import DecAustrum.Storage.OutboxEffects
import DecAustrum.Storage.Webhooks

/-!
# What the webhook calls leave

One lemma for each call: the rows it changes and what it returns when it does not raise.
-/
namespace DecAustrum

open Python Transaction Table WebhookRepository

variable {draws rest : ℕ → Uuid} {db db' : Database}

/-! ## Subscriptions -/

/-- The database after the two updates of a disable. -/
def Database.disableSubscription (db : Database) (projectId subscriptionId : Uuid)
    (disabledAt : UtcDatetime) : Database :=
  { db with
    subscriptions := updateWhere
      (fun s => subscriptionIs projectId subscriptionId s && s.status = .active)
      (disabledSubscription disabledAt) db.subscriptions
    deliveries := updateWhere
      (fun d => d.projectId = projectId && d.subscriptionId = subscriptionId && isQueued d)
      (cancelledDelivery subscriptionDisabledError disabledAt) db.deliveries }

theorem exec_disableRows (projectId subscriptionId : Uuid) (disabledAt : UtcDatetime) :
    (disableRows projectId subscriptionId disabledAt).exec draws db =
      .ok ((), draws, db.disableSubscription projectId subscriptionId disabledAt) := by
  rw [disableRows, exec_updateRows_bind, exec_updateRows]
  rfl

theorem disableSubscription_ok {projectId subscriptionId : Uuid} {disabledAt : UtcDatetime}
    {s : WebhookSubscription}
    (ran : (disableSubscriptionWithConnection projectId subscriptionId disabledAt).exec draws db =
      .ok (s, rest, db')) :
    ∃ current, db.subscriptions.find? (subscriptionIs projectId subscriptionId) = some current ∧
      ((current.status = .disabled ∧ s = current ∧ db' = db) ∨
        (current.status = .active ∧ db' = db.disableSubscription projectId subscriptionId disabledAt ∧
          db'.subscriptions.find? (subscriptionIs projectId subscriptionId) = some s)) := by
  unfold disableSubscriptionWithConnection getSubscriptionWithConnection at ran
  rw [exec_query_bind] at ran
  split at ran
  · cases ran
  · rename_i current found
    refine ⟨current, found, ?_⟩
    split at ran
    · rename_i disabled
      cases ran
      exact .inl ⟨disabled, rfl, rfl⟩
    · rename_i active
      unfold disableRows at ran
      rw [bind_assoc, exec_updateRows_bind, exec_updateRows_bind, exec_query_bind] at ran
      split at ran
      · cases ran
      · rename_i updated refound
        cases ran
        refine .inr ⟨?_, rfl, refound⟩
        cases status : current.status with
        | active => rfl
        | disabled => exact absurd status active

theorem rotateSubscriptionSecret_ok {projectId subscriptionId : Uuid} {rotatedAt : UtcDatetime}
    {s : WebhookSubscription}
    (ran : (rotateSubscriptionSecretWithConnection projectId subscriptionId rotatedAt).exec draws db =
      .ok (s, rest, db')) :
    ∃ current, db.subscriptions.find? (subscriptionIs projectId subscriptionId) = some current ∧
      current.status = .active ∧
      db' = { db with
        subscriptions := updateWhere
          (fun s => subscriptionIs projectId subscriptionId s && s.status = .active)
          (rotatedSubscription rotatedAt) db.subscriptions } ∧
      db'.subscriptions.find? (subscriptionIs projectId subscriptionId) = some s := by
  unfold rotateSubscriptionSecretWithConnection getSubscriptionWithConnection at ran
  rw [exec_query_bind] at ran
  split at ran
  · cases ran
  · rename_i current found
    refine ⟨current, found, ?_⟩
    split at ran
    · cases ran
    · rename_i active
      unfold rotateRows at ran
      rw [exec_updateRows_bind, exec_query_bind] at ran
      split at ran
      · cases ran
      · rename_i updated refound
        cases ran
        exact ⟨by simpa using active, rfl, refound⟩

/-! ## Deliveries -/

/-- The database after the first update of a claim. -/
def Database.cancelEnded (db : Database) (now : UtcDatetime) : Database :=
  { db with
    deliveries := updateWhere (fun d => leaseEnded now d && subscriptionHas .disabled db d)
      (cancelledDelivery subscriptionDisabledError now) db.deliveries }

/-- The database after the second update of a claim. -/
def Database.lease (db : Database) (deliveryIds : List Uuid) (leaseExpiresAt now : UtcDatetime) :
    Database :=
  { db with
    deliveries := updateWhere (fun d => deliveryIds.contains d.deliveryId)
      (claimedDelivery leaseExpiresAt now) db.deliveries }

theorem exec_claimBody (now leaseExpiresAt : UtcDatetime) (limit : Nat) :
    (claimBody now leaseExpiresAt limit).exec draws db =
      if dueDeliveries now limit (db.cancelEnded now) = [] then
        .ok ([], draws, db.cancelEnded now)
      else
        .ok (((db.cancelEnded now).lease (dueDeliveries now limit (db.cancelEnded now))
            leaseExpiresAt now).deliveries.filter (fun d =>
              (dueDeliveries now limit (db.cancelEnded now)).contains d.deliveryId)
              |>.insertionSort createdLe, draws,
          (db.cancelEnded now).lease (dueDeliveries now limit (db.cancelEnded now))
            leaseExpiresAt now) := by
  unfold claimBody beginImmediate
  rw [exec_updateRows_bind, exec_updateRows_bind, exec_query_bind]
  change Block.exec (if dueDeliveries now limit (db.cancelEnded now) = [] then _ else _) _ _ = _
  split
  · rfl
  · rw [exec_updateRows_bind]
    rfl

/-- The deliveries a claim selects are due, and their subscriptions active. -/
theorem mem_dueDeliveries {now : UtcDatetime} {limit : Nat} {deliveryId : Uuid}
    (member : deliveryId ∈ dueDeliveries now limit db) :
    ∃ d ∈ db.deliveries, d.deliveryId = deliveryId ∧ subscriptionHas .active db d = true ∧
      isDue now d = true := by
  obtain ⟨d, inTaken, rfl⟩ := List.mem_map.mp member
  have inSorted := List.mem_of_mem_take inTaken
  rw [List.mem_insertionSort, List.mem_filter, Bool.and_eq_true] at inSorted
  exact ⟨d, inSorted.1, rfl, inSorted.2⟩

theorem exec_cancelBody (projectId deliveryId : Uuid) (cancelledAt : UtcDatetime) (reason : Str) :
    (cancelBody projectId deliveryId cancelledAt reason).exec draws db =
      .ok ((updateWhere (fun d => deliveryIs projectId deliveryId d && d.status = .processing)
          (cancelledDelivery (reason.take 1000) cancelledAt) db.deliveries).find?
            (deliveryIs projectId deliveryId), draws,
        { db with
          deliveries := updateWhere
            (fun d => deliveryIs projectId deliveryId d && d.status = .processing)
            (cancelledDelivery (reason.take 1000) cancelledAt) db.deliveries }) := by
  unfold cancelBody getDeliveryWithConnection
  rw [exec_updateRows_bind, Block.exec_query]

/-- What an attempt that is recorded decides. -/
inductive Decided (policy : RetryPolicy) (db : Database) (projectId : Uuid) (current : WebhookDelivery)
    (completedAt : UtcDatetime) : WebhookDeliveryOutcome → DeliveryResult → Prop where
  | success : Decided policy db projectId current completedAt .success
      ⟨.delivered, 0, none, some completedAt⟩
  | cancelled (outcome : WebhookDeliveryOutcome) (failed : outcome ≠ .success)
      (disabled : ∀ s, db.subscriptions.find? (subscriptionIs projectId current.subscriptionId) =
        some s → s.status = .disabled) :
      Decided policy db projectId current completedAt outcome
        ⟨.cancelled, current.failureCount + 1, none, none⟩
  | dead (outcome : WebhookDeliveryOutcome) (failed : outcome ≠ .success)
      (exhausted : policy.maxAttempts ≤ current.failureCount + 1) :
      Decided policy db projectId current completedAt outcome
        ⟨.deadLetter, current.failureCount + 1, none, none⟩
  | retry (outcome : WebhookDeliveryOutcome) (failed : outcome ≠ .success)
      (s : WebhookSubscription)
      (active : db.subscriptions.find? (subscriptionIs projectId current.subscriptionId) = some s ∧
        s.status = .active)
      (below : current.failureCount + 1 < policy.maxAttempts) (next : UtcDatetime)
      (scheduled : completedAt.addSeconds (policy.retrySeconds (current.failureCount + 1)) =
        some next) :
      Decided policy db projectId current completedAt outcome
        ⟨.retryScheduled, current.failureCount + 1, some next, none⟩

theorem Decided.of_same {policy : RetryPolicy} {projectId : Uuid} {current : WebhookDelivery}
    {completedAt : UtcDatetime} {outcome : WebhookDeliveryOutcome} {result : DeliveryResult}
    (decided : Decided policy db projectId current completedAt outcome result)
    (same : db'.subscriptions = db.subscriptions) :
    Decided policy db' projectId current completedAt outcome result := by
  cases decided with
  | success => exact .success
  | cancelled _ failed disabled => exact .cancelled outcome failed (by rwa [same])
  | dead _ failed exhausted => exact .dead outcome failed exhausted
  | retry _ failed s active below next scheduled =>
    exact .retry outcome failed s (by rwa [same]) below next scheduled

theorem resultOf_ok {policy : RetryPolicy} {projectId : Uuid} {current : WebhookDelivery}
    {completedAt : UtcDatetime} {outcome : WebhookDeliveryOutcome} {result : DeliveryResult}
    (ran : (resultOf policy projectId current completedAt outcome).exec draws db =
      .ok (result, rest, db')) :
    Decided policy db projectId current completedAt outcome result ∧ rest = draws ∧ db' = db := by
  have failure (failed : outcome ≠ .success) (unfolded : (do
      let subscription ← getSubscriptionWithConnection projectId current.subscriptionId
      if subscription.all fun s => s.status = .disabled then
        return ⟨.cancelled, current.failureCount + 1, none, none⟩
      else if policy.maxAttempts ≤ current.failureCount + 1 then
        return ⟨.deadLetter, current.failureCount + 1, none, none⟩
      else do
        let next ← ofPython (orRaise .overflowError
          (completedAt.addSeconds (policy.retrySeconds (current.failureCount + 1))))
        return ⟨.retryScheduled, current.failureCount + 1, some next, none⟩ :
        Body DeliveryResult).exec draws db = .ok (result, rest, db')) :
      Decided policy db projectId current completedAt outcome result ∧ rest = draws ∧ db' = db := by
    unfold getSubscriptionWithConnection at unfolded
    rw [exec_query_bind] at unfolded
    split at unfolded
    · rename_i disabled
      cases unfolded
      refine ⟨.cancelled outcome failed ?_, rfl, rfl⟩
      intro s found
      simpa [found] using disabled
    · rename_i notDisabled
      split at unfolded
      · rename_i exhausted
        cases unfolded
        exact ⟨.dead outcome failed exhausted, rfl, rfl⟩
      · rename_i below
        rw [Block.exec_bind_eq_ok] at unfolded
        obtain ⟨next, draws₁, db₁, added, unfolded⟩ := unfolded
        obtain ⟨scheduled, rfl, rfl⟩ := ofPython_ok added
        cases unfolded
        rw [orRaise_eq_ok] at scheduled
        cases found : db'.subscriptions.find?
            (subscriptionIs projectId current.subscriptionId) with
        | none => simp [found] at notDisabled
        | some s =>
          have active : s.status = .active := by
            cases status : s.status with
            | active => rfl
            | disabled => simp [found, status] at notDisabled
          exact ⟨.retry outcome failed s ⟨found, active⟩ (Nat.lt_of_not_le below) next scheduled,
            rfl, rfl⟩
  cases outcome with
  | success =>
    cases ran
    exact ⟨.success, rfl, rfl⟩
  | httpError => exact failure (by simp) ran
  | networkError => exact failure (by simp) ran

/-- The attempt a recorded result adds. -/
def attemptOf (attemptId : Uuid) (current : WebhookDelivery) (attemptedAt completedAt : UtcDatetime)
    (outcome : WebhookDeliveryOutcome) (statusCode : Option Int) (error : Option Str) :
    WebhookDeliveryAttempt where
  attemptId
  deliveryId := current.deliveryId
  attemptNumber := current.attemptCount + 1
  attemptedAt
  completedAt
  outcome
  statusCode
  error := error.map (·.take 1000)

/-- The delivery as it was read, and the row as it is. They agree where nothing came between. -/
theorem recordAttempt_ok {policy : RetryPolicy} {projectId deliveryId : Uuid}
    {attemptedAt completedAt : UtcDatetime} {outcome : WebhookDeliveryOutcome}
    {statusCode : Option Int} {error : Option Str} {current : WebhookDelivery}
    {updated : Option WebhookDelivery}
    (ran : (recordAttempt policy projectId deliveryId attemptedAt completedAt outcome statusCode
      error current).exec draws db = .ok (updated, rest, db')) :
    ∃ attemptId result, statusCodeAccepted statusCode = true ∧
      Decided policy db projectId current completedAt outcome result ∧
      db' = { db with
        attempts := db.attempts ++
          [attemptOf attemptId { current with deliveryId := deliveryId } attemptedAt completedAt
            outcome statusCode error]
        deliveries := updateWhere
          (fun d => deliveryIs projectId deliveryId d && d.status = .processing)
          (attemptedDelivery result (current.attemptCount + 1) completedAt statusCode
            (error.map (·.take 1000))) db.deliveries } ∧
      updated = db'.deliveries.find? (deliveryIs projectId deliveryId) := by
  unfold recordAttempt getDeliveryWithConnection at ran
  rw [Block.exec_bind_eq_ok] at ran
  obtain ⟨attemptId, draws₁, db₁, drawn, ran⟩ := ran
  cases drawn
  rw [Block.exec_bind_eq_ok] at ran
  obtain ⟨_, draws₂, db₂, inserted, ran⟩ := ran
  rw [insertAttempt, exec_insertRow] at inserted
  split at inserted
  · cases inserted
    rw [Block.exec_bind_eq_ok] at ran
    obtain ⟨result, draws₃, db₃, decided, ran⟩ := ran
    obtain ⟨decision, rfl, rfl⟩ := resultOf_ok decided
    rw [Block.exec_bind_eq_ok] at ran
    obtain ⟨_, draws₄, db₄, written, ran⟩ := ran
    rw [Block.exec_statement] at written
    split at written
    · rename_i codeAccepted
      cases written
      cases ran
      exact ⟨draws 0, result, codeAccepted, decision.of_same rfl, rfl, rfl⟩
    · cases written
  · cases inserted

theorem recordBody_ok {policy : RetryPolicy} {projectId deliveryId : Uuid}
    {attemptedAt completedAt : UtcDatetime} {outcome : WebhookDeliveryOutcome}
    {statusCode : Option Int} {error : Option Str} {updated : Option WebhookDelivery}
    (ran : (recordBody policy projectId deliveryId attemptedAt completedAt outcome statusCode
      error).exec draws db = .ok (updated, rest, db')) :
    ∃ current attemptId result,
      db.deliveries.find? (deliveryIs projectId deliveryId) = some current ∧
      current.status = .processing ∧ statusCodeAccepted statusCode = true ∧
      Decided policy db projectId current completedAt outcome result ∧
      db' = { db with
        attempts := db.attempts ++
          [attemptOf attemptId current attemptedAt completedAt outcome statusCode error]
        deliveries := updateWhere
          (fun d => deliveryIs projectId deliveryId d && d.status = .processing)
          (attemptedDelivery result (current.attemptCount + 1) completedAt statusCode
            (error.map (·.take 1000))) db.deliveries } ∧
      updated = db'.deliveries.find? (deliveryIs projectId deliveryId) := by
  unfold recordBody getDeliveryWithConnection at ran
  rw [exec_query_bind] at ran
  split at ran
  · cases ran
  · rename_i current found
    have owned := List.find?_some found
    simp only [deliveryIs, Bool.and_eq_true, decide_eq_true_eq] at owned
    obtain ⟨-, rfl⟩ := owned
    split at ran
    · cases ran
    · rename_i processing
      obtain ⟨attemptId, result, codeAccepted, decided, left, returned⟩ := recordAttempt_ok ran
      exact ⟨current, attemptId, result, found, by simpa using processing, codeAccepted, decided,
        left, returned⟩

theorem requestRedelivery_ok {projectId deliveryId : Uuid} {requestedAt : UtcDatetime}
    {d : WebhookDelivery}
    (ran : (requestRedeliveryWithConnection projectId deliveryId requestedAt).exec draws db =
      .ok (d, rest, db')) :
    ∃ current s, db.deliveries.find? (deliveryIs projectId deliveryId) = some current ∧
      current.status = .deadLetter ∧
      db.subscriptions.find? (subscriptionIs projectId current.subscriptionId) = some s ∧
      s.status = .active ∧
      db' = { db with
        deliveries := updateWhere
          (fun d => deliveryIs projectId deliveryId d && d.status = .deadLetter)
          (redelivery requestedAt) db.deliveries } ∧
      db'.deliveries.find? (deliveryIs projectId deliveryId) = some d := by
  unfold requestRedeliveryWithConnection getDeliveryWithConnection getSubscriptionWithConnection
    at ran
  rw [exec_query_bind] at ran
  split at ran
  · cases ran
  · rename_i current found
    split at ran
    · cases ran
    · rename_i dead
      rw [exec_query_bind] at ran
      split at ran
      · cases ran
      · rename_i s foundSubscription
        split at ran
        · cases ran
        · rename_i active
          unfold redeliverRows at ran
          rw [exec_updateRows_bind, exec_query_bind] at ran
          split at ran
          · cases ran
          · rename_i updated refound
            cases ran
            exact ⟨current, s, found, by simpa using dead, foundSubscription,
              by simpa using active, rfl, refound⟩

end DecAustrum
