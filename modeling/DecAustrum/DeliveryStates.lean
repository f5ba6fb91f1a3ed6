import DecAustrum.Reference
import DecAustrum.Storage.WebhookEffects

/-!
# The states of a delivery

What every webhook delivery satisfies in every database that the calls of the repository reach,
in any order and with any clock.
-/
namespace DecAustrum

open Python Transaction Table WebhookRepository

/-! ## Calls -/

/-- A call of the repository that writes deliveries. Each call is one step. -/
inductive DeliveryCall where
  | insertEvent (event : WebhookEvent)
  | claim (now : UtcDatetime) (limit : Nat) (leaseSeconds : Int)
  | record (baseRetrySeconds maxRetrySeconds : Int) (projectId deliveryId : Uuid)
      (attemptedAt completedAt : UtcDatetime) (outcome : WebhookDeliveryOutcome)
      (statusCode : Option Int) (error : Option Str)
  | cancel (projectId deliveryId : Uuid) (cancelledAt : UtcDatetime) (reason : Str)
  | redeliver (projectId deliveryId : Uuid) (requestedAt : UtcDatetime)
  | disable (projectId subscriptionId : Uuid) (disabledAt : UtcDatetime)

section

variable (platform : Platform) (maxAttempts : Nat)

def DeliveryCall.session : DeliveryCall → Session Database Uuid Unit StoreExc Unit
  | .insertEvent event => do
    let _ ← Session.within (insertEventWithDeliveries platform event)
  | .claim now limit leaseSeconds => do
    let _ ← claimDueDeliveries now limit leaseSeconds
  | .record base max projectId deliveryId attemptedAt completedAt outcome statusCode error => do
    let _ ← recordDeliveryResult ⟨maxAttempts, base, max⟩ projectId deliveryId attemptedAt
      completedAt outcome statusCode error
  | .cancel projectId deliveryId cancelledAt reason => do
    let _ ← cancelProcessingDelivery projectId deliveryId cancelledAt reason
  | .redeliver projectId deliveryId requestedAt => do
    let _ ← Session.within (requestRedeliveryWithConnection projectId deliveryId requestedAt)
  | .disable projectId subscriptionId disabledAt => do
    let _ ← Session.within (disableSubscriptionWithConnection projectId subscriptionId disabledAt)

/-- The database a call leaves. -/
def DeliveryCall.apply (call : DeliveryCall) (draws : ℕ → ℕ → Uuid) (db : Database) : Database :=
  ((call.session platform maxAttempts).run draws (fun _ => ()) db).2

/-- The databases that calls reach from one without deliveries. Anything else may change the
other tables in between. -/
inductive DeliveryRun : List DeliveryCall → Database → Prop where
  | start (db : Database) (deliveries : db.deliveries = []) (attempts : db.attempts = []) :
      DeliveryRun [] db
  | call {calls : List DeliveryCall} {db : Database} (before : DeliveryRun calls db)
      (call : DeliveryCall) (draws : ℕ → ℕ → Uuid) :
      DeliveryRun (calls ++ [call]) (call.apply platform maxAttempts draws db)
  | other {calls : List DeliveryCall} {db : Database} (before : DeliveryRun calls db)
      (db' : Database) (deliveries : db'.deliveries = db.deliveries)
      (attempts : db'.attempts = db.attempts) : DeliveryRun calls db'

end

/-! ## The invariant -/

/-- The retry of a delivery follows from a recorded call. -/
def ScheduledBy (calls : List DeliveryCall) (d : WebhookDelivery) : Prop :=
  ∃ base max attemptedAt last next outcome statusCode error,
    .record base max d.projectId d.deliveryId attemptedAt last outcome statusCode error ∈ calls ∧
      d.lastAttemptAt = some last ∧ d.nextAttemptAt = some next ∧
      last.addSeconds (min (base * 2 ^ (d.failureCount - 1)) max) = some next

structure WellFormedDelivery (maxAttempts : Nat) (calls : List DeliveryCall)
    (attempts : List WebhookDeliveryAttempt) (d : WebhookDelivery) : Prop where
  queued : isQueued d = true → d.nextAttemptAt.isSome ∧ d.leaseExpiresAt = none
  leased : d.status = .processing → d.leaseExpiresAt.isSome
  delivered : d.status = .delivered → d.deliveredAt.isSome ∧ d.failureCount = 0
  dead : d.status = .deadLetter → d.failureCount = maxAttempts
  cancelled : d.status = .cancelled → d.nextAttemptAt = none ∧ d.leaseExpiresAt = none
  numbered : (attempts.filter fun a => a.deliveryId = d.deliveryId).map (·.attemptNumber) =
    List.range' 1 d.attemptCount
  counted : d.status ≠ .delivered → d.status ≠ .cancelled →
    d.attemptCount = maxAttempts * d.redeliveryCount + d.failureCount
  retried : d.status = .retryScheduled →
    1 ≤ d.failureCount ∧ d.failureCount < maxAttempts ∧ ScheduledBy calls d
  unexhausted : d.status = .pending ∨ d.status = .processing → d.failureCount < maxAttempts

structure DeliveryStates (maxAttempts : Nat) (calls : List DeliveryCall) (db : Database) : Prop where
  keys : UniqueKey (fun d => some d.deliveryId) db.deliveries
  known : ∀ a ∈ db.attempts, ∃ d ∈ db.deliveries, d.deliveryId = a.deliveryId
  deliveries : ∀ d ∈ db.deliveries, WellFormedDelivery maxAttempts calls db.attempts d

variable {platform : Platform} {maxAttempts : Nat} {calls : List DeliveryCall} {db db' : Database}

theorem WellFormedDelivery.mono {attempts : List WebhookDeliveryAttempt} {d : WebhookDelivery}
    (well : WellFormedDelivery maxAttempts calls attempts d) (call : DeliveryCall) :
    WellFormedDelivery maxAttempts (calls ++ [call]) attempts d where
  queued := well.queued
  leased := well.leased
  delivered := well.delivered
  dead := well.dead
  cancelled := well.cancelled
  numbered := well.numbered
  counted := well.counted
  retried retry := by
    obtain ⟨positive, below, base, max, attemptedAt, last, next, outcome, statusCode, error, member,
      scheduled⟩ := well.retried retry
    exact ⟨positive, below, base, max, attemptedAt, last, next, outcome, statusCode, error,
      List.mem_append_left _ member, scheduled⟩
  unexhausted := well.unexhausted

theorem DeliveryStates.mono (states : DeliveryStates maxAttempts calls db) (call : DeliveryCall) :
    DeliveryStates maxAttempts (calls ++ [call]) db :=
  ⟨states.keys, states.known, fun d member => (states.deliveries d member).mono call⟩

theorem DeliveryStates.of_same (states : DeliveryStates maxAttempts calls db)
    (deliveries : db'.deliveries = db.deliveries) (attempts : db'.attempts = db.attempts) :
    DeliveryStates maxAttempts calls db' :=
  ⟨deliveries ▸ states.keys, by rw [attempts, deliveries]; exact states.known,
    by rw [attempts, deliveries]; exact states.deliveries⟩

/-- An update of deliveries keeps the states if it keeps each row it changes well formed. -/
theorem DeliveryStates.update (states : DeliveryStates maxAttempts calls db)
    (p : WebhookDelivery → Bool) (f : WebhookDelivery → WebhookDelivery)
    (kept : ∀ d, (f d).deliveryId = d.deliveryId)
    (well : ∀ d ∈ db.deliveries, p d = true → WellFormedDelivery maxAttempts calls db.attempts d →
      WellFormedDelivery maxAttempts calls db.attempts (f d)) :
    DeliveryStates maxAttempts calls
      { db with deliveries := updateWhere p f db.deliveries } where
  keys := (uniqueKey_updateWhere fun d _ _ => by simp [kept]).mpr states.keys
  known a member := by
    obtain ⟨d, inRows, same⟩ := states.known a member
    by_cases hit : p d = true
    · exact ⟨f d, mem_updateWhere.mpr ⟨d, inRows, .inl ⟨hit, rfl⟩⟩, (kept d).trans same⟩
    · exact ⟨d, mem_updateWhere.mpr ⟨d, inRows, .inr ⟨by simpa using hit, rfl⟩⟩, same⟩
  deliveries d member := by
    obtain ⟨old, inRows, ⟨hit, rfl⟩ | ⟨-, rfl⟩⟩ := mem_updateWhere.mp member
    · exact well old inRows hit (states.deliveries old inRows)
    · exact states.deliveries d inRows

/-! ## One row -/

section Rows

variable {attempts : List WebhookDeliveryAttempt} {d : WebhookDelivery}

theorem well_cancelled (well : WellFormedDelivery maxAttempts calls attempts d) (reason : Str)
    (cancelledAt : UtcDatetime) :
    WellFormedDelivery maxAttempts calls attempts (cancelledDelivery reason cancelledAt d) where
  queued h := by simp [isQueued, cancelledDelivery] at h
  leased h := by cases h
  delivered h := by cases h
  dead h := by cases h
  cancelled _ := ⟨rfl, rfl⟩
  numbered := well.numbered
  counted _ h := absurd rfl h
  retried h := by cases h
  unexhausted h := by rcases h with h | h <;> cases h

theorem well_claimed (well : WellFormedDelivery maxAttempts calls attempts d)
    (active : isQueued d = true ∨ d.status = .processing) (lease now : UtcDatetime) :
    WellFormedDelivery maxAttempts calls attempts (claimedDelivery lease now d) := by
  have status : d.status = .pending ∨ d.status = .retryScheduled ∨ d.status = .processing := by
    rcases active with queued | processing
    · simp only [isQueued, Bool.or_eq_true, decide_eq_true_eq] at queued
      rcases queued with pending | retry
      · exact .inl pending
      · exact .inr (.inl retry)
    · exact .inr (.inr processing)
  refine ⟨?_, fun _ => rfl, ?_, ?_, ?_, well.numbered, ?_, ?_, ?_⟩
  · intro h
    simp [isQueued, claimedDelivery] at h
  · intro h
    cases h
  · intro h
    cases h
  · intro h
    cases h
  · intro _ _
    rcases status with h | h | h <;> exact well.counted (by simp [h]) (by simp [h])
  · intro h
    cases h
  · intro _
    rcases status with h | h | h
    · exact well.unexhausted (.inl h)
    · exact (well.retried h).2.1
    · exact well.unexhausted (.inr h)

theorem well_redelivery (positive : 1 ≤ maxAttempts)
    (well : WellFormedDelivery maxAttempts calls attempts d) (dead : d.status = .deadLetter)
    (requestedAt : UtcDatetime) :
    WellFormedDelivery maxAttempts calls attempts (redelivery requestedAt d) where
  queued _ := ⟨rfl, rfl⟩
  leased h := by cases h
  delivered h := by cases h
  dead h := by cases h
  cancelled h := by cases h
  numbered := well.numbered
  counted _ _ := by
    -- a dead letter has used up its attempts, so a redelivery starts a full round
    have counted := well.counted (by simp [dead]) (by simp [dead])
    have exhausted := well.dead dead
    simp only [redelivery, Nat.mul_add, Nat.mul_one, Nat.add_zero]
    omega
  retried h := by cases h
  unexhausted _ := positive

theorem well_pending (positive : 1 ≤ maxAttempts) (deliveryId : Uuid) (event : WebhookEvent)
    (subscription : WebhookSubscription)
    (unattempted : ∀ a ∈ attempts, a.deliveryId ≠ deliveryId) :
    WellFormedDelivery maxAttempts calls attempts (pendingDelivery deliveryId event subscription) where
  queued _ := ⟨rfl, rfl⟩
  leased h := by cases h
  delivered h := by cases h
  dead h := by cases h
  cancelled h := by cases h
  numbered := by
    have none : attempts.filter (fun a => decide (a.deliveryId = deliveryId)) = [] := by
      rw [List.filter_eq_nil_iff]
      simpa using unattempted
    change (attempts.filter fun a => decide (a.deliveryId = deliveryId)).map _ = List.range' 1 0
    rw [none]
    rfl
  counted _ _ := by simp [pendingDelivery]
  retried h := by cases h
  unexhausted _ := positive

end Rows

/-! ## One call -/

section Calls

variable {draws rest : ℕ → Uuid}

theorem states_insertEvent (positive : 1 ≤ maxAttempts)
    (states : DeliveryStates maxAttempts calls db) {event : WebhookEvent}
    {deliveries : List WebhookDelivery}
    (ran : (insertEventWithDeliveries platform event).exec draws db = .ok (deliveries, rest, db')) :
    DeliveryStates maxAttempts calls db' := by
  obtain ⟨-, payload, added, -, delivers, fresh, rfl⟩ := insertEventWithDeliveries_ok ran
  refine ⟨fresh.keys states.keys, ?_, ?_⟩
  · intro a member
    obtain ⟨d, inRows, same⟩ := states.known a member
    exact ⟨d, List.mem_append_left _ inRows, same⟩
  · intro d member
    rcases List.mem_append.mp member with old | new
    · exact states.deliveries d old
    · obtain ⟨subscription, -, -, deliveryId, rfl⟩ := delivers.mem new
      apply well_pending positive
      -- an attempt names an old delivery, and the new one has a fresh key
      intro a inAttempts same
      obtain ⟨other, inRows, known⟩ := states.known a inAttempts
      exact fresh.fresh _ new other inRows (known.trans same)

theorem states_cancelEnded (states : DeliveryStates maxAttempts calls db) (now : UtcDatetime) :
    DeliveryStates maxAttempts calls (db.cancelEnded now) :=
  states.update _ _ (fun _ => rfl) fun _ _ _ well => well_cancelled well _ _

theorem states_claim (states : DeliveryStates maxAttempts calls db) (now lease : UtcDatetime)
    (limit : Nat) {claimed : List WebhookDelivery}
    (ran : (claimBody now lease limit).exec draws db = .ok (claimed, rest, db')) :
    DeliveryStates maxAttempts calls db' := by
  rw [exec_claimBody] at ran
  split at ran
  · cases ran
    exact states_cancelEnded states now
  · cases ran
    have between := states_cancelEnded states now
    refine between.update _ _ (fun _ => rfl) fun d member chosen well => ?_
    obtain ⟨due, inRows, same, -, isDue⟩ := mem_dueDeliveries (by simpa using chosen)
    obtain rfl : due = d := between.keys.eq inRows member (by rw [same]) rfl
    apply well_claimed well
    simp only [DecAustrum.WebhookRepository.isDue, leaseEnded, Bool.or_eq_true, Bool.and_eq_true,
      decide_eq_true_eq] at isDue
    rcases isDue with ⟨queued, -⟩ | ⟨processing, -⟩
    · exact .inl queued
    · exact .inr processing

/-- A claim leaves alone what is in processing under a lease that has not ended. -/
theorem leased_claim (states : DeliveryStates maxAttempts calls db) (now lease : UtcDatetime)
    (limit : Nat) {claimed : List WebhookDelivery}
    (ran : (claimBody now lease limit).exec draws db = .ok (claimed, rest, db'))
    {d : WebhookDelivery} (member : d ∈ db.deliveries) (processing : d.status = .processing)
    (leased : ∀ l ∈ d.leaseExpiresAt, now < l) :
    d ∈ db'.deliveries ∧ ∀ c ∈ claimed, c.deliveryId ≠ d.deliveryId := by
  have notEnded : leaseEnded now d = false := by
    simp only [leaseEnded, Bool.and_eq_false_iff, Option.any_eq_false, decide_eq_false_iff_not]
    exact .inr fun l isLease => (UtcDatetime.not_le l now).mpr (leased l isLease)
  have kept : d ∈ (db.cancelEnded now).deliveries :=
    mem_updateWhere.mpr ⟨d, member, .inr ⟨by simp [notEnded], rfl⟩⟩
  have between := states_cancelEnded states now
  -- whatever is selected is due, and `d` is not
  have skipped : d.deliveryId ∉ dueDeliveries now limit (db.cancelEnded now) := by
    intro chosen
    obtain ⟨due, inRows, same, -, isDue⟩ := mem_dueDeliveries chosen
    obtain rfl : due = d := between.keys.eq inRows kept (by rw [same]) rfl
    simp [DecAustrum.WebhookRepository.isDue, notEnded, isQueued, processing] at isDue
  rw [exec_claimBody] at ran
  split at ran
  · cases ran
    exact ⟨kept, by simp⟩
  · cases ran
    refine ⟨mem_updateWhere.mpr ⟨d, kept, .inr ⟨by simpa using skipped, rfl⟩⟩, ?_⟩
    intro c inClaimed same
    rw [List.mem_insertionSort, List.mem_filter] at inClaimed
    exact skipped (by simpa [same] using inClaimed.2)

theorem states_cancel (states : DeliveryStates maxAttempts calls db) (projectId deliveryId : Uuid)
    (cancelledAt : UtcDatetime) (reason : Str) {cancelled : Option WebhookDelivery}
    (ran : (cancelBody projectId deliveryId cancelledAt reason).exec draws db =
      .ok (cancelled, rest, db')) : DeliveryStates maxAttempts calls db' := by
  rw [exec_cancelBody] at ran
  cases ran
  exact states.update _ _ (fun _ => rfl) fun _ _ _ well => well_cancelled well _ _

theorem states_disable (states : DeliveryStates maxAttempts calls db)
    (projectId subscriptionId : Uuid) (disabledAt : UtcDatetime) {s : WebhookSubscription}
    (ran : (disableSubscriptionWithConnection projectId subscriptionId disabledAt).exec draws db =
      .ok (s, rest, db')) : DeliveryStates maxAttempts calls db' := by
  obtain ⟨current, -, ⟨-, -, rfl⟩ | ⟨-, rfl, -⟩⟩ := disableSubscription_ok ran
  · exact states
  · have updated : DeliveryStates maxAttempts calls
        { db with deliveries := _ } := states.update
      (fun d => d.projectId = projectId && d.subscriptionId = subscriptionId && isQueued d)
      (cancelledDelivery subscriptionDisabledError disabledAt) (fun _ => rfl)
      fun _ _ _ well => well_cancelled well _ _
    exact updated.of_same rfl rfl

theorem states_redeliver (positive : 1 ≤ maxAttempts)
    (states : DeliveryStates maxAttempts calls db) (projectId deliveryId : Uuid)
    (requestedAt : UtcDatetime) {d : WebhookDelivery}
    (ran : (requestRedeliveryWithConnection projectId deliveryId requestedAt).exec draws db =
      .ok (d, rest, db')) : DeliveryStates maxAttempts calls db' := by
  obtain ⟨current, s, -, -, -, -, rfl, -⟩ := requestRedelivery_ok ran
  refine states.update _ _ (fun _ => rfl) fun d _ chosen well => ?_
  simp only [Bool.and_eq_true, decide_eq_true_eq] at chosen
  exact well_redelivery positive well chosen.2 requestedAt

/-- The attempts of one delivery, one more of which is recorded. -/
theorem well_attempted {attempts : List WebhookDeliveryAttempt} {d : WebhookDelivery}
    (well : WellFormedDelivery maxAttempts calls attempts d) (processing : d.status = .processing)
    {base max : Int} {attemptId : Uuid} {attemptedAt completedAt : UtcDatetime}
    {outcome : WebhookDeliveryOutcome} {statusCode : Option Int} {error : Option Str}
    {result : DeliveryResult}
    (decided : Decided ⟨maxAttempts, base, max⟩ db d.projectId d completedAt outcome result) :
    WellFormedDelivery maxAttempts
      (calls ++ [.record base max d.projectId d.deliveryId attemptedAt completedAt outcome statusCode
        error])
      (attempts ++ [attemptOf attemptId d attemptedAt completedAt outcome statusCode error])
      (attemptedDelivery result (d.attemptCount + 1) completedAt statusCode
        (error.map (·.take 1000)) d) := by
  have numbered : ((attempts ++ [attemptOf attemptId d attemptedAt completedAt outcome statusCode
      error]).filter fun a => a.deliveryId = d.deliveryId).map (·.attemptNumber) =
      List.range' 1 (d.attemptCount + 1) := by
    rw [List.filter_append, List.map_append, well.numbered, List.range'_concat]
    simp [attemptOf, Nat.add_comm]
  have counted := well.counted (by simp [processing]) (by simp [processing])
  have unexhausted := well.unexhausted (.inr processing)
  cases decided with
  | success =>
    refine ⟨?_, ?_, fun _ => ⟨rfl, rfl⟩, ?_, ?_, numbered, fun h => absurd rfl h, ?_, ?_⟩
    · intro h
      simp [isQueued, attemptedDelivery] at h
    · intro h
      cases h
    · intro h
      cases h
    · intro h
      cases h
    · intro h
      cases h
    · intro h
      rcases h with h | h <;> cases h
  | cancelled _ failed disabled =>
    refine ⟨?_, ?_, ?_, ?_, fun _ => ⟨rfl, rfl⟩, numbered, fun _ h => absurd rfl h, ?_, ?_⟩
    · intro h
      simp [isQueued, attemptedDelivery] at h
    · intro h
      cases h
    · intro h
      cases h
    · intro h
      cases h
    · intro h
      cases h
    · intro h
      rcases h with h | h <;> cases h
  | dead _ failed exhausted =>
    simp only at exhausted
    refine ⟨?_, ?_, ?_, ?_, ?_, numbered, ?_, ?_, ?_⟩
    · intro h
      simp [isQueued, attemptedDelivery] at h
    · intro h
      cases h
    · intro h
      cases h
    · intro _
      simp only [attemptedDelivery]
      omega
    · intro h
      cases h
    · intro _ _
      simp only [attemptedDelivery]
      omega
    · intro h
      cases h
    · intro h
      rcases h with h | h <;> cases h
  | retry _ failed s active below next scheduled =>
    simp only at below
    refine ⟨fun _ => ⟨rfl, rfl⟩, ?_, ?_, ?_, ?_, numbered, ?_, ?_, ?_⟩
    · intro h
      cases h
    · intro h
      cases h
    · intro h
      cases h
    · intro h
      cases h
    · intro _ _
      simp only [attemptedDelivery]
      omega
    · intro _
      refine ⟨Nat.succ_pos _, below, base, max, attemptedAt, completedAt, next, outcome, statusCode,
        error, List.mem_append_right _ (List.mem_singleton_self _), rfl, rfl, scheduled⟩
    · intro h
      rcases h with h | h <;> cases h

theorem states_record (states : DeliveryStates maxAttempts calls db) (base max : Int)
    (projectId deliveryId : Uuid) (attemptedAt completedAt : UtcDatetime)
    (outcome : WebhookDeliveryOutcome) (statusCode : Option Int) (error : Option Str)
    {updated : Option WebhookDelivery}
    (ran : (recordBody ⟨maxAttempts, base, max⟩ projectId deliveryId attemptedAt completedAt outcome
      statusCode error).exec draws db = .ok (updated, rest, db')) :
    DeliveryStates maxAttempts (calls ++ [.record base max projectId deliveryId attemptedAt completedAt
      outcome statusCode error]) db' := by
  obtain ⟨current, attemptId, result, found, processing, -, decided, rfl, -⟩ := recordBody_ok ran
  have inRows := List.mem_of_find?_eq_some found
  have owned := List.find?_some found
  simp only [deliveryIs, Bool.and_eq_true, decide_eq_true_eq] at owned
  obtain ⟨rfl, rfl⟩ := owned
  -- the update reaches the one row with the key
  have only : ∀ d ∈ db.deliveries, (deliveryIs current.projectId current.deliveryId d &&
      d.status = .processing) = true → d = current := by
    intro d member chosen
    simp only [deliveryIs, Bool.and_eq_true, decide_eq_true_eq] at chosen
    exact states.keys.eq member inRows (by rw [chosen.1.2]) rfl
  refine ⟨?_, ?_, ?_⟩
  · refine (uniqueKey_updateWhere ?_).mpr states.keys
    intro d _ _
    rfl
  · intro a member
    have known : ∃ d ∈ db.deliveries, d.deliveryId = a.deliveryId := by
      rcases List.mem_append.mp member with old | new
      · exact states.known a old
      · rw [List.mem_singleton.mp new]
        exact ⟨current, inRows, rfl⟩
    obtain ⟨d, inOld, same⟩ := known
    by_cases chosen : (deliveryIs current.projectId current.deliveryId d &&
        d.status = .processing) = true
    · exact ⟨_, mem_updateWhere.mpr ⟨d, inOld, .inl ⟨chosen, rfl⟩⟩, same⟩
    · exact ⟨d, mem_updateWhere.mpr ⟨d, inOld, .inr ⟨by simpa using chosen, rfl⟩⟩, same⟩
  · intro d member
    obtain ⟨old, inOld, ⟨chosen, rfl⟩ | ⟨skipped, rfl⟩⟩ := mem_updateWhere.mp member
    · obtain rfl := only old inOld chosen
      exact well_attempted (states.deliveries old inOld) processing decided
    · have apart : d.deliveryId ≠ current.deliveryId := by
        intro same
        obtain rfl := states.keys.eq inOld inRows (by rw [same]) rfl
        simp [deliveryIs, processing] at skipped
      have well := (states.deliveries d inOld).mono (.record base max current.projectId
        current.deliveryId attemptedAt completedAt outcome statusCode error)
      have numbered := well.numbered
      refine { well with numbered := ?_ }
      rw [List.filter_append, List.map_append, numbered]
      simp [attemptOf, Ne.symm apart]

/-- A call whose body is one connection. -/
private theorem states_within {α : Type} (states : DeliveryStates maxAttempts calls db)
    (call : DeliveryCall) (body : Body α) (after : α → Session Database Uuid Unit StoreExc Unit)
    (session : call.session platform maxAttempts = Session.within body >>= after)
    (silent : ∀ a draws answers t, ((after a).run draws answers t).2 = t)
    (draws : ℕ → ℕ → Uuid)
    (kept : ∀ a rest db', body.exec (draws 0) db = .ok (a, rest, db') →
      DeliveryStates maxAttempts (calls ++ [call]) db') :
    DeliveryStates maxAttempts (calls ++ [call]) (call.apply platform maxAttempts draws db) := by
  unfold DeliveryCall.apply
  rw [session, Session.run_within]
  cases ran : body.exec (draws 0) db with
  | ok r =>
    obtain ⟨a, rest, db'⟩ := r
    simpa [silent] using kept a rest db' ran
  | error exc => exact states.mono call

private theorem silent_orNotFound (projectId deliveryId : Uuid) (d : Option WebhookDelivery)
    (draws : ℕ → ℕ → Uuid) (answers : ℕ → Unit) (t : Database) :
    ((do let _ ← orNotFound projectId deliveryId d; pure () :
      Session Database Uuid Unit StoreExc Unit).run draws answers t).2 = t := by
  cases d <;> rfl

theorem states_apply (positive : 1 ≤ maxAttempts) (states : DeliveryStates maxAttempts calls db)
    (call : DeliveryCall) (draws : ℕ → ℕ → Uuid) :
    DeliveryStates maxAttempts (calls ++ [call]) (call.apply platform maxAttempts draws db) := by
  cases call with
  | insertEvent event =>
    exact states_within states _ _ (fun _ => pure ()) rfl (fun _ _ _ _ => rfl) draws
      fun _ _ _ ran => (states_insertEvent positive states ran).mono _
  | claim now limit leaseSeconds =>
    cases added : now.addSeconds leaseSeconds with
    | none =>
      have overflow : (DeliveryCall.claim now limit leaseSeconds).session platform maxAttempts =
          Session.raise (.python .overflowError) := by
        simp [DeliveryCall.session, claimDueDeliveries, added]
      simpa [DeliveryCall.apply, overflow] using states.mono (.claim now limit leaseSeconds)
    | some lease =>
      refine states_within states _ (claimBody now lease limit) (fun _ => pure ()) ?_
        (fun _ _ _ _ => rfl) draws fun _ _ _ ran => (states_claim states now lease limit ran).mono _
      simp [DeliveryCall.session, claimDueDeliveries, added]
  | record base max projectId deliveryId attemptedAt completedAt outcome statusCode error =>
    refine states_within states _ _ (fun d => do
        let _ ← orNotFound projectId deliveryId d
        pure ()) ?_ (silent_orNotFound projectId deliveryId) draws
      fun _ _ _ ran => states_record states base max projectId deliveryId attemptedAt completedAt
        outcome statusCode error ran
    simp only [DeliveryCall.session, recordDeliveryResult, bind_assoc]
  | cancel projectId deliveryId cancelledAt reason =>
    refine states_within states _ _ (fun d => do
        let _ ← orNotFound projectId deliveryId d
        pure ()) ?_ (silent_orNotFound projectId deliveryId) draws
      fun _ _ _ ran => (states_cancel states projectId deliveryId cancelledAt reason ran).mono _
    simp only [DeliveryCall.session, cancelProcessingDelivery, bind_assoc]
  | redeliver projectId deliveryId requestedAt =>
    exact states_within states _ _ (fun _ => pure ()) rfl (fun _ _ _ _ => rfl) draws
      fun _ _ _ ran => (states_redeliver positive states projectId deliveryId requestedAt ran).mono _
  | disable projectId subscriptionId disabledAt =>
    exact states_within states _ _ (fun _ => pure ()) rfl (fun _ _ _ _ => rfl) draws
      fun _ _ _ ran => (states_disable states projectId subscriptionId disabledAt ran).mono _

theorem states_run (positive : 1 ≤ maxAttempts) (run : DeliveryRun platform maxAttempts calls db) :
    DeliveryStates maxAttempts calls db := by
  induction run with
  | start db deliveries attempts =>
    refine ⟨?_, ?_, ?_⟩
    · rw [deliveries]
      exact uniqueKey_nil
    · simp [attempts]
    · simp [deliveries]
  | call before call draws ih => exact states_apply positive ih call draws
  | other before db' deliveries attempts ih => exact ih.of_same deliveries attempts

end Calls

/-- Every delivery is well formed in every database the calls reach, and a claim never takes a
delivery whose lease has not ended. -/
theorem delivery_state_machine (platform : Platform) (maxAttempts : Nat)
    (positive : 1 ≤ maxAttempts) (calls : List DeliveryCall) (db : Database)
    (run : DeliveryRun platform maxAttempts calls db) :
    (∀ d ∈ db.deliveries, WellFormedDelivery maxAttempts calls db.attempts d) ∧
      ∀ (now : UtcDatetime) (limit : Nat) (leaseSeconds : Int) (draws : ℕ → ℕ → Uuid)
        (claimed : List WebhookDelivery) (db' : Database),
        (claimDueDeliveries now limit leaseSeconds).run draws (fun _ => ()) db = (.ok claimed, db') →
        ∀ d ∈ db.deliveries, d.status = .processing → (∀ lease ∈ d.leaseExpiresAt, now < lease) →
          d ∈ db'.deliveries ∧ ∀ c ∈ claimed, c.deliveryId ≠ d.deliveryId := by
  have states := states_run positive run
  refine ⟨states.deliveries, ?_⟩
  intro now limit leaseSeconds draws claimed db' ran d member processing leased
  unfold claimDueDeliveries at ran
  split at ran
  · cases ran
  · rename_i lease added
    simp only [Session.within, Session.run] at ran
    cases result : (claimBody now lease limit).exec (draws 0) db with
    | ok r =>
      obtain ⟨a, rest, after⟩ := r
      rw [result] at ran
      cases ran
      exact leased_claim states now lease limit result member processing leased
    | error exc =>
      rw [result] at ran
      cases ran

/-! ## A sample -/

/-- A minute of one hour. -/
def sampleTime (minute : Nat) : UtcDatetime :=
  ⟨⟨2025, 1, 2, 3, minute % 60, 0, 0, some 0, sampleDate_valid,
    ⟨by decide, Nat.mod_lt _ (by decide), by decide, by decide⟩, utcOffset_valid⟩, rfl⟩

/-- A project with one subscription that selects every event. -/
def sampleOutbox : Database :=
  { Database.empty with
    projects := [⟨⟨1⟩, [0x50], .active, sampleTime 0, sampleTime 0⟩]
    subscriptions := [⟨⟨2⟩, ⟨1⟩, [0x75], [.all], .active, 1, sampleTime 0,
      sampleTime 0, none⟩] }

def sampleEvent : WebhookEvent :=
  ⟨⟨3⟩, ⟨1⟩, .projectCreated, sampleTime 1, .project, [0x31], [], by decide⟩

/-- The event is claimed, and its endpoint fails. -/
def sampleDeliveryCalls : List DeliveryCall :=
  [.insertEvent sampleEvent, .claim (sampleTime 2) 5 30,
    .record 10 60 ⟨1⟩ ⟨4⟩ (sampleTime 2) (sampleTime 3) .networkError none none]

def sampleDeliveryRun : Database :=
  sampleDeliveryCalls.foldl
    (fun db call => call.apply (referencePlatform fun _ => []) 2 (fun _ _ => ⟨4⟩) db) sampleOutbox

theorem delivery_state_machine_sample :
    sampleDeliveryRun.deliveries.map (·.status) = [.retryScheduled] ∧
      ∀ d ∈ sampleDeliveryRun.deliveries,
        WellFormedDelivery 2 sampleDeliveryCalls sampleDeliveryRun.attempts d := by
  refine ⟨by decide +kernel, ?_⟩
  have run : DeliveryRun (referencePlatform fun _ => []) 2 sampleDeliveryCalls sampleDeliveryRun :=
    .call (.call (.call (.start sampleOutbox rfl rfl) _ _) _ _) _ _
  exact (delivery_state_machine _ 2 (by decide) sampleDeliveryCalls _ run).1

end DecAustrum
