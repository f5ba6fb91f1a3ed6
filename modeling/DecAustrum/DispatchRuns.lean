import DecAustrum.Authentication
import DecAustrum.Consumption
import DecAustrum.QueuedDeliveries
import DecAustrum.Services.Webhooks

/-!
# Dispatchers side by side

Any number of dispatchers and of other calls share the outbox. Whatever the order of their
statements, the attempts of a delivery are numbered without gap or repetition, a success is the
last of them and the only one, and a dispatcher settles each delivery it claimed by one commit.
-/
namespace DecAustrum

open Python Transaction Table WebhookRepository
open Block (keeps_of_exec outside_of_opens ensures_of_exec)

/-! ## Attempts -/

/-- The numbers of the attempts of a delivery. -/
def attemptNumbers (attempts : List WebhookDeliveryAttempt) (deliveryId : Uuid) : List Nat :=
  (attempts.filter fun a => a.deliveryId = deliveryId).map (·.attemptNumber)

/-- An attempt whose delivery is cancelled before it is recorded is not counted. -/
structure Attempted (attempts : List WebhookDeliveryAttempt) (d : WebhookDelivery) : Prop where
  numbered : attemptNumbers attempts d.deliveryId = List.range' 1 d.attemptCount ∨
    d.status = .cancelled ∧
      attemptNumbers attempts d.deliveryId = List.range' 1 (d.attemptCount + 1)
  succeeded : ∀ a ∈ attempts, a.deliveryId = d.deliveryId → a.outcome = .success →
    (d.status = .delivered ∧ a.attemptNumber = d.attemptCount) ∨
      d.status = .cancelled ∧ a.attemptNumber = d.attemptCount + 1
  delivered : d.status = .delivered → ∃ a ∈ attempts, a.deliveryId = d.deliveryId ∧
    a.outcome = .success

structure OutboxAttempts (db : Database) : Prop where
  keys : UniqueKey (fun d => some d.deliveryId) db.deliveries
  known : ∀ a ∈ db.attempts, ∃ d ∈ db.deliveries, d.deliveryId = a.deliveryId
  deliveries : ∀ d ∈ db.deliveries, Attempted db.attempts d

/-- A delivery goes on: a delivered or cancelled one stays, and one in processing is left so or
cancelled unless an attempt is counted. -/
structure GoesOn (d d' : WebhookDelivery) : Prop where
  deliveryId : d'.deliveryId = d.deliveryId
  projectId : d'.projectId = d.projectId
  counted : d.attemptCount ≤ d'.attemptCount
  ended : d.status = .delivered ∨ d.status = .cancelled → d' = d
  processing : d.status = .processing → d'.attemptCount = d.attemptCount →
    d'.status = .processing ∨ d'.status = .cancelled

structure OutboxGrows (s t : Database) : Prop where
  attempts : s.attempts <+: t.attempts
  deliveries : ∀ d ∈ s.deliveries, ∃ d' ∈ t.deliveries, GoesOn d d'

theorem GoesOn.refl (d : WebhookDelivery) : GoesOn d d :=
  ⟨rfl, rfl, Nat.le_refl _, fun _ => rfl, fun processing _ => .inl processing⟩

theorem GoesOn.trans {d₁ d₂ d₃ : WebhookDelivery} (first : GoesOn d₁ d₂) (second : GoesOn d₂ d₃) :
    GoesOn d₁ d₃ where
  deliveryId := second.deliveryId.trans first.deliveryId
  projectId := second.projectId.trans first.projectId
  counted := first.counted.trans second.counted
  ended finished := by
    obtain rfl := first.ended finished
    exact second.ended finished
  processing claimed same := by
    have between := first.counted
    have after := second.counted
    rcases first.processing claimed (by omega) with still | cancelled
    · exact second.processing still (by omega)
    · rw [second.ended (.inr cancelled)]
      exact .inr cancelled

theorem OutboxGrows.refl (s : Database) : OutboxGrows s s :=
  ⟨List.prefix_refl _, fun d member => ⟨d, member, GoesOn.refl d⟩⟩

theorem OutboxGrows.trans (s t u : Database) (first : OutboxGrows s t) (second : OutboxGrows t u) :
    OutboxGrows s u := by
  refine ⟨first.attempts.trans second.attempts, fun d member => ?_⟩
  obtain ⟨d₂, member₂, one⟩ := first.deliveries d member
  obtain ⟨d₃, member₃, two⟩ := second.deliveries d₂ member₂
  exact ⟨d₃, member₃, one.trans two⟩

section

variable {attempts : List WebhookDeliveryAttempt} {a : WebhookDeliveryAttempt}
variable {d : WebhookDelivery} {platform : Platform} {db db' : Database}

theorem attemptNumbers_append (deliveryId : Uuid) :
    attemptNumbers (attempts ++ [a]) deliveryId =
      attemptNumbers attempts deliveryId ++ if a.deliveryId = deliveryId then [a.attemptNumber] else [] := by
  unfold attemptNumbers
  rw [List.filter_append, List.map_append]
  by_cases its : a.deliveryId = deliveryId <;> simp [its]

theorem mem_attemptNumbers {deliveryId : Uuid} {n : Nat} :
    n ∈ attemptNumbers attempts deliveryId ↔
      ∃ a ∈ attempts, a.deliveryId = deliveryId ∧ a.attemptNumber = n := by
  simp only [attemptNumbers, List.mem_map, List.mem_filter, decide_eq_true_eq, and_assoc]

/-- No attempt of a delivery that is still open has succeeded. -/
theorem Attempted.unsuccessful (attempted : Attempted attempts d) (undelivered : d.status ≠ .delivered)
    (uncancelled : d.status ≠ .cancelled) (member : a ∈ attempts) (its : a.deliveryId = d.deliveryId) :
    a.outcome ≠ .success := by
  intro success
  rcases attempted.succeeded a member its success with ⟨delivered, -⟩ | ⟨cancelled, -⟩
  · exact undelivered delivered
  · exact uncancelled cancelled

/-- A change of an open delivery that counts no attempt. -/
structure Moves (d d' : WebhookDelivery) : Prop where
  deliveryId : d'.deliveryId = d.deliveryId
  projectId : d'.projectId = d.projectId
  counted : d'.attemptCount = d.attemptCount
  undelivered : d.status ≠ .delivered
  uncancelled : d.status ≠ .cancelled
  processing : d.status = .processing → d'.status = .processing ∨ d'.status = .cancelled
  unsettled : d'.status ≠ .delivered

theorem Moves.goesOn {d' : WebhookDelivery} (moves : Moves d d') : GoesOn d d' where
  deliveryId := moves.deliveryId
  projectId := moves.projectId
  counted := Nat.le_of_eq moves.counted.symm
  ended finished := by
    rcases finished with delivered | cancelled
    · exact absurd delivered moves.undelivered
    · exact absurd cancelled moves.uncancelled
  processing claimed _ := moves.processing claimed

theorem Moves.attempted {d' : WebhookDelivery} (moves : Moves d d')
    (attempted : Attempted attempts d) : Attempted attempts d' where
  numbered := by
    rw [moves.deliveryId, moves.counted]
    rcases attempted.numbered with numbered | ⟨cancelled, -⟩
    · exact .inl numbered
    · exact absurd cancelled moves.uncancelled
  succeeded a member its success := by
    rw [moves.deliveryId] at its
    exact absurd success
      (attempted.unsuccessful moves.undelivered moves.uncancelled member its)
  delivered now := absurd now moves.unsettled

/-! ## Updates -/

theorem OutboxAttempts.of_same (kept : OutboxAttempts db) (deliveries : db'.deliveries = db.deliveries)
    (attempts : db'.attempts = db.attempts) : OutboxAttempts db' ∧ OutboxGrows db db' := by
  refine ⟨⟨?_, ?_, ?_⟩, ?_, ?_⟩
  · rw [deliveries]
    exact kept.keys
  · rw [deliveries, attempts]
    exact kept.known
  · rw [deliveries, attempts]
    exact kept.deliveries
  · rw [attempts]
  · rw [deliveries]
    exact (OutboxGrows.refl db).deliveries

theorem OutboxAttempts.update (kept : OutboxAttempts db) {p : WebhookDelivery → Bool}
    {f : WebhookDelivery → WebhookDelivery} (deliveries : db'.deliveries = updateWhere p f db.deliveries)
    (attempts : db'.attempts = db.attempts)
    (moves : ∀ d ∈ db.deliveries, p d = true → Moves d (f d)) :
    OutboxAttempts db' ∧ OutboxGrows db db' := by
  have goesOn : ∀ d ∈ db.deliveries, ∃ d' ∈ db'.deliveries, GoesOn d d' := by
    intro d member
    rw [deliveries]
    by_cases hit : p d = true
    · exact ⟨f d, mem_updateWhere.mpr ⟨d, member, .inl ⟨hit, rfl⟩⟩, (moves d member hit).goesOn⟩
    · exact ⟨d, mem_updateWhere.mpr ⟨d, member, .inr ⟨by simpa using hit, rfl⟩⟩, .refl d⟩
  refine ⟨⟨?_, ?_, ?_⟩, ?_, goesOn⟩
  · rw [deliveries]
    refine (uniqueKey_updateWhere ?_).mpr kept.keys
    intro d member hit
    rw [(moves d member hit).deliveryId]
  · rw [attempts]
    intro a member
    obtain ⟨d, inRows, its⟩ := kept.known a member
    obtain ⟨d', inLater, after⟩ := goesOn d inRows
    exact ⟨d', inLater, after.deliveryId.trans its⟩
  · rw [attempts, deliveries]
    intro d member
    obtain ⟨old, inRows, ⟨hit, rfl⟩ | ⟨-, rfl⟩⟩ := mem_updateWhere.mp member
    · exact (moves old inRows hit).attempted (kept.deliveries old inRows)
    · exact kept.deliveries d inRows
  · rw [attempts]

theorem moves_cancelled (reason : Str) (cancelledAt : UtcDatetime)
    (status : isQueued d = true ∨ d.status = .processing) :
    Moves d (cancelledDelivery reason cancelledAt d) := by
  have closed : d.status ≠ .delivered ∧ d.status ≠ .cancelled := by
    rcases status with queued | processing
    · simp only [isQueued, Bool.or_eq_true, decide_eq_true_eq] at queued
      rcases queued with pending | retry
      · simp [pending]
      · simp [retry]
    · simp [processing]
  exact ⟨rfl, rfl, rfl, closed.1, closed.2, fun _ => .inr rfl, fun same => by cases same⟩

theorem moves_claimed (lease now : UtcDatetime) (status : isQueued d = true ∨ d.status = .processing) :
    Moves d (claimedDelivery lease now d) := by
  -- the two updates of a claim reach the same rows
  have cancelled := moves_cancelled [] now status
  exact ⟨rfl, rfl, rfl, cancelled.undelivered, cancelled.uncancelled, fun _ => .inl rfl,
    fun same => by cases same⟩

/-- A new delivery has no attempts. -/
theorem attempted_pending {deliveryId : Uuid} (event : WebhookEvent) (subscription : WebhookSubscription)
    (unattempted : ∀ a ∈ attempts, a.deliveryId ≠ deliveryId) :
    Attempted attempts (pendingDelivery deliveryId event subscription) where
  numbered := by
    have none : attemptNumbers attempts deliveryId = [] := by
      rw [attemptNumbers, List.map_eq_nil_iff, List.filter_eq_nil_iff]
      exact fun a member => by simpa using unattempted a member
    exact .inl none
  succeeded a member its := absurd its (unattempted a member)
  delivered now := by cases now

theorem attempts_insertEvent (kept : OutboxAttempts db) {event : WebhookEvent}
    (published : Published platform event db db') : OutboxAttempts db' ∧ OutboxGrows db db' := by
  obtain ⟨-, payload, deliveries, -, delivers, fresh, rfl⟩ := published
  refine ⟨⟨fresh.keys kept.keys, ?_, ?_⟩, List.prefix_refl _, ?_⟩
  · intro a member
    obtain ⟨d, inRows, its⟩ := kept.known a member
    exact ⟨d, List.mem_append_left _ inRows, its⟩
  · intro d member
    rcases List.mem_append.mp member with old | new
    · exact kept.deliveries d old
    · -- no attempt names a delivery that is new
      have unattempted : ∀ a ∈ db.attempts, a.deliveryId ≠ d.deliveryId := by
        intro a inAttempts its
        obtain ⟨other, inRows, known⟩ := kept.known a inAttempts
        exact fresh.fresh d new other inRows (known.trans its)
      obtain ⟨subscription, -, -, deliveryId, rfl⟩ := delivers.mem new
      exact attempted_pending event subscription unattempted
  · exact fun d member => ⟨d, List.mem_append_left _ member, .refl d⟩

/-! ## An attempt -/

theorem recordAttempt_free {policy : RetryPolicy} {projectId deliveryId : Uuid}
    {attemptedAt completedAt : UtcDatetime} {outcome : WebhookDeliveryOutcome}
    {statusCode : Option Int} {error : Option Str} {current : WebhookDelivery}
    {updated : Option WebhookDelivery} {draws rest : ℕ → Uuid}
    (ran : (recordAttempt policy projectId deliveryId attemptedAt completedAt outcome statusCode
      error current).exec draws db = .ok (updated, rest, db')) :
    current.attemptCount + 1 ∉ attemptNumbers db.attempts deliveryId := by
  unfold recordAttempt at ran
  rw [Block.exec_bind_eq_ok] at ran
  obtain ⟨attemptId, draws₁, db₁, drawn, ran⟩ := ran
  cases drawn
  rw [Block.exec_bind_eq_ok] at ran
  obtain ⟨_, draws₂, db₂, inserted, -⟩ := ran
  rw [insertAttempt, exec_insertRow] at inserted
  split at inserted
  next accepted =>
    simp only [Bool.and_eq_true, Bool.not_eq_true', List.any_eq_false, Bool.or_eq_true, not_or,
      decide_eq_true_eq, not_and] at accepted
    intro taken
    obtain ⟨a, member, its, number⟩ := mem_attemptNumbers.mp taken
    exact (accepted.1.2 a member).2 its number
  next => cases inserted

/-- What an attempt leaves of its delivery, which may be cancelled by then. -/
inductive RecordsAttempt (attempt : WebhookDeliveryAttempt) (d d' : WebhookDelivery) : Prop where
  | counted (claimed : d.status = .processing) (count : d'.attemptCount = attempt.attemptNumber)
      (success : d'.status = .delivered ↔ attempt.outcome = .success)
      (finished : d'.status ≠ .pending ∧ d'.status ≠ .processing)
  | late (cancelled : d.status = .cancelled) (same : d' = d)

theorem Decided.status {policy : RetryPolicy} {projectId : Uuid} {current : WebhookDelivery}
    {completedAt : UtcDatetime} {outcome : WebhookDeliveryOutcome} {result : DeliveryResult}
    (decided : Decided policy db projectId current completedAt outcome result) :
    (result.status = .delivered ↔ outcome = .success) ∧
      result.status ≠ .pending ∧ result.status ≠ .processing := by
  cases decided with
  | success => simp
  | cancelled _ failed _ => simp [failed]
  | dead _ failed _ => simp [failed]
  | retry _ failed _ _ _ _ _ => simp [failed]

/-- An attempt is numbered after the last, so its delivery is as it was read, or cancelled since. -/
theorem GoesOn.unattempted {current : WebhookDelivery} (goesOn : GoesOn current d)
    (claimed : current.status = .processing) (attempted : Attempted attempts d)
    (free : current.attemptCount + 1 ∉ attemptNumbers attempts d.deliveryId) :
    d.attemptCount = current.attemptCount ∧
      attemptNumbers attempts d.deliveryId = List.range' 1 d.attemptCount ∧
      (d.status = .processing ∨ d.status = .cancelled) := by
  have later := goesOn.counted
  rcases attempted.numbered with numbered | ⟨-, numbered⟩
  · rw [numbered, List.mem_range'_1] at free
    have same : d.attemptCount = current.attemptCount := by omega
    exact ⟨same, numbered, goesOn.processing claimed same⟩
  · rw [numbered, List.mem_range'_1] at free
    omega

theorem Attempted.other (attempted : Attempted attempts d) (apart : a.deliveryId ≠ d.deliveryId) :
    Attempted (attempts ++ [a]) d where
  numbered := by
    rw [attemptNumbers_append, if_neg apart, List.append_nil]
    exact attempted.numbered
  succeeded b member its success := by
    rcases List.mem_append.mp member with old | new
    · exact attempted.succeeded b old its success
    · obtain rfl := List.mem_singleton.mp new
      exact absurd its apart
  delivered now := by
    obtain ⟨b, member, facts⟩ := attempted.delivered now
    exact ⟨b, List.mem_append_left _ member, facts⟩

theorem Attempted.counted {d' : WebhookDelivery} (attempted : Attempted attempts d)
    (claimed : d.status = .processing)
    (numbered : attemptNumbers attempts d.deliveryId = List.range' 1 d.attemptCount)
    (its : a.deliveryId = d.deliveryId) (number : a.attemptNumber = d.attemptCount + 1)
    (same : d'.deliveryId = d.deliveryId) (count : d'.attemptCount = d.attemptCount + 1)
    (success : d'.status = .delivered ↔ a.outcome = .success) : Attempted (attempts ++ [a]) d' where
  numbered := by
    rw [same, count, attemptNumbers_append, if_pos its, numbered, number, List.range'_1_concat,
      Nat.add_comm 1]
    exact .inl rfl
  succeeded b member isIts succeeds := by
    rcases List.mem_append.mp member with old | new
    · rw [same] at isIts
      exact absurd succeeds
        (attempted.unsuccessful (by simp [claimed]) (by simp [claimed]) old isIts)
    · obtain rfl := List.mem_singleton.mp new
      exact .inl ⟨success.mpr succeeds, number.trans count.symm⟩
  delivered now :=
    ⟨a, List.mem_append_right _ (List.mem_singleton_self a), its.trans same.symm, success.mp now⟩

theorem Attempted.late (attempted : Attempted attempts d) (cancelled : d.status = .cancelled)
    (numbered : attemptNumbers attempts d.deliveryId = List.range' 1 d.attemptCount)
    (its : a.deliveryId = d.deliveryId) (number : a.attemptNumber = d.attemptCount + 1) :
    Attempted (attempts ++ [a]) d where
  numbered := by
    rw [attemptNumbers_append, if_pos its, numbered, number, List.range'_1_concat, Nat.add_comm 1]
    exact .inr ⟨cancelled, rfl⟩
  succeeded b member isIts succeeds := by
    rcases List.mem_append.mp member with old | new
    · -- the numbers so far leave none to an attempt that came late
      have taken := mem_attemptNumbers.mpr ⟨b, old, isIts, rfl⟩
      rw [numbered, List.mem_range'_1] at taken
      rcases attempted.succeeded b old isIts succeeds with ⟨delivered, -⟩ | ⟨-, after⟩
      · rw [cancelled] at delivered
        cases delivered
      · omega
    · obtain rfl := List.mem_singleton.mp new
      exact .inr ⟨cancelled, number⟩
  delivered now := by
    rw [cancelled] at now
    cases now

/-- A commit that adds an attempt of a delivery. -/
structure AddsAttempt (attempt : WebhookDeliveryAttempt) (s t : Database) (status : WebhookDeliveryStatus) :
    Prop where
  attempts : t.attempts = s.attempts ++ [attempt]
  delivery : ∃ d ∈ s.deliveries, ∃ d' ∈ t.deliveries, d.deliveryId = attempt.deliveryId ∧
    d'.deliveryId = attempt.deliveryId ∧ d'.status = status ∧
    attempt.attemptNumber = d.attemptCount + 1 ∧ RecordsAttempt attempt d d'

/-- One row goes on with an attempt more, and the others stay. -/
theorem OutboxAttempts.replace (kept : OutboxAttempts db) {d' : WebhookDelivery}
    (member : d ∈ db.deliveries) (attempts : db'.attempts = db.attempts ++ [a])
    (its : a.deliveryId = d.deliveryId)
    (keys : UniqueKey (fun d => some d.deliveryId) db'.deliveries) (later : d' ∈ db'.deliveries)
    (goesOn : GoesOn d d') (attempted : Attempted db'.attempts d')
    (others : ∀ e, e.deliveryId ≠ d.deliveryId → (e ∈ db'.deliveries ↔ e ∈ db.deliveries)) :
    OutboxAttempts db' ∧ OutboxGrows db db' := by
  have goes : ∀ e ∈ db.deliveries, ∃ e' ∈ db'.deliveries, GoesOn e e' := by
    intro e inRows
    by_cases same : e.deliveryId = d.deliveryId
    · obtain rfl := kept.keys.eq inRows member rfl (by rw [same])
      exact ⟨d', later, goesOn⟩
    · exact ⟨e, (others e same).mpr inRows, .refl e⟩
  refine ⟨⟨keys, ?_, ?_⟩, ?_, goes⟩
  · rw [attempts]
    intro b inAttempts
    rcases List.mem_append.mp inAttempts with old | new
    · obtain ⟨e, inRows, known⟩ := kept.known b old
      obtain ⟨e', inLater, after⟩ := goes e inRows
      exact ⟨e', inLater, after.deliveryId.trans known⟩
    · obtain rfl := List.mem_singleton.mp new
      exact ⟨d', later, goesOn.deliveryId.trans its.symm⟩
  · intro e inLater
    by_cases same : e.deliveryId = d.deliveryId
    · obtain rfl := keys.eq inLater later rfl (by rw [same, goesOn.deliveryId])
      exact attempted
    · rw [attempts]
      apply (kept.deliveries e ((others e same).mp inLater)).other
      rw [its]
      exact fun reversed => same reversed.symm
  · rw [attempts]
    exact List.prefix_append _ _

theorem attempts_recordAttempt (kept : OutboxAttempts db) {read : Database}
    (grown : OutboxGrows read db) {policy : RetryPolicy} {projectId deliveryId : Uuid}
    {attemptedAt completedAt : UtcDatetime} {outcome : WebhookDeliveryOutcome}
    {statusCode : Option Int} {error : Option Str} {current : WebhookDelivery}
    {updated : Option WebhookDelivery} {draws rest : ℕ → Uuid}
    (found : read.deliveries.find? (deliveryIs projectId deliveryId) = some current)
    (claimed : current.status = .processing)
    (ran : (recordAttempt policy projectId deliveryId attemptedAt completedAt outcome statusCode
      error current).exec draws db = .ok (updated, rest, db')) :
    (OutboxAttempts db' ∧ OutboxGrows db db') ∧
      ∃ attemptId d', updated = some d' ∧
        AddsAttempt (attemptOf attemptId { current with deliveryId := deliveryId } attemptedAt
          completedAt outcome statusCode error) db db' d'.status := by
  have free := recordAttempt_free ran
  obtain ⟨attemptId, result, -, decided, left, returned⟩ := recordAttempt_ok ran
  have owned := List.find?_some found
  simp only [deliveryIs, Bool.and_eq_true, decide_eq_true_eq] at owned
  obtain ⟨rfl, rfl⟩ := owned
  obtain ⟨d, inRows, goesOn⟩ := grown.deliveries current (List.mem_of_find?_eq_some found)
  have its := goesOn.deliveryId
  have attempted := kept.deliveries d inRows
  rw [← its] at free
  obtain ⟨same, numbered, status⟩ := goesOn.unattempted claimed attempted free
  -- the update reaches that row and no other, and not even that one if it is cancelled
  have only : ∀ e ∈ db.deliveries, (deliveryIs current.projectId current.deliveryId e &&
      e.status = .processing) = true → e = d := by
    intro e inTable hit
    simp only [deliveryIs, Bool.and_eq_true, decide_eq_true_eq] at hit
    exact kept.keys.eq inTable inRows rfl (by rw [its, hit.1.2])
  have others : ∀ e, e.deliveryId ≠ d.deliveryId → (e ∈ db'.deliveries ↔ e ∈ db.deliveries) := by
    intro e apart
    rw [left]
    constructor
    · intro member
      obtain ⟨old, inTable, ⟨hit, rfl⟩ | ⟨-, rfl⟩⟩ := mem_updateWhere.mp member
      · rw [only old inTable hit] at apart
        exact absurd rfl apart
      · exact inTable
    · intro inTable
      refine mem_updateWhere.mpr ⟨e, inTable, .inr ⟨?_, rfl⟩⟩
      rw [Bool.eq_false_iff]
      intro hit
      exact apart (by rw [only e inTable hit])
  have keys : UniqueKey (fun d => some d.deliveryId) db'.deliveries := by
    rw [left]
    refine (uniqueKey_updateWhere ?_).mpr kept.keys
    exact fun _ _ _ => rfl
  have attempts : db'.attempts = db.attempts ++ [attemptOf attemptId current attemptedAt completedAt
      outcome statusCode error] := by
    rw [left]
  have number : current.attemptCount + 1 = d.attemptCount + 1 := by rw [same]
  have row : ∃ d' ∈ db'.deliveries, GoesOn d d' ∧ Attempted db'.attempts d' ∧
      RecordsAttempt (attemptOf attemptId current attemptedAt completedAt outcome statusCode error) d d' := by
    rcases status with processing | cancelled
    · refine ⟨attemptedDelivery result (current.attemptCount + 1) completedAt statusCode
        (error.map (·.take 1000)) d, ?_, ⟨rfl, rfl, ?_, ?_, ?_⟩, ?_, ?_⟩
      · rw [left]
        refine mem_updateWhere.mpr ⟨d, inRows, .inl ⟨?_, rfl⟩⟩
        simp [deliveryIs, its, goesOn.projectId, processing]
      · rw [same]
        exact Nat.le_succ _
      · intro finished
        rw [processing] at finished
        rcases finished with delivered | cancelled
        · cases delivered
        · cases cancelled
      · intro _ unchanged
        exact absurd (unchanged.trans same) (Nat.succ_ne_self _)
      · rw [attempts]
        exact attempted.counted processing numbered its.symm number rfl number decided.status.1
      · exact .counted processing rfl decided.status.1 decided.status.2
    · refine ⟨d, ?_, .refl d, ?_, .late cancelled rfl⟩
      · rw [left]
        exact mem_updateWhere.mpr ⟨d, inRows, .inr ⟨by simp [cancelled], rfl⟩⟩
      · rw [attempts]
        exact attempted.late cancelled numbered its.symm number
  obtain ⟨d', later, goes, attemptedNow, records⟩ := row
  have unique : updated = some d' := by
    rw [returned]
    cases first : db'.deliveries.find? (deliveryIs current.projectId current.deliveryId) with
    | none =>
      have missed := List.find?_eq_none.mp first d' later
      simp [deliveryIs, goes.projectId, goes.deliveryId, its, goesOn.projectId] at missed
    | some e =>
      have isIt := List.find?_some first
      simp only [deliveryIs, Bool.and_eq_true, decide_eq_true_eq] at isIt
      rw [keys.eq (List.mem_of_find?_eq_some first) later rfl
        (by rw [goes.deliveryId, its, isIt.2])]
  refine ⟨kept.replace inRows attempts its.symm keys later goes attemptedNow others, attemptId, d',
    unique, attempts, d, inRows, d', later, its, goes.deliveryId.trans its, rfl, number, records⟩

/-! ## One unit -/

theorem attempts_claim (kept : OutboxAttempts db) (now lease : UtcDatetime) (limit : Nat)
    {claimed : List WebhookDelivery} {draws rest : ℕ → Uuid}
    (ran : (claimBody now lease limit).exec draws db = .ok (claimed, rest, db')) :
    OutboxAttempts db' ∧ OutboxGrows db db' := by
  have cancelled : OutboxAttempts (db.cancelEnded now) ∧ OutboxGrows db (db.cancelEnded now) := by
    refine kept.update rfl rfl fun d _ hit => moves_cancelled _ now (.inr ?_)
    simp only [leaseEnded, Bool.and_eq_true, decide_eq_true_eq] at hit
    exact hit.1.1
  rw [exec_claimBody] at ran
  split at ran
  · cases ran
    exact cancelled
  · cases ran
    set due := dueDeliveries now limit (db.cancelEnded now)
    have leased : OutboxAttempts ((db.cancelEnded now).lease due lease now) ∧
        OutboxGrows (db.cancelEnded now) ((db.cancelEnded now).lease due lease now) := by
      refine cancelled.1.update rfl rfl fun d member chosen => ?_
      obtain ⟨selected, inRows, same, -, isDue⟩ := mem_dueDeliveries (by simpa using chosen)
      obtain rfl : selected = d := cancelled.1.keys.eq inRows member (by rw [same]) rfl
      apply moves_claimed
      simp only [DecAustrum.WebhookRepository.isDue, leaseEnded, Bool.or_eq_true, Bool.and_eq_true,
        decide_eq_true_eq] at isDue
      exact isDue.imp And.left And.left
    exact ⟨leased.1, .trans _ _ _ cancelled.2 leased.2⟩

theorem attempts_requestRedelivery (projectId deliveryId : Uuid) (requestedAt : UtcDatetime) :
    (requestRedeliveryWithConnection projectId deliveryId requestedAt).Keeps OutboxAttempts
      OutboxGrows := by
  refine Block.keeps_query_bind fun read _ => ?_
  split
  · trivial
  · split
    · trivial
    · refine Block.keeps_query_bind fun later _ => ?_
      split
      · trivial
      · split
        · trivial
        · refine Block.KeepsFrom.bind OutboxGrows.refl OutboxGrows.trans ?_ fun _ =>
            Block.keeps_query_bind fun _ _ => ?_
          · refine keeps_of_exec trivial fun draws s u rest t kept _ ran => ?_
            rw [redeliverRows, exec_updateRows] at ran
            cases ran
            -- whatever was read, only a dead letter is queued again
            refine kept.update rfl rfl fun d _ hit => ?_
            simp only [Bool.and_eq_true, decide_eq_true_eq] at hit
            exact ⟨rfl, rfl, rfl, by simp [hit.2], by simp [hit.2], by simp [hit.2],
              fun same => by cases same⟩
          · split <;> trivial

theorem attempts_claimBody (now lease : UtcDatetime) (limit : Nat) :
    (claimBody now lease limit).Keeps OutboxAttempts OutboxGrows := by
  apply keeps_of_exec
  · trivial
  · exact fun draws s claimed rest t kept _ ran => attempts_claim kept now lease limit ran

theorem attempts_recordBody (policy : RetryPolicy) (projectId deliveryId : Uuid)
    (attemptedAt completedAt : UtcDatetime) (outcome : WebhookDeliveryOutcome)
    (statusCode : Option Int) (error : Option Str) :
    (recordBody policy projectId deliveryId attemptedAt completedAt outcome statusCode error).Keeps
      OutboxAttempts OutboxGrows := by
  refine Block.keeps_query_bind fun read _ => ?_
  split
  · trivial
  next current found =>
    split
    · trivial
    next claimed =>
      apply keeps_of_exec
      · exact fun _ => trivial
      · intro draws s updated rest t kept known ran
        exact (attempts_recordAttempt kept known.2 found (not_not.mp claimed) ran).1

theorem attempts_cancelBody (projectId deliveryId : Uuid) (cancelledAt : UtcDatetime) (reason : Str) :
    (cancelBody projectId deliveryId cancelledAt reason).Keeps OutboxAttempts OutboxGrows := by
  apply keeps_of_exec
  · trivial
  · intro draws s cancelled rest t kept _ ran
    rw [exec_cancelBody] at ran
    cases ran
    refine kept.update rfl rfl fun d _ hit => moves_cancelled _ _ (.inr ?_)
    simp only [Bool.and_eq_true, decide_eq_true_eq] at hit
    exact hit.2

theorem attempts_unit {scope : StoreScope} {β : Type} {x : Body β}
    (unit : StoreUnit platform scope β x) : x.Keeps OutboxAttempts OutboxGrows := by
  rcases unit.deliveryTables with outbox | ⟨immediate, leaves⟩
  · cases outbox with
    | insertEvent event =>
      refine keeps_of_exec ((Block.immediate_check _).bind fun _ => trivial) ?_
      intro draws s deliveries rest t kept _ ran
      exact attempts_insertEvent kept (insertEventWithDeliveries_ok ran)
    | insertSubscription subscription =>
      refine keeps_of_exec trivial fun draws s u rest t kept _ ran => ?_
      rw [insertSubscription, exec_insertRow] at ran
      split at ran
      · cases ran
        exact kept.of_same rfl rfl
      · cases ran
    | disableSubscription projectId subscriptionId disabledAt =>
      refine keeps_of_exec trivial fun draws s u rest t kept _ ran => ?_
      rw [exec_disableRows] at ran
      cases ran
      refine kept.update rfl rfl fun d _ hit => moves_cancelled _ _ (.inl ?_)
      simp only [Bool.and_eq_true] at hit
      exact hit.2
    | rotateSecret projectId subscriptionId rotatedAt =>
      refine keeps_of_exec trivial fun draws s u rest t kept _ ran => ?_
      rw [rotateRows, exec_updateRows] at ran
      cases ran
      exact kept.of_same rfl rfl
    | claim now lease limit => exact attempts_claimBody now lease limit
    | record policy projectId deliveryId attemptedAt completedAt outcome code error =>
      exact attempts_recordBody policy projectId deliveryId attemptedAt completedAt outcome code error
    | cancel projectId deliveryId cancelledAt reason =>
      exact attempts_cancelBody projectId deliveryId cancelledAt reason
    | redeliver projectId deliveryId requestedAt =>
      exact attempts_requestRedelivery projectId deliveryId requestedAt
  · refine keeps_of_exec immediate fun draws s b rest t kept _ ran => ?_
    have same := leaves draws s b rest t ran
    simp only [Database.deliveryTables, Database.outbox, Prod.mk.injEq] at same
    exact kept.of_same same.1.2.2 same.2

end

/-! ## The loop of a dispatcher -/

/-- What a dispatcher commits for a delivery, and the status it counts. -/
inductive SettlesDelivery (dispatchTime : UtcDatetime) (delivery : WebhookDelivery) (s t : Database) :
    WebhookDeliveryStatus → Prop where
  | cancelled (rows : t = { s with
      deliveries := updateWhere
        (fun d => deliveryIs delivery.projectId delivery.deliveryId d && d.status = .processing)
        (cancelledDelivery (subscriptionDisabledError.take 1000) dispatchTime) s.deliveries }) :
      SettlesDelivery dispatchTime delivery s t .cancelled
  | attempted (attempt : WebhookDeliveryAttempt) (status : WebhookDeliveryStatus)
      (its : attempt.deliveryId = delivery.deliveryId)
      (times : attempt.attemptedAt = dispatchTime ∧ attempt.completedAt = dispatchTime)
      (adds : AddsAttempt attempt s t status) : SettlesDelivery dispatchTime delivery s t status

structure Round where
  delivery : WebhookDelivery
  before : Database
  after : Database
  status : WebhookDeliveryStatus

def Round.commit (r : Round) : Database × Database := (r.before, r.after)

def Round.Settles (dispatchTime : UtcDatetime) (r : Round) : Prop :=
  SettlesDelivery dispatchTime r.delivery r.before r.after r.status

/-- The client has seen the delivery. -/
def SeenDelivery (delivery : WebhookDelivery) (history : List (Seen Database)) : Prop :=
  ∃ event ∈ history, ∃ d ∈ event.state.deliveries, d.deliveryId = delivery.deliveryId ∧
    d.projectId = delivery.projectId

abbrev outboxContract (C : Type) : Contract C Database :=
  invariantContract OutboxAttempts OutboxGrows OutboxGrows.refl OutboxGrows.trans anyOpening

section

variable {C : Type} {c : C} {hmac : Bytes → Bytes → Bytes} {settings : DispatchSettings}
variable {dispatchTime : UtcDatetime} {delivery : WebhookDelivery} {history : List (Seen Database)}

theorem SeenDelivery.mono (seen : SeenDelivery delivery history) {later : List (Seen Database)}
    (grown : history ⊆ later) : SeenDelivery delivery later := by
  obtain ⟨event, member, found⟩ := seen
  exact ⟨event, grown member, found⟩

theorem getDispatchItem_outside (delivery : WebhookDelivery) (history : List (Seen Database)) :
    (getDispatchItem delivery).Outside (outboxContract C) c
      (fun _ h => commitsOf h = commitsOf history ∧ history ⊆ h) (fun _ _ _ _ => False)
      (fun _ h => commitsOf h = commitsOf history) history := by
  intro s _ _ t _ _
  have commits : commitsOf ((history ++ [.read s]) ++ [.read t]) = commitsOf history := by
    rw [commitsOf_read, commitsOf_read]
  have grown : history ⊆ (history ++ [.read s]) ++ [.read t] := by simp
  simp only [Block.bind]
  split
  · next row subscription _ _ =>
    cases encodeUtf8 row.payload with
    | none => exact commits
    | some payload => exact ⟨commits, grown⟩
  · exact commits

theorem getDispatchItem_keeps (delivery : WebhookDelivery) :
    (getDispatchItem delivery).Keeps OutboxAttempts OutboxGrows := by
  intro s _ t _
  simp only [Block.bind]
  split
  · next row subscription _ _ =>
    cases encodeUtf8 row.payload <;> trivial
  · trivial

/-- What a claim returns. -/
structure Claimed (settings : DispatchSettings) (claimed : List WebhookDelivery) (s t : Database) :
    Prop where
  ids : (claimed.map (·.deliveryId)).Nodup
  limited : claimed.length ≤ settings.limit
  rows : ∀ d ∈ claimed, d ∈ t.deliveries ∧ d.status = .processing
  attempts : t.attempts = s.attempts

theorem claimBody_claimed {lease : UtcDatetime} {s t : Database} {claimed : List WebhookDelivery}
    {draws rest : ℕ → Uuid} (kept : OutboxAttempts s)
    (ran : (claimBody dispatchTime lease settings.limit).exec draws s = .ok (claimed, rest, t)) :
    Claimed settings claimed s t := by
  have after := (attempts_claim kept dispatchTime lease settings.limit ran).1
  rw [exec_claimBody] at ran
  split at ran
  · cases ran
    exact ⟨List.nodup_nil, Nat.zero_le _, fun d member => (by cases member), rfl⟩
  · cases ran
    set ids := dueDeliveries dispatchTime settings.limit (s.cancelEnded dispatchTime)
    set leased := (s.cancelEnded dispatchTime).lease ids lease dispatchTime
    have sorted := List.perm_insertionSort createdLe
      (leased.deliveries.filter fun d => ids.contains d.deliveryId)
    have unique : ((leased.deliveries.filter fun d => ids.contains d.deliveryId).map
        (·.deliveryId)).Nodup := by
      have keys := after.keys
      rw [UniqueKey, List.filterMap_eq_map'] at keys
      exact keys.sublist (List.filter_sublist.map _)
    have selected : (leased.deliveries.filter fun d => ids.contains d.deliveryId).map
        (·.deliveryId) ⊆ ids := by
      intro id member
      obtain ⟨d, inFilter, rfl⟩ := List.mem_map.mp member
      simpa using (List.mem_filter.mp inFilter).2
    refine ⟨(sorted.map _).nodup_iff.mpr unique, ?_, ?_, rfl⟩
    · have fewer := (List.subperm_of_subset unique selected).length_le
      have bounded : ids.length ≤ settings.limit := by
        unfold ids dueDeliveries
        rw [List.length_map]
        exact List.length_take_le _ _
      rw [List.length_map] at fewer
      rw [sorted.length_eq]
      exact fewer.trans bounded
    · intro d member
      obtain ⟨inLeased, chosen⟩ := List.mem_filter.mp (sorted.mem_iff.mp member)
      refine ⟨inLeased, ?_⟩
      obtain ⟨old, -, ⟨-, rfl⟩ | ⟨skipped, rfl⟩⟩ := mem_updateWhere.mp inLeased
      · rfl
      · rw [skipped] at chosen
        cases chosen

theorem claimBody_outside (lease : UtcDatetime) :
    (claimBody dispatchTime lease settings.limit).Outside (outboxContract C) c (fun _ _ => False)
      (fun claimed h s t => h = history ∧ Claimed settings claimed s t) (fun _ _ => False) history := by
  apply outside_of_opens
  · trivial
  · intro s kept knows _
    apply ensures_of_exec
    · exact fun draws claimed rest t ran => ⟨rfl, claimBody_claimed kept ran⟩
    · intro draws exc ran
      rw [exec_claimBody] at ran
      split at ran <;> cases ran

/-- A cancellation finds the row of a delivery that was seen before. -/
theorem cancelBody_outside (seen : SeenDelivery delivery history) :
    (cancelBody delivery.projectId delivery.deliveryId dispatchTime subscriptionDisabledError).Outside
      (outboxContract C) c (fun _ _ => False)
      (fun cancelled h s t => h = history ∧ (∃ d, cancelled = some d) ∧
        SettlesDelivery dispatchTime delivery s t .cancelled)
      (fun _ _ => False) history := by
  apply outside_of_opens
  · trivial
  · intro s _ knows _
    apply ensures_of_exec
    · intro draws cancelled rest t ran
      rw [exec_cancelBody] at ran
      cases ran
      refine ⟨rfl, ?_, .cancelled rfl⟩
      obtain ⟨event, member, d, inRows, its, project⟩ := seen
      obtain ⟨d', inLater, goesOn⟩ := (knows event member).deliveries d inRows
      have kept : ∀ d ∈ s.deliveries,
          (deliveryIs delivery.projectId delivery.deliveryId d && d.status = .processing) = true →
          deliveryIs delivery.projectId delivery.deliveryId
            (cancelledDelivery (subscriptionDisabledError.take 1000) dispatchTime d) =
            deliveryIs delivery.projectId delivery.deliveryId d := fun _ _ _ => rfl
      rw [← Option.isSome_iff_exists, find?_updateWhere _ kept, Option.isSome_map, List.find?_isSome]
      refine ⟨d', inLater, ?_⟩
      simp [deliveryIs, goesOn.projectId, goesOn.deliveryId, its, project]
    · intro draws exc ran
      rw [exec_cancelBody] at ran
      cases ran

theorem recordBody_outside {outcome : WebhookDeliveryOutcome} {statusCode : Option Int}
    {error : Option Str} (history : List (Seen Database)) :
    (recordBody settings.policy delivery.projectId delivery.deliveryId dispatchTime dispatchTime outcome
      statusCode error).Outside (outboxContract C) c (fun _ _ => False)
      (fun updated h s t => commitsOf h = commitsOf history ∧ history ⊆ h ∧
        ∃ d, updated = some d ∧ SettlesDelivery dispatchTime delivery s t d.status)
      (fun _ h => commitsOf h = commitsOf history) history := by
  intro read _ _
  have commits : commitsOf (history ++ [.read read]) = commitsOf history := commitsOf_read _ _
  simp only [Block.bind]
  split
  · exact commits
  next current found =>
    split
    · exact commits
    next claimed =>
      apply outside_of_opens
      · exact fun _ => trivial
      · intro s kept knows _
        apply ensures_of_exec
        · intro draws updated rest t ran
          obtain ⟨-, attemptId, d, rfl, adds⟩ := attempts_recordAttempt kept
            (knows (.read read) (by simp)) found (not_not.mp claimed) ran
          exact ⟨commits, by simp, d, rfl, .attempted _ _ rfl ⟨rfl, rfl⟩ adds⟩
        · intro draws exc ran
          rw [commitsOf_rollback, commits]

/-- How one round ends: it commits once, or raises without a commit. -/
structure RoundEnds (dispatchTime : UtcDatetime) (delivery : WebhookDelivery)
    (history : List (Seen Database)) (result : Except StoreExc WebhookDeliveryStatus)
    (h : List (Seen Database)) : Prop where
  returned : ∀ status, result = .ok status → history ⊆ h ∧ ∃ r : Round, r.delivery = delivery ∧
    r.status = status ∧ r.Settles dispatchTime ∧ commitsOf h = commitsOf history ++ [r.commit]
  raised : ∀ exc, result = .error exc → commitsOf h = commitsOf history

theorem RoundEnds.raise {exc : StoreExc} {h : List (Seen Database)}
    (commits : commitsOf h = commitsOf history) :
    RoundEnds dispatchTime delivery history (.error exc) h :=
  ⟨fun _ same => (by cases same), fun _ _ => commits⟩

theorem RoundEnds.settled {status : WebhookDeliveryStatus} {h : List (Seen Database)} {s t : Database}
    (grown : history ⊆ h) (commits : commitsOf h = commitsOf history)
    (settles : SettlesDelivery dispatchTime delivery s t status) :
    RoundEnds dispatchTime delivery history (.ok status) (h ++ [.commit s t]) := by
  refine ⟨?_, fun _ same => by cases same⟩
  rintro _ ⟨⟩
  refine ⟨fun event member => List.mem_append_left _ (grown member), ⟨delivery, s, t, status⟩, rfl, rfl,
    settles, ?_⟩
  rw [commitsOf_commit, commits]
  rfl

theorem recordAnswer_safe {h : List (Seen Database)} (grown : history ⊆ h)
    (commits : commitsOf h = commitsOf history) (answer : TransportAnswer) :
    (WebhookService.recordAnswer settings dispatchTime delivery answer).Safe (outboxContract C) c
      (RoundEnds dispatchTime delivery history) h := by
  unfold WebhookService.recordAnswer
  apply Session.safe_check_bind
  · rintro ⟨outcome, statusCode, error⟩ _
    unfold recordDeliveryResult
    dsimp only
    rw [bind_assoc]
    apply Session.safe_within_bind (attempts_recordBody _ _ _ _ _ _ _ _) (recordBody_outside h)
    · exact fun _ _ impossible => impossible.elim
    · rintro updated later s t ⟨same, more, d, rfl, settles⟩
      exact ⟨trivial, .settled (List.Subset.trans grown more) (same.trans commits) settles⟩
    · exact fun _ _ same => .raise (same.trans commits)
  · exact fun _ _ => .raise commits

theorem dispatchDelivery_safe (seen : SeenDelivery delivery history) :
    (WebhookService.dispatchDelivery hmac settings dispatchTime delivery).Safe (outboxContract C) c
      (RoundEnds dispatchTime delivery history) history := by
  unfold WebhookService.dispatchDelivery
  apply Session.safe_within_bind (getDispatchItem_keeps delivery)
    (getDispatchItem_outside delivery history)
  · intro item h ⟨commits, grown⟩
    split
    · unfold cancelProcessingDelivery
      rw [bind_assoc]
      apply Session.safe_within_bind (attempts_cancelBody _ _ _ _) (cancelBody_outside (seen.mono grown))
      · exact fun _ _ impossible => impossible.elim
      · intro cancelled later s t ⟨same, ⟨d, found⟩, settles⟩
        subst same found
        exact ⟨trivial, .settled grown commits settles⟩
      · exact fun _ _ impossible => impossible.elim
    · apply Session.safe_check_bind
      · exact fun _ _ answer => recordAnswer_safe grown commits answer
      · exact fun _ _ => .raise commits
  · exact fun _ _ _ _ impossible => impossible.elim
  · exact fun _ _ commits => .raise commits

/-! ### All rounds -/

/-- How the loop ends: the deliveries it is through with come first, one round each. -/
structure LoopEnds (dispatchTime : UtcDatetime) (claimed : List WebhookDelivery)
    (summary : WebhookService.DispatchSummary) (log : List (Database × Database))
    (result : Except StoreExc WebhookService.DispatchSummary) (rounds : List Round)
    (h : List (Seen Database)) : Prop where
  settled : ∀ r ∈ rounds, r.Settles dispatchTime
  through : rounds.map Round.delivery <+: claimed
  commits : commitsOf h = log ++ rounds.map Round.commit
  returned : ∀ final, result = .ok final → rounds.map Round.delivery = claimed ∧
    final = (rounds.map Round.status).foldl (·.count ·) summary

theorem dispatchClaimed_safe (claimed : List WebhookDelivery)
    (summary : WebhookService.DispatchSummary)
    (seen : ∀ delivery ∈ claimed, SeenDelivery delivery history) :
    (WebhookService.dispatchClaimed hmac settings dispatchTime claimed summary).Safe (outboxContract C) c
      (fun result h => ∃ rounds, LoopEnds dispatchTime claimed summary (commitsOf history) result rounds
        h) history := by
  induction claimed generalizing summary history with
  | nil =>
    refine ⟨[], fun r member => (by cases member), List.prefix_refl _, by simp, ?_⟩
    rintro _ ⟨⟩
    exact ⟨rfl, rfl⟩
  | cons delivery rest ih =>
    refine (Session.safe_bind _ _ _).mpr
      ((dispatchDelivery_safe (seen delivery (List.mem_cons_self ..))).mono ?_)
    rintro (exc | status) h ⟨returned, raised⟩
    · -- the deliveries from here on are left as they are
      refine ⟨[], fun r member => (by cases member), List.nil_prefix, ?_, fun _ same => by cases same⟩
      simpa using raised exc rfl
    · obtain ⟨grown, r, rfl, rfl, settles, commits⟩ := returned status rfl
      refine (ih (summary.count r.status) fun d member =>
        (seen d (List.mem_cons_of_mem _ member)).mono grown).mono ?_
      rintro result later ⟨rounds, ends⟩
      refine ⟨r :: rounds, ?_, ?_, ?_, ?_⟩
      · intro other member
        rcases List.mem_cons.mp member with rfl | inRest
        · exact settles
        · exact ends.settled other inRest
      · exact List.prefix_cons_inj r.delivery |>.mpr ends.through
      · rw [ends.commits, commits, List.append_assoc]
        rfl
      · intro final same
        obtain ⟨all, counted⟩ := ends.returned final same
        exact ⟨by rw [List.map_cons, all], counted⟩

/-- How a dispatcher ends. Its first commit is the claim, unless there is none. -/
inductive DispatchEnds (settings : DispatchSettings) (dispatchTime : UtcDatetime)
    (result : Except StoreExc WebhookService.DispatchSummary) (h : List (Seen Database)) : Prop where
  | unclaimed (exc : StoreExc) (raised : result = .error exc) (silent : commitsOf h = [])
  | claimed (claimed : List WebhookDelivery) (s t : Database) (claims : Claimed settings claimed s t)
      (rounds : List Round)
      (ends : LoopEnds dispatchTime claimed ⟨claimed.length, 0, 0, 0, 0⟩ [(s, t)] result rounds h)

theorem dispatchPendingWebhooks_safe :
    (WebhookService.dispatchPendingWebhooks hmac settings dispatchTime).Safe (outboxContract C) c
      (DispatchEnds settings dispatchTime) [] := by
  unfold WebhookService.dispatchPendingWebhooks claimDueDeliveries
  split
  · exact .unclaimed _ rfl rfl
  next lease _ =>
    apply Session.safe_within_bind (attempts_claimBody _ _ _) (claimBody_outside lease)
    · exact fun _ _ impossible => impossible.elim
    · rintro claimed _ s t ⟨rfl, claims⟩
      refine ⟨trivial, (dispatchClaimed_safe claimed _ fun delivery member => ?_).mono ?_⟩
      · exact ⟨.commit s t, by simp, delivery, (claims.rows delivery member).1, rfl, rfl⟩
      · rintro result h ⟨rounds, ends⟩
        exact .claimed claimed s t claims rounds ends
    · exact fun _ _ impossible => impossible.elim

end

/-! ## The summary -/

section

open WebhookService

theorem SettlesDelivery.finished {dispatchTime : UtcDatetime} {delivery : WebhookDelivery}
    {s t : Database} {status : WebhookDeliveryStatus}
    (settles : SettlesDelivery dispatchTime delivery s t status) :
    status ≠ .pending ∧ status ≠ .processing := by
  cases settles with
  | cancelled rows => simp
  | attempted attempt _ its times adds =>
    obtain ⟨d, -, d', -, -, -, rfl, -, records⟩ := adds.delivery
    cases records with
    | counted _ _ _ finished => exact finished
    | late cancelled same => simp [same, cancelled]

theorem foldl_count (statuses : List WebhookDeliveryStatus) (summary : DispatchSummary) :
    statuses.foldl (·.count ·) summary =
      ⟨summary.claimed, summary.delivered + statuses.count .delivered,
        summary.retryScheduled + statuses.count .retryScheduled,
        summary.deadLettered + statuses.count .deadLetter,
        summary.cancelled + statuses.count .cancelled⟩ := by
  induction statuses generalizing summary with
  | nil => rfl
  | cons status rest ih =>
    rw [List.foldl_cons, ih]
    cases status <;> simp [DispatchSummary.count, Nat.add_assoc, Nat.add_comm 1]

theorem count_counted (summary : DispatchSummary) {status : WebhookDeliveryStatus}
    (finished : status ≠ .pending ∧ status ≠ .processing) :
    (summary.count status).counted = summary.counted + 1 := by
  cases status with
  | pending => exact absurd rfl finished.1
  | processing => exact absurd rfl finished.2
  | _ => simp only [DispatchSummary.count, DispatchSummary.counted]; omega

theorem foldl_counted (statuses : List WebhookDeliveryStatus) (summary : DispatchSummary)
    (finished : ∀ status ∈ statuses, status ≠ .pending ∧ status ≠ .processing) :
    (statuses.foldl (·.count ·) summary).counted = summary.counted + statuses.length := by
  induction statuses generalizing summary with
  | nil => rfl
  | cons status rest ih =>
    rw [List.foldl_cons, ih _ fun s member => finished s (List.mem_cons_of_mem _ member),
      count_counted summary (finished status (List.mem_cons_self ..)), List.length_cons]
    omega

end

/-! ## Runs -/

/-- A client of the outbox. -/
inductive OutboxCall where
  | dispatch (settings : DispatchSettings) (dispatchTime : UtcDatetime)
  | operate (operation : Operation)

def OutboxCall.session (platform : Platform) (hmac : Bytes → Bytes → Bytes) :
    OutboxCall → WebhookService.Dispatch (Option WebhookService.DispatchSummary)
  | .dispatch settings dispatchTime =>
    some <$> WebhookService.dispatchPendingWebhooks hmac settings dispatchTime
  | .operate operation => (fun _ => none) <$> operation.session platform

/-- How a client ends, if it dispatches. -/
def DispatchedCall (call : OutboxCall) (result : Except StoreExc (Option WebhookService.DispatchSummary))
    (history : List (Seen Database)) : Prop :=
  ∀ settings dispatchTime, call = .dispatch settings dispatchTime →
    ∃ inner, result = inner.map some ∧ DispatchEnds settings dispatchTime inner history

theorem OutboxCall.safe {C : Type} {calls : C → OutboxCall} (platform : Platform)
    (hmac : Bytes → Bytes → Bytes) (c : C) :
    ((calls c).session platform hmac).Safe (outboxContract C) c (DispatchedCall (calls c)) [] := by
  cases calls c with
  | dispatch settings dispatchTime =>
    refine (Session.safe_map _ _).mpr (dispatchPendingWebhooks_safe.mono ?_)
    rintro result h ends _ _ ⟨⟩
    exact ⟨result, rfl, ends⟩
  | operate operation =>
    refine (Session.safe_map _ _).mpr ((Session.safe_of_keeps ?_ ?_ []).mono ?_)
    · refine (operation.bodies platform).mono fun β body composed => ?_
      exact composed.keeps OutboxGrows.refl OutboxGrows.trans fun _ _ => attempts_unit
    · exact fun _ _ _ => trivial
    · intro _ _ _ _ _ isDispatch
      cases isDispatch

theorem mem_commitsOf {history : List (Seen Database)} {s t : Database} :
    (s, t) ∈ commitsOf history ↔ .commit s t ∈ history := by
  rw [commitsOf, List.mem_filterMap]
  constructor
  · rintro ⟨event, member, found⟩
    cases event with
    | commit before after =>
      cases found
      exact member
    | read t => cases found
    | rollback before => cases found
  · exact fun member => ⟨_, member, rfl⟩

/-- What a dispatcher has committed: its claim, and then each round that it is through with. -/
structure Dispatched (settings : DispatchSettings) (dispatchTime : UtcDatetime) (db : Database)
    (history : List (Seen Database)) (claimed : List WebhookDelivery) (rounds : List Round) : Prop where
  commits : ∃ s t, Claimed settings claimed s t ∧
    commitsOf history = (s, t) :: rounds.map Round.commit
  through : rounds.map Round.delivery <+: claimed
  settled : ∀ r ∈ rounds, r.Settles dispatchTime
  stored : ∀ r ∈ rounds, r.after.attempts <+: db.attempts

/-- From an outbox without deliveries on, in every run of any number of dispatchers and other calls
of the store: the attempts of a delivery are numbered from one on without gap or repetition, and a
success is the last of them and leaves the delivery delivered, or cancelled before it was recorded.
A dispatcher commits its claim and then once for each delivery it is through with; what it returns
counts each delivery of the claim once, by the status that its commit left, and the attempts it
recorded are there. -/
theorem dispatch_runs {C : Type} [DecidableEq C] (platform : Platform) (hmac : Bytes → Bytes → Bytes)
    (start : Database) (deliveries : start.deliveries = []) (attempts : start.attempts = [])
    (calls : C → OutboxCall)
    (w : World C Database Uuid TransportAnswer StoreExc (Option WebhookService.DispatchSummary))
    (reachable : Reachable anyOpening start (fun c => (calls c).session platform hmac) w) :
    (∀ d ∈ w.committed.deliveries, Attempted w.committed.attempts d) ∧
      ∀ c settings dispatchTime, calls c = .dispatch settings dispatchTime →
        (∀ summary, w.session c = some (.ret (some summary)) → ∃ claimed rounds,
          Dispatched settings dispatchTime w.committed (w.history c) claimed rounds ∧
            rounds.map Round.delivery = claimed ∧ summary.counted = summary.claimed ∧
            summary = (rounds.map Round.status).foldl (·.count ·) ⟨claimed.length, 0, 0, 0, 0⟩) ∧
        ∀ exc, w.session c = some (.raise exc) → commitsOf (w.history c) = [] ∨ ∃ claimed rounds,
          Dispatched settings dispatchTime w.committed (w.history c) claimed rounds := by
  have empty : OutboxAttempts start := by
    refine ⟨?_, ?_, ?_⟩
    · rw [deliveries]
      exact uniqueKey_nil
    · simp [attempts]
    · simp [deliveries]
  have holds := (outboxContract C).sound start empty (fun c => (calls c).session platform hmac)
    (fun c => OutboxCall.safe platform hmac c) w reachable
  -- what a client has committed is older than what is committed now
  have kept (c : C) {log : List (Database × Database)} {rounds : List Round}
      (commits : commitsOf (w.history c) = log ++ rounds.map Round.commit) :
      ∀ r ∈ rounds, r.after.attempts <+: w.committed.attempts := by
    intro r member
    have seen : .commit r.before r.after ∈ w.history c := by
      apply mem_commitsOf.mp
      rw [commits]
      exact List.mem_append_right _ (List.mem_map_of_mem member)
    exact (holds.knows c _ seen).attempts
  have inv : OutboxAttempts w.committed := holds.inv
  refine ⟨inv.deliveries, fun c settings dispatchTime isDispatch => ⟨?_, ?_⟩⟩
  · intro summary ended
    obtain ⟨inner, same, ends⟩ := holds.returned c _ ended settings dispatchTime isDispatch
    rcases inner with exc | final
    · cases same
    · cases same
      cases ends with
      | unclaimed exc raised _ => cases raised
      | claimed claimed s t claims rounds ends =>
        obtain ⟨all, counts⟩ := ends.returned summary rfl
        have finished : ∀ status ∈ rounds.map Round.status,
            status ≠ .pending ∧ status ≠ .processing := by
          intro status member
          obtain ⟨r, inRounds, rfl⟩ := List.mem_map.mp member
          exact (ends.settled r inRounds).finished
        refine ⟨claimed, rounds, ⟨⟨s, t, claims, ends.commits⟩, ends.through, ends.settled,
          kept c ends.commits⟩, all, ?_, counts⟩
        rw [counts, foldl_counted _ _ finished, foldl_count, List.length_map, ← all, List.length_map]
        exact Nat.zero_add _
  · intro exc ended
    obtain ⟨inner, same, ends⟩ := holds.raised c exc ended settings dispatchTime isDispatch
    cases ends with
    | unclaimed _ _ silent => exact .inl silent
    | claimed claimed s t claims rounds ends =>
      exact .inr ⟨claimed, rounds, ⟨s, t, claims, ends.commits⟩, ends.through, ends.settled,
        kept c ends.commits⟩

/-! ## A dispatcher is overtaken -/

def raisedIn {C σ ι ω ε α : Type} (w : World C σ ι ω ε α) (c : C) : Option ε :=
  match w.session c with
  | some (.raise exc) => some exc
  | _ => none

theorem raisedIn_eq {C σ ι ω ε α : Type} {w : World C σ ι ω ε α} {c : C} {exc : ε}
    (done : raisedIn w c = some exc) : w.session c = some (.raise exc) := by
  unfold raisedIn at done
  split at done
  next other ended =>
    cases done
    exact ended
  next => cases done

inductive OutboxClient where
  | publisher
  | overtaken
  | second
  deriving DecidableEq

def sampleDispatchSettings : DispatchSettings := ⟨List.replicate 32 0x6B, 5, 60, ⟨3, 10, 60⟩⟩

/-- The second dispatcher starts after the lease of the first has ended. -/
def sampleOutboxCalls : OutboxClient → OutboxCall
  | .publisher => .operate (.updateProjectStatus ⟨1⟩ .disabled (sampleTime 5)
      (some sampleContext))
  | .overtaken => .dispatch sampleDispatchSettings (sampleTime 6)
  | .second => .dispatch sampleDispatchSettings (sampleTime 8)

/-- The first dispatcher has read the delivery when the second claims and records it. -/
def sampleDispatchOrder : List OutboxClient :=
  List.replicate 14 .publisher ++ List.replicate 12 .overtaken ++ List.replicate 24 .second ++
    List.replicate 12 .overtaken

def sampleDispatchTurns : List (Turn OutboxClient Uuid TransportAnswer) :=
  sampleDispatchOrder.zipIdx.map fun p => ⟨p.1, ⟨Fin.ofNat _ (p.2 + 16)⟩, .response 204⟩

def sampleDispatchRun : World OutboxClient Database Uuid TransportAnswer StoreExc
    (Option WebhookService.DispatchSummary) :=
  (World.start sampleOutbox fun c =>
    (sampleOutboxCalls c).session (referencePlatform fun _ => []) fun _ _ => []).play sampleDispatchTurns

theorem sampleDispatchRun_ends :
    returned sampleDispatchRun .second = some (some ⟨1, 1, 0, 0, 0⟩) ∧
      raisedIn sampleDispatchRun .overtaken = some integrityError := by
  decide +kernel

/-- Both have sent the event, and one attempt is recorded. -/
theorem dispatch_runs_sample :
    (∀ d ∈ sampleDispatchRun.committed.deliveries, Attempted sampleDispatchRun.committed.attempts d) ∧
      (∃ claimed rounds, Dispatched sampleDispatchSettings (sampleTime 8)
        sampleDispatchRun.committed (sampleDispatchRun.history .second) claimed rounds ∧
        rounds.map Round.delivery = claimed) ∧
      (commitsOf (sampleDispatchRun.history .overtaken) = [] ∨ ∃ claimed rounds,
        Dispatched sampleDispatchSettings (sampleTime 6) sampleDispatchRun.committed
          (sampleDispatchRun.history .overtaken) claimed rounds) := by
  have all := dispatch_runs (referencePlatform fun _ => []) (fun _ _ => []) sampleOutbox rfl rfl
    sampleOutboxCalls sampleDispatchRun (play_reachable _ _ _)
  obtain ⟨claimed, rounds, dispatched, through, -⟩ :=
    (all.2 .second _ _ rfl).1 _ (returned_eq sampleDispatchRun_ends.1)
  exact ⟨all.1, ⟨claimed, rounds, dispatched, through⟩,
    (all.2 .overtaken _ _ rfl).2 _ (raisedIn_eq sampleDispatchRun_ends.2)⟩

end DecAustrum
