import DecAustrum.DispatchRuns
import DecAustrum.Python.IntText

/-!
# A dispatcher alone

Alone, a dispatcher gets through the deliveries of its claim up to the first answer that cannot be
recorded: a status code outside of what the table accepts. It raises there, and leaves that delivery
and the ones after it in processing, with no attempt counted.
-/
namespace DecAustrum

open Python Transaction Table WebhookRepository

/-! ## Answers -/

/-- The answer can be recorded as an attempt. -/
def TransportAnswer.recordable : TransportAnswer → Bool
  | .response statusCode => 100 ≤ statusCode && statusCode ≤ 599
  | .transportError _ => true
  | .raised _ => false

def TransportAnswer.succeeds : TransportAnswer → Bool
  | .response statusCode => 200 ≤ statusCode && statusCode < 300
  | _ => false

/-- What is recorded of an answer: its outcome, its status code and its error. -/
structure TransportAnswer.RecordedAs (answer : TransportAnswer) (outcome : WebhookDeliveryOutcome)
    (statusCode : Option Int) (error : Option Str) : Prop where
  recorded : WebhookService.outcomeOf answer = .ok (outcome, statusCode, error)
  accepted : statusCodeAccepted statusCode = true
  success : outcome = .success ↔ answer.succeeds = true

theorem intStr_statusCode {statusCode : Int} (low : 100 ≤ statusCode) (high : statusCode ≤ 599) :
    intStr statusCode = .ok (Json.intText statusCode) := by
  have digits : Json.withinDigitLimit statusCode = true := by
    have short := decimal_length_of_lt (n := statusCode.natAbs) (k := 3) (by omega)
    rw [Json.withinDigitLimit, decide_eq_true_eq]
    omega
  rw [intStr, if_pos digits]

theorem TransportAnswer.recordedAs {answer : TransportAnswer} (fits : answer.recordable = true) :
    ∃ outcome statusCode error, answer.RecordedAs outcome statusCode error := by
  cases answer with
  | response statusCode =>
    simp only [recordable, Bool.and_eq_true, decide_eq_true_eq] at fits
    by_cases success : 200 ≤ statusCode ∧ statusCode < 300
    · refine ⟨.success, some statusCode, none, ?_, ?_, ?_⟩
      · rw [WebhookService.outcomeOf, if_pos success]
      · simpa [statusCodeAccepted] using fits
      · simpa [succeeds] using success
    · refine ⟨.httpError, some statusCode,
        some ("Webhook endpoint returned HTTP " ++ Json.intText statusCode ++ "."), ?_, ?_, ?_⟩
      · rw [WebhookService.outcomeOf, if_neg success, intStr_statusCode fits.1 fits.2]
        rfl
      · simpa [statusCodeAccepted] using fits
      · simpa [succeeds] using success
  | transportError message =>
    exact ⟨.networkError, none, some message, rfl, rfl, by simp [succeeds]⟩
  | raised exc => cases fits

/-- An answer that cannot be recorded raises, or is refused by the table. -/
theorem TransportAnswer.unrecordable {answer : TransportAnswer} (refused : answer.recordable = false) :
    (∃ exc, WebhookService.outcomeOf answer = .error exc) ∨
      ∃ outcome statusCode error, WebhookService.outcomeOf answer = .ok (outcome, statusCode, error) ∧
        statusCodeAccepted statusCode = false := by
  cases answer with
  | response statusCode =>
    have outside : statusCodeAccepted (some statusCode) = false := by
      simpa [statusCodeAccepted, recordable] using refused
    by_cases success : 200 ≤ statusCode ∧ statusCode < 300
    · refine .inr ⟨.success, some statusCode, none, ?_, outside⟩
      rw [WebhookService.outcomeOf, if_pos success]
    · rw [WebhookService.outcomeOf, if_neg success]
      cases intStr statusCode with
      | error exc => exact .inl ⟨exc, rfl⟩
      | ok text => exact .inr ⟨.httpError, some statusCode, _, rfl, outside⟩
  | transportError message => cases refused
  | raised exc => exact .inl ⟨exc, rfl⟩

/-! ## One round -/

/-- What a request for a delivery needs. -/
def Sendable (hmac : Bytes → Bytes → Bytes) (settings : DispatchSettings) (dispatchTime : UtcDatetime)
    (db : Database) (d : WebhookDelivery) : Prop :=
  ∃ row s payload headers,
    (db.events.find? fun row => row.event.eventId = d.eventId && row.event.projectId = d.projectId) =
      some row ∧
    db.subscriptions.find? (subscriptionIs d.projectId d.subscriptionId) = some s ∧
    s.status = .active ∧ encodeUtf8 row.payload = some payload ∧
    WebhookService.requestHeaders hmac settings dispatchTime d ⟨row.event, s, payload⟩ = .ok headers

/-- What the rounds for the deliveries need. Each connection draws the identifier of its attempt. -/
structure Dispatchable (hmac : Bytes → Bytes → Bytes) (settings : DispatchSettings)
    (dispatchTime : UtcDatetime) (db : Database) (draws : ℕ → ℕ → Uuid)
    (claimed : List WebhookDelivery) : Prop where
  attempts : OutboxAttempts db
  ids : (claimed.map (·.deliveryId)).Nodup
  rows : ∀ d ∈ claimed, d ∈ db.deliveries ∧ d.status = .processing
  sendable : ∀ d ∈ claimed, Sendable hmac settings dispatchTime db d
  retries : ∀ n, ∃ next, dispatchTime.addSeconds (settings.policy.retrySeconds n) = some next
  fresh : ∀ i, i < 2 * claimed.length → ∀ a ∈ db.attempts, a.attemptId ≠ draws i 0
  distinct : ∀ i j, i < 2 * claimed.length → j < 2 * claimed.length → draws i 0 = draws j 0 → i = j

section

variable {hmac : Bytes → Bytes → Bytes} {settings : DispatchSettings} {dispatchTime : UtcDatetime}
variable {db : Database} {draws : ℕ → ℕ → Uuid} {d : WebhookDelivery} {rest : List WebhookDelivery}

theorem exec_getDispatchItem {row : WebhookEventRow} {s : WebhookSubscription} {payload : Bytes}
    {own : ℕ → Uuid}
    (event : (db.events.find? fun row => row.event.eventId = d.eventId &&
      row.event.projectId = d.projectId) = some row)
    (subscription : db.subscriptions.find? (subscriptionIs d.projectId d.subscriptionId) = some s)
    (encoded : encodeUtf8 row.payload = some payload) :
    (getDispatchItem d).exec own db = .ok (⟨row.event, s, payload⟩, own, db) := by
  unfold getDispatchItem getSubscriptionWithConnection
  rw [exec_query_bind, exec_query_bind, event, subscription]
  dsimp only
  rw [Block.exec_bind, exec_ofPython, encoded]
  rfl

theorem exec_resultOf (retries : ∀ n, ∃ next,
      dispatchTime.addSeconds (settings.policy.retrySeconds n) = some next)
    (outcome : WebhookDeliveryOutcome) (own : ℕ → Uuid) :
    ∃ result, (resultOf settings.policy d.projectId d dispatchTime outcome).exec own db =
      .ok (result, own, db) := by
  have failed : ∃ result, (do
      let subscription ← getSubscriptionWithConnection d.projectId d.subscriptionId
      if subscription.all fun s => s.status = .disabled then
        return ⟨.cancelled, d.failureCount + 1, none, none⟩
      else if settings.policy.maxAttempts ≤ d.failureCount + 1 then
        return ⟨.deadLetter, d.failureCount + 1, none, none⟩
      else do
        let next ← ofPython (orRaise .overflowError
          (dispatchTime.addSeconds (settings.policy.retrySeconds (d.failureCount + 1))))
        return ⟨.retryScheduled, d.failureCount + 1, some next, none⟩ :
        Body DeliveryResult).exec own db = .ok (result, own, db) := by
    unfold getSubscriptionWithConnection
    rw [exec_query_bind]
    split
    · exact ⟨_, rfl⟩
    · split
      · exact ⟨_, rfl⟩
      · obtain ⟨next, scheduled⟩ := retries (d.failureCount + 1)
        rw [Block.exec_bind, exec_ofPython, scheduled]
        exact ⟨_, rfl⟩
  cases outcome with
  | success => exact ⟨_, rfl⟩
  | httpError => exact failed
  | networkError => exact failed

/-- An attempt is inserted under a fresh identifier and number, if its status code is accepted. -/
theorem exec_insertAttempt (attempt : WebhookDeliveryAttempt) (own : ℕ → Uuid)
    (positive : 1 ≤ attempt.attemptNumber) (row : ∃ d ∈ db.deliveries, d.deliveryId = attempt.deliveryId)
    (fresh : ∀ a ∈ db.attempts, a.attemptId ≠ attempt.attemptId)
    (free : attempt.attemptNumber ∉ attemptNumbers db.attempts attempt.deliveryId) :
    (insertAttempt attempt).exec own db =
      if statusCodeAccepted attempt.statusCode then
        .ok ((), own, { db with attempts := db.attempts ++ [attempt] })
      else .error integrityError := by
  have unused : (db.attempts.any fun other => other.attemptId = attempt.attemptId ||
      (other.deliveryId = attempt.deliveryId && other.attemptNumber = attempt.attemptNumber)) =
      false := by
    rw [List.any_eq_false]
    intro other member
    simp only [Bool.or_eq_true, Bool.and_eq_true, decide_eq_true_eq, not_or, not_and]
    exact ⟨fresh other member, fun its number => free (mem_attemptNumbers.mpr ⟨other, member, its,
      number⟩)⟩
  have referenced : (db.deliveries.any fun d => d.deliveryId = attempt.deliveryId) = true := by
    obtain ⟨d, member, its⟩ := row
    exact List.any_eq_true.mpr ⟨d, member, decide_eq_true its⟩
  rw [insertAttempt, exec_insertRow, unused, referenced, decide_eq_true positive]
  simp

theorem OutboxAttempts.find (kept : OutboxAttempts db) (member : d ∈ db.deliveries) :
    db.deliveries.find? (deliveryIs d.projectId d.deliveryId) = some d := by
  cases found : db.deliveries.find? (deliveryIs d.projectId d.deliveryId) with
  | none =>
    have missed := List.find?_eq_none.mp found d member
    simp [deliveryIs] at missed
  | some e =>
    have its := List.find?_some found
    simp only [deliveryIs, Bool.and_eq_true, decide_eq_true_eq] at its
    rw [kept.keys.eq (List.mem_of_find?_eq_some found) member rfl (by rw [its.2])]

theorem Attempted.next_free {attempts : List WebhookDeliveryAttempt}
    (attempted : Attempted attempts d) (claimed : d.status = .processing) :
    d.attemptCount + 1 ∉ attemptNumbers attempts d.deliveryId := by
  rcases attempted.numbered with numbered | ⟨cancelled, -⟩
  · rw [numbered, List.mem_range'_1]
    omega
  · rw [claimed] at cancelled
    cases cancelled

theorem OutboxAttempts.exec_recordBody (kept : OutboxAttempts db) (member : d ∈ db.deliveries)
    (claimed : d.status = .processing) (outcome : WebhookDeliveryOutcome) (statusCode : Option Int)
    (error : Option Str) (own : ℕ → Uuid) :
    (recordBody settings.policy d.projectId d.deliveryId dispatchTime dispatchTime outcome statusCode
      error).exec own db = (recordAttempt settings.policy d.projectId d.deliveryId dispatchTime
        dispatchTime outcome statusCode error d).exec own db := by
  unfold recordBody getDeliveryWithConnection
  rw [exec_query_bind, kept.find member]
  dsimp only
  rw [if_neg (not_not.mpr claimed)]

/-- The record of an attempt stands or falls with its status code. -/
theorem exec_recordBody (ready : Dispatchable hmac settings dispatchTime db draws (d :: rest))
    (outcome : WebhookDeliveryOutcome) (statusCode : Option Int) (error : Option Str) :
    if statusCodeAccepted statusCode then
      ∃ updated left db', (recordBody settings.policy d.projectId d.deliveryId dispatchTime dispatchTime
        outcome statusCode error).exec (draws 1) db = .ok (updated, left, db')
    else (recordBody settings.policy d.projectId d.deliveryId dispatchTime dispatchTime outcome
        statusCode error).exec (draws 1) db = .error integrityError := by
  obtain ⟨member, claimed⟩ := ready.rows d (List.mem_cons_self ..)
  have inserted := exec_insertAttempt ⟨draws 1 0, d.deliveryId, d.attemptCount + 1, dispatchTime,
      dispatchTime, outcome, statusCode, error.map (·.take 1000)⟩ (fun n => draws 1 (n + 1))
    (Nat.le_add_left 1 _) ⟨d, member, rfl⟩ (ready.fresh 1 (by rw [List.length_cons]; omega))
    ((ready.attempts.deliveries d member).next_free claimed)
  rw [ready.attempts.exec_recordBody member claimed]
  unfold recordAttempt
  rw [Block.exec_bind, Block.exec_fresh]
  dsimp only
  rw [Block.exec_bind, inserted]
  split
  next accepted =>
    dsimp only
    obtain ⟨result, decided⟩ : ∃ result, (resultOf settings.policy d.projectId d dispatchTime
        outcome).exec (fun n => draws 1 (n + 1)) { db with attempts := db.attempts ++ [_] } =
          .ok (result, _, _) := exec_resultOf ready.retries outcome _
    rw [Block.exec_bind, decided]
    dsimp only
    rw [Block.exec_bind, Block.exec_statement]
    exact ⟨_, _, _, rfl⟩
  next => rfl

theorem recordAttempt_draws {policy : RetryPolicy} {projectId deliveryId : Uuid}
    {attemptedAt completedAt : UtcDatetime} {outcome : WebhookDeliveryOutcome}
    {statusCode : Option Int} {error : Option Str} {current : WebhookDelivery}
    {updated : Option WebhookDelivery} {own left : ℕ → Uuid} {db' : Database}
    (ran : (recordAttempt policy projectId deliveryId attemptedAt completedAt outcome statusCode
      error current).exec own db = .ok (updated, left, db')) :
    ∀ a ∈ db'.attempts, a ∈ db.attempts ∨ a.attemptId = own 0 := by
  unfold recordAttempt at ran
  rw [Block.exec_bind, Block.exec_fresh] at ran
  dsimp only at ran
  rw [Block.exec_bind_eq_ok] at ran
  obtain ⟨_, draws₂, db₂, inserted, ran⟩ := ran
  rw [insertAttempt, exec_insertRow] at inserted
  split at inserted
  · cases inserted
    rw [Block.exec_bind_eq_ok] at ran
    obtain ⟨result, draws₃, db₃, decided, ran⟩ := ran
    obtain ⟨-, -, rfl⟩ := resultOf_ok decided
    rw [Block.exec_bind_eq_ok] at ran
    obtain ⟨_, draws₄, db₄, written, ran⟩ := ran
    rw [Block.exec_statement] at written
    split at written
    · cases written
      cases ran
      intro a member
      rcases List.mem_append.mp member with old | new
      · exact .inl old
      · rw [List.mem_singleton.mp new]
        exact .inr rfl
    · cases written
  · cases inserted

/-! ### The round as a whole -/

open WebhookService

/-- The attempt of a delivery with the answer it got. -/
structure AttemptFor (p : WebhookDelivery × TransportAnswer) (a : WebhookDeliveryAttempt) : Prop where
  deliveryId : a.deliveryId = p.1.deliveryId
  number : a.attemptNumber = p.1.attemptCount + 1
  answer : ∃ error, p.2.RecordedAs a.outcome a.statusCode error

/-- What a round that records its answer leaves. -/
structure RoundAlone (dispatchTime : UtcDatetime) (d : WebhookDelivery) (answer : TransportAnswer)
    (s t : Database) (status : WebhookDeliveryStatus) : Prop where
  attempts : OutboxAttempts t
  events : t.events = s.events
  subscriptions : t.subscriptions = s.subscriptions
  recorded : ∃ a, AttemptFor (d, answer) a ∧ t.attempts = s.attempts ++ [a]
  delivery : ∃ d' ∈ t.deliveries, d'.deliveryId = d.deliveryId ∧ d'.status = status ∧
    d'.attemptCount = d.attemptCount + 1
  success : status = .delivered ↔ answer.succeeds = true
  finished : status ≠ .pending ∧ status ≠ .processing
  others : ∀ e, e.deliveryId ≠ d.deliveryId → (e ∈ t.deliveries ↔ e ∈ s.deliveries)

/-- Alone, a claimed delivery is sent: its subscription is still active. -/
theorem run_dispatchDelivery_asked {α : Type}
    (ready : Dispatchable hmac settings dispatchTime db draws (d :: rest)) (answers : ℕ → TransportAnswer)
    (next : WebhookDeliveryStatus → Dispatch α) :
    (dispatchDelivery hmac settings dispatchTime d >>= next).run draws answers db =
      (recordAnswer settings dispatchTime d (answers 0) >>= next).run (fun n => draws (n + 1))
        (fun n => answers (n + 1)) db := by
  obtain ⟨row, s, payload, headers, event, subscription, active, encoded, built⟩ :=
    ready.sendable d (List.mem_cons_self ..)
  unfold dispatchDelivery
  rw [bind_assoc, Session.run_within, exec_getDispatchItem event subscription encoded]
  dsimp only
  rw [if_neg (not_not.mpr active), bind_assoc, Session.run_check_bind, built]
  rfl

theorem run_dispatchDelivery {α : Type}
    (ready : Dispatchable hmac settings dispatchTime db draws (d :: rest)) (answers : ℕ → TransportAnswer)
    (recordable : (answers 0).recordable = true) :
    ∃ status db', RoundAlone dispatchTime d (answers 0) db db' status ∧
      (∀ a ∈ db'.attempts, a ∈ db.attempts ∨ a.attemptId = draws 1 0) ∧
      ∀ next : WebhookDeliveryStatus → Dispatch α,
        (dispatchDelivery hmac settings dispatchTime d >>= next).run draws answers db =
          (next status).run (fun n => draws (n + 2)) (fun n => answers (n + 1)) db' := by
  obtain ⟨outcome, statusCode, error, recorded⟩ := TransportAnswer.recordedAs recordable
  obtain ⟨member, claimed⟩ := ready.rows d (List.mem_cons_self ..)
  have ran := exec_recordBody ready outcome statusCode error
  rw [if_pos recorded.accepted] at ran
  obtain ⟨updated, left, db', ran⟩ := ran
  have attempted := ran
  rw [ready.attempts.exec_recordBody member claimed] at attempted
  obtain ⟨⟨kept, -⟩, attemptId, d', rfl, adds⟩ := attempts_recordAttempt ready.attempts
    (OutboxGrows.refl db) (ready.attempts.find member) claimed attempted
  obtain ⟨old, inRows, d'', inLater, its, itsNow, status, number, records⟩ := adds.delivery
  obtain rfl : old = d := ready.attempts.keys.eq inRows member (by rw [its]; rfl) rfl
  obtain ⟨_, _, -, -, written, -⟩ := recordAttempt_ok attempted
  have counted : d''.attemptCount = old.attemptCount + 1 ∧
      (d''.status = .delivered ↔ outcome = .success) ∧
      d''.status ≠ .pending ∧ d''.status ≠ .processing := by
    cases records with
    | counted _ count success finished => exact ⟨count.trans number, success, finished⟩
    | late cancelled _ =>
      rw [claimed] at cancelled
      cases cancelled
  rw [status] at counted
  refine ⟨d'.status, db', ⟨kept, ?_, ?_, ?_, ?_, ?_, ?_, ?_⟩, recordAttempt_draws attempted, ?_⟩
  · rw [written]
  · rw [written]
  · exact ⟨_, ⟨rfl, rfl, error, recorded⟩, adds.attempts⟩
  · exact ⟨d'', inLater, itsNow.trans its.symm, status, counted.1⟩
  · exact counted.2.1.trans recorded.success
  · exact counted.2.2
  · intro e apart
    rw [written]
    constructor
    · intro inTable
      obtain ⟨was, inOld, ⟨hit, rfl⟩ | ⟨-, rfl⟩⟩ := mem_updateWhere.mp inTable
      · simp only [deliveryIs, Bool.and_eq_true, decide_eq_true_eq] at hit
        exact absurd hit.1.2 apart
      · exact inOld
    · exact fun inOld => mem_updateWhere.mpr ⟨e, inOld, .inr ⟨by simp [deliveryIs, apart], rfl⟩⟩
  · intro next
    rw [run_dispatchDelivery_asked ready]
    unfold recordAnswer
    rw [bind_assoc, Session.run_check_bind, recorded.recorded]
    dsimp only [Except.mapError]
    unfold recordDeliveryResult
    rw [bind_assoc, bind_assoc, Session.run_within, ran]
    rfl

theorem run_dispatchDelivery_refused {α : Type}
    (ready : Dispatchable hmac settings dispatchTime db draws (d :: rest)) (answers : ℕ → TransportAnswer)
    (refused : (answers 0).recordable = false) :
    ∃ exc, ∀ next : WebhookDeliveryStatus → Dispatch α,
      (dispatchDelivery hmac settings dispatchTime d >>= next).run draws answers db = (.error exc, db) := by
  rcases TransportAnswer.unrecordable refused with ⟨exc, raised⟩ | ⟨outcome, statusCode, error, made, outside⟩
  · refine ⟨.python exc, fun next => ?_⟩
    rw [run_dispatchDelivery_asked ready]
    unfold recordAnswer
    rw [bind_assoc, Session.run_check_bind, raised]
    rfl
  · -- the table refuses the status code, and the transaction rolls back
    have ran := exec_recordBody ready outcome statusCode error
    rw [outside, if_neg Bool.false_ne_true] at ran
    refine ⟨integrityError, fun next => ?_⟩
    rw [run_dispatchDelivery_asked ready]
    unfold recordAnswer
    rw [bind_assoc, Session.run_check_bind, made]
    dsimp only [Except.mapError]
    unfold recordDeliveryResult
    rw [bind_assoc, bind_assoc, Session.run_within, ran]

/-! ## The loop -/

/-- The deliveries up to the first answer that cannot be recorded, with their answers. -/
def recordedAnswers : List WebhookDelivery → (ℕ → TransportAnswer) →
    List (WebhookDelivery × TransportAnswer)
  | [], _ => []
  | d :: rest, answers =>
    if (answers 0).recordable then (d, answers 0) :: recordedAnswers rest fun n => answers (n + 1)
    else []

/-- What the loop leaves, alone. -/
structure LoopAlone (claimed : List WebhookDelivery) (summary : DispatchSummary)
    (answers : ℕ → TransportAnswer) (s t : Database) (result : Except StoreExc DispatchSummary) :
    Prop where
  attempts : ∃ added, t.attempts = s.attempts ++ added ∧
    List.Forall₂ AttemptFor (recordedAnswers claimed answers) added
  settled : ∀ p ∈ recordedAnswers claimed answers, ∃ d' ∈ t.deliveries,
    d'.deliveryId = p.1.deliveryId ∧ d'.attemptCount = p.1.attemptCount + 1 ∧
      (d'.status = .delivered ↔ p.2.succeeds = true) ∧ d'.status ≠ .pending ∧ d'.status ≠ .processing
  left : ∀ d ∈ claimed.drop (recordedAnswers claimed answers).length, d ∈ t.deliveries
  others : ∀ e, e.deliveryId ∉ claimed.map (·.deliveryId) → (e ∈ t.deliveries ↔ e ∈ s.deliveries)
  returned : (recordedAnswers claimed answers).length = claimed.length → ∃ final, result = .ok final ∧
    final.claimed = summary.claimed ∧ final.counted = summary.counted + claimed.length ∧
    final.delivered = summary.delivered + (recordedAnswers claimed answers).countP (·.2.succeeds)
  raised : (recordedAnswers claimed answers).length < claimed.length → ∃ exc, result = .error exc

theorem Dispatchable.next (ready : Dispatchable hmac settings dispatchTime db draws (d :: rest))
    {answer : TransportAnswer} {db' : Database} {status : WebhookDeliveryStatus}
    (round : RoundAlone dispatchTime d answer db db' status)
    (drawn : ∀ a ∈ db'.attempts, a ∈ db.attempts ∨ a.attemptId = draws 1 0) :
    Dispatchable hmac settings dispatchTime db' (fun n => draws (n + 2)) rest := by
  obtain ⟨apart, unique⟩ := List.nodup_cons.mp ready.ids
  have more : 2 * (d :: rest).length = 2 * rest.length + 2 := by
    rw [List.length_cons]
    omega
  refine ⟨round.attempts, unique, ?_, ?_, ready.retries, ?_, ?_⟩
  · intro e member
    obtain ⟨inRows, claimed⟩ := ready.rows e (List.mem_cons_of_mem _ member)
    have other : e.deliveryId ≠ d.deliveryId := by
      intro same
      exact apart (List.mem_map.mpr ⟨e, member, same⟩)
    exact ⟨(round.others e other).mpr inRows, claimed⟩
  · intro e member
    have sendable := ready.sendable e (List.mem_cons_of_mem _ member)
    rwa [Sendable, round.events, round.subscriptions]
  · intro i bound a member same
    rcases drawn a member with old | new
    · exact ready.fresh (i + 2) (by omega) a old same
    · have index := ready.distinct 1 (i + 2) (by omega) (by omega) (new.symm.trans same)
      omega
  · intro i j boundI boundJ same
    have index := ready.distinct (i + 2) (j + 2) (by omega) (by omega) same
    omega

theorem count_delivered (summary : DispatchSummary) (status : WebhookDeliveryStatus) :
    (summary.count status).delivered =
      summary.delivered + if status = .delivered then 1 else 0 := by
  cases status <;> rfl

theorem run_dispatchClaimed (claimed : List WebhookDelivery) (summary : DispatchSummary)
    (answers : ℕ → TransportAnswer)
    (ready : Dispatchable hmac settings dispatchTime db draws claimed) :
    ∃ result db', (dispatchClaimed hmac settings dispatchTime claimed summary).run draws answers db =
      (result, db') ∧ LoopAlone claimed summary answers db db' result := by
  induction claimed generalizing summary answers db draws with
  | nil =>
    refine ⟨.ok summary, db, rfl, ⟨[], (List.append_nil _).symm, .nil⟩, ?_, ?_, ?_, ?_, ?_⟩
    · exact fun p member => by cases member
    · exact fun d member => by cases member
    · exact fun _ _ => Iff.rfl
    · exact fun _ => ⟨summary, rfl, rfl, rfl, rfl⟩
    · exact fun impossible => absurd impossible (Nat.lt_irrefl 0)
  | cons d rest ih =>
    cases fits : (answers 0).recordable with
    | false =>
      obtain ⟨exc, raises⟩ := run_dispatchDelivery_refused (α := DispatchSummary) ready answers fits
      have stops : recordedAnswers (d :: rest) answers = [] := by simp [recordedAnswers, fits]
      refine ⟨.error exc, db, raises _, ⟨[], (List.append_nil _).symm, ?_⟩, ?_, ?_, ?_, ?_, ?_⟩
      · rw [stops]
        exact .nil
      · rw [stops]
        exact fun p member => by cases member
      · rw [stops]
        exact fun e member => (ready.rows e member).1
      · exact fun _ _ => Iff.rfl
      · rw [stops]
        exact fun impossible => by cases impossible
      · exact fun _ => ⟨exc, rfl⟩
    | true =>
      obtain ⟨status, between, round, drawn, continues⟩ :=
        run_dispatchDelivery (α := DispatchSummary) ready answers fits
      obtain ⟨result, db', ran, ends⟩ := ih (summary.count status) (fun n => answers (n + 1))
        (ready.next round drawn)
      have goes : recordedAnswers (d :: rest) answers =
          (d, answers 0) :: recordedAnswers rest fun n => answers (n + 1) := by
        simp [recordedAnswers, fits]
      obtain ⟨a, its, first⟩ := round.recorded
      obtain ⟨added, later, all⟩ := ends.attempts
      obtain ⟨apart, -⟩ := List.nodup_cons.mp ready.ids
      refine ⟨result, db', (continues _).trans ran, ⟨a :: added, ?_, ?_⟩, ?_, ?_, ?_, ?_, ?_⟩
      · rw [later, first, List.append_assoc]
        rfl
      · rw [goes]
        exact .cons its all
      · rw [goes]
        intro p member
        rcases List.mem_cons.mp member with rfl | inRest
        · -- the later rounds leave its row alone
          obtain ⟨d', inBetween, same, isStatus, count⟩ := round.delivery
          refine ⟨d', (ends.others d' ?_).mpr inBetween, same, count, ?_, ?_⟩
          · rwa [same]
          · rw [isStatus]
            exact round.success
          · rw [isStatus]
            exact round.finished
        · exact ends.settled p inRest
      · rw [goes]
        exact ends.left
      · intro e other
        obtain ⟨notIt, notLater⟩ := not_or.mp (mt List.mem_cons.mpr other)
        exact (ends.others e notLater).trans (round.others e notIt)
      · rw [goes]
        intro through
        obtain ⟨final, done, claimed, counted, delivered⟩ := ends.returned (Nat.succ.inj through)
        refine ⟨final, done, ?_, ?_, ?_⟩
        · rw [claimed]
          cases status <;> rfl
        · rw [counted, count_counted summary round.finished, List.length_cons]
          omega
        · rw [delivered, List.countP_cons, count_delivered]
          simp only [round.success]
          omega
      · rw [goes]
        exact fun short => ends.raised (Nat.lt_of_succ_lt_succ short)

/-! ## The call -/

theorem recordedAnswers_length_le (claimed : List WebhookDelivery) (answers : ℕ → TransportAnswer) :
    (recordedAnswers claimed answers).length ≤ claimed.length := by
  induction claimed generalizing answers with
  | nil => exact Nat.le_refl 0
  | cons d rest ih =>
    unfold recordedAnswers
    split
    · exact Nat.succ_le_succ (ih _)
    · exact Nat.zero_le _

theorem recordedAnswers_length_eq (claimed : List WebhookDelivery) (answers : ℕ → TransportAnswer) :
    (recordedAnswers claimed answers).length = claimed.length ↔
      ∀ i < claimed.length, (answers i).recordable = true := by
  induction claimed generalizing answers with
  | nil => simp [recordedAnswers]
  | cons d rest ih =>
    unfold recordedAnswers
    split
    next fits =>
      rw [List.length_cons, List.length_cons, Nat.succ_inj, ih, Nat.forall_lt_succ_left]
      exact (and_iff_right fits).symm
    next refused =>
      constructor
      · intro impossible
        cases impossible
      · intro all
        exact absurd (all 0 (Nat.succ_pos _)) refused

/-- An outbox that can be dispatched: what its deliveries refer to is there, and their requests can
be built. -/
structure ReadyOutbox (hmac : Bytes → Bytes → Bytes) (settings : DispatchSettings)
    (dispatchTime : UtcDatetime) (db : Database) (draws : ℕ → ℕ → Uuid) : Prop where
  attempts : OutboxAttempts db
  subscriptions : UniqueKey (fun s => some s.subscriptionId) db.subscriptions
  references : ∀ d ∈ db.deliveries, ∃ row s payload headers,
    (db.events.find? fun row => row.event.eventId = d.eventId && row.event.projectId = d.projectId) =
      some row ∧
    db.subscriptions.find? (subscriptionIs d.projectId d.subscriptionId) = some s ∧
    encodeUtf8 row.payload = some payload ∧
    WebhookService.requestHeaders hmac settings dispatchTime d ⟨row.event, s, payload⟩ = .ok headers
  lease : ∃ lease, dispatchTime.addSeconds settings.leaseSeconds = some lease
  retries : ∀ n, ∃ next, dispatchTime.addSeconds (settings.policy.retrySeconds n) = some next
  fresh : ∀ i ≤ 2 * settings.limit, ∀ a ∈ db.attempts, a.attemptId ≠ draws i 0
  distinct : ∀ i ≤ 2 * settings.limit, ∀ j ≤ 2 * settings.limit, draws i 0 = draws j 0 → i = j

/-- What a claim selects has an active subscription. -/
theorem claimBody_active {lease : UtcDatetime} {claimed : List WebhookDelivery} {own left : ℕ → Uuid}
    {db' : Database} (kept : OutboxAttempts db)
    (ran : (claimBody dispatchTime lease settings.limit).exec own db = .ok (claimed, left, db')) :
    db'.subscriptions = db.subscriptions ∧ db'.events = db.events ∧ left = own ∧
      ∀ d ∈ claimed, subscriptionHas .active db d = true ∧ ∃ old ∈ db.deliveries,
        d = claimedDelivery lease dispatchTime old := by
  rw [exec_claimBody] at ran
  split at ran
  · cases ran
    exact ⟨rfl, rfl, rfl, fun d member => by cases member⟩
  · cases ran
    refine ⟨rfl, rfl, rfl, fun d member => ?_⟩
    rw [List.mem_insertionSort, List.mem_filter] at member
    obtain ⟨inLeased, chosen⟩ := member
    obtain ⟨due, inDue, its, active, isDue⟩ := mem_dueDeliveries (by simpa using chosen)
    obtain ⟨old, inOld, ⟨-, rfl⟩ | ⟨skipped, rfl⟩⟩ := mem_updateWhere.mp inLeased
    · -- what is due was not cancelled by the claim itself
      have keys : UniqueKey (fun d => some d.deliveryId) (db.cancelEnded dispatchTime).deliveries := by
        refine (uniqueKey_updateWhere ?_).mpr kept.keys
        exact fun _ _ _ => rfl
      obtain rfl : due = old := keys.eq inDue inOld rfl (by rw [its]; rfl)
      obtain ⟨was, inRows, ⟨-, rfl⟩ | ⟨-, rfl⟩⟩ := mem_updateWhere.mp inDue
      · simp [DecAustrum.WebhookRepository.isDue, isQueued, leaseEnded, cancelledDelivery] at isDue
      · exact ⟨active, due, inRows, rfl⟩
    · rw [skipped] at chosen
      cases chosen

theorem ReadyOutbox.dispatchable (ready : ReadyOutbox hmac settings dispatchTime db draws)
    {lease : UtcDatetime} {claimed : List WebhookDelivery} {left : ℕ → Uuid} {db' : Database}
    (claims : Claimed settings claimed db db')
    (ran : (claimBody dispatchTime lease settings.limit).exec (draws 0) db = .ok (claimed, left, db')) :
    Dispatchable hmac settings dispatchTime db' (fun n => draws (n + 1)) claimed := by
  obtain ⟨subscriptions, events, -, active⟩ := claimBody_active ready.attempts ran
  have bounded := claims.limited
  refine ⟨(attempts_claim ready.attempts _ _ _ ran).1, claims.ids, claims.rows, ?_, ready.retries, ?_, ?_⟩
  · intro d member
    obtain ⟨has, old, inRows, rfl⟩ := active d member
    obtain ⟨row, s, payload, headers, event, subscription, encoded, built⟩ :=
      ready.references old inRows
    refine ⟨row, s, payload, headers, ?_, ?_, ?_, encoded, built⟩
    · rw [events]
      exact event
    · rw [subscriptions]
      exact subscription
    · -- the active subscription of that identifier is the one that is found
      simp only [subscriptionHas, List.any_eq_true, Bool.and_eq_true, decide_eq_true_eq] at has
      obtain ⟨other, inTable, its, isActive⟩ := has
      have found := List.find?_some subscription
      simp only [subscriptionIs, Bool.and_eq_true, decide_eq_true_eq] at found
      have same : other = s := ready.subscriptions.eq inTable (List.mem_of_find?_eq_some subscription)
        rfl (by rw [found.2, its]; rfl)
      rw [← same, isActive]
  · intro i bound a member
    rw [claims.attempts] at member
    exact ready.fresh (i + 1) (by omega) a member
  · intro i j boundI boundJ same
    have index := ready.distinct (i + 1) (by omega) (j + 1) (by omega) same
    omega

theorem exec_claimBody_returns (lease : UtcDatetime) (limit : Nat) (own : ℕ → Uuid) :
    ∃ claimed db', (claimBody dispatchTime lease limit).exec own db = .ok (claimed, own, db') := by
  rw [exec_claimBody]
  split
  · exact ⟨_, _, rfl⟩
  · exact ⟨_, _, rfl⟩

/-- Alone, a dispatcher returns if and only if every answer it gets can be recorded. Up to the first
that cannot, each delivery of the claim has one attempt more, with the answer it got; that delivery
and the later ones stay as they were claimed, in processing and with no attempt counted. -/
theorem dispatch_alone (ready : ReadyOutbox hmac settings dispatchTime db draws)
    (answers : ℕ → TransportAnswer) :
    ∃ lease claimed s result t,
      dispatchTime.addSeconds settings.leaseSeconds = some lease ∧
      (claimBody dispatchTime lease settings.limit).exec (draws 0) db = .ok (claimed, draws 0, s) ∧
      (dispatchPendingWebhooks hmac settings dispatchTime).run draws answers db = (result, t) ∧
      Claimed settings claimed db s ∧
      LoopAlone claimed ⟨claimed.length, 0, 0, 0, 0⟩ answers s t result ∧
      ((∃ summary, result = .ok summary) ↔ ∀ i < claimed.length, (answers i).recordable = true) := by
  obtain ⟨lease, isLease⟩ := ready.lease
  obtain ⟨claimed, s, ran⟩ : ∃ claimed s,
      (claimBody dispatchTime lease settings.limit).exec (draws 0) db = .ok (claimed, draws 0, s) :=
    exec_claimBody_returns lease settings.limit (draws 0)
  have claims := claimBody_claimed ready.attempts ran
  obtain ⟨result, t, looped, ends⟩ := run_dispatchClaimed claimed ⟨claimed.length, 0, 0, 0, 0⟩ answers
    (ready.dispatchable claims ran)
  refine ⟨lease, claimed, s, result, t, isLease, ran, ?_, claims, ends, ?_⟩
  · unfold dispatchPendingWebhooks claimDueDeliveries
    rw [isLease]
    dsimp only
    rw [Session.run_within, ran]
    exact looped
  · rw [← recordedAnswers_length_eq]
    constructor
    · rintro ⟨summary, done⟩
      by_contra short
      obtain ⟨exc, raised⟩ := ends.raised
        (lt_of_le_of_ne (recordedAnswers_length_le claimed answers) short)
      rw [done] at raised
      cases raised
    · intro through
      obtain ⟨final, done, -⟩ := ends.returned through
      exact ⟨final, done⟩

end

/-! ## The second endpoint answers with a status code of its own -/

def sampleSubscription : WebhookSubscription :=
  ⟨⟨2⟩, ⟨1⟩, [0x75], [.all], .active, 1, sampleTime 0, sampleTime 0, none⟩

def sampleOtherSubscription : WebhookSubscription := { sampleSubscription with subscriptionId := ⟨5⟩ }

/-- An event with deliveries to two subscriptions. -/
def sampleTwoDeliveries : Database :=
  { sampleOutbox with
    subscriptions := [sampleSubscription, sampleOtherSubscription]
    events := [⟨sampleEvent, [0x7B, 0x7D], [sampleSubscription, sampleOtherSubscription]⟩]
    deliveries := [pendingDelivery ⟨4⟩ sampleEvent sampleSubscription,
      pendingDelivery ⟨6⟩ sampleEvent sampleOtherSubscription] }

def sampleAttemptIds (i n : ℕ) : Uuid := ⟨Fin.ofNat _ (i + n + 16)⟩

/-- The first endpoint accepts, the second does not answer as the table expects. -/
def sampleAnswers : ℕ → TransportAnswer
  | 0 => .response 204
  | _ + 1 => .response 999

theorem exists_ok {ε α : Type} {x : Except ε α} (ok : x.isOk = true) : ∃ a, x = .ok a := by
  cases x with
  | ok a => exact ⟨a, rfl⟩
  | error exc => cases ok

theorem sampleTwoDeliveries_ready :
    ReadyOutbox (fun _ _ => []) sampleDispatchSettings (sampleTime 8) sampleTwoDeliveries
      sampleAttemptIds where
  attempts := by
    refine ⟨?_, fun a member => (by cases member), fun d member => ?_⟩
    · unfold UniqueKey
      decide
    · rcases List.mem_cons.mp member with rfl | member
      · exact attempted_pending _ _ fun a none => by cases none
      · obtain rfl := List.mem_singleton.mp member
        exact attempted_pending _ _ fun a none => by cases none
  subscriptions := by
    unfold UniqueKey
    decide
  references d member := by
    rcases List.mem_cons.mp member with rfl | member
    · obtain ⟨headers, built⟩ := exists_ok (x := WebhookService.requestHeaders (fun _ _ => []) sampleDispatchSettings
        (sampleTime 8) (pendingDelivery ⟨4⟩ sampleEvent sampleSubscription)
        ⟨sampleEvent, sampleSubscription, [0x7B, 0x7D]⟩) (by decide +kernel)
      exact ⟨_, _, _, headers, rfl, rfl, rfl, built⟩
    · obtain rfl := List.mem_singleton.mp member
      obtain ⟨headers, built⟩ := exists_ok (x := WebhookService.requestHeaders (fun _ _ => []) sampleDispatchSettings
        (sampleTime 8) (pendingDelivery ⟨6⟩ sampleEvent sampleOtherSubscription)
        ⟨sampleEvent, sampleOtherSubscription, [0x7B, 0x7D]⟩) (by decide +kernel)
      exact ⟨_, _, _, headers, rfl, rfl, rfl, built⟩
  lease := Option.isSome_iff_exists.mp (by decide +kernel)
  retries n := by
    have near : ∀ k : Fin 61, ((sampleTime 8).addSeconds (k : ℕ)).isSome = true := by
      decide +kernel
    have positive : (0 : Int) ≤ 10 * 2 ^ (n - 1) := by positivity
    have bounded : sampleDispatchSettings.policy.retrySeconds n = min (10 * 2 ^ (n - 1)) 60 := rfl
    have seconds := near ⟨(sampleDispatchSettings.policy.retrySeconds n).toNat, by omega⟩
    rw [Int.toNat_of_nonneg (by omega)] at seconds
    exact Option.isSome_iff_exists.mp seconds
  fresh i _ a member := by cases member
  distinct i boundI j boundJ same := by
    have apart : ∀ i j : Fin 11, sampleAttemptIds i 0 = sampleAttemptIds j 0 → i = j := by
      decide +kernel
    exact congrArg Fin.val (apart ⟨i, Nat.lt_succ_of_le boundI⟩ ⟨j, Nat.lt_succ_of_le boundJ⟩ same)

def sampleSoleRun : Except StoreExc WebhookService.DispatchSummary × Database :=
  (WebhookService.dispatchPendingWebhooks (fun _ _ => []) sampleDispatchSettings
    (sampleTime 8)).run sampleAttemptIds sampleAnswers sampleTwoDeliveries

theorem sampleSoleRun_raises : sampleSoleRun.1 = .error integrityError := by decide +kernel

/-- The second answer ends the run, and its delivery is left as it was claimed. -/
theorem dispatch_alone_sample : ∃ claimed s,
    LoopAlone claimed ⟨claimed.length, 0, 0, 0, 0⟩ sampleAnswers s sampleSoleRun.2
        (.error integrityError) ∧
      ¬∀ i < claimed.length, (sampleAnswers i).recordable = true := by
  obtain ⟨lease, claimed, s, result, t, -, -, ran, -, ends, returns⟩ :=
    dispatch_alone sampleTwoDeliveries_ready sampleAnswers
  have raises := sampleSoleRun_raises
  rw [sampleSoleRun, ran] at raises
  dsimp only at raises
  subst raises
  refine ⟨claimed, s, ?_, ?_⟩
  · rw [sampleSoleRun, ran]
    exact ends
  · intro all
    obtain ⟨summary, done⟩ := returns.mpr all
    cases done

end DecAustrum
