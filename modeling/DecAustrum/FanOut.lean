import DecAustrum.DeliveryStates
import DecAustrum.EvidenceStore.OutboxUnits

/-!
# Fan-out

Each event of the outbox has one delivery for each active subscription that selected it when it
was inserted, and no other.
-/
namespace DecAustrum

open Python Transaction Table WebhookRepository

/-- The event, the subscription and the project of a delivery. No update changes them. -/
def WebhookDelivery.target (d : WebhookDelivery) : Uuid × Uuid × Uuid :=
  (d.eventId, d.subscriptionId, d.projectId)

/-- The subscription is of the event's project, active, and selects the event. -/
def WebhookSubscription.receives (event : WebhookEvent) (s : WebhookSubscription) : Bool :=
  s.projectId = event.projectId && s.status = .active && s.selects event.eventType

/-- The deliveries of an event are those of its audience, one each. -/
structure FannedOut (deliveries : List WebhookDelivery) (row : WebhookEventRow) : Prop where
  audience : UniqueKey (fun s => some s.subscriptionId) row.audience
  exact : ((deliveries.map (·.target)).filter fun t => t.1 = row.event.eventId).Perm
    ((row.audience.filter (·.receives row.event)).map fun s =>
      (row.event.eventId, s.subscriptionId, row.event.projectId))

structure FanOut (db : Database) : Prop where
  subscriptions : UniqueKey (fun s => some s.subscriptionId) db.subscriptions
  events : UniqueKey (fun row => some row.event.eventId) db.events
  known : ∀ t ∈ db.deliveries.map (·.target), ∃ row ∈ db.events, row.event.eventId = t.1
  fanned : ∀ row ∈ db.events, FannedOut db.deliveries row

variable {platform : Platform} {db db' : Database}

/-! ## One unit -/

/-- Deliveries that keep their targets, and subscriptions that keep their keys. -/
theorem FanOut.of_targets (fanOut : FanOut db) (events : db'.events = db.events)
    (subscriptions : UniqueKey (fun s => some s.subscriptionId) db'.subscriptions)
    (targets : db'.deliveries.map (·.target) = db.deliveries.map (·.target)) : FanOut db' where
  subscriptions := subscriptions
  events := events ▸ fanOut.events
  known := by
    rw [targets, events]
    exact fanOut.known
  fanned row member := by
    have fanned := fanOut.fanned row (events ▸ member)
    exact ⟨fanned.audience, by rw [targets]; exact fanned.exact⟩

theorem FanOut.of_outbox (fanOut : FanOut db) (same : db'.outbox = db.outbox) : FanOut db' := by
  simp only [Database.outbox, Prod.mk.injEq] at same
  obtain ⟨subscriptions, events, deliveries⟩ := same
  exact fanOut.of_targets events (subscriptions ▸ fanOut.subscriptions) (by rw [deliveries])

theorem targets_of_delivers {event : WebhookEvent} {subscriptions : List WebhookSubscription}
    {deliveries : List WebhookDelivery} (delivers : Delivers event subscriptions deliveries) :
    deliveries.map (·.target) = (subscriptions.filter fun s => s.selects event.eventType).map
      fun s => (event.eventId, s.subscriptionId, event.projectId) := by
  obtain ⟨ids, length, rfl⟩ := delivers
  have column : (fun d : WebhookDelivery => d.target) ∘
      (fun p : Uuid × WebhookSubscription => pendingDelivery p.1 event p.2) =
      (fun s : WebhookSubscription => (event.eventId, s.subscriptionId, event.projectId)) ∘
        Prod.snd := rfl
  rw [List.map_map, column, ← List.map_map, List.map_snd_zip (by omega)]

/-- The active subscriptions that select the event are the audience that receives it. -/
theorem activeSubscriptions_perm (event : WebhookEvent) :
    ((db.activeSubscriptions event.projectId).filter fun s => s.selects event.eventType).Perm
      (db.subscriptions.filter (·.receives event)) := by
  have sorted := (List.perm_insertionSort Database.subscriptionLe (db.subscriptions.filter fun s =>
    s.projectId = event.projectId && s.status = .active)).filter
      fun s => s.selects event.eventType
  rw [List.filter_filter] at sorted
  refine sorted.trans (.of_eq (List.filter_congr fun s _ => ?_))
  rw [WebhookSubscription.receives, Bool.and_comm]

theorem fanOut_insertEvent (fanOut : FanOut db) {event : WebhookEvent}
    (published : Published platform event db db') : FanOut db' := by
  obtain ⟨accepted, payload, deliveries, -, delivers, -, rfl⟩ := published
  simp only [Database.eventAccepted, Bool.and_eq_true, Bool.not_eq_true', List.any_eq_false,
    decide_eq_true_eq] at accepted
  obtain ⟨fresh, -⟩ := accepted
  have added := targets_of_delivers delivers
  have addedEvent : ∀ t ∈ deliveries.map (·.target), t.1 = event.eventId := by
    rw [added]
    intro t member
    obtain ⟨s, -, rfl⟩ := List.mem_map.mp member
    rfl
  refine ⟨fanOut.subscriptions, ?_, ?_, ?_⟩
  · refine (uniqueKey_append _).mpr ⟨fanOut.events, fun other member k same => ?_⟩
    cases same
    simpa using fresh other member
  · intro t member
    rw [List.map_append, List.mem_append] at member
    rcases member with old | new
    · obtain ⟨row, inEvents, same⟩ := fanOut.known t old
      exact ⟨row, List.mem_append_left _ inEvents, same⟩
    · exact ⟨_, List.mem_append_right _ (List.mem_singleton_self _), (addedEvent t new).symm⟩
  · intro row member
    rcases List.mem_append.mp member with old | new
    · -- the new deliveries belong to another event
      obtain ⟨audience, exact⟩ := fanOut.fanned row old
      refine ⟨audience, ?_⟩
      have apart : ((deliveries.map (·.target)).filter fun t => t.1 = row.event.eventId) = [] := by
        rw [List.filter_eq_nil_iff]
        intro t inAdded
        rw [addedEvent t inAdded]
        simpa using fun same : event.eventId = row.event.eventId => fresh row old same.symm
      rw [List.map_append, List.filter_append, apart, List.append_nil]
      exact exact
    · -- no older delivery names the new event
      obtain rfl := List.mem_singleton.mp new
      refine ⟨fanOut.subscriptions, ?_⟩
      have none : ((db.deliveries.map (·.target)).filter fun t => t.1 = event.eventId) = [] := by
        rw [List.filter_eq_nil_iff]
        intro t inOld
        obtain ⟨other, inEvents, same⟩ := fanOut.known t inOld
        simpa [← same] using fresh other inEvents
      have all : ((deliveries.map (·.target)).filter fun t => t.1 = event.eventId) =
          deliveries.map (·.target) := by
        rw [List.filter_eq_self]
        simpa using addedEvent
      rw [List.map_append, List.filter_append, none, List.nil_append, all, added]
      exact (activeSubscriptions_perm event).map _

/-- An update of deliveries that keeps the targets. -/
theorem FanOut.update (fanOut : FanOut db) {p : WebhookDelivery → Bool}
    {f : WebhookDelivery → WebhookDelivery} (events : db'.events = db.events)
    (subscriptions : db'.subscriptions = db.subscriptions)
    (deliveries : db'.deliveries = updateWhere p f db.deliveries)
    (kept : ∀ d, (f d).target = d.target) : FanOut db' := by
  refine fanOut.of_targets events (subscriptions ▸ fanOut.subscriptions) ?_
  rw [deliveries]
  exact map_updateWhere_of_eq _ fun d _ _ => kept d

/-- An update of subscriptions that keeps the keys. -/
theorem FanOut.updateSubscriptions (fanOut : FanOut db) {p : WebhookSubscription → Bool}
    {f : WebhookSubscription → WebhookSubscription} (events : db'.events = db.events)
    (deliveries : db'.deliveries = db.deliveries)
    (subscriptions : db'.subscriptions = updateWhere p f db.subscriptions)
    (kept : ∀ s, (f s).subscriptionId = s.subscriptionId) : FanOut db' := by
  refine fanOut.of_targets events ?_ (by rw [deliveries])
  rw [subscriptions]
  exact (uniqueKey_updateWhere fun s _ _ => by rw [kept]).mpr fanOut.subscriptions

/-- The events are the old ones, and perhaps some more. -/
def EventsGrow (db db' : Database) : Prop := db.events <+: db'.events

theorem eventsGrow_refl (db : Database) : EventsGrow db db := List.prefix_rfl

theorem eventsGrow_trans (db₁ db₂ db₃ : Database) (first : EventsGrow db₁ db₂)
    (second : EventsGrow db₂ db₃) : EventsGrow db₁ db₃ := first.trans second

theorem eventsGrow_of_eq (same : db'.events = db.events) : EventsGrow db db' := by
  rw [EventsGrow, same]

theorem fanOut_unit {scope : StoreScope} {β : Type} {x : Body β}
    (unit : StoreUnit platform scope β x) :
    x.Keeps FanOut EventsGrow := by
  rcases unit.outbox with outbox | ⟨immediate, leaves⟩
  · cases outbox with
    | insertEvent event =>
      refine Block.keeps_of_exec ((Block.immediate_check _).bind fun _ => trivial) ?_
      intro draws s deliveries rest t fanOut _ ran
      have published := insertEventWithDeliveries_ok ran
      refine ⟨fanOut_insertEvent fanOut published, ?_⟩
      obtain ⟨-, payload, added, -, -, -, rfl⟩ := published
      exact List.prefix_append _ _
    | insertSubscription subscription =>
      refine Block.keeps_of_exec trivial fun draws s u rest t fanOut _ ran => ?_
      rw [insertSubscription, exec_insertRow] at ran
      split at ran
      · rename_i accepted
        cases ran
        simp only [Bool.and_eq_true, Bool.not_eq_true', List.any_eq_false,
          decide_eq_true_eq] at accepted
        refine ⟨fanOut.of_targets rfl ?_ rfl, eventsGrow_of_eq rfl⟩
        refine (uniqueKey_append _).mpr ⟨fanOut.subscriptions, fun other member k same => ?_⟩
        cases same
        simpa using accepted.1.1.1 other member
      · cases ran
    | disableSubscription projectId subscriptionId disabledAt =>
      refine Block.keeps_of_exec trivial fun draws s u rest t fanOut _ ran => ?_
      rw [exec_disableRows] at ran
      cases ran
      refine ⟨fanOut.of_targets rfl ?_ ?_, eventsGrow_of_eq rfl⟩
      · refine (uniqueKey_updateWhere ?_).mpr fanOut.subscriptions
        exact fun _ _ _ => rfl
      · refine map_updateWhere_of_eq _ ?_
        exact fun _ _ _ => rfl
    | rotateSecret projectId subscriptionId rotatedAt =>
      refine Block.keeps_of_exec trivial fun draws s u rest t fanOut _ ran => ?_
      rw [rotateRows, exec_updateRows] at ran
      cases ran
      exact ⟨fanOut.updateSubscriptions rfl rfl rfl (fun _ => rfl), eventsGrow_of_eq rfl⟩
    | claim now lease limit =>
      refine Block.keeps_of_exec trivial fun draws s claimed rest t fanOut _ ran => ?_
      have cancelled : FanOut (s.cancelEnded now) :=
        fanOut.update rfl rfl rfl fun _ => rfl
      rw [exec_claimBody] at ran
      split at ran
      · cases ran
        exact ⟨cancelled, eventsGrow_of_eq rfl⟩
      · cases ran
        exact ⟨cancelled.update rfl rfl rfl (fun _ => rfl), eventsGrow_of_eq rfl⟩
    | record policy projectId deliveryId attemptedAt completedAt outcome code error =>
      refine Block.keeps_query_bind fun read _ => ?_
      split
      · trivial
      · split
        · trivial
        · refine Block.keeps_of_exec (fun _ => trivial) fun draws s updated rest t fanOut _ ran => ?_
          obtain ⟨attemptId, result, -, -, rfl, -⟩ := recordAttempt_ok ran
          exact ⟨fanOut.update rfl rfl rfl (fun _ => rfl), eventsGrow_of_eq rfl⟩
    | cancel projectId deliveryId cancelledAt reason =>
      refine Block.keeps_of_exec trivial fun draws s cancelled rest t fanOut _ ran => ?_
      rw [exec_cancelBody] at ran
      cases ran
      exact ⟨fanOut.update rfl rfl rfl (fun _ => rfl), eventsGrow_of_eq rfl⟩
    | redeliver projectId deliveryId requestedAt =>
      refine Block.keeps_query_bind fun read _ => ?_
      split
      · trivial
      · split
        · trivial
        · refine Block.keeps_query_bind fun later _ => ?_
          split
          · trivial
          · split
            · trivial
            · refine Block.KeepsFrom.bind eventsGrow_refl eventsGrow_trans ?_ fun _ =>
                Block.keeps_query_bind fun _ _ => ?_
              · refine Block.keeps_of_exec trivial fun draws s u rest t fanOut _ ran => ?_
                rw [redeliverRows, exec_updateRows] at ran
                cases ran
                exact ⟨fanOut.update rfl rfl rfl (fun _ => rfl), eventsGrow_of_eq rfl⟩
              · split <;> trivial
  · refine Block.keeps_of_exec immediate fun draws s b rest t fanOut _ ran => ?_
    have same := leaves draws s b rest t ran
    refine ⟨fanOut.of_outbox same, eventsGrow_of_eq ?_⟩
    simp only [Database.outbox, Prod.mk.injEq] at same
    exact same.2.1

/-! ## Every run -/

theorem fanOut_bodies {ω : Type} (operation : Operation) :
    (operation.session platform : Session Database Uuid ω StoreExc Unit).Bodies
      fun _ body => body.Keeps FanOut EventsGrow :=
  (operation.bodies platform).mono fun _ _ composed =>
    composed.keeps eventsGrow_refl eventsGrow_trans fun _ _ => fanOut_unit

/-- A step that ends no transaction with a commit changes nothing that is committed. -/
theorem committed_of_log {C ω : Type} [DecidableEq C]
    {w w' : World C Database Uuid ω StoreExc Unit} (step : Step anyOpening w w')
    (uncommitted : w'.log = w.log) : w'.committed = w.committed := by
  cases step with
  | commit => simp at uncommitted
  | _ => rfl

/-- From an outbox without events on, under every interleaving of calls of the store: each
committed event has exactly one delivery for each subscription that was active in its project and
selected it when it was inserted, and no other; no commit changes or removes an event or its
audience; and nothing but a commit, so no rollback, leaves anything in the outbox. -/
theorem outbox_fan_out {C ω : Type} [DecidableEq C] (platform : Platform) (start : Database)
    (events : start.events = []) (deliveries : start.deliveries = [])
    (keys : UniqueKey (fun s => some s.subscriptionId) start.subscriptions)
    (operations : C → Operation) (w : World C Database Uuid ω StoreExc Unit)
    (reachable : Reachable anyOpening start (fun c => (operations c).session platform) w) :
    (∀ row ∈ w.committed.events, FannedOut w.committed.deliveries row) ∧
      (∀ d ∈ w.committed.deliveries, ∃ row ∈ w.committed.events, row.event.eventId = d.eventId) ∧
      (∀ entry ∈ w.log, entry.before.events <+: entry.after.events) ∧
      ∀ w', Step anyOpening w w' → w'.log = w.log → w'.committed = w.committed := by
  have fanOut : FanOut start := by
    refine ⟨keys, ?_, ?_, ?_⟩
    · rw [events]
      exact uniqueKey_nil
    · simp [deliveries]
    · simp [events]
  obtain ⟨holds, -, entries⟩ := invariant_reachable eventsGrow_refl eventsGrow_trans anyOpening
    (fun _ _ => True) (fun _ _ _ _ => trivial) start fanOut
    (fun c => (operations c).session platform) (fun c => fanOut_bodies (operations c)) w reachable
  refine ⟨holds.fanned, ?_, fun entry member => (entries entry member).1,
    fun w' step uncommitted => committed_of_log step uncommitted⟩
  exact fun d member => holds.known d.target (List.mem_map_of_mem member)

/-! ## A sample -/

/-- Two administrators of one project. -/
def sampleOperations : Bool → Operation
  | true => .updateProjectStatus ⟨1⟩ .disabled (sampleTime 5) (some sampleContext)
  | false => .disableWebhookSubscription ⟨1⟩ ⟨2⟩ (sampleTime 6) sampleContext

/-- The subscription is read before the status changes, and disabled after. -/
def sampleFanOut : World Bool Database Uuid Unit StoreExc Unit :=
  (World.start sampleOutbox fun c => (sampleOperations c).session (referencePlatform fun _ => [])).play
    (turns () (List.replicate 2 false ++ List.replicate 30 true ++ List.replicate 30 false))

theorem outbox_fan_out_sample :
    (sampleFanOut.committed.events.length = 2 ∧ sampleFanOut.committed.deliveries.length = 1) ∧
      ∀ row ∈ sampleFanOut.committed.events, FannedOut sampleFanOut.committed.deliveries row :=
  ⟨by decide +kernel, (outbox_fan_out (referencePlatform fun _ => []) sampleOutbox rfl rfl
    (by unfold UniqueKey; decide) sampleOperations sampleFanOut (play_reachable _ _ _)).1⟩

end DecAustrum
