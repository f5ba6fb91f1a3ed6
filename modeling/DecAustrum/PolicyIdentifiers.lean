import DecAustrum.AuditTrail
import DecAustrum.EvidenceStore.Operations
import DecAustrum.Storage.AuditEvents
import DecAustrum.Storage.PolicyEffects
import DecAustrum.Transaction.Preserves

/-!
# Policies in the audit trail

A policy is found in the audit trail by its identifier. The trail strips identifiers and bounds
their length, the policy tables do neither: what is kept apart here, and what is not.
-/
namespace DecAustrum

open Python Transaction Table ProjectPolicyRepository
open Block (Preserves preserves_ret preserves_raise preserves_query preserves_statement
  preserves_attempt_bind preserves_check preserves_query_bind preserves_fresh ensures_query_bind)

/-! ## Identifiers -/

/-- The trail has the identifier as it is. -/
def Kept (id : Str) : Prop := ∃ text : SearchText, text.text = id

theorem Kept.validate {id : Str} (kept : Kept id) :
    ∃ text : SearchText, SearchText.validate (.str id) = some text ∧ text.text = id := by
  obtain ⟨text, rfl⟩ := kept
  exact ⟨text, text.validate_text, rfl⟩

/-- Stored policies have such identifiers, and stored versions read back. -/
structure Database.Identifies (db : Database) : Prop where
  policies : ∀ row ∈ db.policies, Kept row.policyId
  versions : ∀ v ∈ db.policyVersions, Kept v.policyId ∧
    validVersionIdentity v.policyId v.version v.policy v.changeType v.sourceVersion = true

/-- The audit events are these, and the policy tables are in order. -/
def Quiet (audit : List AdministrativeAuditEvent) (db : Database) : Prop :=
  db.audit = audit ∧ db.Identifies

/-- No model refuses its values. -/
def NotInvalid (exc : StoreExc) : Prop := exc ≠ .python .validationError

/-! ## Dumps -/

theorem bind_valid {α β : Type} {x : Except PyExc α} {f : α → Except PyExc β}
    (first : x ≠ .error .validationError) (rest : ∀ a, f a ≠ .error .validationError) :
    (x >>= f) ≠ .error .validationError := by
  cases x with
  | ok a => exact rest a
  | error exc => exact fun same => first (congrArg Except.error (Except.error.inj same))

theorem orRaise_valid {α : Type} {exc : PyExc} (other : exc ≠ .validationError) (value : Option α) :
    orRaise exc value ≠ .error .validationError :=
  fun raised => other (error_of_orRaise raised).symm

theorem serializeAny_valid (v : Json) : serializeAny v ≠ .error .validationError := by
  unfold serializeAny
  split
  · exact fun same => by cases same
  · split
    · exact fun same => by cases same
    · exact fun same => by cases same

theorem mapM_valid {α β : Type} {f : α → Except PyExc β} (each : ∀ a, f a ≠ .error .validationError)
    (l : List α) : l.mapM f ≠ .error .validationError := by
  induction l with
  | nil => exact fun same => by cases same
  | cons a l ih =>
    rw [List.mapM_cons]
    exact bind_valid (each a) fun b => bind_valid ih fun rest same => by cases same

theorem Policy.dump_valid (policy : Policy) : policy.dump ≠ .error .validationError :=
  bind_valid (mapM_valid (fun _ => serializeAny_valid _) _) fun _ same => by cases same

theorem WebhookEvent.dump_valid (event : WebhookEvent) : event.dump ≠ .error .validationError :=
  bind_valid (bind_valid (mapM_valid (fun _ => serializeAny_valid _) _) fun _ same => by cases same)
    fun _ same => by cases same

theorem canonicalWebhookPayload_valid (platform : Platform) (event : WebhookEvent) :
    canonicalWebhookPayload platform event ≠ .error .validationError := by
  refine bind_valid event.dump_valid fun dumped => ?_
  refine bind_valid (orRaise_valid (by decide) _) fun text => ?_
  split
  · exact fun same => by cases same
  · exact fun same => by cases same

theorem preserves_ofPython {α : Type} {inv : Database → Prop} {x : Except PyExc α}
    (valid : x ≠ .error .validationError) : (ofPython x).Preserves inv NotInvalid := by
  refine preserves_check fun exc raised => ?_
  cases x with
  | ok a => cases raised
  | error python =>
    cases raised
    exact fun same => valid (congrArg Except.error (StoreExc.python.inj same))

section

variable {audit : List AdministrativeAuditEvent} {projectId : Uuid} {policy : Policy} {policyId : Str}
  {updatedAt : UtcDatetime}

/-! ## Writing policies -/

theorem insertVersion_preserves (kept : Kept policy.id) (changeType : PolicyVersionChangeType)
    (sourceVersion : Option Int) :
    (insertVersion projectId policy changeType updatedAt sourceVersion).Preserves (Quiet audit)
      NotInvalid := by
  refine preserves_statement ?_ ?_
  · intro s t u ⟨same, stored⟩ inserted
    split at inserted
    · cases inserted
    · split at inserted
      next accepted =>
        cases inserted
        refine ⟨same, stored.policies, fun v member => ?_⟩
        rcases List.mem_append.mp member with old | new
        · exact stored.versions v old
        · rw [List.mem_singleton] at new
          subst new
          rw [Bool.and_eq_true] at accepted
          exact ⟨kept, by simp [validVersionIdentity, accepted.2]⟩
      next => cases inserted
  · intro s exc _ raised
    split at raised
    · cases raised
      exact fun same => by cases same
    · split at raised
      · cases raised
      · cases raised
        exact fun same => by cases same

theorem insertPolicy_quiet (kept : Kept policy.id) {s t : Database} {u : Unit} (quiet : Quiet audit s)
    (inserted : insertPolicy projectId policy updatedAt s = .ok (t, u)) : Quiet audit t := by
  obtain ⟨-, rfl⟩ := insertPolicy_ok inserted
  refine ⟨quiet.1, fun row member => ?_, quiet.2.versions⟩
  rcases List.mem_append.mp member with old | new
  · exact quiet.2.policies row old
  · rw [List.mem_singleton] at new
    subst new
    exact kept

theorem insertPolicy_raises {s : Database} {exc : StoreExc}
    (raised : insertPolicy projectId policy updatedAt s = .error exc) : NotInvalid exc := by
  unfold insertPolicy at raised
  split at raised
  · cases raised
    exact fun same => by cases same
  · split at raised
    · cases raised
    · cases raised
      exact fun same => by cases same

theorem insertSeed_preserves (kept : Kept policy.id) :
    (insertSeed projectId policy updatedAt).Preserves (Quiet audit) NotInvalid := by
  unfold insertSeed
  refine Preserves.bind (preserves_statement ?_ ?_) fun rowcount => ?_
  · intro s t n quiet inserted
    unfold insertOrIgnorePolicy at inserted
    split at inserted
    · cases inserted
    split at inserted
    · cases inserted
    split at inserted
    · cases inserted
    split at inserted
    · cases inserted
      exact quiet
    · cases result : insertPolicy projectId policy updatedAt s with
      | ok r =>
        rw [result] at inserted
        cases inserted
        exact insertPolicy_quiet kept quiet result
      | error exc =>
        rw [result] at inserted
        cases inserted
  · intro s exc _ raised
    unfold insertOrIgnorePolicy at raised
    split at raised
    next exc' undumped =>
      cases raised
      exact fun same => policy.dump_valid (undumped.trans (congrArg _ (StoreExc.python.inj same)))
    split at raised
    · cases raised
      exact fun same => by cases same
    split at raised
    · cases raised
      exact fun same => by cases same
    split at raised
    · cases raised
    · cases result : insertPolicy projectId policy updatedAt s with
      | ok r =>
        rw [result] at raised
        cases raised
      | error exc' =>
        rw [result] at raised
        cases raised
        exact insertPolicy_raises result
  · split
    · exact insertVersion_preserves kept _ _
    · exact preserves_ret ()

theorem writePolicy_preserves (kept : Kept policy.id) (changeType : PolicyVersionChangeType)
    (current : Option PolicyRow) :
    (writePolicy projectId policy updatedAt changeType current).Preserves (Quiet audit) NotInvalid := by
  cases current with
  | none =>
    refine preserves_attempt_bind (fun s t u => insertPolicy_quiet kept) (fun _ => preserves_ret _) ?_
    intro s exc _ raised
    have allowed := insertPolicy_raises raised
    dsimp only
    split
    · refine Preserves.bind (preserves_query _) fun concurrent => ?_
      cases concurrent with
      | none => exact preserves_raise allowed
      | some => exact preserves_raise fun same => by cases same
    · exact preserves_raise allowed
  | some current =>
    refine Preserves.bind (preserves_statement ?_ ?_) fun rowcount => ?_
    · intro s t n quiet updated
      obtain ⟨-, rfl⟩ := updatePolicy_ok updated
      refine ⟨quiet.1, fun row member => ?_, quiet.2.versions⟩
      obtain ⟨old, stored, (⟨-, same⟩ | ⟨-, same⟩)⟩ := mem_updateWhere.mp member
      · exact same ▸ quiet.2.policies old stored
      · exact same ▸ quiet.2.policies old stored
    · intro s exc _ raised
      unfold updatePolicy at raised
      dsimp only at raised
      split at raised
      · cases raised
        exact fun same => by cases same
      · cases raised
    · split
      · exact Preserves.bind (preserves_query _) fun concurrent =>
          preserves_raise fun same => by cases same
      · exact preserves_ret _

theorem saveWithConnection_preserves (kept : Kept policy.id) (changeType : PolicyVersionChangeType)
    (sourceVersion : Option Int) :
    (saveWithConnection projectId policy updatedAt changeType sourceVersion).Preserves (Quiet audit)
      NotInvalid := by
  unfold saveWithConnection
  refine Preserves.bind (preserves_query _) fun current => ?_
  split
  · exact preserves_raise fun same => by cases same
  · refine Preserves.bind (preserves_ofPython policy.dump_valid) fun _ => ?_
    refine Preserves.bind ?_ fun _ => ?_
    · refine Preserves.bind (writePolicy_preserves kept _ _) fun effective => ?_
      exact insertVersion_preserves kept _ _
    · refine Preserves.bind (preserves_query _) fun configuration => ?_
      cases configuration with
      | none => exact preserves_raise fun same => by cases same
      | some configuration => exact preserves_ret _

/-- What is restored was stored, under its own identifier. -/
theorem rollbackWithConnection_preserves (sourceVersion : Int) :
    (rollbackWithConnection projectId policyId sourceVersion updatedAt).Preserves (Quiet audit)
      NotInvalid := by
  unfold rollbackWithConnection
  refine Preserves.bind ?_ fun _ => ?_
  · refine preserves_check fun exc raised => ?_
    split at raised
    · cases raised
    · cases raised
      exact fun same => by cases same
  · refine preserves_query_bind fun s quiet => ?_
    cases found : s.policyVersions.find? (versionIs projectId policyId sourceVersion) with
    | none => exact preserves_raise (fun same => by cases same) s quiet
    | some historical =>
      obtain ⟨kept, valid⟩ := quiet.2.versions historical (List.mem_of_find?_eq_some found)
      refine Preserves.bind (preserves_query _) (fun current => ?_) s quiet
      cases current with
      | none => exact preserves_raise fun same => by cases same
      | some current =>
        dsimp only
        split
        · exact preserves_raise fun same => by cases same
        · have read : rowToVersion historical = .ok ⟨_, _, _, _, _, _, _, valid⟩ := dif_pos valid
          rw [read]
          refine saveWithConnection_preserves ?_ _ _
          have named : historical.policy.id = historical.policyId := by
            simp only [validVersionIdentity, Bool.and_eq_true, decide_eq_true_eq] at valid
            exact valid.1.1
          change Kept historical.policy.id
          rw [named]
          exact kept

theorem disableWithConnection_preserves :
    (disableWithConnection projectId policyId updatedAt).Preserves (Quiet audit) NotInvalid := by
  unfold disableWithConnection
  refine Preserves.bind (preserves_query _) fun configuration => ?_
  cases configuration with
  | none => exact preserves_ret _
  | some configuration =>
    refine Preserves.bind (preserves_statement ?_ ?_) fun _ => preserves_query _
    · intro s t u quiet updated
      cases updated
      refine ⟨quiet.1, fun row member => ?_, quiet.2.versions⟩
      obtain ⟨old, stored, (⟨-, same⟩ | ⟨-, same⟩)⟩ := mem_updateWhere.mp member
      · exact same ▸ quiet.2.policies old stored
      · exact same ▸ quiet.2.policies old stored
    · intro s exc _ raised
      cases raised

/-! ## Recording changes -/

theorem insertRow_raises (accepted : Database → Bool) (insert : Database → Database) :
    (insertRow accepted insert).Preserves (fun _ => True) NotInvalid := by
  refine preserves_statement (fun _ _ _ _ _ => trivial) fun s exc _ raised => ?_
  split at raised
  · cases raised
  · cases raised
    exact fun same => by cases same

theorem insertDeliveries_raises (event : WebhookEvent) (subscriptions : List WebhookSubscription) :
    (WebhookRepository.insertDeliveries event subscriptions).Preserves (fun _ => True) NotInvalid := by
  induction subscriptions with
  | nil => exact preserves_ret _
  | cons subscription rest ih =>
    unfold WebhookRepository.insertDeliveries
    split
    · refine Preserves.bind preserves_fresh fun deliveryId => ?_
      refine Preserves.bind (insertRow_raises _ _) fun _ => ?_
      exact Preserves.bind ih fun later => preserves_ret _
    · exact ih

theorem enqueueWebhookEvent_raises (platform : Platform) (event : WebhookEvent) :
    (enqueueWebhookEvent platform event).Preserves (fun _ => True) NotInvalid := by
  unfold enqueueWebhookEvent
  refine Preserves.bind (preserves_query _) fun project => ?_
  cases project with
  | none => exact preserves_ret _
  | some project =>
    refine Preserves.bind ?_ fun _ => preserves_ret _
    unfold WebhookRepository.insertEventWithDeliveries
    refine Preserves.bind (preserves_ofPython (canonicalWebhookPayload_valid _ _)) fun payload => ?_
    refine Preserves.bind (insertRow_raises _ _) fun _ => ?_
    exact Preserves.bind (preserves_query _) fun subscriptions => insertDeliveries_raises _ _

/-- Recording a change of a resource the trail can name raises, if at all, for another reason. -/
theorem recordAudit_raises (platform : Platform) (kept : Kept policyId) (context : AuditContext)
    (action : AuditAction) (resourceType : AuditResourceType) (before after : Option Json)
    (metadata : List (Str × Json)) :
    (recordAudit platform updatedAt projectId context action resourceType policyId before after
      metadata).Preserves (fun _ => True) NotInvalid := by
  obtain ⟨text, validated, -⟩ := kept.validate
  unfold recordAudit
  refine Preserves.bind preserves_fresh fun eventId => ?_
  refine Preserves.bind (preserves_ofPython ?_) fun event => ?_
  · unfold buildAuditEvent
    rw [validated]
    exact fun same => by cases same
  · unfold recordAdministrativeChange
    refine Preserves.bind (insertRow_raises _ _) fun _ => ?_
    exact Preserves.bind preserves_fresh fun webhookId => enqueueWebhookEvent_raises _ _

/-- The event is about the policy, by its own identifier. -/
structure About (key : Uuid × Str) (event : AdministrativeAuditEvent) : Prop where
  project : event.projectId = key.1
  type : event.resourceType = .policy
  resource : event.resourceId.text = key.2

/-- The audit events are these, and more about one policy. -/
def Logged (audit : List AdministrativeAuditEvent) (key : Uuid × Str) (db : Database) : Prop :=
  db.Identifies ∧ ∃ events, db.audit = audit ++ events ∧ ∀ event ∈ events, About key event

theorem Quiet.logged {db : Database} (quiet : Quiet audit db) (key : Uuid × Str) : Logged audit key db :=
  ⟨quiet.2, [], by rw [quiet.1, List.append_nil], fun _ member => by cases member⟩

theorem recordAudit_logged (platform : Platform) (kept : Kept policyId) (context : AuditContext)
    (action : AuditAction) (before after : Option Json) (metadata : List (Str × Json)) {s : Database}
    (quiet : Quiet audit s) :
    (recordAudit platform updatedAt projectId context action .policy policyId before after
      metadata).Ensures (fun _ t => Logged audit (projectId, policyId) t) NotInvalid s := by
  refine Block.Ensures.of_exec_of_preserves ?_ (recordAudit_raises platform kept _ _ _ _ _ _)
  intro draws u rest t ran
  have trail := recordAudit_trail ran (.policy projectId policyId) rfl rfl rfl
  obtain ⟨events, rows, grown, -, records, -⟩ := trail.recorded
  cases records with | cons recorded none =>
  cases none
  refine ⟨?_, _, by rw [grown, quiet.1], ?_⟩
  · rw [trail.frame]
    exact ⟨quiet.2.policies, quiet.2.versions⟩
  · intro event member
    rw [List.mem_singleton] at member
    subst member
    obtain ⟨text, validated, named⟩ := kept.validate
    have same : some event.resourceId = some text := recorded.resourceId.symm.trans validated
    exact ⟨recorded.projectId, recorded.type, by rw [Option.some.inj same, named]⟩

/-! ## The operations -/

theorem Quiet.then {β γ : Type} {x : Body β} {f : β → Body γ} {key : Uuid × Str} {s : Database}
    (quiet : Quiet audit s) (first : x.Preserves (Quiet audit) NotInvalid)
    (later : ∀ b t, Quiet audit t → (f b).Ensures (fun _ u => Logged audit key u) NotInvalid t) :
    (x >>= f).Ensures (fun _ u => Logged audit key u) NotInvalid s := by
  rw [Block.ensures_bind]
  exact (first s quiet).mono later fun _ allowed => allowed

/-- The first read of a policy. -/
theorem findConfiguration_preserves :
    (findConfiguration projectId policyId).Preserves (Quiet audit) NotInvalid := by
  rcases findConfiguration_cases projectId policyId with raises | finds
  · rw [raises]
    exact fun _ _ same => by cases same
  · rw [finds]
    exact preserves_query _

theorem ensures_return {α β : Type} {x : Body α} {b : β} {Q : Database → Prop} {E : StoreExc → Prop}
    {s : Database} (ensures : x.Ensures (fun _ t => Q t) E s) :
    (do let _ ← x; return b : Body β).Ensures (fun _ t => Q t) E s := by
  rw [Block.ensures_bind]
  exact ensures

section

variable (platform : Platform) {context : AuditContext} {s : Database}

theorem seedPolicy_logged (kept : Kept policy.id) (quiet : Quiet audit s) :
    (EvidenceStore.seedProjectPolicies platform projectId updatedAt (some context) [policy]).Ensures
      (fun _ t => Logged audit (projectId, policy.id) t) NotInvalid s := by
  unfold EvidenceStore.seedProjectPolicies
  refine quiet.then findConfiguration_preserves fun previous t₁ quiet₁ => ?_
  refine quiet₁.then (insertSeed_preserves kept) fun _ t₂ quiet₂ => ?_
  refine ensures_return ?_
  unfold EvidenceStore.recordSeed
  cases previous with
  | some previous => exact quiet₂.logged _
  | none =>
    refine quiet₂.then (preserves_query _) fun created t₃ quiet₃ => ?_
    exact recordAudit_logged platform kept _ _ _ _ _ quiet₃

theorem saveProjectPolicy_logged (kept : Kept policy.id) (quiet : Quiet audit s) :
    (EvidenceStore.saveProjectPolicy platform projectId policy updatedAt (some context)).Ensures
      (fun _ t => Logged audit (projectId, policy.id) t) NotInvalid s := by
  unfold EvidenceStore.saveProjectPolicy
  refine quiet.then findConfiguration_preserves fun previous t₁ quiet₁ => ?_
  refine quiet₁.then (saveWithConnection_preserves kept _ _) fun saved t₂ quiet₂ => ?_
  exact ensures_return (recordAudit_logged platform kept _ _ _ _ _ quiet₂)

/-- A rollback that returns has found the policy. -/
theorem rollbackProjectPolicy_logged (sourceVersion : Int) (quiet : Quiet audit s) :
    (EvidenceStore.rollbackProjectPolicy platform projectId policyId sourceVersion updatedAt
      (some context)).Ensures (fun _ t => Logged audit (projectId, policyId) t) NotInvalid s := by
  unfold EvidenceStore.rollbackProjectPolicy
  by_cases kept : Kept policyId
  · refine quiet.then findConfiguration_preserves fun previous t₁ quiet₁ => ?_
    refine quiet₁.then (rollbackWithConnection_preserves _) fun restored t₂ quiet₂ => ?_
    exact ensures_return (recordAudit_logged platform kept _ _ _ _ _ quiet₂)
  · have absent : s.policyVersions.find? (versionIs projectId policyId sourceVersion) = none := by
      rw [List.find?_eq_none]
      intro v stored its
      simp only [versionIs, Bool.and_eq_true, decide_eq_true_eq] at its
      exact kept (its.1.2 ▸ (quiet.2.versions v stored).1)
    rcases findConfiguration_cases projectId policyId with raises | finds
    · rw [raises]
      exact fun same => by cases same
    rw [finds, getConfigurationWithConnection, ensures_query_bind, Block.ensures_bind]
    unfold rollbackWithConnection bindInteger
    rw [Block.ensures_bind]
    split
    · rw [show (ofPython (.ok ()) : Body Unit) = Block.ret () from rfl, Block.Ensures,
        ensures_query_bind, absent]
      exact fun same => by cases same
    · exact fun same => by cases same

/-- Disabling records nothing of a policy that is not there. -/
theorem disableProjectPolicy_logged (quiet : Quiet audit s) :
    (EvidenceStore.disableProjectPolicy platform projectId policyId updatedAt (some context)).Ensures
      (fun _ t => Logged audit (projectId, policyId) t) NotInvalid s := by
  unfold EvidenceStore.disableProjectPolicy
  by_cases kept : Kept policyId
  · refine quiet.then findConfiguration_preserves fun previous t₁ quiet₁ => ?_
    refine quiet₁.then disableWithConnection_preserves fun disabled t₂ quiet₂ => ?_
    refine ensures_return ?_
    unfold EvidenceStore.recordPolicyDisabling
    split
    · split
      · exact recordAudit_logged platform kept _ _ _ _ _ quiet₂
      · exact quiet₂.logged _
    · exact quiet₂.logged _
  · have absent : s.policies.find? (policyIs projectId policyId) = none := by
      rw [List.find?_eq_none]
      intro row stored its
      simp only [policyIs, Bool.and_eq_true, decide_eq_true_eq] at its
      exact kept (its.2 ▸ quiet.2.policies row stored)
    rcases findConfiguration_cases projectId policyId with raises | finds
    · rw [raises]
      exact fun same => by cases same
    rw [finds, getConfigurationWithConnection, ensures_query_bind, absent]
    refine quiet.then disableWithConnection_preserves fun disabled t₂ quiet₂ => ?_
    exact ensures_return (quiet₂.logged _)

end

end

end DecAustrum
