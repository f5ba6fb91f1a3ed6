import DecAustrum.DeliveryStates
import DecAustrum.PolicyIdentifiers
import DecAustrum.Reference

/-!
# Listing the events of a policy

Sequences of policy operations, each with the audit events of each policy it concerns, and what a
listing by the identifier of a policy gives afterwards.
-/
namespace DecAustrum

open Python Transaction

/-- An operation on policies, with its audit context. -/
inductive PolicyOperation where
  | seed (projectId : Uuid) (policies : List Policy) (seededAt : UtcDatetime) (context : AuditContext)
  | save (projectId : Uuid) (policy : Policy) (updatedAt : UtcDatetime) (context : AuditContext)
  | rollback (projectId : Uuid) (policyId : Str) (sourceVersion : Int) (updatedAt : UtcDatetime)
      (context : AuditContext)
  | disable (projectId : Uuid) (policyId : Str) (updatedAt : UtcDatetime) (context : AuditContext)

/-- An audit event and the policy that was operated on when it was recorded. -/
abbrev LoggedEvent := (Uuid × Str) × AdministrativeAuditEvent

/-- The events that were added. -/
def addedEvents (before after : Database) : List AdministrativeAuditEvent :=
  after.audit.drop before.audit.length

/-- Bodies about one policy each, one after the other in one transaction. -/
def runParts : List ((Uuid × Str) × Body Unit) → (ℕ → Uuid) → Database →
    Except StoreExc (List LoggedEvent × Database)
  | [], _, db => .ok ([], db)
  | (key, body) :: rest, draws, db =>
    match body.exec draws db with
    | .error exc => .error exc
    | .ok (_, later, db') => (runParts rest later db').map fun r =>
      ((addedEvents db db').map (fun event => (key, event)) ++ r.1, r.2)

namespace PolicyOperation

def operation : PolicyOperation → Operation
  | seed projectId policies seededAt context => .seedProjectPolicies projectId policies seededAt context
  | save projectId policy updatedAt context => .saveProjectPolicy projectId policy updatedAt context
  | rollback projectId policyId sourceVersion updatedAt context =>
    .rollbackProjectPolicy projectId policyId sourceVersion updatedAt context
  | disable projectId policyId updatedAt context =>
    .disableProjectPolicy projectId policyId updatedAt context

/-- The policies an operation brings along. -/
def policies : PolicyOperation → List Policy
  | seed _ policies _ _ => policies
  | save _ policy _ _ => [policy]
  | rollback .. => []
  | disable .. => []

/-- The call, run alone. -/
def run (platform : Platform) (operation : PolicyOperation) (draws : ℕ → ℕ → Uuid) (db : Database) :
    Except StoreExc Unit × Database :=
  (operation.operation.session platform : Session Database Uuid Unit StoreExc Unit).run draws
    (fun _ => ()) db

/-- The operation, policy by policy. -/
def parts (platform : Platform) : PolicyOperation → List ((Uuid × Str) × Body Unit)
  | seed projectId policies seededAt context => policies.map fun policy =>
    ((projectId, policy.id),
      EvidenceStore.seedProjectPolicies platform projectId seededAt (some context) [policy])
  | save projectId policy updatedAt context =>
    [((projectId, policy.id), do
      let _ ← EvidenceStore.saveProjectPolicy platform projectId policy updatedAt (some context))]
  | rollback projectId policyId sourceVersion updatedAt context =>
    [((projectId, policyId), do
      let _ ← EvidenceStore.rollbackProjectPolicy platform projectId policyId sourceVersion updatedAt
        (some context))]
  | disable projectId policyId updatedAt context =>
    [((projectId, policyId), do
      let _ ← EvidenceStore.disableProjectPolicy platform projectId policyId updatedAt (some context))]

/-- The events of the call, policy by policy; a call that raises leaves none. -/
def events (platform : Platform) (operation : PolicyOperation) (draws : ℕ → Uuid) (db : Database) :
    List LoggedEvent :=
  match runParts (operation.parts platform) draws db with
  | .ok r => r.1
  | .error _ => []

end PolicyOperation

/-- A call that was made: what it gave, and the events of each policy it operated on. -/
structure PolicyEntry where
  operation : PolicyOperation
  result : Except StoreExc Unit
  events : List LoggedEvent

/-- Sequences of policy operations from `start`, any of which may fail. -/
inductive PolicyTrail (platform : Platform) (start : Database) : List PolicyEntry → Database → Prop where
  | start : PolicyTrail platform start [] start
  | call {entries : List PolicyEntry} {db : Database} (before : PolicyTrail platform start entries db)
      (operation : PolicyOperation) (draws : ℕ → ℕ → Uuid) :
      PolicyTrail platform start
        (entries ++ [⟨operation, (operation.run platform draws db).1,
          operation.events platform (draws 0) db⟩])
        (operation.run platform draws db).2

/-- The events of the operations on one policy. -/
def policyEvents (entries : List PolicyEntry) (projectId : Uuid) (policyId : Str) :
    List AdministrativeAuditEvent :=
  ((entries.flatMap (·.events)).filter fun logged => logged.1 = (projectId, policyId)).map (·.2)

/-! ## Parts of a call -/

theorem seedProjectPolicies_cons (platform : Platform) (projectId : Uuid) (seededAt : UtcDatetime)
    (context : Option AuditContext) (policy : Policy) (rest : List Policy) :
    EvidenceStore.seedProjectPolicies platform projectId seededAt context (policy :: rest) = (do
      EvidenceStore.seedProjectPolicies platform projectId seededAt context [policy]
      EvidenceStore.seedProjectPolicies platform projectId seededAt context rest) := by
  simp [EvidenceStore.seedProjectPolicies]

theorem seed_exec (platform : Platform) (projectId : Uuid) (seededAt : UtcDatetime)
    (context : AuditContext) (policies : List Policy) (draws : ℕ → Uuid) (db : Database) :
    ((EvidenceStore.seedProjectPolicies platform projectId seededAt (some context) policies).exec draws
      db).map (fun r => r.2.2) = (runParts ((PolicyOperation.seed projectId policies seededAt
        context).parts platform) draws db).map (·.2) := by
  induction policies generalizing draws db with
  | nil => rfl
  | cons policy rest ih =>
    rw [seedProjectPolicies_cons, Block.exec_bind, PolicyOperation.parts, List.map_cons, runParts]
    cases (EvidenceStore.seedProjectPolicies platform projectId seededAt (some context)
        [policy]).exec draws db with
    | error exc => rfl
    | ok r =>
      obtain ⟨u, later, db'⟩ := r
      dsimp only
      rw [ih, PolicyOperation.parts]
      cases runParts _ later db' <;> rfl

/-- A single body, as a part. -/
theorem single_exec {α : Type} (key : Uuid × Str) (body : Body α) (draws : ℕ → Uuid) (db : Database) :
    (body.exec draws db).map (fun r => r.2.2) =
      (runParts [(key, do let _ ← body)] draws db).map (·.2) := by
  rw [runParts, Block.exec_bind]
  cases body.exec draws db with
  | error exc => rfl
  | ok r => rfl

/-- What a call alone comes to, by the run of its one body. -/
def ranAlone (db : Database) : Except StoreExc Database → Except StoreExc Unit × Database
  | .ok db' => (.ok (), db')
  | .error exc => (.error exc, db)

theorem run_forget {α : Type} (body : Body α) (draws : ℕ → ℕ → Uuid) (db : Database) :
    (forget (.within body) : Session Database Uuid Unit StoreExc Unit).run draws (fun _ => ()) db =
      ranAlone db ((body.exec (draws 0) db).map fun r => r.2.2) := by
  rw [forget, Session.run_within]
  cases body.exec (draws 0) db <;> rfl

theorem run_within_unit (body : Body Unit) (draws : ℕ → ℕ → Uuid) (db : Database) :
    (Session.within body : Session Database Uuid Unit StoreExc Unit).run draws (fun _ => ()) db =
      ranAlone db ((body.exec (draws 0) db).map fun r => r.2.2) := by
  rw [← bind_pure (Session.within body), Session.run_within]
  cases body.exec (draws 0) db <;> rfl

/-- A call does what its parts do. -/
theorem PolicyOperation.run_eq (platform : Platform) (operation : PolicyOperation)
    (draws : ℕ → ℕ → Uuid) (db : Database) :
    operation.run platform draws db =
      ranAlone db ((runParts (operation.parts platform) (draws 0) db).map (·.2)) := by
  cases operation with
  | seed projectId policies seededAt context =>
    rw [← seed_exec]
    exact run_within_unit _ draws db
  | save projectId policy updatedAt context =>
    rw [parts, ← single_exec]
    exact run_forget _ draws db
  | rollback projectId policyId sourceVersion updatedAt context =>
    rw [parts, ← single_exec]
    exact run_forget _ draws db
  | disable projectId policyId updatedAt context =>
    rw [parts, ← single_exec]
    exact run_forget _ draws db

/-! ## What a call logs -/

/-- Every part is about its own policy. -/
def PartsLogged (parts : List ((Uuid × Str) × Body Unit)) : Prop :=
  ∀ part ∈ parts, ∀ audit s, Quiet audit s →
    part.2.Ensures (fun _ t => Logged audit part.1 t) NotInvalid s

/-- The events are those of the policies they are logged for. -/
def LoggedFor (events : List LoggedEvent) : Prop := ∀ logged ∈ events, About logged.1 logged.2

theorem runParts_logged {parts : List ((Uuid × Str) × Body Unit)} (logged : PartsLogged parts)
    (draws : ℕ → Uuid) (db : Database) (identifies : db.Identifies) :
    (∀ events db', runParts parts draws db = .ok (events, db') →
      db'.Identifies ∧ db'.audit = db.audit ++ events.map (·.2) ∧ LoggedFor events) ∧
      ∀ exc, runParts parts draws db = .error exc → NotInvalid exc := by
  induction parts generalizing draws db with
  | nil =>
    refine ⟨fun events db' ran => ?_, fun exc ran => by cases ran⟩
    cases ran
    exact ⟨identifies, (List.append_nil _).symm, fun _ member => by cases member⟩
  | cons part rest ih =>
    obtain ⟨key, body⟩ := part
    have first := (Block.ensures_iff_exec body db).mp
      (logged _ (List.mem_cons_self ..) db.audit db ⟨rfl, identifies⟩) draws
    rw [runParts]
    cases ran : body.exec draws db with
    | error exc =>
      rw [ran] at first
      refine ⟨fun events db' same => (nomatch same), fun exc' same => ?_⟩
      cases same
      exact first
    | ok r =>
      obtain ⟨u, later, mid⟩ := r
      rw [ran] at first
      obtain ⟨identifies', added, grown, about⟩ := first
      have isAdded : addedEvents db mid = added := by
        rw [addedEvents, grown, List.drop_left]
      obtain ⟨returned, raised⟩ :=
        ih (fun part member => logged part (List.mem_cons_of_mem _ member)) later mid identifies'
      dsimp only
      cases ranRest : runParts rest later mid with
      | error exc =>
        refine ⟨fun events db' same => (nomatch same), fun exc' same => ?_⟩
        cases same
        exact raised exc ranRest
      | ok r =>
        refine ⟨fun events db' same => ?_, fun exc same => by cases same⟩
        obtain ⟨identifies'', grown', about'⟩ := returned _ _ ranRest
        cases same
        rw [isAdded]
        refine ⟨identifies'', ?_, ?_⟩
        · rw [grown', grown, List.append_assoc, List.map_append, List.map_map]
          simp [Function.comp_def]
        · intro logged member
          rcases List.mem_append.mp member with old | new
          · obtain ⟨event, inside, rfl⟩ := List.mem_map.mp old
            exact about event inside
          · exact about' logged new

/-- The operations are about their own policies where the trail has the identifiers as they are. -/
theorem PolicyOperation.parts_logged (platform : Platform) (operation : PolicyOperation)
    (kept : ∀ policy ∈ operation.policies, Kept policy.id) : PartsLogged (operation.parts platform) := by
  cases operation with
  | seed projectId policies seededAt context =>
    intro part member audit s quiet
    obtain ⟨policy, inside, rfl⟩ := List.mem_map.mp member
    exact seedPolicy_logged platform (kept policy inside) quiet
  | save projectId policy updatedAt context =>
    intro part member audit s quiet
    rw [parts, List.mem_singleton] at member
    subst member
    exact ensures_return (saveProjectPolicy_logged platform (kept policy (List.mem_singleton_self _)) quiet)
  | rollback projectId policyId sourceVersion updatedAt context =>
    intro part member audit s quiet
    rw [parts, List.mem_singleton] at member
    subst member
    exact ensures_return (rollbackProjectPolicy_logged platform _ quiet)
  | disable projectId policyId updatedAt context =>
    intro part member audit s quiet
    rw [parts, List.mem_singleton] at member
    subst member
    exact ensures_return (disableProjectPolicy_logged platform quiet)

/-! ## Sequences of calls -/

/-- Nothing was done about policies yet. -/
structure Database.Untouched (db : Database) : Prop where
  policies : db.policies = []
  versions : db.policyVersions = []
  audit : ∀ event ∈ db.audit, event.resourceType ≠ .policy

/-- The identifier is stripped text of 1 to 200 characters, none of them a surrogate. -/
def KeptIdentifier (id : Str) : Prop :=
  strip id = id ∧ (1 ≤ id.length ∧ id.length ≤ 200) ∧ id.any isSurrogate = false

instance (id : Str) : Decidable (KeptIdentifier id) :=
  inferInstanceAs (Decidable (_ ∧ (_ ∧ _) ∧ _))

theorem KeptIdentifier.kept {id : Str} (identifier : KeptIdentifier id) : Kept id :=
  ⟨⟨id, identifier.1, identifier.2.1, identifier.2.2⟩, rfl⟩

theorem KeptIdentifier.bound {id : Str} (identifier : KeptIdentifier id) :
    ProjectPolicyRepository.bindText id = .ok () := by
  rw [ProjectPolicyRepository.bindText, identifier.2.2]
  rfl

/-- The audit events of policies, and what the calls logged. -/
structure TrailKept (entries : List PolicyEntry) (db : Database) : Prop where
  identifies : db.Identifies
  audit : (db.audit.filter fun event => event.resourceType = .policy) =
    (entries.flatMap (·.events)).map (·.2)
  logged : LoggedFor (entries.flatMap (·.events))
  valid : ∀ entry ∈ entries, entry.result ≠ .error (.python .validationError)

variable {platform : Platform} {start db : Database} {entries : List PolicyEntry}

theorem TrailKept.call (kept : TrailKept entries db) (operation : PolicyOperation)
    (identifiers : ∀ policy ∈ operation.policies, Kept policy.id) (draws : ℕ → ℕ → Uuid) :
    TrailKept (entries ++ [⟨operation, (operation.run platform draws db).1,
      operation.events platform (draws 0) db⟩]) (operation.run platform draws db).2 := by
  obtain ⟨returned, raised⟩ :=
    runParts_logged (operation.parts_logged platform identifiers) (draws 0) db kept.identifies
  rw [operation.run_eq platform draws db, PolicyOperation.events]
  cases ran : runParts (operation.parts platform) (draws 0) db with
  | error exc =>
    refine ⟨kept.identifies, ?_, ?_, fun entry member => ?_⟩
    · rw [List.flatMap_append, List.flatMap_singleton, List.append_nil]
      exact kept.audit
    · rw [List.flatMap_append, List.flatMap_singleton, List.append_nil]
      exact kept.logged
    · rcases List.mem_append.mp member with old | new
      · exact kept.valid entry old
      · rw [List.mem_singleton] at new
        subst new
        exact fun same => raised exc ran (Except.error.inj same)
  | ok r =>
    obtain ⟨events, db'⟩ := r
    obtain ⟨identifies, grown, about⟩ := returned events db' ran
    have policies : (events.map (·.2)).filter (fun event => event.resourceType = .policy) =
        events.map (·.2) := by
      refine List.filter_eq_self.mpr fun event member => ?_
      obtain ⟨logged, inside, rfl⟩ := List.mem_map.mp member
      exact decide_eq_true (about logged inside).type
    refine ⟨identifies, ?_, ?_, fun entry member => ?_⟩
    · change (db'.audit.filter _) = _
      rw [grown, List.filter_append, kept.audit, policies, List.flatMap_append, List.flatMap_singleton,
        List.map_append]
    · rw [List.flatMap_append, List.flatMap_singleton]
      intro logged member
      rcases List.mem_append.mp member with old | new
      · exact kept.logged logged old
      · exact about logged new
    · rcases List.mem_append.mp member with old | new
      · exact kept.valid entry old
      · rw [List.mem_singleton] at new
        subst new
        exact fun same => nomatch same

theorem PolicyTrail.kept (untouched : start.Untouched) (ran : PolicyTrail platform start entries db)
    (identifiers : ∀ entry ∈ entries, ∀ policy ∈ entry.operation.policies, Kept policy.id) :
    TrailKept entries db := by
  induction ran with
  | start =>
    refine ⟨⟨?_, ?_⟩, ?_, fun _ member => (nomatch member), fun _ member => (nomatch member)⟩
    · rw [untouched.policies]
      exact fun _ member => (nomatch member)
    · rw [untouched.versions]
      exact fun _ member => (nomatch member)
    · exact List.filter_eq_nil_iff.mpr fun event member => by simpa using untouched.audit event member
  | call before operation draws ih =>
    refine (ih fun entry member => identifiers entry (List.mem_append_left _ member)).call operation ?_ draws
    exact identifiers _ (List.mem_append_right _ (List.mem_singleton_self _))

/-- The conditions of a listing of the events of a policy. -/
def policyFilters (projectId : Uuid) (policyId : Str) : AuditFilters where
  projectId := some projectId
  resourceType := some .policy
  resourceId := some policyId

/-- What the audit trail promises of policies. -/
structure AuditIdentity (entries : List PolicyEntry) (db : Database) : Prop where
  /-- A listing by the identifier gives the events of the operations on the policy. -/
  listed : ∀ projectId policyId, policyId.any isSurrogate = false → ∀ limit offset,
    fitsInteger limit = true → fitsInteger offset = true →
      AdministrativeAuditRepository.list db (policyFilters projectId policyId) limit offset =
        .ok (page limit offset ((policyEvents entries projectId policyId).insertionSort auditOrder))
  counted : ∀ projectId policyId, policyId.any isSurrogate = false →
    AdministrativeAuditRepository.count db (policyFilters projectId policyId) =
      .ok (policyEvents entries projectId policyId).length
  /-- Policies of a project do not share events. -/
  apart : ∀ a ∈ entries.flatMap (·.events), ∀ b ∈ entries.flatMap (·.events),
    a.1.1 = b.1.1 → a.1.2 ≠ b.1.2 → a.2.resourceId ≠ b.2.resourceId
  /-- No operation fails because the trail refuses an identifier. -/
  valid : ∀ entry ∈ entries, entry.result ≠ .error (.python .validationError)
  /-- No operation fails because an identifier cannot be a parameter. -/
  bound : ∀ entry ∈ entries, ∀ policy ∈ entry.operation.policies,
    ProjectPolicyRepository.bindText policy.id = .ok ()

theorem TrailKept.selected (kept : TrailKept entries db) (projectId : Uuid) (policyId : Str) :
    db.audit.filter (policyFilters projectId policyId).selects = policyEvents entries projectId policyId := by
  have both : (policyFilters projectId policyId).selects =
      fun event => (event.projectId = projectId && event.resourceId.text = policyId) &&
        decide (event.resourceType = .policy) := by
    funext event
    simp only [AuditFilters.selects, policyFilters, Option.all_some, Option.all_none, Bool.and_true]
    cases decide (event.projectId = projectId) <;> cases decide (event.resourceType = .policy) <;>
      cases decide (event.resourceId.text = policyId) <;> rfl
  rw [both, ← List.filter_filter, kept.audit, List.filter_map, policyEvents]
  refine congrArg (List.map _) (List.filter_congr fun logged member => ?_)
  obtain ⟨project, -, resource⟩ := kept.logged logged member
  simp only [Function.comp_def, project, resource, Prod.ext_iff]
  rw [Bool.decide_and]

theorem audit_identity (untouched : start.Untouched) (ran : PolicyTrail platform start entries db)
    (identifiers : ∀ entry ∈ entries, ∀ policy ∈ entry.operation.policies, KeptIdentifier policy.id) :
    AuditIdentity entries db := by
  have kept := ran.kept untouched fun entry member policy inside =>
    (identifiers entry member policy inside).kept
  have bindable (projectId : Uuid) {policyId : Str} (plain : policyId.any isSurrogate = false) :
      (policyFilters projectId policyId).bindable = true := by
    simp only [AuditFilters.bindable, policyFilters, Option.any_some, Option.any_none, plain]
    rfl
  refine ⟨?_, ?_, ?_, kept.valid, ?_⟩
  · intro projectId policyId plain limit offset fitsLimit fitsOffset
    rw [AdministrativeAuditRepository.list, bindable projectId plain, kept.selected, fitsLimit,
      fitsOffset]
    rfl
  · intro projectId policyId plain
    rw [AdministrativeAuditRepository.count, bindable projectId plain, List.countP_eq_length_filter,
      kept.selected]
    rfl
  · intro a insideA b insideB project different same
    have resourceA := (kept.logged a insideA).resource
    have resourceB := (kept.logged b insideB).resource
    exact different (resourceA.symm.trans ((congrArg SearchText.text same).trans resourceB))
  · exact fun entry member policy inside => (identifiers entry member policy inside).bound

/-! ## A blank at the end -/

def sampleNamedPolicy (id : Str) : Policy where
  id := id
  version := 1
  action := "pay"
  matchMode := .all
  conditions := [⟨"amount", .equals, sampleTrue⟩]
  decision := .deny
  reason := "limit"
  positive := sampleVersion_positive
  conditional := by decide

def sampleUntouched : Database :=
  { Database.empty with
    projects := [⟨⟨1⟩, [0x50], .active, sampleTime 0, sampleTime 0⟩] }

def sampleSaveOf (id : Str) (minute : Nat) : PolicyOperation :=
  .save ⟨1⟩ (sampleNamedPolicy id) (sampleTime minute) sampleContext

/-- The identifiers that the calls draw. -/
def sampleDraws (first : Nat) : ℕ → ℕ → Uuid := fun _ n => ⟨Fin.ofNat _ (first + n)⟩

/-- A call on a database, as an entry. -/
def sampleEntry (operation : PolicyOperation) (first : Nat) (db : Database) : PolicyEntry :=
  ⟨operation, (operation.run (referencePlatform fun _ => []) (sampleDraws first) db).1,
    operation.events (referencePlatform fun _ => []) (sampleDraws first 0) db⟩

def afterSample (operation : PolicyOperation) (first : Nat) (db : Database) : Database :=
  (operation.run (referencePlatform fun _ => []) (sampleDraws first) db).2

/-- One policy is saved, and another one whose identifier has a blank after it. -/
def sampleBlankEntries : List PolicyEntry :=
  let one := sampleSaveOf "gold" 1
  [sampleEntry one 16 sampleUntouched,
    sampleEntry (sampleSaveOf "gold " 2) 32 (afterSample one 16 sampleUntouched)]

def sampleBlank : Database :=
  afterSample (sampleSaveOf "gold " 2) 32
    (afterSample (sampleSaveOf "gold" 1) 16 sampleUntouched)

theorem sampleUntouched_untouched : sampleUntouched.Untouched :=
  ⟨rfl, rfl, fun _ member => (nomatch member)⟩

/-- Both saves return, both events have the identifier of the first policy, and a listing by the
identifier of the second one is empty. -/
theorem blank_shares_events :
    sampleUntouched.Untouched ∧
      PolicyTrail (referencePlatform fun _ => []) sampleUntouched sampleBlankEntries sampleBlank ∧
      (sampleBlankEntries.flatMap (·.events)).map (fun logged => (logged.1.2, logged.2.resourceId.text)) =
        [(ofString "gold", ofString "gold"), (ofString "gold ", ofString "gold")] ∧
      (AdministrativeAuditRepository.list sampleBlank (policyFilters ⟨1⟩ "gold ") 20 0).toOption.map
        List.length = some 0 ∧
      ¬ AuditIdentity sampleBlankEntries sampleBlank := by
  have shared : (sampleBlankEntries.flatMap (·.events)).map
      (fun logged => (logged.1.2, logged.2.resourceId.text)) =
        [(ofString "gold", ofString "gold"), (ofString "gold ", ofString "gold")] := by
    decide +kernel
  have counts : (AdministrativeAuditRepository.count sampleBlank (policyFilters ⟨1⟩ "gold ")).toOption =
      some 0 := by
    decide +kernel
  have owned : (policyEvents sampleBlankEntries ⟨1⟩ "gold ").length = 1 := by decide +kernel
  refine ⟨sampleUntouched_untouched, (PolicyTrail.start.call _ _).call _ _, shared,
    by decide +kernel, ?_⟩
  intro identity
  have counted := identity.counted ⟨1⟩ "gold " (by decide)
  rw [counted, owned] at counts
  cases counts

theorem audit_identity_sample :
    (policyEvents [sampleEntry (sampleSaveOf "gold" 1) 16 sampleUntouched] ⟨1⟩ "gold").length = 1 ∧
      AuditIdentity [sampleEntry (sampleSaveOf "gold" 1) 16 sampleUntouched]
        (afterSample (sampleSaveOf "gold" 1) 16 sampleUntouched) := by
  refine ⟨by decide +kernel, audit_identity sampleUntouched_untouched (PolicyTrail.start.call _ _) ?_⟩
  intro entry member policy inside
  rw [List.mem_singleton.mp member] at inside
  rw [List.mem_singleton.mp inside]
  decide

end DecAustrum
