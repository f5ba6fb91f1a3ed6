import DecAustrum.OperatorSemantics
import DecAustrum.PolicyEngine
import DecAustrum.RequestEncoding
import DecAustrum.Sdk.Models
import DecAustrum.Traversal

/-!
# Decoding the server's decisions

The client wants text in every id, reason and field name; the server's policies may leave them
empty. A context can be written under other keys than it came with, or not at all. Every other
field of a decision comes back as it was sent.
-/
namespace DecAustrum.Sdk

open Python Traversal

variable {platform : Platform}

/-! ## What a decoded decision keeps -/

def ConditionEvidence.ofServer (c : DecAustrum.ConditionEvidence) : ConditionEvidence :=
  ⟨c.field, c.operator, c.actualValue.json, c.expectedValue.json, c.matched⟩

def PolicyEvidence.ofServer (e : DecAustrum.PolicyEvidence) : PolicyEvidence :=
  ⟨e.matchMode, e.conditions.map .ofServer⟩

def PolicyTraceEntry.ofServer (t : DecAustrum.PolicyTraceEntry) : PolicyTraceEntry :=
  ⟨t.policyId, t.policyVersion, t.decision, t.reason, t.matched, .ofServer t.evidence⟩

/-- The members of a context, in key order. -/
def members (context : StrictObject) : List (Str × Json) :=
  context.fields.insertionSort Json.keyLe

theorem members_eq_iff (c d : StrictObject) : members c = members d ↔ c.json = d.json := by
  rw [c.json_eq, d.json_eq, Json.obj.injEq]
  rfl

theorem dumped_members (c : StrictObject) : c.dumped = .obj (members c.written) := by
  rw [c.dumped_eq, members, StrictObject.written, Json.insertionSort_insertionSort]

def AuthorizationDecision.ofServer (a : AuthorizationResponse) : AuthorizationDecision :=
  ⟨a.decisionId, a.projectId, a.evaluatedAt.moment, a.decision, a.policy, a.policyVersion, a.reason,
    a.evidence.map .ofServer, a.agent, a.action, members a.context, a.trace.map .ofServer⟩

/-! ## Texts the client accepts -/

def evidenceNamed (e : DecAustrum.PolicyEvidence) : Prop := ∀ c ∈ e.conditions, c.field ≠ []

def entryNamed (t : DecAustrum.PolicyTraceEntry) : Prop :=
  t.policyId ≠ [] ∧ t.reason ≠ [] ∧ evidenceNamed t.evidence

theorem text_eq_ok_iff (s fieldName t : Str) :
    text (.str s) fieldName = .ok t ↔ s ≠ [] ∧ t = s := by
  cases s with
  | nil => simp [text]
  | cons c s => simp [text, eq_comm]

theorem decisionChoice_text (d : Decision) (fieldName : Str) :
    decisionChoice (.str d.text) fieldName = .ok d := by
  cases d <;> rfl

theorem operatorChoice_text (o : Operator) (fieldName : Str) :
    operatorChoice (.str o.text) fieldName = .ok o := by
  cases o <;> rfl

theorem matchChoice_text (m : ConditionMatch) (fieldName : Str) :
    matchChoice (.str m.text) fieldName = .ok m := by
  cases m <;> rfl

theorem ConditionEvidence.fromDict_dumped (c : DecAustrum.ConditionEvidence) (d : ConditionEvidence) :
    fromDict c.dumped = .ok d ↔ c.field ≠ [] ∧ d = ofServer c := by
  have decoded : fromDict c.dumped = (text (.str c.field) "field" >>= fun field =>
      operatorChoice (.str c.operator.text) "operator" >>= fun operator =>
        .ok ⟨field, operator, c.actualValue.json, c.expectedValue.json, c.matched⟩) := rfl
  rw [decoded, operatorChoice_text, bind_eq_ok]
  simp only [text_eq_ok_iff, bind_eq_ok, Except.ok.injEq]
  constructor
  · rintro ⟨_, ⟨named, rfl⟩, _, rfl, rfl⟩
    exact ⟨named, rfl⟩
  · rintro ⟨named, rfl⟩
    exact ⟨_, ⟨named, rfl⟩, _, rfl, rfl⟩

/-- A list is decoded when each of its members is. -/
theorem mapM_dumped {α β : Type} (dump : α → Json) (decode : Json → Decoded β) (named : α → Prop)
    (ofServer : α → β) (each : ∀ a b, decode (dump a) = .ok b ↔ named a ∧ b = ofServer a)
    (l : List α) (r : List β) :
    (l.map dump).mapM decode = .ok r ↔ (∀ a ∈ l, named a) ∧ r = l.map ofServer := by
  rw [mapM_eq_ok_iff, List.forall₂_map_left_iff]
  simp only [each]
  induction l generalizing r with
  | nil => simp
  | cons a l ih =>
    rw [List.forall₂_cons_left_iff]
    constructor
    · rintro ⟨b, bs, ⟨here, rfl⟩, rest, rfl⟩
      obtain ⟨later, rfl⟩ := (ih bs).mp rest
      exact ⟨List.forall_mem_cons.mpr ⟨here, later⟩, rfl⟩
    · rintro ⟨all, rfl⟩
      obtain ⟨here, later⟩ := List.forall_mem_cons.mp all
      exact ⟨_, _, ⟨here, rfl⟩, (ih _).mpr ⟨later, rfl⟩, rfl⟩

theorem PolicyEvidence.fromDict_dumped (e : DecAustrum.PolicyEvidence) (d : PolicyEvidence) :
    fromDict e.dumped = .ok d ↔ evidenceNamed e ∧ d = ofServer e := by
  have decoded : fromDict e.dumped = (matchChoice (.str e.matchMode.text) "match" >>= fun matchMode =>
      (e.conditions.map (·.dumped)).mapM ConditionEvidence.fromDict >>= fun conditions =>
        .ok ⟨matchMode, conditions⟩) := rfl
  rw [decoded, matchChoice_text, bind_eq_ok]
  simp only [bind_eq_ok, Except.ok.injEq, mapM_dumped _ _ _ _ ConditionEvidence.fromDict_dumped]
  constructor
  · rintro ⟨_, rfl, _, ⟨named, rfl⟩, rfl⟩
    exact ⟨named, rfl⟩
  · rintro ⟨named, rfl⟩
    exact ⟨_, rfl, _, ⟨named, rfl⟩, rfl⟩

theorem PolicyTraceEntry.fromDict_dumped (t : DecAustrum.PolicyTraceEntry) (d : PolicyTraceEntry) :
    fromDict t.dumped = .ok d ↔ entryNamed t ∧ d = ofServer t := by
  have decoded : fromDict t.dumped = (text (.str t.policyId) "policy_id" >>= fun policyId =>
      decisionChoice (.str t.decision.text) "decision" >>= fun decision =>
        text (.str t.reason) "reason" >>= fun reason =>
          PolicyEvidence.fromDict t.evidence.dumped >>= fun evidence =>
            .ok ⟨policyId, t.policyVersion, decision, reason, t.matched, evidence⟩) := rfl
  rw [decoded, decisionChoice_text]
  simp only [bind_eq_ok, Except.ok.injEq, text_eq_ok_iff, PolicyEvidence.fromDict_dumped]
  constructor
  · rintro ⟨_, ⟨id, rfl⟩, _, rfl, _, ⟨reason, rfl⟩, _, ⟨evidence, rfl⟩, rfl⟩
    exact ⟨⟨id, reason, evidence⟩, rfl⟩
  · rintro ⟨⟨id, reason, evidence⟩, rfl⟩
    exact ⟨_, ⟨id, rfl⟩, _, rfl, _, ⟨reason, rfl⟩, _, ⟨evidence, rfl⟩, rfl⟩

/-! ## Ids and times -/

theorem uuid_str (lawful : platform.Lawful) (u : Uuid) (fieldName : Str) :
    uuid platform (.str u.str) fieldName = .ok u := by
  simp [uuid, uuidText, lawful.uuid_str]

/-- The text of a UTC time in a dump ends in `Z`, and the client reads its ISO form. -/
theorem timestamp_json (lawful : platform.Lawful) (d : UtcDatetime) (fieldName : Str) :
    timestamp platform (.str d.val.json) fieldName = .ok d.val.moment := by
  have utc := d.property
  have spelled : d.val.json = (d.val.clockText ++ d.val.fractionText) ++ [0x5a] := by
    simp [Datetime.json, utc]
  have normalized : normalizedTimestamp d.val.json = d.val.isoformat := by
    rw [normalizedTimestamp, spelled, List.getLast?_concat, if_pos rfl, List.dropLast_concat,
      Datetime.isoformat, utc, List.append_assoc]
    rfl
  have read := lawful.fromIsoformat_isoformat d.val
  have aware : d.val.moment = .aware (d.val.clock - 0 * 60000000) := by
    rw [Datetime.moment, utc]
  rw [timestamp, normalized, read, aware]

theorem optional_dump {α β : Type} (dump : α → Json) (decode : Json → Str → Decoded β)
    (named : α → Prop) (ofServer : α → β) (fieldName : Str) (solid : ∀ a, dump a ≠ .null)
    (each : ∀ a b, decode (dump a) fieldName = .ok b ↔ named a ∧ b = ofServer a) (value : Option α)
    (r : Option β) :
    optional decode (some (dumpOptional dump value)) fieldName = .ok r ↔
      (∀ a ∈ value, named a) ∧ r = value.map ofServer := by
  cases value with
  | none => simp [optional, dumpOptional, eq_comm]
  | some a =>
    have decoded : optional decode (some (dump a)) fieldName = (decode (dump a) fieldName).map some := by
      cases form : dump a with
      | null => exact absurd form (solid a)
      | _ => rfl
    rw [dumpOptional, decoded]
    cases result : decode (dump a) fieldName with
    | error message =>
      have unnamed : ¬ named a := fun named => by
        have ok := (each a _).mpr ⟨named, rfl⟩
        rw [result] at ok
        cases ok
      simp [Except.map, unnamed]
    | ok b =>
      obtain ⟨named, rfl⟩ := (each a b).mp result
      simp [Except.map, named, eq_comm]

/-- The texts of a decision the client wants. -/
structure DecisionNamed (a : AuthorizationResponse) : Prop where
  policy : ∀ id ∈ a.policy, id ≠ []
  reason : a.reason ≠ []
  evidence : ∀ e ∈ a.evidence, evidenceNamed e
  agent : a.agent ≠ []
  action : a.action ≠ []
  trace : ∀ t ∈ a.trace, entryNamed t

theorem evidenceFromDict_dumped (e : DecAustrum.PolicyEvidence) (fieldName : Str)
    (d : PolicyEvidence) :
    evidenceFromDict e.dumped fieldName = .ok d ↔ evidenceNamed e ∧ d = .ofServer e :=
  PolicyEvidence.fromDict_dumped e d

/-- The client reads the decision as it was written. -/
theorem AuthorizationDecision.fromDict_dumped (lawful : platform.Lawful) (a : AuthorizationResponse)
    (utc : a.evaluatedAt.offset = some 0) (d : AuthorizationDecision) :
    fromDict platform a.dumped = .ok d ↔ DecisionNamed a ∧ d = ofServer a.written := by
  have time := timestamp_json lawful ⟨a.evaluatedAt, utc⟩ "evaluated_at"
  have policy := optional_dump .str text (· ≠ []) id "policy" (by simp)
    (fun s t => text_eq_ok_iff s "policy" t) a.policy
  have version := optional_dump .int integer (fun _ => True) id "policy_version" (by simp)
    (fun m n => by simp [integer, eq_comm]) a.policyVersion
  have evidence := optional_dump PolicyEvidence.dumped evidenceFromDict evidenceNamed .ofServer
    "evidence" (by simp [DecAustrum.PolicyEvidence.dumped])
    (fun e d => evidenceFromDict_dumped e "evidence" d) a.evidence
  have context : mapping a.context.dumped "context" = .ok (members a.context.written) := by
    rw [dumped_members]
    rfl
  have decoded : fromDict platform a.dumped =
      (uuid platform (.str a.decisionId.str) "decision_id" >>= fun decisionId =>
        uuid platform (.str a.projectId.str) "project_id" >>= fun projectId =>
        timestamp platform (.str a.evaluatedAt.json) "evaluated_at" >>= fun evaluatedAt =>
        decisionChoice (.str a.decision.text) "decision" >>= fun decision =>
        optional text (some (dumpOptional .str a.policy)) "policy" >>= fun policy =>
        optional integer (some (dumpOptional .int a.policyVersion)) "policy_version" >>=
          fun policyVersion =>
        text (.str a.reason) "reason" >>= fun reason =>
        optional evidenceFromDict (some (dumpOptional DecAustrum.PolicyEvidence.dumped a.evidence))
          "evidence" >>= fun evidence =>
        text (.str a.agent) "agent" >>= fun agent =>
        text (.str a.action) "action" >>= fun action =>
        mapping a.context.dumped "context" >>= fun context =>
        (a.trace.map (·.dumped)).mapM PolicyTraceEntry.fromDict >>= fun trace =>
        .ok ⟨decisionId, projectId, evaluatedAt, decision, policy, policyVersion, reason, evidence,
          agent, action, context, trace⟩) := rfl
  rw [decoded, uuid_str lawful, uuid_str lawful, time, decisionChoice_text, context]
  simp only [bind_eq_ok, Except.ok.injEq, text_eq_ok_iff, policy, version, evidence,
    mapM_dumped _ _ _ _ PolicyTraceEntry.fromDict_dumped, exists_eq_left', and_assoc]
  constructor
  · rintro ⟨_, policyNamed, rfl, _, -, rfl, _, reasonNamed, rfl, _, evidenceNamed, rfl, _, agentNamed,
      rfl, _, actionNamed, rfl, _, traceNamed, rfl, rfl⟩
    exact ⟨⟨policyNamed, reasonNamed, evidenceNamed, agentNamed, actionNamed, traceNamed⟩, by
      simp [ofServer, AuthorizationResponse.written]⟩
  · rintro ⟨named, rfl⟩
    exact ⟨_, named.policy, rfl, _, fun _ _ => trivial, rfl, _, named.reason, rfl, _, named.evidence,
      rfl, _, named.agent, rfl, _, named.action, rfl, _, named.trace, rfl, by
        simp [ofServer, AuthorizationResponse.written]⟩

/-! ## The policies behind a decision -/

/-- The texts of a policy the client wants. -/
def PolicyNamed (p : Policy) : Prop :=
  p.id ≠ [] ∧ p.reason ≠ [] ∧ ∀ c ∈ p.conditions, c.field ≠ []

theorem entryNamed_iff (p : Policy) (t : DecAustrum.PolicyTraceEntry) (repeats : EntryOf p t) :
    entryNamed t ↔ PolicyNamed p := by
  have fields : evidenceNamed t.evidence ↔ ∀ c ∈ p.conditions, c.field ≠ [] := by
    have conditions := repeats.conditions
    unfold evidenceNamed
    generalize p.conditions = written at conditions
    generalize t.evidence.conditions = repeated at conditions
    induction conditions with
    | nil => simp
    | cons same _ ih =>
      rw [List.forall_mem_cons, List.forall_mem_cons, same.1]
      exact and_congr_right fun _ => ih
  rw [entryNamed, PolicyNamed, repeats.policyId, repeats.reason, fields]

theorem trace_named (policies : List Policy) (entries : List DecAustrum.PolicyTraceEntry)
    (repeats : List.Forall₂ EntryOf policies entries) :
    (∀ t ∈ entries, entryNamed t) ↔ ∀ p ∈ policies, PolicyNamed p := by
  induction repeats with
  | nil => simp
  | cons first _ ih => rw [List.forall_mem_cons, List.forall_mem_cons, ih, entryNamed_iff _ _ first]

private theorem nonEmptyString_ne (s : NonEmptyString) : s.text ≠ [] := by
  intro empty
  have nonempty := s.nonempty
  rw [empty] at nonempty
  exact absurd nonempty (by decide)

section

variable {policies : List Policy} {request : AuthorizationRequest} {evaluation : PolicyEvaluation}
  (evaluated : evaluatePolicy request.action.text request.context policies = .ok evaluation)
  (decisionId projectId : Uuid) (evaluatedAt : UtcDatetime)

include evaluated

theorem decisionNamed_iff :
    DecisionNamed (authorizationOf decisionId projectId evaluatedAt request evaluation) ↔
      ∀ p ∈ policies, p.action = request.action.text → PolicyNamed p := by
  have applicable : (∀ p ∈ policies, p.action = request.action.text → PolicyNamed p) ↔
      ∀ p ∈ policies.filter fun p => p.action = request.action.text, PolicyNamed p := by
    simp [List.mem_filter]
  rw [applicable]
  unfold evaluatePolicy at evaluated
  split at evaluated
  next none =>
    cases evaluated
    rw [none]
    refine ⟨by simp, fun _ => ⟨by simp [authorizationOf], ?_, by simp [authorizationOf],
      nonEmptyString_ne _, nonEmptyString_ne _, by simp [authorizationOf]⟩⟩
    exact List.cons_ne_nil _ _
  next applicable_ =>
    obtain ⟨sourced, entries, repeats, trace⟩ := evaluatePolicies_spec request.context _
      noPolicyMatched evaluation (.inl ⟨rfl, rfl, rfl⟩) evaluated
    have entriesNamed := trace_named _ entries repeats
    have whole : evaluation.trace = entries := by simpa [noPolicyMatched] using trace
    constructor
    · intro named
      rw [← entriesNamed, ← whole]
      exact named.trace
    · intro named
      rw [← entriesNamed, ← whole] at named
      have chosen : (∀ id ∈ evaluation.policyId, id ≠ []) ∧ evaluation.reason ≠ [] ∧
          ∀ e ∈ evaluation.evidence, evidenceNamed e := by
        rcases sourced with ⟨noId, noEvidence, reason⟩ | ⟨t, inside, id, evidence, reason⟩
        · rw [noId, noEvidence, reason]
          exact ⟨by simp, List.cons_ne_nil _ _, by simp⟩
        · obtain ⟨idNamed, reasonNamed, fieldsNamed⟩ := named t inside
          rw [id, evidence, reason]
          exact ⟨by simpa using idNamed, reasonNamed, by simpa using fieldsNamed⟩
      exact ⟨chosen.1, chosen.2.1, chosen.2.2, nonEmptyString_ne _, nonEmptyString_ne _, named⟩

omit evaluated in
/-- The evidence repeats the values of the conditions, and values of the context. -/
theorem evidence_dumpable_iff {policy : Policy} {evidence : DecAustrum.PolicyEvidence}
    (context : request.context.Dumpable) (shown : EvidenceShown request.context policy evidence) :
    evidence.Dumpable ↔ ∀ c ∈ policy.conditions, Serializable c.value.json := by
  constructor
  · intro dumpable c inside
    obtain ⟨e, member, condition⟩ := forall₂_left shown.conditions inside
    exact condition.expected ▸ (dumpable e member).expectedValue
  · intro values e inside
    obtain ⟨c, member, condition⟩ := forall₂_right shown.conditions inside
    have actual := condition.actual
    rw [StrictObject.json_eq] at actual
    have present := (List.mem_insertionSort _).mp (Json.mem_of_lookup actual)
    exact ⟨context _ present, condition.expected ▸ values c member⟩

/-- The decision can be written when the context and the values of the conditions can. -/
theorem authorization_dumpable_iff :
    (authorizationOf decisionId projectId evaluatedAt request evaluation).Dumpable ↔
      request.context.Dumpable ∧ ∀ p ∈ applicablePolicies request.action.text policies,
        ∀ c ∈ p.conditions, Serializable c.value.json := by
  by_cases covered : ∃ policy ∈ policies, policy.action = request.action.text
  · obtain ⟨-, exc, raised⟩ | ⟨-, result, done, meets⟩ :=
      evaluatePolicy_cases request.action.text request.context policies covered
    · rw [raised] at evaluated
      cases evaluated
    rw [done, Except.ok.injEq] at evaluated
    subst evaluated
    constructor
    · rintro ⟨-, context, trace⟩
      refine ⟨context, fun p inside => ?_⟩
      obtain ⟨entry, member, shown⟩ := forall₂_left meets.trace inside
      exact (evidence_dumpable_iff context shown.evidence).mp (trace entry member)
    · rintro ⟨context, values⟩
      refine ⟨fun e reported => ?_, context, fun entry inside => ?_⟩
      · by_cases allowed : result.decision = .allow
        · obtain ⟨-, -, -, unreported⟩ := meets.unreported allowed
          change e ∈ result.evidence at reported
          rw [unreported] at reported
          cases reported
        · obtain ⟨before, policy, after, split, -, reports, -⟩ := meets.reported allowed
          obtain ⟨evidence, found, shown⟩ := reports.evidence
          change e ∈ result.evidence at reported
          rw [found] at reported
          cases reported
          exact (evidence_dumpable_iff context shown).mpr (values policy (by simp [split]))
      · obtain ⟨p, member, shown⟩ := forall₂_right meets.trace inside
        exact (evidence_dumpable_iff context shown.evidence).mpr (values p member)
  · have uncovered : ∀ policy ∈ policies, policy.action ≠ request.action.text := by
      simpa using covered
    have none_applies : applicablePolicies request.action.text policies = [] := by
      simpa [applicablePolicies] using uncovered
    rw [evaluatePolicy_uncovered _ _ _ uncovered, Except.ok.injEq] at evaluated
    subst evaluated
    rw [none_applies]
    exact ⟨fun dumpable => ⟨dumpable.context, by simp⟩,
      fun held => ⟨by simp [authorizationOf], held.1, by simp [authorizationOf]⟩⟩

end

/-- A policy whose decisions reach the client: text where the client wants it, and values that can
be written. -/
structure PolicyReadable (p : Policy) : Prop where
  named : PolicyNamed p
  values : ∀ c ∈ p.conditions, Serializable c.value.json

/-- A context that is written, under its own keys. -/
structure ContextReadable (context : StrictObject) : Prop where
  dumpable : context.Dumpable
  keys : context.ScalarKeys

theorem ofServer_written_iff (a : AuthorizationResponse) :
    AuthorizationDecision.ofServer a.written = .ofServer a ↔ a.context.ScalarKeys := by
  rw [← a.context.dumped_eq_json_iff, a.context.dumped_eq, a.context.json_eq, Json.obj.injEq]
  have sorted : members a.context.written =
      (lossyDict a.context.fields).insertionSort Json.keyLe := Json.insertionSort_insertionSort _
  rw [← sorted]
  exact ⟨fun same => congrArg AuthorizationDecision.context same, fun same => by
    simp only [AuthorizationDecision.ofServer, AuthorizationResponse.written, same]
    rfl⟩

/-- The client decodes the decision of a request, with every field kept, exactly when the context
is written under its own keys and each policy of the action has values that can be written and
text for its id, its reason and the fields of its conditions. -/
theorem decodes_decision_iff (lawful : platform.Lawful) (policies : List Policy)
    (request : AuthorizationRequest) (decisionId projectId : Uuid) (evaluatedAt : UtcDatetime)
    (evaluation : PolicyEvaluation)
    (evaluated : evaluatePolicy request.action.text request.context policies = .ok evaluation) :
    (∃ form, (authorizationOf decisionId projectId evaluatedAt request evaluation).dump = .ok form ∧
      AuthorizationDecision.fromDict platform form =
        .ok (.ofServer (authorizationOf decisionId projectId evaluatedAt request evaluation))) ↔
    ContextReadable request.context ∧
      ∀ p ∈ policies, p.action = request.action.text → PolicyReadable p := by
  have dumpable := authorization_dumpable_iff evaluated decisionId projectId evaluatedAt
  have named := decisionNamed_iff evaluated decisionId projectId evaluatedAt
  have same := ofServer_written_iff
    (authorizationOf decisionId projectId evaluatedAt request evaluation)
  have decoded := AuthorizationDecision.fromDict_dumped lawful
    (authorizationOf decisionId projectId evaluatedAt request evaluation) evaluatedAt.property
  simp only [AuthorizationResponse.dump_eq_ok, dumpable, applicablePolicies, List.mem_filter,
    decide_eq_true_eq]
  constructor
  · rintro ⟨_, ⟨⟨context, values⟩, rfl⟩, read⟩
    obtain ⟨texts, kept⟩ := (decoded _).mp read
    refine ⟨⟨context, same.mp kept.symm⟩, fun p inside applies => ?_⟩
    exact ⟨named.mp texts p inside applies, values p ⟨inside, applies⟩⟩
  · rintro ⟨context, readable⟩
    refine ⟨_, ⟨⟨context.dumpable, fun p applies => (readable p applies.1 applies.2).values⟩, rfl⟩, ?_⟩
    exact (decoded _).mpr ⟨named.mpr fun p inside applies => (readable p inside applies).named,
      (same.mpr context.keys).symm⟩

/-! ## Samples -/

def sampleText (s : Str) (checked : strip s = s ∧ 1 ≤ s.length ∧ s.any isSurrogate = false) :
    NonEmptyString := ⟨s, checked.1, checked.2.1, checked.2.2⟩

def samplePolicyRequest : AuthorizationRequest :=
  ⟨sampleText "bot" (by decide), sampleText "pay" (by decide),
    ⟨[("tier", .str "gold")], by decide, by decide, rfl⟩⟩

def sampleTierPolicy (reason : Str) : Policy :=
  ⟨"gold-only", 1, "pay", .all, [⟨"tier", .equals, ⟨.str "silver", by decide, by decide, rfl⟩⟩],
    .deny, reason, sampleVersion_positive, by decide⟩

def sampleEvaluation (reason : Str) : PolicyEvaluation :=
  { noPolicyMatched with
    trace := [⟨"gold-only", 1, .deny, reason, false, ⟨.all,
      [⟨"tier", .equals, sampleGold,
        ⟨.str "silver", by decide, by decide, rfl⟩, false⟩]⟩⟩] }

def sampleEvaluatedAt : UtcDatetime := sampleMoment

theorem sampleEvaluation_evaluated (reason : Str) :
    evaluatePolicy samplePolicyRequest.action.text samplePolicyRequest.context
      [sampleTierPolicy reason] = .ok (sampleEvaluation reason) := rfl

theorem decodes_decision_sample :
    (∃ form, (authorizationOf ⟨1⟩ ⟨2⟩ sampleEvaluatedAt samplePolicyRequest
        (sampleEvaluation "Gold only.")).dump = .ok form ∧
      AuthorizationDecision.fromDict (referencePlatform fun _ => []) form =
        .ok (.ofServer (authorizationOf ⟨1⟩ ⟨2⟩ sampleEvaluatedAt samplePolicyRequest
          (sampleEvaluation "Gold only.")))) ↔
    ContextReadable samplePolicyRequest.context ∧
      ∀ p ∈ [sampleTierPolicy "Gold only."], p.action = samplePolicyRequest.action.text →
        PolicyReadable p :=
  decodes_decision_iff (referencePlatform_lawful _) _ samplePolicyRequest ⟨1⟩ ⟨2⟩ sampleEvaluatedAt
    _ (sampleEvaluation_evaluated _)

/-- A policy without a reason is a valid policy, and the client rejects its decision. -/
theorem empty_reason_rejected :
    evaluatePolicy samplePolicyRequest.action.text samplePolicyRequest.context
        [sampleTierPolicy []] = .ok (sampleEvaluation []) ∧
      ∃ form, (authorizationOf ⟨1⟩ ⟨2⟩ sampleEvaluatedAt samplePolicyRequest
          (sampleEvaluation [])).dump = .ok form ∧
        AuthorizationDecision.fromDict (referencePlatform fun _ => []) form =
          .error "reason must be a non-empty string" :=
  ⟨rfl, _, rfl, rfl⟩

end DecAustrum.Sdk
