import DecAustrum.Operators
import DecAustrum.Policies
import DecAustrum.Traversal

/-!
# The policy engine

Every policy of the action is evaluated, and the most restrictive one that matches wins.
-/
namespace DecAustrum

open Python Traversal

/-- What evaluation raises. -/
inductive PolicyContextError where
  | missing (field policyId : Str)
  | invalid (field : Str) (operator : Operator)
  deriving DecidableEq

/-- `DECISION_PRIORITY`. -/
def Decision.priority : Decision → Nat
  | .allow => 0
  | .requireApproval => 1
  | .deny => 2

/-- A member of a strict object is strict. -/
theorem StrictObject.member (context : StrictObject) {key : Str} {w : Json}
    (found : context.json.get? key = some w) :
    w.uniqueKeys = true ∧ w.encodable = true ∧ w.sortKeys = w := by
  rw [context.json_eq, Json.get?, Json.lookup, Option.map_eq_some_iff] at found
  obtain ⟨field, first, rfl⟩ := found
  have inside := List.mem_of_find?_eq_some first
  rw [List.mem_insertionSort] at inside
  have unique := context.unique
  have encodable := context.encodable
  rw [Json.uniqueKeys, Bool.and_eq_true, Json.uniqueKeysFields_iff] at unique
  rw [Json.encodable, Json.encodableFields_iff] at encodable
  refine ⟨unique.2 field inside, encodable field inside, ?_⟩
  rw [← context.sorted, Json.sortKeysFields_eq, List.mem_map] at inside
  obtain ⟨other, -, rfl⟩ := inside
  exact Json.sortKeys_sortKeys _

/-- `context.get(field)`; a null counts as missing. -/
def contextValue (context : StrictObject) (field : Str) : Option StrictJson :=
  match found : context.json.get? field with
  | none => none
  | some .null => none
  | some w =>
    have strict := context.member found
    some ⟨w, strict.1, strict.2.1, strict.2.2⟩

/-- One condition of a policy. -/
def evaluateCondition (context : StrictObject) (policyId : Str) (condition : PolicyCondition) :
    Except PolicyContextError ConditionEvidence :=
  match contextValue context condition.field with
  | none => .error (.missing condition.field policyId)
  | some actual =>
    match evaluateOperator condition.operator actual.json condition.value.json with
    | none => .error (.invalid condition.field condition.operator)
    | some matched => .ok ⟨condition.field, condition.operator, actual, condition.value, matched⟩

/-- `all` or `any` of the results. -/
def ConditionMatch.holds (mode : ConditionMatch) (evidence : List ConditionEvidence) : Bool :=
  match mode with
  | .all => evidence.all (·.matched)
  | .any => evidence.any (·.matched)

/-- The trace entry of one policy. -/
def evaluateEntry (context : StrictObject) (policy : Policy) :
    Except PolicyContextError PolicyTraceEntry := do
  let evidence ← policy.conditions.mapM (evaluateCondition context policy.id)
  return ⟨policy.id, policy.version, policy.decision, policy.reason,
    policy.matchMode.holds evidence, ⟨policy.matchMode, evidence⟩⟩

/-- What the loop holds before the first policy. -/
def noPolicyMatched : PolicyEvaluation :=
  ⟨.allow, none, none, "No policy required approval or denial.", none, []⟩

/-- The loop over the applicable policies. -/
def evaluatePolicies (context : StrictObject) :
    PolicyEvaluation → List Policy → Except PolicyContextError PolicyEvaluation
  | evaluation, [] => .ok evaluation
  | evaluation, policy :: rest => do
    let entry ← evaluateEntry context policy
    let trace := evaluation.trace ++ [entry]
    if entry.matched && evaluation.decision.priority < policy.decision.priority then
      evaluatePolicies context ⟨policy.decision, some policy.id, some policy.version, policy.reason,
        some entry.evidence, trace⟩ rest
    else evaluatePolicies context { evaluation with trace := trace } rest

/-- The policy fields of an evaluation are those of an entry of its trace, if of any. -/
def Sourced (evaluation : PolicyEvaluation) : Prop :=
  (evaluation.policyId = none ∧ evaluation.evidence = none ∧
      evaluation.reason = noPolicyMatched.reason) ∨
    ∃ t ∈ evaluation.trace, evaluation.policyId = some t.policyId ∧
      evaluation.evidence = some t.evidence ∧ evaluation.reason = t.reason

theorem evaluateCondition_spec (context : StrictObject) (policyId : Str) (condition : PolicyCondition)
    (evidence : ConditionEvidence)
    (evaluated : evaluateCondition context policyId condition = .ok evidence) :
    evidence.field = condition.field ∧ evidence.operator = condition.operator ∧
      evidence.expectedValue = condition.value := by
  unfold evaluateCondition at evaluated
  split at evaluated
  · cases evaluated
  split at evaluated
  · cases evaluated
  cases evaluated
  exact ⟨rfl, rfl, rfl⟩

/-- What the entry of a policy repeats of it. -/
structure EntryOf (policy : Policy) (t : PolicyTraceEntry) : Prop where
  policyId : t.policyId = policy.id
  policyVersion : t.policyVersion = policy.version
  decision : t.decision = policy.decision
  reason : t.reason = policy.reason
  conditions : List.Forall₂ (fun (c : PolicyCondition) (e : ConditionEvidence) =>
    e.field = c.field ∧ e.operator = c.operator ∧ e.expectedValue = c.value)
    policy.conditions t.evidence.conditions

theorem evaluateEntry_spec (context : StrictObject) (policy : Policy) (t : PolicyTraceEntry)
    (evaluated : evaluateEntry context policy = .ok t) : EntryOf policy t := by
  rw [evaluateEntry, bind_eq_ok] at evaluated
  obtain ⟨evidence, conditions, done⟩ := evaluated
  cases done
  refine ⟨rfl, rfl, rfl, rfl, ?_⟩
  exact ((mapM_eq_ok_iff _ _ _).mp conditions).imp fun _ _ => evaluateCondition_spec _ _ _ _

/-- The loop adds one entry a policy, and what it has chosen comes from the trace. -/
theorem evaluatePolicies_spec (context : StrictObject) (policies : List Policy) :
    ∀ evaluation result, Sourced evaluation →
      evaluatePolicies context evaluation policies = .ok result →
      Sourced result ∧ ∃ entries, List.Forall₂ EntryOf policies entries ∧
        result.trace = evaluation.trace ++ entries := by
  induction policies with
  | nil =>
    intro evaluation result sourced done
    cases done
    exact ⟨sourced, [], .nil, by simp⟩
  | cons policy policies ih =>
    intro evaluation result sourced done
    rw [evaluatePolicies, bind_eq_ok] at done
    obtain ⟨t, entry, done⟩ := done
    have repeats := evaluateEntry_spec context policy t entry
    split at done
    · obtain ⟨chosen, entries, rest, trace⟩ := ih _ result
        (.inr ⟨t, by simp, by rw [repeats.policyId], rfl, repeats.reason.symm⟩) done
      exact ⟨chosen, t :: entries, .cons repeats rest, by simpa using trace⟩
    · have kept : Sourced { evaluation with trace := evaluation.trace ++ [t] } := by
        rcases sourced with nothing | ⟨u, inside, same⟩
        · exact .inl nothing
        · exact .inr ⟨u, List.mem_append_left _ inside, same⟩
      obtain ⟨chosen, entries, rest, trace⟩ := ih _ result kept done
      exact ⟨chosen, t :: entries, .cons repeats rest, by simpa using trace⟩

def isNotCovered (action : Str) : Str :=
  ofString "Action '" ++ (action ++ ofString "' is not covered by an active policy.")

/-- `evaluate_policy` with the policies given. -/
def evaluatePolicy (action : Str) (context : StrictObject) (policies : List Policy) :
    Except PolicyContextError PolicyEvaluation :=
  match policies.filter fun policy => policy.action = action with
  | [] => .ok ⟨.deny, none, none, isNotCovered action, none, []⟩
  | applicable => evaluatePolicies context noPolicyMatched applicable

/-- The decision `authorize_request` makes of an evaluation. -/
def authorizationOf (decisionId projectId : Uuid) (evaluatedAt : UtcDatetime)
    (request : AuthorizationRequest) (evaluation : PolicyEvaluation) : AuthorizationResponse :=
  ⟨decisionId, projectId, evaluatedAt.val, evaluation.decision, evaluation.policyId,
    evaluation.policyVersion, evaluation.reason, evaluation.evidence, request.agent.text,
    request.action.text, request.context, evaluation.trace⟩

end DecAustrum
