import DecAustrum.PolicyEngine

/-!
# Evaluation against its specification

What the conditions of a policy mean on a context, and that the loops of the policy engine
report the most restrictive policy that holds.
-/
namespace DecAustrum

open Python Traversal

/-! ## What a policy says about a context -/

/-- The field is absent or null, or the operator is undefined on the two values. -/
def Unevaluable (context : StrictObject) (condition : PolicyCondition) : Prop :=
  context.json.get? condition.field = none ∨ context.json.get? condition.field = some .null ∨
    ∃ actual, context.json.get? condition.field = some actual ∧
      evaluateOperator condition.operator actual condition.value.json = none

/-- The operator is true of the value in the context and the value of the condition. -/
def ConditionHolds (context : StrictObject) (condition : PolicyCondition) : Prop :=
  ∃ actual, context.json.get? condition.field = some actual ∧
    evaluateOperator condition.operator actual condition.value.json = some true

/-- All or any of the conditions hold. -/
def GroupHolds (context : StrictObject) (policy : Policy) : Prop :=
  match policy.matchMode with
  | .all => ∀ condition ∈ policy.conditions, ConditionHolds context condition
  | .any => ∃ condition ∈ policy.conditions, ConditionHolds context condition

/-- The evidence of one condition. -/
structure ConditionShown (context : StrictObject) (condition : PolicyCondition)
    (evidence : ConditionEvidence) : Prop where
  field : evidence.field = condition.field
  operator : evidence.operator = condition.operator
  expected : evidence.expectedValue = condition.value
  actual : context.json.get? condition.field = some evidence.actualValue.json
  matched : evidence.matched = true ↔ ConditionHolds context condition

/-- The evidence of a policy shows its conditions in order. -/
structure EvidenceShown (context : StrictObject) (policy : Policy) (evidence : PolicyEvidence) :
    Prop where
  matchMode : evidence.matchMode = policy.matchMode
  conditions : List.Forall₂ (ConditionShown context) policy.conditions evidence.conditions

/-- The trace entry of a policy. -/
structure EntryShown (context : StrictObject) (policy : Policy) (entry : PolicyTraceEntry) :
    Prop where
  policyId : entry.policyId = policy.id
  policyVersion : entry.policyVersion = policy.version
  decision : entry.decision = policy.decision
  reason : entry.reason = policy.reason
  matched : entry.matched = true ↔ GroupHolds context policy
  evidence : EvidenceShown context policy entry.evidence

/-- The evaluation reports this policy. -/
structure Reports (context : StrictObject) (policy : Policy) (evaluation : PolicyEvaluation) :
    Prop where
  decision : evaluation.decision = policy.decision
  policyId : evaluation.policyId = some policy.id
  policyVersion : evaluation.policyVersion = some policy.version
  reason : evaluation.reason = policy.reason
  evidence : ∃ evidence, evaluation.evidence = some evidence ∧ EvidenceShown context policy evidence

/-- What an evaluation of the policies of the action says, the list in its order. -/
structure MeetsSpecification (context : StrictObject) (applicable : List Policy)
    (evaluation : PolicyEvaluation) : Prop where
  restrictive : ∀ policy ∈ applicable, GroupHolds context policy →
    policy.decision.priority ≤ evaluation.decision.priority
  reported : evaluation.decision ≠ .allow → ∃ before policy after,
    applicable = before ++ policy :: after ∧ GroupHolds context policy ∧
      Reports context policy evaluation ∧
      ∀ earlier ∈ before, GroupHolds context earlier → earlier.decision ≠ evaluation.decision
  unreported : evaluation.decision = .allow → evaluation.policyId = none ∧
    evaluation.policyVersion = none ∧ evaluation.reason = noPolicyMatched.reason ∧
      evaluation.evidence = none
  trace : List.Forall₂ (EntryShown context) applicable evaluation.trace

/-! ## One condition, one policy -/

theorem contextValue_cases (context : StrictObject) (field : Str) :
    ((context.json.get? field = none ∨ context.json.get? field = some .null) ∧
        contextValue context field = none) ∨
      ∃ actual : StrictJson, context.json.get? field = some actual.json ∧
        actual.json ≠ .null ∧ contextValue context field = some actual := by
  unfold contextValue
  split
  next absent => exact .inl ⟨.inl absent, rfl⟩
  next null => exact .inl ⟨.inr null, rfl⟩
  next w proper found =>
    right
    exact ⟨_, found, proper, rfl⟩

/-- A condition either shows its evidence or cannot be evaluated. -/
theorem evaluateCondition_cases (context : StrictObject) (policyId : Str)
    (condition : PolicyCondition) :
    (Unevaluable context condition ∧
        ∃ exc, evaluateCondition context policyId condition = .error exc) ∨
      (¬ Unevaluable context condition ∧ ∃ evidence,
        evaluateCondition context policyId condition = .ok evidence ∧
          ConditionShown context condition evidence) := by
  unfold evaluateCondition
  obtain ⟨absent, value⟩ | ⟨actual, found, proper, value⟩ :=
    contextValue_cases context condition.field
  · left
    rw [value]
    constructor
    · rcases absent with absent | null
      · exact .inl absent
      · exact .inr (.inl null)
    · exact ⟨_, rfl⟩
  · rw [value]
    cases result : evaluateOperator condition.operator actual.json condition.value.json with
    | none =>
      left
      refine ⟨.inr (.inr ⟨actual.json, found, result⟩), ?_⟩
      simp only [result]
      exact ⟨_, rfl⟩
    | some matched =>
      right
      constructor
      · rintro (absent | null | ⟨other, same, undefined⟩)
        · rw [found] at absent
          cases absent
        · rw [found, Option.some.injEq] at null
          exact proper null
        · rw [found, Option.some.injEq] at same
          rw [← same, result] at undefined
          cases undefined
      · simp only [result]
        refine ⟨_, rfl, rfl, rfl, rfl, found, ?_⟩
        constructor
        · intro holds
          exact ⟨actual.json, found, result.trans (congrArg some holds)⟩
        · rintro ⟨other, same, holds⟩
          rw [found, Option.some.injEq] at same
          rw [← same, result, Option.some.injEq] at holds
          exact holds

theorem mapM_conditions_cases (context : StrictObject) (policyId : Str)
    (conditions : List PolicyCondition) :
    ((∃ condition ∈ conditions, Unevaluable context condition) ∧
        ∃ exc, conditions.mapM (evaluateCondition context policyId) = .error exc) ∨
      ((∀ condition ∈ conditions, ¬ Unevaluable context condition) ∧ ∃ evidence,
        conditions.mapM (evaluateCondition context policyId) = .ok evidence ∧
          List.Forall₂ (ConditionShown context) conditions evidence) := by
  induction conditions with
  | nil => exact .inr ⟨by simp, [], rfl, .nil⟩
  | cons condition rest ih =>
    simp only [List.mapM_cons]
    obtain ⟨undefined, exc, raised⟩ | ⟨defined, shown, evaluated, shows⟩ :=
      evaluateCondition_cases context policyId condition
    · left
      refine ⟨⟨condition, List.mem_cons_self .., undefined⟩, exc, ?_⟩
      rw [raised]
      rfl
    · rw [evaluated]
      obtain ⟨⟨other, inside, undefined⟩, exc, raised⟩ | ⟨rest_defined, evidence, done, shown_rest⟩ :=
        ih
      · left
        refine ⟨⟨other, List.mem_cons_of_mem _ inside, undefined⟩, exc, ?_⟩
        rw [raised]
        rfl
      · right
        rw [done]
        refine ⟨?_, shown :: evidence, rfl, .cons shows shown_rest⟩
        intro other inside
        rcases List.mem_cons.mp inside with rfl | inside
        · exact defined
        · exact rest_defined other inside

theorem holds_iff (context : StrictObject) (policy : Policy) (evidence : List ConditionEvidence)
    (shown : List.Forall₂ (ConditionShown context) policy.conditions evidence) :
    policy.matchMode.holds evidence = true ↔ GroupHolds context policy := by
  unfold ConditionMatch.holds GroupHolds
  generalize policy.conditions = conditions at shown
  cases policy.matchMode with
  | all =>
    induction shown with
    | nil => simp
    | cons first _ ih => simp_all [first.matched]
  | any =>
    induction shown with
    | nil => simp
    | cons first _ ih => simp_all [first.matched]

theorem evaluateEntry_cases (context : StrictObject) (policy : Policy) :
    ((∃ condition ∈ policy.conditions, Unevaluable context condition) ∧
        ∃ exc, evaluateEntry context policy = .error exc) ∨
      ((∀ condition ∈ policy.conditions, ¬ Unevaluable context condition) ∧ ∃ entry,
        evaluateEntry context policy = .ok entry ∧ EntryShown context policy entry) := by
  unfold evaluateEntry
  obtain ⟨undefined, exc, raised⟩ | ⟨defined, evidence, evaluated, shown⟩ :=
    mapM_conditions_cases context policy.id policy.conditions
  · left
    rw [raised]
    exact ⟨undefined, exc, rfl⟩
  · right
    rw [evaluated]
    exact ⟨defined, _, rfl, rfl, rfl, rfl, rfl, holds_iff context policy evidence shown, rfl, shown⟩

/-! ## The loop over the policies -/

/-- What the loop has made of an evaluation once it has passed these policies. -/
structure Scanned (context : StrictObject) (policies : List Policy)
    (evaluation result : PolicyEvaluation) : Prop where
  grows : evaluation.decision.priority ≤ result.decision.priority
  restrictive : ∀ policy ∈ policies, GroupHolds context policy →
    policy.decision.priority ≤ result.decision.priority
  chosen : result = { evaluation with trace := result.trace } ∨ ∃ before policy after,
    policies = before ++ policy :: after ∧ GroupHolds context policy ∧
      Reports context policy result ∧
      evaluation.decision.priority < policy.decision.priority ∧
      ∀ earlier ∈ before, GroupHolds context earlier →
        earlier.decision.priority < policy.decision.priority
  trace : ∃ entries, List.Forall₂ (EntryShown context) policies entries ∧
    result.trace = evaluation.trace ++ entries

theorem Scanned.nil (context : StrictObject) (evaluation : PolicyEvaluation) :
    Scanned context [] evaluation evaluation :=
  ⟨Nat.le_refl _, by simp, .inl rfl, [], .nil, by simp⟩

/-- A policy that holds and is more restrictive takes over. -/
theorem Scanned.take {context : StrictObject} {policy : Policy} {policies : List Policy}
    {evaluation result : PolicyEvaluation} {entry : PolicyTraceEntry}
    (shown : EntryShown context policy entry) (holds : GroupHolds context policy)
    (above : evaluation.decision.priority < policy.decision.priority)
    (rest : Scanned context policies ⟨policy.decision, some policy.id, some policy.version,
      policy.reason, some entry.evidence, evaluation.trace ++ [entry]⟩ result) :
    Scanned context (policy :: policies) evaluation result := by
  constructor
  · exact Nat.le_trans (Nat.le_of_lt above) rest.grows
  · intro other inside held
    rcases List.mem_cons.mp inside with rfl | inside
    · exact rest.grows
    · exact rest.restrictive other inside held
  · right
    rcases rest.chosen with kept | ⟨before, winner, after, split, held, reports, beats, first⟩
    · refine ⟨[], policy, policies, rfl, holds, ?_, above, by simp⟩
      rw [kept]
      exact ⟨rfl, rfl, rfl, rfl, _, rfl, shown.evidence⟩
    · refine ⟨policy :: before, winner, after, by rw [split]; rfl, held, reports,
        Nat.lt_trans above beats, ?_⟩
      intro earlier inside earlier_holds
      rcases List.mem_cons.mp inside with rfl | inside
      · exact beats
      · exact first earlier inside earlier_holds
  · obtain ⟨entries, entries_shown, trace⟩ := rest.trace
    exact ⟨entry :: entries, .cons shown entries_shown, by simpa using trace⟩

/-- Any other policy leaves the report as it is. -/
theorem Scanned.skip {context : StrictObject} {policy : Policy} {policies : List Policy}
    {evaluation result : PolicyEvaluation} {entry : PolicyTraceEntry}
    (shown : EntryShown context policy entry)
    (below : GroupHolds context policy → policy.decision.priority ≤ evaluation.decision.priority)
    (rest : Scanned context policies { evaluation with trace := evaluation.trace ++ [entry] }
      result) :
    Scanned context (policy :: policies) evaluation result := by
  constructor
  · exact rest.grows
  · intro other inside held
    rcases List.mem_cons.mp inside with rfl | inside
    · exact Nat.le_trans (below held) rest.grows
    · exact rest.restrictive other inside held
  · rcases rest.chosen with kept | ⟨before, winner, after, split, held, reports, beats, first⟩
    · exact .inl kept
    · right
      refine ⟨policy :: before, winner, after, by rw [split]; rfl, held, reports, beats, ?_⟩
      intro earlier inside earlier_holds
      rcases List.mem_cons.mp inside with rfl | inside
      · exact Nat.lt_of_le_of_lt (below earlier_holds) beats
      · exact first earlier inside earlier_holds
  · obtain ⟨entries, entries_shown, trace⟩ := rest.trace
    exact ⟨entry :: entries, .cons shown entries_shown, by simpa using trace⟩

/-- Every condition of every policy can be evaluated. -/
def Evaluable (context : StrictObject) (policies : List Policy) : Prop :=
  ∀ policy ∈ policies, ∀ condition ∈ policy.conditions, ¬ Unevaluable context condition

/-- The loop stops at a condition it cannot evaluate and at nothing else. -/
theorem evaluatePolicies_cases (context : StrictObject) (policies : List Policy) :
    ∀ evaluation,
      (¬ Evaluable context policies ∧
          ∃ exc, evaluatePolicies context evaluation policies = .error exc) ∨
        (Evaluable context policies ∧ ∃ result,
          evaluatePolicies context evaluation policies = .ok result ∧
            Scanned context policies evaluation result) := by
  induction policies with
  | nil =>
    intro evaluation
    exact .inr ⟨by simp [Evaluable], evaluation, rfl, .nil context evaluation⟩
  | cons policy policies ih =>
    intro evaluation
    rw [evaluatePolicies]
    obtain ⟨⟨condition, inside, undefined⟩, exc, raised⟩ | ⟨defined, entry, evaluated, shown⟩ :=
      evaluateEntry_cases context policy
    · left
      rw [raised]
      refine ⟨fun defined => ?_, exc, rfl⟩
      exact defined policy (List.mem_cons_self ..) condition inside undefined
    rw [evaluated]
    have together : Evaluable context (policy :: policies) ↔ Evaluable context policies := by
      simp only [Evaluable, List.forall_mem_cons]
      exact and_iff_right defined
    rw [together]
    simp only [bind, Except.bind]
    by_cases takes : entry.matched = true ∧
        evaluation.decision.priority < policy.decision.priority
    · rw [if_pos (by simpa using takes)]
      obtain failed | ⟨rest, result, done, scanned⟩ := ih ⟨policy.decision, some policy.id,
        some policy.version, policy.reason, some entry.evidence, evaluation.trace ++ [entry]⟩
      · exact .inl failed
      · exact .inr ⟨rest, result, done, .take shown (shown.matched.mp takes.1) takes.2 scanned⟩
    · rw [if_neg (by simpa using takes)]
      have below (held : GroupHolds context policy) :
          policy.decision.priority ≤ evaluation.decision.priority := by
        by_contra above
        exact takes ⟨shown.matched.mpr held, Nat.lt_of_not_le above⟩
      obtain failed | ⟨rest, result, done, scanned⟩ :=
        ih { evaluation with trace := evaluation.trace ++ [entry] }
      · exact .inl failed
      · exact .inr ⟨rest, result, done, .skip shown below scanned⟩

/-- From a start that reports nothing, the scan meets the specification. -/
theorem Scanned.meets {context : StrictObject} {policies : List Policy} {result : PolicyEvaluation}
    (scanned : Scanned context policies noPolicyMatched result) :
    MeetsSpecification context policies result := by
  constructor
  · exact scanned.restrictive
  · intro restrictive
    rcases scanned.chosen with kept | ⟨before, policy, after, split, held, reports, -, first⟩
    · rw [kept] at restrictive
      exact absurd rfl restrictive
    · refine ⟨before, policy, after, split, held, reports, ?_⟩
      intro earlier inside earlier_holds same
      have lower := first earlier inside earlier_holds
      rw [same, reports.decision] at lower
      exact Nat.lt_irrefl _ lower
  · intro allowed
    rcases scanned.chosen with kept | ⟨before, policy, after, -, -, reports, above, -⟩
    · rw [kept]
      exact ⟨rfl, rfl, rfl, rfl⟩
    · rw [← reports.decision, allowed] at above
      exact absurd above (Nat.lt_irrefl _)
  · obtain ⟨entries, shown, trace⟩ := scanned.trace
    rw [show result.trace = entries from trace]
    exact shown

/-! ## The policies of the action -/

/-- The policies of one action, in order. -/
def applicablePolicies (action : Str) (policies : List Policy) : List Policy :=
  policies.filter fun policy => policy.action = action

theorem mem_applicablePolicies {action : Str} {policies : List Policy} {policy : Policy} :
    policy ∈ applicablePolicies action policies ↔ policy ∈ policies ∧ policy.action = action := by
  simp [applicablePolicies]

theorem evaluatePolicy_uncovered (action : Str) (context : StrictObject) (policies : List Policy)
    (uncovered : ∀ policy ∈ policies, policy.action ≠ action) :
    evaluatePolicy action context policies =
      .ok ⟨.deny, none, none, isNotCovered action, none, []⟩ := by
  have none_applies : applicablePolicies action policies = [] := by
    simpa [applicablePolicies] using uncovered
  rw [applicablePolicies] at none_applies
  rw [evaluatePolicy, none_applies]

theorem evaluatePolicy_covered (action : Str) (context : StrictObject) (policies : List Policy)
    (covered : ∃ policy ∈ policies, policy.action = action) :
    evaluatePolicy action context policies =
      evaluatePolicies context noPolicyMatched (applicablePolicies action policies) := by
  obtain ⟨policy, inside, applies⟩ := covered
  have member := mem_applicablePolicies.mpr ⟨inside, applies⟩
  rw [applicablePolicies] at member ⊢
  rw [evaluatePolicy]
  split
  next empty => simp [empty] at member
  next => rfl

/-- A covered action is evaluated unless a condition of one of its policies cannot be. -/
theorem evaluatePolicy_cases (action : Str) (context : StrictObject) (policies : List Policy)
    (covered : ∃ policy ∈ policies, policy.action = action) :
    (¬ Evaluable context (applicablePolicies action policies) ∧
        ∃ exc, evaluatePolicy action context policies = .error exc) ∨
      (Evaluable context (applicablePolicies action policies) ∧ ∃ result,
        evaluatePolicy action context policies = .ok result ∧
          MeetsSpecification context (applicablePolicies action policies) result) := by
  rw [evaluatePolicy_covered action context policies covered]
  obtain failed | ⟨defined, result, done, scanned⟩ :=
    evaluatePolicies_cases context (applicablePolicies action policies) noPolicyMatched
  · exact .inl failed
  · exact .inr ⟨defined, result, done, scanned.meets⟩

/-- Evaluation denies what no policy covers, raises exactly where a condition of the action
cannot be evaluated, and otherwise reports the first of the most restrictive policies that
hold, with an entry in the trace for every policy of the action. -/
theorem evaluation_meets_specification (action : Str) (context : StrictObject)
    (policies : List Policy) :
    ((∀ policy ∈ policies, policy.action ≠ action) →
        evaluatePolicy action context policies =
          .ok ⟨.deny, none, none, isNotCovered action, none, []⟩) ∧
      ((∃ policy ∈ policies, policy.action = action) →
        ((∃ exc, evaluatePolicy action context policies = .error exc) ↔
            ∃ policy ∈ policies, policy.action = action ∧
              ∃ condition ∈ policy.conditions, Unevaluable context condition) ∧
          ∀ result, evaluatePolicy action context policies = .ok result →
            MeetsSpecification context (policies.filter fun policy => policy.action = action)
              result) := by
  constructor
  · exact evaluatePolicy_uncovered action context policies
  intro covered
  have raises : ¬ Evaluable context (applicablePolicies action policies) ↔
      ∃ policy ∈ policies, policy.action = action ∧
        ∃ condition ∈ policy.conditions, Unevaluable context condition := by
    simp [Evaluable, mem_applicablePolicies]
  obtain ⟨undefined, exc, raised⟩ | ⟨defined, result, done, meets⟩ :=
    evaluatePolicy_cases action context policies covered
  · constructor
    · exact ⟨fun _ => raises.mp undefined, fun _ => ⟨exc, raised⟩⟩
    · intro result done
      rw [raised] at done
      cases done
  · constructor
    · constructor
      · rintro ⟨exc, raised⟩
        rw [done] at raised
        cases raised
      · intro undefined
        exact absurd defined (raises.mpr undefined)
    · intro other other_done
      rw [done, Except.ok.injEq] at other_done
      rw [← other_done]
      exact meets

end DecAustrum
