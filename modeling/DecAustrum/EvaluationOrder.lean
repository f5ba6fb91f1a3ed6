import DecAustrum.Evaluation

/-!
# Evaluation of related lists

What evaluation makes of the same policies in another order, of one policy more, and of
policies for other actions.
-/
namespace DecAustrum

open Python

/-- Two lists that add and remove policies of other actions. -/
inductive DiffersElsewhere (action : Str) : List Policy → List Policy → Prop
  | nil : DiffersElsewhere action [] []
  | keep {policies others : List Policy} (policy : Policy)
      (rest : DiffersElsewhere action policies others) :
      DiffersElsewhere action (policy :: policies) (policy :: others)
  | add {policies others : List Policy} (policy : Policy) (other : policy.action ≠ action)
      (rest : DiffersElsewhere action policies others) :
      DiffersElsewhere action policies (policy :: others)
  | remove {policies others : List Policy} (policy : Policy) (other : policy.action ≠ action)
      (rest : DiffersElsewhere action policies others) :
      DiffersElsewhere action (policy :: policies) others

theorem applicablePolicies_elsewhere {action : Str} {policies others : List Policy}
    (elsewhere : DiffersElsewhere action policies others) :
    applicablePolicies action policies = applicablePolicies action others := by
  unfold applicablePolicies
  induction elsewhere with
  | nil => rfl
  | keep policy _ ih => rw [List.filter_cons, List.filter_cons, ih]
  | add policy other _ ih => rw [List.filter_cons_of_neg (by simpa using other), ih]
  | remove policy other _ ih => rw [List.filter_cons_of_neg (by simpa using other), ih]

theorem Decision.priority_inj {decision other : Decision} :
    decision.priority = other.priority ↔ decision = other := by
  cases decision <;> cases other <;> decide

/-- More applicable policies that hold never make the decision less restrictive. -/
theorem MeetsSpecification.mono {context : StrictObject} {policies more : List Policy}
    {evaluation other : PolicyEvaluation} (subset : policies ⊆ more)
    (meets : MeetsSpecification context policies evaluation)
    (meets_more : MeetsSpecification context more other) :
    evaluation.decision.priority ≤ other.decision.priority := by
  by_cases allowed : evaluation.decision = .allow
  · rw [allowed]
    exact Nat.zero_le _
  · obtain ⟨before, policy, after, split, held, reports, -⟩ := meets.reported allowed
    have inside : policy ∈ policies := by simp [split]
    rw [reports.decision]
    exact meets_more.restrictive policy (subset inside) held

theorem Evaluable.mono {context : StrictObject} {policies fewer : List Policy}
    (subset : fewer ⊆ policies) (defined : Evaluable context policies) :
    Evaluable context fewer := fun policy inside => defined policy (subset inside)

/-- Whether evaluation fails is decided by the applicable policies as a set. -/
theorem fails_iff (action : Str) (context : StrictObject) (policies : List Policy) :
    (∃ exc, evaluatePolicy action context policies = .error exc) ↔
      ¬ Evaluable context (applicablePolicies action policies) := by
  by_cases covered : ∃ policy ∈ policies, policy.action = action
  · obtain ⟨undefined, exc, raised⟩ | ⟨defined, result, done, -⟩ :=
      evaluatePolicy_cases action context policies covered
    · exact ⟨fun _ => undefined, fun _ => ⟨exc, raised⟩⟩
    · constructor
      · rintro ⟨exc, raised⟩
        rw [done] at raised
        cases raised
      · intro undefined
        exact absurd defined undefined
  · have uncovered : ∀ policy ∈ policies, policy.action ≠ action := by simpa using covered
    constructor
    · rintro ⟨exc, raised⟩
      rw [evaluatePolicy_uncovered action context policies uncovered] at raised
      cases raised
    · intro undefined
      refine absurd (fun policy inside => ?_) undefined
      obtain ⟨inside, applies⟩ := mem_applicablePolicies.mp inside
      exact absurd applies (uncovered policy inside)

/-- Two successful evaluations of a covered action compare as their applicable policies do. -/
theorem decision_mono {action : Str} {context : StrictObject} {policies more : List Policy}
    {evaluation other : PolicyEvaluation}
    (covered : ∃ policy ∈ policies, policy.action = action) (subset : policies ⊆ more)
    (done : evaluatePolicy action context policies = .ok evaluation)
    (other_done : evaluatePolicy action context more = .ok other) :
    evaluation.decision.priority ≤ other.decision.priority := by
  have covered_more : ∃ policy ∈ more, policy.action = action := by
    obtain ⟨policy, inside, applies⟩ := covered
    exact ⟨policy, subset inside, applies⟩
  obtain ⟨-, exc, raised⟩ | ⟨-, result, evaluated, meets⟩ :=
    evaluatePolicy_cases action context policies covered
  · rw [raised] at done
    cases done
  obtain ⟨-, exc, raised⟩ | ⟨-, result_more, evaluated_more, meets_more⟩ :=
    evaluatePolicy_cases action context more covered_more
  · rw [raised] at other_done
    cases other_done
  rw [evaluated, Except.ok.injEq] at done
  rw [evaluated_more, Except.ok.injEq] at other_done
  subst done other_done
  apply MeetsSpecification.mono _ meets meets_more
  intro policy inside
  obtain ⟨inside, applies⟩ := mem_applicablePolicies.mp inside
  exact mem_applicablePolicies.mpr ⟨subset inside, applies⟩

theorem applicablePolicies_perm {policies others : List Policy} (action : Str)
    (perm : policies.Perm others) :
    (applicablePolicies action policies).Perm (applicablePolicies action others) :=
  perm.filter _

theorem decision_perm {action : Str} {context : StrictObject} {policies others : List Policy}
    {evaluation other : PolicyEvaluation} (perm : policies.Perm others)
    (done : evaluatePolicy action context policies = .ok evaluation)
    (other_done : evaluatePolicy action context others = .ok other) :
    evaluation.decision = other.decision := by
  by_cases covered : ∃ policy ∈ policies, policy.action = action
  · have covered_others : ∃ policy ∈ others, policy.action = action := by
      simpa [perm.mem_iff] using covered
    apply Decision.priority_inj.mp
    exact Nat.le_antisymm (decision_mono covered perm.subset done other_done)
      (decision_mono covered_others perm.symm.subset other_done done)
  · have uncovered : ∀ policy ∈ policies, policy.action ≠ action := by simpa using covered
    rw [evaluatePolicy_uncovered action context policies uncovered, Except.ok.injEq] at done
    rw [evaluatePolicy_uncovered action context others (by simpa [perm.mem_iff] using uncovered),
      Except.ok.injEq] at other_done
    rw [← done, ← other_done]

/-- An inserted policy that can be evaluated does not make evaluation fail. -/
theorem fails_insert {action : Str} {context : StrictObject} {before after : List Policy}
    {added : Policy} (defined : ∀ condition ∈ added.conditions, ¬ Unevaluable context condition) :
    (∃ exc, evaluatePolicy action context (before ++ added :: after) = .error exc) ↔
      ∃ exc, evaluatePolicy action context (before ++ after) = .error exc := by
  rw [fails_iff, fails_iff, not_iff_not]
  constructor
  · apply Evaluable.mono
    intro policy inside
    rw [mem_applicablePolicies] at inside ⊢
    refine ⟨?_, inside.2⟩
    rcases List.mem_append.mp inside.1 with inside | inside
    · exact List.mem_append_left _ inside
    · exact List.mem_append_right _ (List.mem_cons_of_mem _ inside)
  · intro evaluable policy inside
    rw [mem_applicablePolicies, List.mem_append, List.mem_cons] at inside
    obtain ⟨inside | rfl | inside, applies⟩ := inside
    · exact evaluable policy (mem_applicablePolicies.mpr ⟨List.mem_append_left _ inside, applies⟩)
    · exact defined
    · exact evaluable policy (mem_applicablePolicies.mpr ⟨List.mem_append_right _ inside, applies⟩)

/-- The order of the policies decides neither failure nor decision, an added policy never
relaxes the decision of a covered action, and policies of other actions change nothing. -/
theorem evaluation_order_and_restriction (action : Str) (context : StrictObject)
    (policies : List Policy) :
    (∀ others, policies.Perm others →
        ((∃ exc, evaluatePolicy action context policies = .error exc) ↔
            ∃ exc, evaluatePolicy action context others = .error exc) ∧
          ∀ evaluation other, evaluatePolicy action context policies = .ok evaluation →
            evaluatePolicy action context others = .ok other →
              evaluation.decision = other.decision) ∧
      (∀ before after added, policies = before ++ after →
        (∃ policy ∈ policies, policy.action = action) →
        (∀ condition ∈ added.conditions, ¬ Unevaluable context condition) →
        ((∃ exc, evaluatePolicy action context (before ++ added :: after) = .error exc) ↔
            ∃ exc, evaluatePolicy action context policies = .error exc) ∧
          ∀ evaluation other, evaluatePolicy action context policies = .ok evaluation →
            evaluatePolicy action context (before ++ added :: after) = .ok other →
              evaluation.decision.priority ≤ other.decision.priority) ∧
      ∀ others, DiffersElsewhere action policies others →
        evaluatePolicy action context policies = evaluatePolicy action context others := by
  refine ⟨?_, ?_, ?_⟩
  · intro others perm
    constructor
    · rw [fails_iff, fails_iff, not_iff_not]
      have applicable := applicablePolicies_perm action perm
      exact ⟨.mono applicable.symm.subset, .mono applicable.subset⟩
    · exact fun _ _ => decision_perm perm
  · rintro before after added rfl covered defined
    constructor
    · exact fails_insert defined
    · intro evaluation other
      apply decision_mono covered
      intro policy inside
      rcases List.mem_append.mp inside with inside | inside
      · exact List.mem_append_left _ inside
      · exact List.mem_append_right _ (List.mem_cons_of_mem _ inside)
  · intro others elsewhere
    have same := applicablePolicies_elsewhere elsewhere
    rw [applicablePolicies, applicablePolicies] at same
    rw [evaluatePolicy, evaluatePolicy, same]

end DecAustrum
