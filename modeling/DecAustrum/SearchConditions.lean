import DecAustrum.Python.DatetimeOrder
import DecAustrum.SearchableLedgers
import DecAustrum.Storage.Search

/-!
# The conditions of a search

What the filters ask of a decision, and that the query asks the same of its row. The join gives
one row for each decision, since no decision has two approvals.
-/
namespace DecAustrum

open Python Transaction Table

variable {platform : Platform}

/-! ## The conditions -/

def Database.approvalStatus (db : Database) (decisionId : Uuid) : Option ApprovalStatus :=
  (db.lifecycle.approvals.find? fun a => a.decisionId = some decisionId).map (·.status)

/-- The status a filter names; a decision without an approval has `NONE`. -/
def evidenceStatus : Option ApprovalStatus → EvidenceApprovalStatus
  | none => .none
  | some .pending => .pending
  | some .approved => .approved
  | some .rejected => .rejected
  | some .expired => .expired

/-- What the filters ask of a decision and of the status of its approval. -/
structure Satisfies (filters : DecisionSearchFilters) (a : AuthorizationResponse)
    (approval : Option ApprovalStatus) : Prop where
  decision : ∀ value ∈ filters.decision, a.decision = value
  agent : ∀ value ∈ filters.agent, a.agent = value.text
  action : ∀ value ∈ filters.action, a.action = value.text
  policyId : ∀ value ∈ filters.policyId, a.policy = some value.text
  hasPolicy : ∀ value ∈ filters.hasPolicy, a.policy.isSome = value
  approvalStatus : ∀ value ∈ filters.approvalStatus, evidenceStatus approval = value
  evaluatedAfter : ∀ value ∈ filters.evaluatedAfter, value.val.clock ≤ a.evaluatedAt.clock
  evaluatedBefore : ∀ value ∈ filters.evaluatedBefore, a.evaluatedAt.clock ≤ value.val.clock
  query : ∀ value ∈ filters.query, ∃ text ∈ [a.agent, a.action] ++ a.policy.toList ++ [a.reason],
    asciiLower value.text <:+: asciiLower text

/-! ## The join -/

namespace Database

variable {db : Database}

/-- The approval that is joined to a decision. -/
def approvalOf (db : Database) (d : DecisionRow) : Option ApprovalColumns :=
  db.lifecycle.approvals.find? (joins d)

def selects (db : Database) (filters : DecisionSearchFilters) (d : DecisionRow) : Bool :=
  searchWhere filters d (db.approvalOf d)

theorem leftJoin_eq (unique : db.UniqueApprovals) (d : DecisionRow) :
    db.leftJoin d = [db.approvalOf d] := by
  rw [leftJoin, approvalOf, ← List.head?_filter]
  cases joined : db.lifecycle.approvals.filter (joins d) with
  | nil => rfl
  | cons a rest =>
    cases rest with
    | nil => rfl
    | cons b rest =>
      -- two approvals of one decision have the same key
      have both : UniqueKey (·.decisionId) (a :: b :: rest) := by
        rw [← joined]
        exact unique.sublist List.filter_sublist
      have joins_of {row : ApprovalColumns} (inside : row ∈ a :: b :: rest) :
          ∃ id, row.decisionId = some id ∧ id.str = d.decisionId := by
        rw [← joined] at inside
        have passed := (List.mem_filter.mp inside).2
        rw [joins, Option.any_eq_true] at passed
        obtain ⟨id, keyed, same⟩ := passed
        exact ⟨id, keyed, of_decide_eq_true same⟩
      obtain ⟨first, firstKey, firstText⟩ := joins_of (List.mem_cons_self ..)
      obtain ⟨second, secondKey, secondText⟩ := joins_of (List.mem_cons_of_mem _ (List.mem_cons_self ..))
      obtain rfl := Uuid.str_inj _ _ (firstText.trans secondText.symm)
      exact absurd secondKey (both.tail.2 first firstKey b (List.mem_cons_self ..))

theorem joinedRows_eq (unique : db.UniqueApprovals) (filters : DecisionSearchFilters)
    (d : DecisionRow) :
    db.joinedRows filters d = if db.selects filters d then [db.approvalOf d] else [] := by
  rw [joinedRows, leftJoin_eq unique, List.filter_singleton, selects]
  cases searchWhere filters d (db.approvalOf d) <;> rfl

/-- The approval of a decision under its identifier. -/
theorem approvalOf_eq {d : DecisionRow} {id : Uuid} (named : d.decisionId = id.str) :
    db.approvalOf d = db.lifecycle.approvals.find? fun a => a.decisionId = some id := by
  rw [approvalOf]
  congr 1
  funext a
  rw [joins, named]
  cases a.decisionId with
  | none => simp
  | some other =>
    simp only [Option.any_some, Option.some.injEq, decide_eq_decide]
    exact ⟨Uuid.str_inj _ _, congrArg Uuid.str⟩

end Database

/-! ## Rows and decisions -/

/-- A row and the decision a search reads it as. -/
structure SearchedAs (platform : Platform) (d : DecisionRow) (a : AuthorizationResponse) : Prop where
  rebuilt : rowToAuthorization platform d = .ok a
  texts : TextColumns d a
  decisionId : d.decisionId = a.decisionId.str
  evaluatedAt : d.evaluatedAt = a.evaluatedAt.isoformat
  utc : a.evaluatedAt.offset = some 0

section Clauses

theorem decisionText_inj {d e : Decision} (same : d.text = e.text) : d = e := by
  revert same
  cases d <;> cases e <;> decide

theorem statusClause_iff (approval : Option ApprovalColumns) (keyed : ∀ row ∈ approval, row.decisionId ≠ none)
    (status : Option EvidenceApprovalStatus) :
    (match status with
      | some .none => (approval.bind (·.decisionId)).isNone
      | some status => approval.any fun row => row.status.text = status.text
      | none => true) = true ↔
      ∀ value ∈ status, evidenceStatus (approval.map (·.status)) = value := by
  cases approval with
  | none =>
    cases status with
    | none => simp
    | some value => cases value <;> simp [evidenceStatus]
  | some row =>
    have key := keyed row rfl
    cases status with
    | none => simp
    | some value =>
      obtain ⟨id, keyed⟩ := Option.ne_none_iff_exists'.mp key
      simp only [Option.bind_some, keyed, Option.any_some, Option.map_some]
      generalize row.status = stored
      cases value <;> cases stored <;> simp [evidenceStatus] <;> decide

theorem policyClause_iff (policyId : Option Str) (hasPolicy : Option Bool) :
    (match hasPolicy with
      | some true => policyId.isSome
      | some false => policyId.isNone
      | none => true) = true ↔ ∀ value ∈ hasPolicy, policyId.isSome = value := by
  cases hasPolicy with
  | none => simp
  | some value => cases value <;> cases policyId <;> simp

theorem queryClause_iff (agent action reason : Str) (policyId : Option Str) (value : SearchText) :
    (contains agent value.text || contains action value.text ||
      contains (policyId.getD []) value.text || contains reason value.text) = true ↔
      ∃ text ∈ [agent, action] ++ policyId.toList ++ [reason],
        asciiLower value.text <:+: asciiLower text := by
  have some := value.length.1
  have empty : ¬ asciiLower value.text <:+: asciiLower [] := by
    intro inside
    have none := congrArg List.length (List.eq_nil_of_infix_nil inside)
    rw [asciiLower, List.length_map, List.length_nil] at none
    omega
  simp only [Bool.or_eq_true, contains_iff]
  cases policyId with
  | none => simp [empty, or_assoc]
  | some policy => simp [or_assoc]

end Clauses

/-- The query asks of a row what the filters ask of the decision. -/
theorem selects_iff {db : Database} {d : DecisionRow} {a : AuthorizationResponse}
    (searched : SearchedAs platform d a) (filters : DecisionSearchFilters) :
    db.selects filters d = true ↔ Satisfies filters a (db.approvalStatus a.decisionId) := by
  obtain ⟨-, texts, decisionId, evaluatedAt, utc⟩ := searched
  have keyed : ∀ row ∈ db.approvalOf d, row.decisionId ≠ none := by
    intro row found absent
    rw [Database.approvalOf_eq decisionId] at found
    have named := List.find?_some found
    rw [decide_eq_true_eq, absent] at named
    cases named
  have status := statusClause_iff (db.approvalOf d) keyed filters.approvalStatus
  have decision (value : Decision) : d.decision = value.text ↔ a.decision = value := by
    rw [texts.decision]
    exact ⟨decisionText_inj, congrArg _⟩
  have after (value : UtcDatetime) :
      value.val.isoformat ≤ d.evaluatedAt ↔ value.val.clock ≤ a.evaluatedAt.clock := by
    rw [evaluatedAt, Datetime.isoformat_le_iff _ _ value.property utc]
  have before (value : UtcDatetime) :
      d.evaluatedAt ≤ value.val.isoformat ↔ a.evaluatedAt.clock ≤ value.val.clock := by
    rw [evaluatedAt, Datetime.isoformat_le_iff _ _ utc value.property]
  rw [Database.approvalOf_eq decisionId] at status
  change _ ↔ ∀ value ∈ _, evidenceStatus (db.approvalStatus a.decisionId) = value at status
  simp only [Database.selects, searchWhere, Bool.and_eq_true, Option.all_eq_true, decide_eq_true_eq,
    Database.approvalOf_eq decisionId, queryClause_iff, decision, after, before]
  rw [texts.agent, texts.action, texts.policyId, texts.reason]
  have policy := policyClause_iff a.policy filters.hasPolicy
  constructor
  · rintro ⟨⟨⟨⟨⟨⟨⟨⟨one, two⟩, three⟩, four⟩, five⟩, six⟩, seven⟩, eight⟩, nine⟩
    exact ⟨one, two, three, four, policy.mp five, status.mp six, seven, eight, nine⟩
  · rintro ⟨one, two, three, four, five, six, seven, eight, nine⟩
    exact ⟨⟨⟨⟨⟨⟨⟨⟨one, two⟩, three⟩, four⟩, policy.mpr five⟩, status.mpr six⟩, seven⟩, eight⟩, nine⟩

end DecAustrum
