import DecAustrum.Storage.Database
import DecAustrum.Storage.Evidence

/-!
# Searching decisions

The conditions a search is put together from, over a decision and the approval that is joined to
it, with the three queries that use them: a page, a count and a capture.
-/
namespace DecAustrum

open Python

/-! ## Text functions of SQLite -/

/-- `lower(X)`: only the letters of ASCII. -/
def asciiLower (s : Str) : Str :=
  s.map fun c => if 0x41 ≤ c.val ∧ c.val ≤ 0x5a then Fin.ofNat 0x110000 (c.val + 0x20) else c

/-- `instr(X, Y)`: the first position, from one, or zero. -/
def instr (haystack needle : Str) : Nat :=
  match haystack.tails.findIdx? fun suffix => needle.isPrefixOf suffix with
  | some i => i + 1
  | none => 0

/-! ## Conditions -/

abbrev ApprovalColumns := ApprovalRow Uuid UtcDatetime

/-- `instr(lower(column), lower(?)) > 0`. -/
def contains (column value : Str) : Bool := 0 < instr (asciiLower column) (asciiLower value)

/-- `_search_where` after the project, over the columns of a decision and of its approval, which
are null where there is none. -/
def searchWhere (filters : DecisionSearchFilters) (d : DecisionRow) (a : Option ApprovalColumns) :
    Bool :=
  (filters.decision.all fun value => d.decision = value.text) &&
  (filters.agent.all fun value => d.agent = value.text) &&
  (filters.action.all fun value => d.action = value.text) &&
  (filters.policyId.all fun value => d.policyId = some value.text) &&
  (match filters.hasPolicy with
    | some true => d.policyId.isSome
    | some false => d.policyId.isNone
    | none => true) &&
  (match filters.approvalStatus with
    | some .none => (a.bind (·.decisionId)).isNone
    | some status => a.any fun row => row.status.text = status.text
    | none => true) &&
  (filters.evaluatedAfter.all fun value => value.val.isoformat ≤ d.evaluatedAt) &&
  (filters.evaluatedBefore.all fun value => d.evaluatedAt ≤ value.val.isoformat) &&
  filters.query.all fun value => contains d.agent value.text || contains d.action value.text ||
    contains (d.policyId.getD []) value.text || contains d.reason value.text

namespace Database

variable (db : Database) (project : Uuid) (filters : DecisionSearchFilters)

/-- `a.decision_id = d.decision_id`. -/
def joins (d : DecisionRow) (a : ApprovalColumns) : Bool :=
  a.decisionId.any fun id => id.str = d.decisionId

/-- `LEFT JOIN approval_requests`. -/
def leftJoin (d : DecisionRow) : List (Option ApprovalColumns) :=
  match db.lifecycle.approvals.filter (joins d) with
  | [] => [none]
  | rows => rows.map some

/-- The joined rows of one decision that meet the conditions. -/
def joinedRows (d : DecisionRow) : List (Option ApprovalColumns) :=
  (db.leftJoin d).filter (searchWhere filters d)

end Database

/-- `ORDER BY d.evaluated_at, d.decision_id` in the direction of the search. -/
def searchOrder (sort : DecisionSortOrder) (d e : DecisionRow) : Prop :=
  match sort with
  | .asc => Ledger.decisionLe d e
  | .desc => Ledger.decisionLe e d

instance (sort : DecisionSortOrder) : DecidableRel (searchOrder sort) := fun d e =>
  match sort with
  | .asc => inferInstanceAs (Decidable (Ledger.decisionLe d e))
  | .desc => inferInstanceAs (Decidable (Ledger.decisionLe e d))

/-- `LIMIT ? OFFSET ?`: a negative limit is none, a negative offset is zero. -/
def page {α : Type} (limit offset : Int) (rows : List α) : List α :=
  if limit < 0 then rows.drop offset.toNat else (rows.drop offset.toNat).take limit.toNat

namespace AuthorizationDecisionRepository

variable (platform : Platform) (db : Database) (project : Uuid) (filters : DecisionSearchFilters)

/-- The rows of a search before the limit. -/
def searchRows : List DecisionRow :=
  ((db.ledger.projectDecisions project).flatMap fun d =>
    (db.joinedRows filters d).map fun _ => d).insertionSort (searchOrder filters.sort)

def search (limit offset : Int) : Except PyExc (List AuthorizationResponse) :=
  if fitsInteger limit && fitsInteger offset then
    (page limit offset (searchRows db project filters)).mapM (rowToAuthorization platform)
  else .error .overflowError

def countSearch : Nat :=
  ((db.ledger.projectDecisions project).flatMap (db.joinedRows filters)).length

end AuthorizationDecisionRepository

namespace EvidenceRepository

variable (platform : Platform) (db : Database) (project : Uuid) (filters : DecisionSearchFilters)

/-- `_record_query`. -/
def recordQuery (maxSequence : Int) : List (DecisionRow × IntegrityRow) :=
  ((db.ledger.projectDecisions project).flatMap fun d =>
    (db.ledger.integrity.filter fun i => Ledger.matchRow d i && i.sequenceNumber ≤ maxSequence).flatMap
      fun i => (db.joinedRows filters d).map fun _ => (d, i)).insertionSort
        (Ledger.recordOrder filters.sort)

/-- `capture_records`. -/
def captureRecords (maximumRecords maximumBytes : Nat) (capturedAt : UtcDatetime) :
    Except PyExc (EvidenceExportSnapshot × List VerifiableDecisionRecord) := do
  let rows := recordQuery db project filters (db.ledger.lastSequence project)
  let snapshot ← orRaise .validationError (db.ledger.snapshot project rows.length capturedAt)
  if maximumRecords < rows.length then
    return (snapshot, [])
  let records ← readWithin platform maximumBytes (rowToRecord platform)
    VerifiableDecisionRecord.dump 0 rows
  return (snapshot, records)

end EvidenceRepository

/-! ## What the text functions find -/

theorem instr_pos_iff (haystack needle : Str) : 0 < instr haystack needle ↔ needle <:+: haystack := by
  rw [List.infix_iff_prefix_suffix]
  unfold instr
  split
  next i found =>
    refine iff_of_true (Nat.succ_pos i) ?_
    obtain ⟨bound, starts, -⟩ := List.findIdx?_eq_some_iff_getElem.mp found
    exact ⟨_, List.isPrefixOf_iff_prefix.mp starts,
      (List.mem_tails _ _).mp (List.getElem_mem bound)⟩
  next absent =>
    refine iff_of_false (Nat.lt_irrefl 0) ?_
    rintro ⟨suffix, starts, ends⟩
    have refused := List.findIdx?_eq_none_iff.mp absent suffix ((List.mem_tails _ _).mpr ends)
    rw [List.isPrefixOf_iff_prefix.mpr starts] at refused
    cases refused

theorem contains_iff (column value : Str) :
    contains column value = true ↔ asciiLower value <:+: asciiLower column := by
  rw [contains, decide_eq_true_eq, instr_pos_iff]

end DecAustrum
