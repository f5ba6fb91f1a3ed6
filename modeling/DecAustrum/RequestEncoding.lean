import DecAustrum.Audit
import DecAustrum.Digestible
import DecAustrum.Evaluation
import DecAustrum.Reference
import DecAustrum.Storage.LedgerWrites

/-!
# Encoding a request

The fingerprint of a request, and the requests whose decision can be hashed, chained and
announced: validation lets surrogates and deep values through, and the encoders do not.
-/
namespace DecAustrum

open Python

/-- `build_request_fingerprint`. -/
def buildRequestFingerprint (platform : Platform) (request : AuthorizationRequest) :
    Except PyExc Str :=
  request.dump.bind (digest platform)

/-! ## Encoders and digestible values -/

section

variable {platform : Platform} (lawful : platform.Lawful)

include lawful

theorem fingerprint_defined_iff (request : AuthorizationRequest) :
    (∃ hash, buildRequestFingerprint platform request = .ok hash) ↔
      request.context.Dumpable ∧ Digestible request.dumped := by
  rw [← digest_defined_iff lawful]
  simp only [buildRequestFingerprint]
  constructor
  · rintro ⟨hash, done⟩
    obtain ⟨_, dumped, hashed⟩ := (bind_eq_ok request.dump (digest platform) hash).mp done
    obtain ⟨dumpable, rfl⟩ := (request.dump_eq_ok _).mp dumped
    exact ⟨dumpable, hash, hashed⟩
  · rintro ⟨dumpable, hash, hashed⟩
    have dumped := (request.dump_eq_ok _).mpr ⟨dumpable, rfl⟩
    exact ⟨hash, (bind_eq_ok request.dump (digest platform) hash).mpr ⟨_, dumped, hashed⟩⟩

theorem canonicalWebhookPayload_defined_iff (event : WebhookEvent) :
    (∃ text, canonicalWebhookPayload platform event = .ok text) ↔
      (∀ field ∈ event.data, Serializable field.2) ∧ Digestible event.dumped := by
  rw [← digest_defined_iff lawful]
  constructor
  · rintro ⟨text, done⟩
    rw [canonicalWebhookPayload, bind_eq_ok] at done
    obtain ⟨_, dumps, done⟩ := done
    obtain ⟨data, rfl⟩ := (event.dump_eq_ok _).mp dumps
    rw [bind_eq_ok] at done
    obtain ⟨written, dumped, done⟩ := done
    rw [canonicalJson, orRaise_eq_ok, Json.dumps_eq_some_iff] at dumped
    obtain ⟨encodable, rfl⟩ := dumped
    split at done
    · cases done
    next scalar =>
      exact ⟨data, _, (digest_eq_ok_iff platform _ _).mpr ⟨encodable, _, if_neg scalar, rfl⟩⟩
  · rintro ⟨data, hash, hashed⟩
    obtain ⟨encodable, bytes, encoded, -⟩ := (digest_eq_ok_iff platform _ hash).mp hashed
    have dumps := (event.dump_eq_ok _).mpr ⟨data, rfl⟩
    refine ⟨event.dumped.sortKeys.text platform.floats .canonical,
      (bind_eq_ok _ _ _).mpr ⟨_, dumps, (bind_eq_ok _ _ _).mpr
        ⟨event.dumped.sortKeys.text platform.floats .canonical, ?_, ?_⟩⟩⟩
    · rw [canonicalJson, orRaise_eq_ok, Json.dumps_eq_some_iff]
      exact ⟨encodable, rfl⟩
    · unfold encodeUtf8 at encoded
      split at encoded
      · cases encoded
      next scalar =>
        rw [if_neg scalar]
        rfl

end

/-- A value that can be hashed and nests no deeper than `depth`. -/
structure Encodes (depth : Nat) (v : Json) : Prop where
  digestible : Digestible v
  nesting : v.nesting ≤ depth

theorem Encodes.mono {depth more : Nat} {v : Json} (encodes : Encodes depth v) (le : depth ≤ more) :
    Encodes more v := ⟨encodes.digestible, encodes.nesting.trans le⟩

/-- The keys of a value that can be hashed have UTF-8 forms, so only its depth is left. -/
theorem encodes_iff_serializable (v : Json) :
    Encodes 255 v ↔ Digestible v ∧ Serializable v := by
  constructor
  · rintro ⟨digestible, nesting⟩
    refine ⟨digestible, nesting, fun key member => ?_⟩
    have scalar := digestible.scalar key (Json.mem_strings_of_mem_keys key v member)
    exact List.any_eq_false.mpr fun c inside => by simp [scalar c inside]
  · rintro ⟨digestible, serializable⟩
    exact ⟨digestible, serializable.nesting⟩

theorem digestible_str_iff (s : Str) : Digestible (.str s) ↔ IsScalar s := by
  constructor
  · intro digestible
    exact digestible.scalar s (by simp [Json.strings])
  · exact Digestible.str s

theorem NonEmptyString.scalar (s : NonEmptyString) : IsScalar s.text := by
  have encodable := s.encodable
  simpa [IsScalar] using encodable

/-- A dictionary under plain keys is digestible if and only if its values are. -/
theorem digestible_record_iff {fields : List (Str × Json)}
    (keys : (fields.all fun field => field.1.all isPlain) = true) :
    Digestible (.obj fields) ↔ ∀ v ∈ fields.map Prod.snd, Digestible v := by
  constructor
  · intro digestible v inside
    obtain ⟨field, member, rfl⟩ := List.mem_map.mp inside
    exact digestible.member field member
  · exact Digestible.record keys

theorem digestible_arr_iff {items : List Json} :
    Digestible (.arr items) ↔ ∀ v ∈ items, Digestible v := by
  constructor
  · intro digestible v inside
    refine ⟨(Json.encodableItems_iff items).mp digestible.encodable v inside, fun s member => ?_⟩
    apply digestible.scalar s
    rw [Json.strings, Json.mem_stringsItems]
    exact ⟨v, inside, member⟩
  · exact Digestible.arr

theorem digestible_optional_iff {α : Type} {dump : α → Json} {value : Option α} :
    Digestible (dumpOptional dump value) ↔ ∀ a ∈ value, Digestible (dump a) := by
  cases value with
  | none => simpa [dumpOptional] using (⟨rfl, by simp [Json.strings]⟩ : Digestible .null)
  | some a => simp [dumpOptional]

theorem digestible_literal (s : Str) (plain : s.all isPlain = true) : Digestible (.str s) :=
  .str s (isScalar_of_all s plain)

theorem digestible_bool (b : Bool) : Digestible (.bool b) := ⟨rfl, by simp [Json.strings]⟩

/-! ## Depth -/

/-- A dictionary of records and scalars is one level deeper than its values. -/
theorem encodes_record_iff {depth : Nat} {fields : List (Str × Json)}
    (keys : (fields.all fun field => field.1.all isPlain) = true) :
    Encodes (depth + 1) (.obj fields) ↔ ∀ v ∈ fields.map Prod.snd, Encodes depth v := by
  have deep : (Json.obj fields).nesting ≤ depth + 1 ↔ ∀ v ∈ fields.map Prod.snd,
      v.nesting ≤ depth := by
    rw [Json.nesting, Nat.add_le_add_iff_right, Json.nestingFields_le_iff, List.forall_mem_map]
  constructor
  · rintro ⟨digestible, nesting⟩ v inside
    exact ⟨(digestible_record_iff keys).mp digestible v inside, deep.mp nesting v inside⟩
  · intro each
    exact ⟨(digestible_record_iff keys).mpr fun v inside => (each v inside).digestible,
      deep.mpr fun v inside => (each v inside).nesting⟩

theorem encodes_arr_iff {depth : Nat} {items : List Json} :
    Encodes (depth + 1) (.arr items) ↔ ∀ v ∈ items, Encodes depth v := by
  have deep : (Json.arr items).nesting ≤ depth + 1 ↔ ∀ v ∈ items, v.nesting ≤ depth := by
    rw [Json.nesting, Nat.add_le_add_iff_right, Json.nestingItems_le_iff]
  constructor
  · rintro ⟨digestible, nesting⟩ v inside
    exact ⟨digestible_arr_iff.mp digestible v inside, deep.mp nesting v inside⟩
  · intro each
    exact ⟨.arr fun v inside => (each v inside).digestible,
      deep.mpr fun v inside => (each v inside).nesting⟩

theorem encodes_optional_iff {α : Type} {depth : Nat} {dump : α → Json} {value : Option α} :
    Encodes (depth + 1) (dumpOptional dump value) ↔ ∀ a ∈ value, Encodes (depth + 1) (dump a) := by
  cases value with
  | none =>
    have null : Encodes (depth + 1) (dumpOptional dump (none : Option α)) :=
      ⟨⟨rfl, by simp [dumpOptional, Json.strings]⟩, by simp [dumpOptional, Json.nesting]⟩
    simp [null]
  | some a => simp [dumpOptional]

@[simp] theorem encodes_str_iff {depth : Nat} (s : Str) :
    Encodes (depth + 1) (.str s) ↔ IsScalar s := by
  rw [← digestible_str_iff]
  exact ⟨fun encodes => encodes.digestible, fun digestible => ⟨digestible, by simp [Json.nesting]⟩⟩

@[simp] theorem encodes_int_iff {depth : Nat} (n : Int) :
    Encodes (depth + 1) (.int n) ↔ Digestible (.int n) :=
  ⟨fun encodes => encodes.digestible, fun digestible => ⟨digestible, by simp [Json.nesting]⟩⟩

@[simp] theorem encodes_bool {depth : Nat} (b : Bool) : Encodes (depth + 1) (.bool b) :=
  ⟨digestible_bool b, by simp [Json.nesting]⟩

theorem isScalar_uuid (u : Uuid) : IsScalar u.str := isScalar_of_isPlain _ u.isPlain_str

theorem isScalar_json (d : Datetime) : IsScalar d.json := isScalar_of_isPlain _ d.isPlain_json

theorem Operator.scalar (o : Operator) : IsScalar o.text := by
  cases o <;> exact isScalar_of_all _ (by decide)

theorem Decision.scalar (d : Decision) : IsScalar d.text := by
  cases d <;> exact isScalar_of_all _ (by decide)

theorem ConditionMatch.scalar (m : ConditionMatch) : IsScalar m.text := by
  cases m <;> exact isScalar_of_all _ (by decide)

/-! ## The context -/

/-- A context is dumped without surrogates when the values it is dumped with hold none. -/
theorem digestible_dumped_iff (context : StrictObject) : Digestible context.dumped ↔
    ∀ field ∈ lossyDict context.fields, Digestible field.2 := by
  have sorted : Digestible context.dumped ↔ Digestible (.obj (lossyDict context.fields)) := by
    constructor
    · rintro ⟨encodable, scalar⟩
      rw [StrictObject.dumped, Json.encodable_sortKeys] at encodable
      exact ⟨encodable, fun s member => scalar s ((Json.mem_strings_sortKeys s _).mpr member)⟩
    · rintro ⟨encodable, scalar⟩
      refine ⟨?_, fun s member => scalar s ((Json.mem_strings_sortKeys s _).mp member)⟩
      rw [StrictObject.dumped, Json.encodable_sortKeys]
      exact encodable
  rw [sorted]
  constructor
  · exact fun digestible field member => digestible.member field member
  · intro values
    refine .obj fun field member => ⟨?_, values field member⟩
    have scalar := (mem_lossyDict member).1
    rw [List.any_eq_false] at scalar
    exact fun c inside => Bool.eq_false_iff.mpr (scalar c inside)

theorem encodes_dumped_iff {depth : Nat} (context : StrictObject) :
    Encodes (depth + 1) context.dumped ↔
      ∀ field ∈ lossyDict context.fields, Encodes depth field.2 := by
  have deep : context.dumped.nesting ≤ depth + 1 ↔ ∀ field ∈ lossyDict context.fields,
      field.2.nesting ≤ depth := by
    rw [StrictObject.dumped, Json.nesting_sortKeys, Json.nesting, Nat.add_le_add_iff_right,
      Json.nestingFields_le_iff]
  constructor
  · rintro ⟨digestible, nesting⟩ field member
    exact ⟨(digestible_dumped_iff context).mp digestible field member, deep.mp nesting field member⟩
  · intro each
    exact ⟨(digestible_dumped_iff context).mpr fun field member => (each field member).digestible,
      deep.mpr fun field member => (each field member).nesting⟩

theorem request_digestible_iff (request : AuthorizationRequest) :
    Digestible request.dumped ↔ Digestible request.context.dumped := by
  rw [AuthorizationRequest.dumped,
    digestible_record_iff (by simp only [List.all_cons, List.all_nil]; decide)]
  simp [digestible_str_iff, request.agent.scalar, request.action.scalar]

/-! ## The trace -/

theorem forall₂_left {α β : Type} {R : α → β → Prop} {l : List α} {r : List β}
    (related : List.Forall₂ R l r) {a : α} (inside : a ∈ l) : ∃ b ∈ r, R a b := by
  induction related with
  | nil => cases inside
  | cons first _ ih =>
    rcases List.mem_cons.mp inside with rfl | inside
    · exact ⟨_, List.mem_cons_self .., first⟩
    · obtain ⟨b, member, holds⟩ := ih inside
      exact ⟨b, List.mem_cons_of_mem _ member, holds⟩

theorem forall₂_right {α β : Type} {R : α → β → Prop} {l : List α} {r : List β}
    (related : List.Forall₂ R l r) {b : β} (inside : b ∈ r) : ∃ a ∈ l, R a b :=
  forall₂_left related.flip inside

structure ConditionEvidence.Encodes (depth : Nat) (c : ConditionEvidence) : Prop where
  field : IsScalar c.field
  actualValue : DecAustrum.Encodes depth c.actualValue.json
  expectedValue : DecAustrum.Encodes depth c.expectedValue.json

def PolicyEvidence.Encodes (depth : Nat) (e : PolicyEvidence) : Prop :=
  ∀ c ∈ e.conditions, c.Encodes depth

structure PolicyTraceEntry.Encodes (depth : Nat) (t : PolicyTraceEntry) : Prop where
  policyId : IsScalar t.policyId
  policyVersion : Digestible (.int t.policyVersion)
  reason : IsScalar t.reason
  evidence : t.evidence.Encodes depth

theorem ConditionEvidence.Encodes.mono {depth more : Nat} {c : ConditionEvidence}
    (encodes : c.Encodes depth) (le : depth ≤ more) : c.Encodes more :=
  ⟨encodes.field, encodes.actualValue.mono le, encodes.expectedValue.mono le⟩

/-- The values of a condition lie one level below it. -/
theorem ConditionEvidence.encodes_iff {depth : Nat} (c : ConditionEvidence) :
    DecAustrum.Encodes (depth + 1 + 1) c.dumped ↔ c.Encodes (depth + 1) := by
  rw [dumped, encodes_record_iff (by simp only [List.all_cons, List.all_nil]; decide)]
  simp only [List.map_cons, List.map_nil, List.mem_cons, List.not_mem_nil, or_false,
    forall_eq_or_imp, forall_eq, encodes_str_iff, encodes_bool, and_true, c.operator.scalar,
    true_and]
  exact ⟨fun ⟨field, actual, expected⟩ => ⟨field, actual, expected⟩,
    fun ⟨field, actual, expected⟩ => ⟨field, actual, expected⟩⟩

theorem ConditionEvidence.digestible_iff (c : ConditionEvidence) :
    c.Dumpable ∧ Digestible c.dumped ↔ c.Encodes 255 := by
  rw [dumped, digestible_record_iff (by simp only [List.all_cons, List.all_nil]; decide)]
  simp only [List.map_cons, List.map_nil, List.mem_cons, List.not_mem_nil, or_false,
    forall_eq_or_imp, forall_eq, digestible_str_iff, digestible_bool, and_true, c.operator.scalar,
    true_and]
  constructor
  · rintro ⟨⟨actual, expected⟩, field, actualValue, expectedValue⟩
    exact ⟨field, (encodes_iff_serializable _).mpr ⟨actualValue, actual⟩,
      (encodes_iff_serializable _).mpr ⟨expectedValue, expected⟩⟩
  · rintro ⟨field, actual, expected⟩
    rw [encodes_iff_serializable] at actual expected
    exact ⟨⟨actual.2, expected.2⟩, field, actual.1, expected.1⟩

theorem PolicyEvidence.encodes_iff {depth : Nat} (e : PolicyEvidence) :
    DecAustrum.Encodes (depth + 1 + 1 + 1 + 1) e.dumped ↔ e.Encodes (depth + 1) := by
  rw [dumped, encodes_record_iff (by simp only [List.all_cons, List.all_nil]; decide)]
  simp only [List.map_cons, List.map_nil, List.mem_cons, List.not_mem_nil, or_false,
    forall_eq_or_imp, forall_eq, encodes_str_iff, e.matchMode.scalar, true_and, encodes_arr_iff,
    List.forall_mem_map, ConditionEvidence.encodes_iff]
  rfl

theorem PolicyEvidence.digestible_iff (e : PolicyEvidence) :
    e.Dumpable ∧ Digestible e.dumped ↔ e.Encodes 255 := by
  rw [dumped, digestible_record_iff (by simp only [List.all_cons, List.all_nil]; decide)]
  simp only [List.map_cons, List.map_nil, List.mem_cons, List.not_mem_nil, or_false,
    forall_eq_or_imp, forall_eq, digestible_str_iff, e.matchMode.scalar, true_and,
    digestible_arr_iff, List.forall_mem_map, Dumpable, Encodes, ← ConditionEvidence.digestible_iff]
  constructor
  · rintro ⟨dumpable, digestible⟩ c inside
    exact ⟨dumpable c inside, digestible c inside⟩
  · exact fun both => ⟨fun c inside => (both c inside).1, fun c inside => (both c inside).2⟩

theorem PolicyTraceEntry.encodes_iff {depth : Nat} (t : PolicyTraceEntry) :
    DecAustrum.Encodes (depth + 1 + 1 + 1 + 1 + 1) t.dumped ↔ t.Encodes (depth + 1) := by
  rw [dumped, encodes_record_iff (by simp only [List.all_cons, List.all_nil]; decide)]
  simp only [List.map_cons, List.map_nil, List.mem_cons, List.not_mem_nil, or_false,
    forall_eq_or_imp, forall_eq, encodes_str_iff, encodes_int_iff, encodes_bool, t.decision.scalar,
    true_and, PolicyEvidence.encodes_iff]
  exact ⟨fun ⟨id, version, reason, evidence⟩ => ⟨id, version, reason, evidence⟩,
    fun ⟨id, version, reason, evidence⟩ => ⟨id, version, reason, evidence⟩⟩

theorem PolicyTraceEntry.digestible_iff (t : PolicyTraceEntry) :
    t.evidence.Dumpable ∧ Digestible t.dumped ↔ t.Encodes 255 := by
  rw [dumped, digestible_record_iff (by simp only [List.all_cons, List.all_nil]; decide)]
  simp only [List.map_cons, List.map_nil, List.mem_cons, List.not_mem_nil, or_false,
    forall_eq_or_imp, forall_eq, digestible_str_iff, digestible_bool, t.decision.scalar, true_and]
  constructor
  · rintro ⟨dumpable, id, version, reason, evidence⟩
    exact ⟨id, version, reason, t.evidence.digestible_iff.mp ⟨dumpable, evidence⟩⟩
  · rintro ⟨id, version, reason, evidence⟩
    obtain ⟨dumpable, digestible⟩ := t.evidence.digestible_iff.mpr evidence
    exact ⟨dumpable, id, version, reason, digestible⟩

/-- The texts of a policy that its trace entry repeats can be encoded, and the values its
conditions are compared with nest no deeper than `depth`. -/
structure Printable (depth : Nat) (context : StrictObject) (policy : Policy) : Prop where
  id : IsScalar policy.id
  version : Digestible (.int policy.version)
  reason : IsScalar policy.reason
  fields : ∀ c ∈ policy.conditions, IsScalar c.field
  expected : ∀ c ∈ policy.conditions, Encodes depth c.value.json
  actual : ∀ c ∈ policy.conditions, ∀ v, context.json.get? c.field = some v → Encodes depth v

theorem Printable.mono {depth more : Nat} {context : StrictObject} {policy : Policy}
    (printable : Printable depth context policy) (le : depth ≤ more) :
    Printable more context policy where
  id := printable.id
  version := printable.version
  reason := printable.reason
  fields := printable.fields
  expected c inside := (printable.expected c inside).mono le
  actual c inside v found := (printable.actual c inside v found).mono le

theorem evidence_encodes {depth : Nat} {context : StrictObject} {policy : Policy}
    {evidence : PolicyEvidence} (printable : Printable depth context policy)
    (shown : EvidenceShown context policy evidence) : evidence.Encodes depth := by
  intro e inside
  obtain ⟨c, member, condition⟩ := forall₂_right shown.conditions inside
  refine ⟨?_, printable.actual c member _ condition.actual, ?_⟩
  · rw [condition.field]
    exact printable.fields c member
  · rw [condition.expected]
    exact printable.expected c member

theorem entry_encodes_iff {depth : Nat} {context : StrictObject} {policy : Policy}
    {entry : PolicyTraceEntry} (shown : EntryShown context policy entry) :
    entry.Encodes depth ↔ Printable depth context policy := by
  constructor
  · rintro ⟨id, version, reason, evidence⟩
    have condition (c : PolicyCondition) (inside : c ∈ policy.conditions) :
        ∃ e : ConditionEvidence, e.Encodes depth ∧ ConditionShown context c e := by
      obtain ⟨e, member, condition⟩ := forall₂_left shown.evidence.conditions inside
      exact ⟨e, evidence e member, condition⟩
    refine ⟨shown.policyId ▸ id, shown.policyVersion ▸ version, shown.reason ▸ reason,
      fun c inside => ?_, fun c inside => ?_, fun c inside v found => ?_⟩
    all_goals obtain ⟨e, encodes, condition⟩ := condition c inside
    · exact condition.field ▸ encodes.field
    · exact condition.expected ▸ encodes.expectedValue
    · rw [condition.actual, Option.some.injEq] at found
      exact found ▸ encodes.actualValue
  · intro printable
    refine ⟨?_, ?_, ?_, evidence_encodes printable shown.evidence⟩
    · rw [shown.policyId]
      exact printable.id
    · rw [shown.policyVersion]
      exact printable.version
    · rw [shown.reason]
      exact printable.reason

/-! ## The decision of a request -/

/-- What an evaluation reports can be encoded when the policies can. -/
structure ReportEncodes (depth : Nat) (evaluation : PolicyEvaluation) : Prop where
  policyId : ∀ id ∈ evaluation.policyId, IsScalar id
  policyVersion : ∀ version ∈ evaluation.policyVersion, Digestible (.int version)
  reason : IsScalar evaluation.reason
  evidence : ∀ evidence ∈ evaluation.evidence, evidence.Encodes depth

theorem MeetsSpecification.report_encodes {depth : Nat} {context : StrictObject}
    {applicable : List Policy} {evaluation : PolicyEvaluation}
    (meets : MeetsSpecification context applicable evaluation)
    (printable : ∀ p ∈ applicable, Printable depth context p) : ReportEncodes depth evaluation := by
  by_cases allowed : evaluation.decision = .allow
  · obtain ⟨policyId, policyVersion, reason, evidence⟩ := meets.unreported allowed
    constructor
    · simp [policyId]
    · simp [policyVersion]
    · rw [reason]
      exact isScalar_of_all _ (by decide)
    · simp [evidence]
  · obtain ⟨before, policy, after, applicable_eq, -, reports, -⟩ := meets.reported allowed
    have printable_policy := printable policy (by simp [applicable_eq])
    obtain ⟨evidence, found, shown⟩ := reports.evidence
    constructor
    · simpa [reports.policyId] using printable_policy.id
    · simpa [reports.policyVersion] using printable_policy.version
    · rw [reports.reason]
      exact printable_policy.reason
    · simpa [found] using evidence_encodes printable_policy shown

theorem isNotCovered_scalar {action : Str} (scalar : IsScalar action) :
    IsScalar (isNotCovered action) := by
  have opening : IsScalar (ofString "Action '") := isScalar_of_all _ (by decide)
  have closing : IsScalar (ofString "' is not covered by an active policy.") :=
    isScalar_of_all _ (by decide)
  intro c inside
  rw [isNotCovered, List.mem_append, List.mem_append] at inside
  rcases inside with inside | inside | inside
  · exact opening c inside
  · exact scalar c inside
  · exact closing c inside

/-- The trace of an evaluation can be encoded if and only if the policies of the action can, and
then its report can. -/
theorem evaluation_encodes_iff (depth : Nat) {request : AuthorizationRequest}
    {policies : List Policy} {evaluation : PolicyEvaluation}
    (evaluated : evaluatePolicy request.action.text request.context policies = .ok evaluation) :
    ((∀ t ∈ evaluation.trace, t.Encodes depth) ↔
      ∀ p ∈ applicablePolicies request.action.text policies, Printable depth request.context p) ∧
      ((∀ t ∈ evaluation.trace, t.Encodes depth) → ReportEncodes depth evaluation) := by
  by_cases covered : ∃ policy ∈ policies, policy.action = request.action.text
  · obtain ⟨-, exc, raised⟩ | ⟨-, result, done, meets⟩ :=
      evaluatePolicy_cases request.action.text request.context policies covered
    · rw [raised] at evaluated
      cases evaluated
    rw [done, Except.ok.injEq] at evaluated
    subst evaluated
    have entries : (∀ t ∈ result.trace, t.Encodes depth) ↔
        ∀ p ∈ applicablePolicies request.action.text policies,
          Printable depth request.context p := by
      constructor
      · intro trace p inside
        obtain ⟨entry, member, shown⟩ := forall₂_left meets.trace inside
        exact (entry_encodes_iff shown).mp (trace entry member)
      · intro printable entry inside
        obtain ⟨p, member, shown⟩ := forall₂_right meets.trace inside
        exact (entry_encodes_iff shown).mpr (printable p member)
    exact ⟨entries, fun trace => meets.report_encodes (entries.mp trace)⟩
  · have uncovered : ∀ policy ∈ policies, policy.action ≠ request.action.text := by
      simpa using covered
    have none_applies : applicablePolicies request.action.text policies = [] := by
      simpa [applicablePolicies] using uncovered
    rw [evaluatePolicy_uncovered _ _ _ uncovered, Except.ok.injEq] at evaluated
    subst evaluated
    exact ⟨by simp [none_applies], fun _ =>
      ⟨by simp, by simp, isNotCovered_scalar request.action.scalar, by simp⟩⟩

/-- What `authorizationOf` hands to the encoders: the decision with the context of the request. -/
theorem decision_digestible_iff {request : AuthorizationRequest} {policies : List Policy}
    {evaluation : PolicyEvaluation}
    (evaluated : evaluatePolicy request.action.text request.context policies = .ok evaluation)
    (decisionId projectId : Uuid) (evaluatedAt : UtcDatetime) :
    Digests (authorizationOf decisionId projectId evaluatedAt request evaluation).dump ↔
      request.context.Dumpable ∧ Digestible request.context.dumped ∧
        ∀ p ∈ applicablePolicies request.action.text policies, Printable 255 request.context p := by
  obtain ⟨entries, report⟩ := evaluation_encodes_iff 255 evaluated
  rw [AuthorizationResponse.digests_iff, ← entries, AuthorizationResponse.dumped,
    digestible_record_iff (by simp only [List.all_cons, List.all_nil]; decide)]
  simp only [authorizationOf, List.map_cons, List.map_nil, List.mem_cons, List.not_mem_nil,
    or_false, forall_eq_or_imp, forall_eq, digestible_optional_iff, digestible_arr_iff,
    List.forall_mem_map, digestible_str_iff, evaluation.decision.scalar, request.agent.scalar,
    request.action.scalar, isScalar_uuid, isScalar_json, true_and]
  constructor
  · rintro ⟨⟨-, context, trace⟩, -, -, -, -, dumped, entries⟩
    exact ⟨context, dumped, fun t inside =>
      t.digestible_iff.mp ⟨trace t inside, entries t inside⟩⟩
  · rintro ⟨context, dumped, trace⟩
    obtain ⟨policyId, policyVersion, reason, evidence⟩ := report trace
    exact ⟨⟨fun e found => (e.digestible_iff.mpr (evidence e found)).1, context,
      fun t inside => (t.digestible_iff.mpr (trace t inside)).1⟩, policyId, policyVersion, reason,
      fun e found => (e.digestible_iff.mpr (evidence e found)).2, dumped,
      fun t inside => (t.digestible_iff.mpr (trace t inside)).2⟩

/-- The decision inside the data of an event, where its values lie deeper. -/
theorem decision_announced_iff {request : AuthorizationRequest} {policies : List Policy}
    {evaluation : PolicyEvaluation}
    (evaluated : evaluatePolicy request.action.text request.context policies = .ok evaluation)
    (decisionId projectId : Uuid) (evaluatedAt : UtcDatetime) :
    Encodes 255 (authorizationOf decisionId projectId evaluatedAt request evaluation).dumped ↔
      (∀ field ∈ lossyDict request.context.fields, Encodes 253 field.2) ∧
        ∀ p ∈ applicablePolicies request.action.text policies, Printable 249 request.context p := by
  obtain ⟨entries, report⟩ := evaluation_encodes_iff 249 evaluated
  rw [← entries, AuthorizationResponse.dumped,
    encodes_record_iff (by simp only [List.all_cons, List.all_nil]; decide)]
  simp only [authorizationOf, List.map_cons, List.map_nil, List.mem_cons, List.not_mem_nil,
    or_false, forall_eq_or_imp, forall_eq, encodes_optional_iff, encodes_arr_iff, List.forall_mem_map,
    encodes_str_iff, encodes_int_iff, evaluation.decision.scalar, request.agent.scalar,
    request.action.scalar, isScalar_uuid, isScalar_json, true_and, PolicyEvidence.encodes_iff,
    PolicyTraceEntry.encodes_iff, encodes_dumped_iff]
  constructor
  · rintro ⟨-, -, -, -, context, trace⟩
    exact ⟨context, trace⟩
  · rintro ⟨context, trace⟩
    obtain ⟨policyId, policyVersion, reason, evidence⟩ := report trace
    exact ⟨policyId, policyVersion, reason,
      fun e found c inside => (evidence e found c inside).mono (by omega), context, trace⟩

/-! ## Accepted requests -/

/-- Everything that is computed of a request and its decision is defined: the fingerprint, the
payload hash, the record hash wherever the record comes in the chain, and the payload of the event
that announces the decision. -/
structure Processable (platform : Platform) (request : AuthorizationRequest)
    (a : AuthorizationResponse) : Prop where
  fingerprint : ∃ hash, buildRequestFingerprint platform request = .ok hash
  payloadHash : ∃ hash, calculateAuthorizationPayloadHash platform a = .ok hash
  recordHash : ∀ (sequenceNumber : Int) (previousHash : Option Sha256Digest)
    (payloadHash : Sha256Digest), fitsInteger sequenceNumber = true →
      ∃ hash, calculateIntegrityRecordHash platform a sequenceNumber
        (previousHash.map (·.val)) payloadHash.val = .ok hash
  webhook : ∀ eventId occurredAt, ∃ dumped event text, a.dump = .ok dumped ∧
    buildWebhookEvent eventId a.projectId .authorizationCreated occurredAt .authorizationDecision
        a.decisionId.str [("authorization", dumped)] = .ok event ∧
      canonicalWebhookPayload platform event = .ok text

theorem digestible_int_of_fits {n : Int} (fits : fitsInteger n = true) : Digestible (.int n) := by
  refine ⟨?_, by simp [Json.strings]⟩
  have small : n.natAbs ≤ 2 ^ 63 := by
    simp only [fitsInteger, Bool.and_eq_true, decide_eq_true_eq] at fits
    omega
  have longest : (decimal (2 ^ 63)).length ≤ 4300 := by decide +kernel
  exact decide_eq_true (Nat.le_trans (decimal_length_le _ _ small) longest)

theorem envelope_digestible (createdAt : Datetime) (decisionId projectId : Uuid)
    {sequenceNumber : Int} (printable : Digestible (.int sequenceNumber))
    (previousHash : Option Sha256Digest) (payloadHash : Sha256Digest) :
    Digestible (integrityRecordEnvelope integrityAlgorithm createdAt.json decisionId
      payloadHash.val (previousHash.map (·.val)) projectId integritySchemaVersion
      sequenceNumber) := by
  rw [integrityRecordEnvelope,
    digestible_record_iff (by simp only [List.all_cons, List.all_nil]; decide)]
  simp only [List.map_cons, List.map_nil, List.mem_cons, List.not_mem_nil, or_false,
    forall_eq_or_imp, forall_eq, digestible_optional_iff]
  refine ⟨digestible_literal _ (by decide), digestible_json _, digestible_uuid _,
    digestible_digest _, ?_, digestible_uuid _, digestible_int_of_fits (by decide), printable⟩
  intro hash found
  obtain ⟨digest, -, rfl⟩ := Option.map_eq_some_iff.mp found
  exact digestible_digest digest

theorem recordHash_defined {platform : Platform} (lawful : platform.Lawful)
    (a : AuthorizationResponse) (dumpable : a.Dumpable) {sequenceNumber : Int}
    (printable : Digestible (.int sequenceNumber)) (previousHash : Option Sha256Digest)
    (payloadHash : Sha256Digest) : ∃ hash, calculateIntegrityRecordHash platform a sequenceNumber
      (previousHash.map (·.val)) payloadHash.val = .ok hash := by
  obtain ⟨hash, hashed⟩ := (digest_defined_iff lawful _).mpr (envelope_digestible a.evaluatedAt
    a.decisionId a.projectId printable previousHash payloadHash)
  have done := recordHash_eq_ok platform a sequenceNumber (previousHash.map (·.val))
    payloadHash.val hash
  exact ⟨hash, done.mpr ⟨dumpable, hashed⟩⟩

theorem uuid_str_length (u : Uuid) : u.str.length = 36 := by
  have digits : u.hex.length = 32 := padded_length 16 32 u.value.val
  simp [Uuid.str, digits]

/-- The event that announces a decision has a payload just when the decision can be encoded
inside its data. -/
theorem announcement_defined_iff {platform : Platform} (lawful : platform.Lawful)
    (a : AuthorizationResponse) (dumpable : a.Dumpable) (eventId : Uuid)
    (occurredAt : UtcDatetime) : (∃ dumped event text, a.dump = .ok dumped ∧
      buildWebhookEvent eventId a.projectId .authorizationCreated occurredAt
          .authorizationDecision a.decisionId.str [("authorization", dumped)] = .ok event ∧
        canonicalWebhookPayload platform event = .ok text) ↔ Encodes 255 a.dumped := by
  have named : 1 ≤ a.decisionId.str.length ∧ a.decisionId.str.length ≤ 200 := by
    rw [uuid_str_length]
    decide
  have built : buildWebhookEvent eventId a.projectId .authorizationCreated occurredAt
      .authorizationDecision a.decisionId.str [("authorization", a.dumped)] = .ok _ := dif_pos named
  have dumps := (a.dump_eq_ok _).mpr ⟨dumpable, rfl⟩
  have written : lossyDict [(ofString "authorization", a.dumped)] =
      [(ofString "authorization", a.dumped)] := lossyDict_of_scalar (List.nodup_singleton _)
        (by simp only [List.mem_singleton, forall_eq]; decide)
  have data : Digestible (WebhookEvent.dumped ⟨eventId, a.projectId, .authorizationCreated, occurredAt,
      .authorizationDecision, a.decisionId.str, [(ofString "authorization", a.dumped)], named⟩) ↔
      Digestible a.dumped := by
    rw [WebhookEvent.dumped, written,
      digestible_record_iff (by simp only [List.all_cons, List.all_nil]; decide)]
    simp only [List.map_cons, List.map_nil, List.mem_cons, List.not_mem_nil, or_false,
      forall_eq_or_imp, forall_eq]
    rw [digestible_record_iff (by simp only [List.all_cons, List.all_nil]; decide)]
    simp only [List.map_cons, List.map_nil, List.mem_singleton, forall_eq]
    exact ⟨fun ⟨_, _, _, _, _, _, digestible, _⟩ => digestible, fun digestible =>
      ⟨digestible_uuid _, digestible_uuid _, digestible_literal _ (by decide), digestible_json _,
        digestible_literal _ (by decide), digestible_uuid _, digestible,
        digestible_int_of_fits (by decide)⟩⟩
  rw [encodes_iff_serializable, and_comm, ← data]
  have payload := canonicalWebhookPayload_defined_iff lawful (WebhookEvent.mk eventId a.projectId
    .authorizationCreated occurredAt .authorizationDecision a.decisionId.str
    [(ofString "authorization", a.dumped)] named)
  simp only [List.mem_singleton, forall_eq] at payload
  rw [← payload]
  constructor
  · rintro ⟨_, event, text, dumped, made, announced⟩
    rw [dumps, Except.ok.injEq] at dumped
    subst dumped
    rw [built, Except.ok.injEq] at made
    subst made
    exact ⟨text, announced⟩
  · rintro ⟨text, announced⟩
    exact ⟨_, _, text, dumps, built, announced⟩

/-- What is computed of a request and its decision is defined if and only if the values of its
context and of the conditions they are compared in are shallow enough and hold no surrogate where
they are written. -/
theorem request_processable_iff {platform : Platform} (lawful : platform.Lawful)
    (request : AuthorizationRequest) (policies : List Policy) (evaluation : PolicyEvaluation)
    (evaluated : evaluatePolicy request.action.text request.context policies = .ok evaluation)
    (decisionId projectId : Uuid) (evaluatedAt : UtcDatetime) :
    Processable platform request
        (authorizationOf decisionId projectId evaluatedAt request evaluation) ↔
      (∀ field ∈ request.context.fields, Serializable field.2) ∧
        (∀ field ∈ lossyDict request.context.fields, Encodes 253 field.2) ∧
        ∀ policy ∈ policies, policy.action = request.action.text →
          Printable 249 request.context policy := by
  have decision := decision_digestible_iff evaluated decisionId projectId evaluatedAt
  have announced := decision_announced_iff evaluated decisionId projectId evaluatedAt
  have policies_iff : (∀ p ∈ applicablePolicies request.action.text policies,
      Printable 249 request.context p) ↔ ∀ policy ∈ policies,
        policy.action = request.action.text → Printable 249 request.context policy := by
    simp [mem_applicablePolicies]
  rw [← policies_iff, ← announced]
  constructor
  · intro processable
    have digests := (payloadHash_defined_iff lawful _).mp processable.payloadHash
    have dumpable := (AuthorizationResponse.digests_iff _).mp digests
    exact ⟨(decision.mp digests).1, (announcement_defined_iff lawful _ dumpable.1 _ _).mp
      (processable.webhook decisionId evaluatedAt)⟩
  · rintro ⟨context, encodes⟩
    obtain ⟨values, printable⟩ := announced.mp encodes
    have dumped : Digestible request.context.dumped :=
      (digestible_dumped_iff _).mpr fun field member => (values field member).digestible
    have digests := decision.mpr ⟨context, dumped, fun p inside => (printable p inside).mono
      (by omega)⟩
    have dumpable := ((AuthorizationResponse.digests_iff _).mp digests).1
    constructor
    · exact (fingerprint_defined_iff lawful request).mpr
        ⟨context, (request_digestible_iff request).mpr dumped⟩
    · exact (payloadHash_defined_iff lawful _).mpr digests
    · intro sequenceNumber previousHash payloadHash fits
      exact recordHash_defined lawful _ dumpable (digestible_int_of_fits fits) previousHash
        payloadHash
    · intro eventId occurredAt
      exact (announcement_defined_iff lawful _ dumpable eventId occurredAt).mpr encodes

/-! ## Samples -/

def plainRequest : AuthorizationRequest :=
  ⟨⟨"bot", by decide, by decide, by decide⟩, samplePayAction,
    ⟨[("note", .str "paid")], by decide, by decide, rfl⟩⟩

def plainEvaluation : PolicyEvaluation :=
  ⟨.deny, none, none, isNotCovered plainRequest.action.text, none, []⟩

def plainEvaluatedAt : UtcDatetime := sampleMoment

theorem plainRequest_processable :
    Processable (referencePlatform fun _ => []) plainRequest
        (authorizationOf ⟨1⟩ ⟨2⟩ plainEvaluatedAt plainRequest plainEvaluation) ↔
      (∀ field ∈ plainRequest.context.fields, Serializable field.2) ∧
        (∀ field ∈ lossyDict plainRequest.context.fields, Encodes 253 field.2) ∧
        ∀ policy ∈ ([] : List Policy), policy.action = plainRequest.action.text →
          Printable 249 plainRequest.context policy :=
  request_processable_iff (referencePlatform_lawful _) plainRequest [] plainEvaluation
    (evaluatePolicy_uncovered _ _ [] (by simp)) ⟨1⟩ ⟨2⟩ plainEvaluatedAt

def surrogateRequest : AuthorizationRequest :=
  ⟨⟨"bot", by decide, by decide, by decide⟩, samplePayAction,
    ⟨[("note", .str [0xd800])], by decide, by decide, rfl⟩⟩

/-- The body of the request, the surrogate escaped. -/
def surrogateBody : Str :=
  ofString ("\x7b\"agent\": \"bot\", \"action\": \"pay\", " ++
    "\"context\": \x7b\"note\": \"\\ud800\"\x7d\x7d")

/-- The strings of a body of that shape, in order. -/
def bodyTexts : Json → Option (List Str)
  | .obj [(agentKey, .str agent), (actionKey, .str action), (contextKey, .obj [(key, .str s)])] =>
    some [agentKey, agent, actionKey, action, contextKey, key, s]
  | _ => none

theorem surrogateBody_loads :
    Json.loads referenceFloats surrogateBody = .ok surrogateRequest.dumped := by
  have texts : (Json.loads referenceFloats surrogateBody).toOption.bind bodyTexts =
      some (["agent", "bot", "action", "pay", "context", "note", [0xd800]] : List Str) := by
    decide +kernel
  cases read : Json.loads referenceFloats surrogateBody with
  | error exc => simp [read, Except.toOption] at texts
  | ok body =>
    rw [read, Except.toOption, Option.bind_some] at texts
    unfold bodyTexts at texts
    split at texts
    · simp only [Option.some.injEq, List.cons.injEq, and_true] at texts
      obtain ⟨rfl, rfl, rfl, rfl, rfl, rfl, rfl⟩ := texts
      rfl
    · cases texts

/-- The body is read, its context is accepted, and the request has no fingerprint. -/
theorem surrogate_request_raises :
    Json.loads referenceFloats surrogateBody = .ok surrogateRequest.dumped ∧
      StrictObject.validate (.obj [("note", .str [0xd800])]) = some surrogateRequest.context ∧
      buildRequestFingerprint (referencePlatform fun _ => []) surrogateRequest =
        .error .unicodeEncodeError :=
  ⟨surrogateBody_loads, StrictObject.validate_json surrogateRequest.context, by rfl⟩

end DecAustrum
