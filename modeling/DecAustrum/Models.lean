import DecAustrum.Serialization

/-!
# Model records

The validated records of the program, with what `model_dump(mode="json")` writes of each
and what `model_validate` reads. A record carries what its validators checked.
-/
namespace DecAustrum

open Python

/-! ## Strict JSON -/

/-- A value `validate_json_value` accepts. Dictionaries are equal whatever the order of
their keys, so the value is kept with its keys in order. -/
structure StrictJson where
  json : Json
  unique : json.uniqueKeys = true
  encodable : json.encodable = true
  sorted : json.sortKeys = json

namespace StrictJson

@[ext] theorem ext (v w : StrictJson) (same : v.json = w.json) : v = w := by
  cases v
  cases w
  cases same
  rfl

/-- `validate_json_value`. -/
def validate (v : Json) : Option StrictJson :=
  if checked : v.uniqueKeys = true ∧ v.encodable = true then
    some ⟨v.sortKeys, by rw [Json.uniqueKeys_sortKeys, checked.1],
      by rw [Json.encodable_sortKeys, checked.2], v.sortKeys_sortKeys⟩
  else none

theorem validate_json (v : StrictJson) : validate v.json = some v := by
  rw [validate, dif_pos ⟨v.unique, v.encodable⟩]
  exact congrArg some (ext _ _ v.sorted)

end StrictJson

/-- A strict JSON object, the type of every `context`. Its own members keep the order they came
in, which decides how the object is written; the values under them are kept sorted. -/
structure StrictObject where
  fields : List (Str × Json)
  unique : (Json.obj fields).uniqueKeys = true
  encodable : (Json.obj fields).encodable = true
  sorted : Json.sortKeysFields fields = fields

namespace StrictObject

@[ext] theorem ext (c d : StrictObject) (same : c.fields = d.fields) : c = d := by
  cases c
  cases d
  cases same
  rfl

/-- The object with its keys in order. Two objects are equal as dictionaries when these are. -/
def value (c : StrictObject) : StrictJson :=
  ⟨(Json.obj c.fields).sortKeys, by rw [Json.uniqueKeys_sortKeys, c.unique],
    by rw [Json.encodable_sortKeys, c.encodable], Json.sortKeys_sortKeys _⟩

def json (c : StrictObject) : Json := c.value.json

theorem json_eq (c : StrictObject) : c.json = .obj (c.fields.insertionSort Json.keyLe) := by
  change Json.obj ((Json.sortKeysFields c.fields).insertionSort Json.keyLe) = _
  rw [c.sorted]

/-- The validator of a `context`: strict JSON, then a dictionary. -/
def validate (v : Json) : Option StrictObject :=
  match v with
  | .obj fields =>
    if checked : (Json.obj fields).uniqueKeys = true ∧ (Json.obj fields).encodable = true then
      some ⟨Json.sortKeysFields fields, by rw [Json.uniqueKeys_sortKeysFields, checked.1],
        by rw [Json.encodable_sortKeysFields, checked.2], Json.sortKeysFields_sortKeysFields fields⟩
    else none
  | _ => none

/-- The same dictionary with its members in key order, as `sort_keys=True` writes them. -/
def canonical (c : StrictObject) : StrictObject where
  fields := c.fields.insertionSort Json.keyLe
  unique := by
    rw [← json_eq]
    exact c.value.unique
  encodable := by
    rw [← json_eq]
    exact c.value.encodable
  sorted := by
    rw [Json.sortKeysFields_insertionSort, c.sorted]

theorem canonical_json (c : StrictObject) : c.canonical.json = c.json := by
  rw [json_eq, json_eq, canonical, Json.insertionSort_insertionSort]

theorem canonical_eq_iff (c d : StrictObject) : c.canonical = d.canonical ↔ c.json = d.json := by
  rw [json_eq, json_eq, Json.obj.injEq, StrictObject.ext_iff]
  rfl

theorem validate_json (c : StrictObject) : validate c.json = some c.canonical := by
  have unique := c.canonical.unique
  have encodable := c.canonical.encodable
  rw [json_eq, validate]
  exact (dif_pos ⟨unique, encodable⟩).trans
    (congrArg some (StrictObject.ext _ _ c.canonical.sorted))

end StrictObject

/-! ## Reading fields -/

/-- A field the record requires. -/
def requiredField {α : Type} (key : Str) (read : Json → Option α) (v : Json) : Option α :=
  (v.get? key).bind read

/-- A field with a default. -/
def defaultField {α : Type} (key : Str) (default : α) (read : Json → Option α) (v : Json) :
    Option α :=
  match v.get? key with
  | none => some default
  | some w => read w

/-- `T | None`. -/
def readOptional {α : Type} (read : Json → Option α) : Json → Option (Option α)
  | .null => some none
  | v => (read v).map some

def readStr : Json → Option Str
  | .str s => some s
  | _ => none

/-- `list[T]`. -/
def readList {α : Type} (read : Json → Option α) : Json → Option (List α)
  | .arr items => items.mapM read
  | _ => none

def dumpOptional {α : Type} (dump : α → Json) : Option α → Json
  | none => .null
  | some a => dump a

/-! ## Enumerations -/

inductive Decision where
  | allow
  | requireApproval
  | deny
  deriving DecidableEq, Repr

def Decision.text : Decision → Str
  | .allow => "ALLOW"
  | .requireApproval => "REQUIRE_APPROVAL"
  | .deny => "DENY"

inductive Operator where
  | greaterThan
  | lessThan
  | equals
  | notEquals
  deriving DecidableEq, Repr

def Operator.text : Operator → Str
  | .greaterThan => "greater_than"
  | .lessThan => "less_than"
  | .equals => "equals"
  | .notEquals => "not_equals"

inductive ConditionMatch where
  | all
  | any
  deriving DecidableEq, Repr

def ConditionMatch.text : ConditionMatch → Str
  | .all => "all"
  | .any => "any"

/-- A literal type: one of `values`, by its text. -/
def readLiteral {α : Type} (values : List α) (text : α → Str) : Json → Option α
  | .str s => values.find? fun a => text a = s
  | _ => none

def readDecision : Json → Option Decision :=
  readLiteral [.allow, .requireApproval, .deny] Decision.text

def readOperator : Json → Option Operator :=
  readLiteral [.greaterThan, .lessThan, .equals, .notEquals] Operator.text

def readConditionMatch : Json → Option ConditionMatch :=
  readLiteral [.all, .any] ConditionMatch.text

@[simp] theorem readDecision_text (d : Decision) : readDecision (.str d.text) = some d := by
  cases d <;> rfl

@[simp] theorem readOperator_text (o : Operator) : readOperator (.str o.text) = some o := by
  cases o <;> rfl

@[simp] theorem readConditionMatch_text (m : ConditionMatch) :
    readConditionMatch (.str m.text) = some m := by
  cases m <;> rfl

/-! ## Decisions -/

structure ConditionEvidence where
  field : Str
  operator : Operator
  actualValue : StrictJson
  expectedValue : StrictJson
  matched : Bool

structure PolicyEvidence where
  matchMode : ConditionMatch
  conditions : List ConditionEvidence

structure PolicyTraceEntry where
  policyId : Str
  policyVersion : Int
  decision : Decision
  reason : Str
  matched : Bool
  evidence : PolicyEvidence

structure AuthorizationResponse where
  decisionId : Uuid
  projectId : Uuid
  evaluatedAt : Datetime
  decision : Decision
  policy : Option Str
  policyVersion : Option Int
  reason : Str
  evidence : Option PolicyEvidence
  agent : Str
  action : Str
  context : StrictObject
  trace : List PolicyTraceEntry

/-- The decision with its context in key order, equal to the decision in Python. -/
def AuthorizationResponse.canonical (a : AuthorizationResponse) : AuthorizationResponse :=
  { a with context := a.context.canonical }

/-! ## Writing

`dumped` is what `model_dump(mode="json")` writes of a record, `dump` the call, which raises where
a value of type `Any` cannot be written. -/

def StrictObject.dumped (c : StrictObject) : Json := (Json.obj (lossyDict c.fields)).sortKeys

def StrictObject.Dumpable (c : StrictObject) : Prop :=
  ∀ field ∈ c.fields, Serializable field.2

def StrictObject.dump (c : StrictObject) : Except PyExc Json :=
  (serializeDict c.fields).map Json.sortKeys

theorem StrictObject.dump_eq_ok (c : StrictObject) (v : Json) :
    c.dump = .ok v ↔ c.Dumpable ∧ v = c.dumped := by
  unfold dump Dumpable dumped
  cases written : serializeDict c.fields with
  | error exc =>
    simp only [Except.map, reduceCtorEq, false_iff, not_and]
    intro taken
    have written' := (serializeDict_eq_ok c.fields _).mpr ⟨taken, rfl⟩
    rw [written] at written'
    cases written'
  | ok w =>
    obtain ⟨taken, rfl⟩ := (serializeDict_eq_ok c.fields w).mp written
    simp only [Except.map, Except.ok.injEq]
    exact ⟨fun same => ⟨taken, same.symm⟩, fun both => both.2.symm⟩

namespace StrictObject

theorem dumped_unique (c : StrictObject) : c.dumped.uniqueKeys = true := by
  have unique := c.unique
  simp only [Json.uniqueKeys, Bool.and_eq_true, decide_eq_true_eq, Json.uniqueKeysFields_iff]
    at unique
  rw [dumped, Json.uniqueKeys_sortKeys]
  simp only [Json.uniqueKeys, Bool.and_eq_true, decide_eq_true_eq, Json.uniqueKeysFields_iff]
  refine ⟨lossyDict_nodup c.fields, fun field member => ?_⟩
  obtain ⟨-, original, present, same⟩ := mem_lossyDict member
  rw [same]
  exact unique.2 original present

theorem dumped_encodable (c : StrictObject) : c.dumped.encodable = true := by
  have encodable := c.encodable
  rw [Json.encodable, Json.encodableFields_iff] at encodable
  rw [dumped, Json.encodable_sortKeys, Json.encodable, Json.encodableFields_iff]
  intro field member
  obtain ⟨-, original, present, same⟩ := mem_lossyDict member
  rw [same]
  exact encodable original present

/-- The members are written with the sorted values they have. -/
theorem lossyDict_sorted (c : StrictObject) :
    Json.sortKeysFields (lossyDict c.fields) = lossyDict c.fields := by
  have sorted := c.sorted
  rw [Json.sortKeysFields_eq] at sorted ⊢
  conv_rhs => rw [← List.map_id (lossyDict c.fields)]
  refine List.map_congr_left fun field member => Prod.ext rfl ?_
  obtain ⟨-, original, present, same⟩ := mem_lossyDict member
  have kept := List.map_inj_left.mp (sorted.trans (List.map_id _).symm) original present
  exact (congrArg Json.sortKeys same).trans ((congrArg Prod.snd kept).trans same.symm)

theorem dumped_eq (c : StrictObject) :
    c.dumped = .obj ((lossyDict c.fields).insertionSort Json.keyLe) := by
  change Json.obj ((Json.sortKeysFields (lossyDict c.fields)).insertionSort Json.keyLe) = _
  rw [c.lossyDict_sorted]

theorem dumped_sorted (c : StrictObject) : c.dumped.sortKeys = c.dumped := Json.sortKeys_sortKeys _

/-- Every key of the object has a UTF-8 form, those of nested objects apart. -/
def ScalarKeys (c : StrictObject) : Prop := ∀ field ∈ c.fields, field.1.any isSurrogate = false

instance (c : StrictObject) : Decidable c.ScalarKeys :=
  inferInstanceAs (Decidable (∀ field ∈ c.fields, field.1.any isSurrogate = false))

/-- The object is written as it is just when its keys have UTF-8 forms. -/
theorem dumped_eq_json_iff (c : StrictObject) : c.dumped = c.json ↔ c.ScalarKeys := by
  have unique := c.unique
  simp only [Json.uniqueKeys, Bool.and_eq_true, decide_eq_true_eq] at unique
  constructor
  · intro same field present
    have member : field ∈ (Json.sortKeysFields (lossyDict c.fields)).insertionSort Json.keyLe := by
      rw [json_eq] at same
      rw [Json.obj.inj same, List.mem_insertionSort]
      exact present
    rw [List.mem_insertionSort, Json.sortKeysFields_eq] at member
    obtain ⟨written, inside, rfl⟩ := List.mem_map.mp member
    exact (mem_lossyDict inside).1
  · intro scalar
    rw [dumped, lossyDict_of_scalar unique.1 scalar]
    rfl

/-- The object that the dump is read back as. -/
def written (c : StrictObject) : StrictObject where
  fields := (lossyDict c.fields).insertionSort Json.keyLe
  unique := by
    have unique := c.dumped_unique
    rwa [dumped_eq] at unique
  encodable := by
    have encodable := c.dumped_encodable
    rwa [dumped_eq] at encodable
  sorted := by
    rw [Json.sortKeysFields_insertionSort, c.lossyDict_sorted]

theorem validate_dumped (c : StrictObject) : validate c.dumped = some c.written := by
  have unique := c.written.unique
  have encodable := c.written.encodable
  rw [dumped_eq, validate]
  exact (dif_pos ⟨unique, encodable⟩).trans
    (congrArg some (StrictObject.ext _ _ c.written.sorted))

theorem written_eq_canonical_iff (c : StrictObject) : c.written = c.canonical ↔ c.ScalarKeys := by
  rw [← dumped_eq_json_iff, dumped_eq, json_eq, Json.obj.injEq, StrictObject.ext_iff]
  rfl

theorem canonical_dumpable (c : StrictObject) : c.canonical.Dumpable ↔ c.Dumpable := by
  simp only [Dumpable, canonical, List.mem_insertionSort]

theorem canonical_scalarKeys (c : StrictObject) : c.canonical.ScalarKeys ↔ c.ScalarKeys := by
  simp only [ScalarKeys, canonical, List.mem_insertionSort]

theorem canonical_canonical (c : StrictObject) : c.canonical.canonical = c.canonical := by
  rw [canonical_eq_iff, canonical_json]

end StrictObject

def ConditionEvidence.dumped (c : ConditionEvidence) : Json :=
  .obj [("field", .str c.field), ("operator", .str c.operator.text),
    ("actual_value", c.actualValue.json), ("expected_value", c.expectedValue.json),
    ("matched", .bool c.matched)]

structure ConditionEvidence.Dumpable (c : ConditionEvidence) : Prop where
  actualValue : Serializable c.actualValue.json
  expectedValue : Serializable c.expectedValue.json

def ConditionEvidence.dump (c : ConditionEvidence) : Except PyExc Json := do
  let _ ← serializeAny c.actualValue.json
  let _ ← serializeAny c.expectedValue.json
  return c.dumped

theorem ConditionEvidence.dump_eq_ok (c : ConditionEvidence) (v : Json) :
    c.dump = .ok v ↔ c.Dumpable ∧ v = c.dumped := by
  simp only [dump, bind_eq_ok, serializeAny_eq_ok, pure, Except.pure, Except.ok.injEq]
  constructor
  · rintro ⟨_, ⟨actual, -⟩, _, ⟨expected, -⟩, rfl⟩
    exact ⟨⟨actual, expected⟩, rfl⟩
  · rintro ⟨⟨actual, expected⟩, rfl⟩
    exact ⟨_, ⟨actual, rfl⟩, _, ⟨expected, rfl⟩, rfl⟩

def PolicyEvidence.dumped (e : PolicyEvidence) : Json :=
  .obj [("match", .str e.matchMode.text), ("conditions", .arr (e.conditions.map (·.dumped)))]

def PolicyEvidence.Dumpable (e : PolicyEvidence) : Prop := ∀ c ∈ e.conditions, c.Dumpable

def PolicyEvidence.dump (e : PolicyEvidence) : Except PyExc Json := do
  let _ ← e.conditions.mapM (·.dump)
  return e.dumped

theorem PolicyEvidence.dump_eq_ok (e : PolicyEvidence) (v : Json) :
    e.dump = .ok v ↔ e.Dumpable ∧ v = e.dumped := by
  simp only [dump, bind_eq_ok, mapM_eq_map_iff ConditionEvidence.dump_eq_ok, pure, Except.pure,
    Except.ok.injEq]
  constructor
  · rintro ⟨_, ⟨conditions, -⟩, rfl⟩
    exact ⟨conditions, rfl⟩
  · rintro ⟨conditions, rfl⟩
    exact ⟨_, ⟨conditions, rfl⟩, rfl⟩

def PolicyTraceEntry.dumped (t : PolicyTraceEntry) : Json :=
  .obj [("policy_id", .str t.policyId), ("policy_version", .int t.policyVersion),
    ("decision", .str t.decision.text), ("reason", .str t.reason), ("matched", .bool t.matched),
    ("evidence", t.evidence.dumped)]

def PolicyTraceEntry.dump (t : PolicyTraceEntry) : Except PyExc Json := do
  let _ ← t.evidence.dump
  return t.dumped

theorem PolicyTraceEntry.dump_eq_ok (t : PolicyTraceEntry) (v : Json) :
    t.dump = .ok v ↔ t.evidence.Dumpable ∧ v = t.dumped := by
  simp only [dump, bind_eq_ok, PolicyEvidence.dump_eq_ok, pure, Except.pure, Except.ok.injEq]
  constructor
  · rintro ⟨_, ⟨evidence, -⟩, rfl⟩
    exact ⟨evidence, rfl⟩
  · rintro ⟨evidence, rfl⟩
    exact ⟨_, ⟨evidence, rfl⟩, rfl⟩

def AuthorizationResponse.dumped (a : AuthorizationResponse) : Json :=
  .obj [("decision_id", .str a.decisionId.str), ("project_id", .str a.projectId.str),
    ("evaluated_at", .str a.evaluatedAt.json), ("decision", .str a.decision.text),
    ("policy", dumpOptional .str a.policy), ("policy_version", dumpOptional .int a.policyVersion),
    ("reason", .str a.reason), ("evidence", dumpOptional PolicyEvidence.dumped a.evidence),
    ("agent", .str a.agent), ("action", .str a.action), ("context", a.context.dumped),
    ("trace", .arr (a.trace.map (·.dumped)))]

/-- The decision that the dump is read back as. -/
def AuthorizationResponse.written (a : AuthorizationResponse) : AuthorizationResponse :=
  { a with context := a.context.written }

structure AuthorizationResponse.Dumpable (a : AuthorizationResponse) : Prop where
  evidence : ∀ e ∈ a.evidence, e.Dumpable
  context : a.context.Dumpable
  trace : ∀ t ∈ a.trace, t.evidence.Dumpable

def AuthorizationResponse.dump (a : AuthorizationResponse) : Except PyExc Json := do
  let _ ← serializeOptional PolicyEvidence.dump a.evidence
  let _ ← a.context.dump
  let _ ← a.trace.mapM (·.dump)
  return a.dumped

theorem serializeOptional_eq_ok {α : Type} {dump : α → Except PyExc Json} {p : α → Prop}
    {dumped : α → Json} (each : ∀ a v, dump a = .ok v ↔ p a ∧ v = dumped a) (value : Option α)
    (v : Json) :
    serializeOptional dump value = .ok v ↔ (∀ a ∈ value, p a) ∧ v = dumpOptional dumped value := by
  cases value with
  | none => simp [serializeOptional, dumpOptional, eq_comm]
  | some a => simp [serializeOptional, dumpOptional, each]

theorem AuthorizationResponse.dump_eq_ok (a : AuthorizationResponse) (v : Json) :
    a.dump = .ok v ↔ a.Dumpable ∧ v = a.dumped := by
  simp only [dump, bind_eq_ok, serializeOptional_eq_ok PolicyEvidence.dump_eq_ok,
    StrictObject.dump_eq_ok, mapM_eq_map_iff PolicyTraceEntry.dump_eq_ok, pure, Except.pure,
    Except.ok.injEq]
  constructor
  · rintro ⟨_, ⟨evidence, -⟩, _, ⟨context, -⟩, _, ⟨trace, -⟩, rfl⟩
    exact ⟨⟨evidence, context, trace⟩, rfl⟩
  · rintro ⟨⟨evidence, context, trace⟩, rfl⟩
    exact ⟨_, ⟨evidence, rfl⟩, _, ⟨context, rfl⟩, _, ⟨trace, rfl⟩, rfl⟩

section Readers

variable (platform : Platform)

def ConditionEvidence.validate (v : Json) : Option ConditionEvidence := do
  let field ← requiredField "field" readStr v
  let operator ← requiredField "operator" readOperator v
  let actualValue ← requiredField "actual_value" StrictJson.validate v
  let expectedValue ← requiredField "expected_value" StrictJson.validate v
  let matched ← requiredField "matched" platform.readBool v
  return ⟨field, operator, actualValue, expectedValue, matched⟩

def PolicyEvidence.validate (v : Json) : Option PolicyEvidence := do
  let matchMode ← requiredField "match" readConditionMatch v
  let conditions ← requiredField "conditions" (readList (ConditionEvidence.validate platform)) v
  return ⟨matchMode, conditions⟩

def PolicyTraceEntry.validate (v : Json) : Option PolicyTraceEntry := do
  let policyId ← requiredField "policy_id" readStr v
  let policyVersion ← requiredField "policy_version" platform.readInt v
  let decision ← requiredField "decision" readDecision v
  let reason ← requiredField "reason" readStr v
  let matched ← requiredField "matched" platform.readBool v
  let evidence ← requiredField "evidence" (PolicyEvidence.validate platform) v
  return ⟨policyId, policyVersion, decision, reason, matched, evidence⟩

def AuthorizationResponse.validate (v : Json) : Option AuthorizationResponse := do
  let decisionId ← requiredField "decision_id" platform.readUuid v
  let projectId ← requiredField "project_id" platform.readUuid v
  let evaluatedAt ← requiredField "evaluated_at" platform.readDatetime v
  let decision ← requiredField "decision" readDecision v
  let policy ← requiredField "policy" (readOptional readStr) v
  let policyVersion ← requiredField "policy_version" (readOptional platform.readInt) v
  let reason ← requiredField "reason" readStr v
  let evidence ← requiredField "evidence" (readOptional (PolicyEvidence.validate platform)) v
  let agent ← requiredField "agent" readStr v
  let action ← requiredField "action" readStr v
  let context ← requiredField "context" StrictObject.validate v
  let trace ← requiredField "trace" (readList (PolicyTraceEntry.validate platform)) v
  return ⟨decisionId, projectId, evaluatedAt, decision, policy, policyVersion, reason, evidence,
    agent, action, context, trace⟩

end Readers

end DecAustrum
