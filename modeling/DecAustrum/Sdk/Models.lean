import DecAustrum.Models

/-!
# The client's response models

The decoders a client applies to a response. Each raises a `ValueError`, modelled by its text.
-/
namespace DecAustrum.Sdk

open Python

/-- A decoder's result: a value, or the text of a `ValueError`. -/
abbrev Decoded (α : Type) := Except Str α

def mapping (value : Json) (fieldName : Str) : Decoded (List (Str × Json)) :=
  match value with
  | .obj fields => .ok fields
  | _ => .error (fieldName ++ ofString " must be a JSON object")

def sequence (value : Json) (fieldName : Str) : Decoded (List Json) :=
  match value with
  | .arr items => .ok items
  | _ => .error (fieldName ++ ofString " must be a JSON array")

def required (data : List (Str × Json)) (fieldName : Str) : Decoded Json :=
  match Json.lookup fieldName data with
  | some value => .ok value
  | none => .error (ofString "response is missing " ++ fieldName)

def text (value : Json) (fieldName : Str) : Decoded Str :=
  match value with
  | .str (c :: s) => .ok (c :: s)
  | _ => .error (fieldName ++ ofString " must be a non-empty string")

/-- The value of `data.get(field)`, decoded where it is not null. -/
def optional {α : Type} (decode : Json → Str → Decoded α) (value : Option Json) (fieldName : Str) :
    Decoded (Option α) :=
  match value with
  | none => .ok none
  | some .null => .ok none
  | some value => (decode value fieldName).map some

def integer (value : Json) (fieldName : Str) : Decoded Int :=
  match value with
  | .int n => .ok n
  | _ => .error (fieldName ++ ofString " must be an integer")

def boolean (value : Json) (fieldName : Str) : Decoded Bool :=
  match value with
  | .bool b => .ok b
  | _ => .error (fieldName ++ ofString " must be a boolean")

/-- `_choice`: a text among the literals of a type. -/
def choice {α : Type} (values : List α) (textOf : α → Str) (value : Json) (fieldName : Str) :
    Decoded α := do
  let parsed ← text value fieldName
  match values.find? fun a => textOf a = parsed with
  | some a => return a
  | none => throw (fieldName ++ ofString " has an unsupported value")

def decisionChoice : Json → Str → Decoded Decision :=
  choice [.allow, .requireApproval, .deny] Decision.text

def operatorChoice : Json → Str → Decoded Operator :=
  choice [.greaterThan, .lessThan, .equals, .notEquals] Operator.text

def matchChoice : Json → Str → Decoded ConditionMatch := choice [.all, .any] ConditionMatch.text

section

variable (platform : Platform)

/-- `str(value)` where it can spell a UUID; no other value prints as one. -/
def uuidText : Json → Option Str
  | .str s => some s
  | .int n => some (Json.intText n)
  | .float x => some (platform.floats.repr x)
  | _ => none

def uuid (value : Json) (fieldName : Str) : Decoded Uuid :=
  match (uuidText platform value).bind platform.uuid with
  | some u => .ok u
  | none => .error (fieldName ++ ofString " must be a UUID")

/-- `value[:-1] + "+00:00" if value.endswith("Z") else value`. -/
def normalizedTimestamp (value : Str) : Str :=
  if value.getLast? = some 0x5a then value.dropLast ++ ofString "+00:00" else value

/-- `_timestamp`: the moment of an ISO text with a zone. -/
def timestamp (value : Json) (fieldName : Str) : Decoded Moment :=
  match value with
  | .str s =>
    match platform.fromIsoformat (normalizedTimestamp s) with
    | some (.aware instant) => .ok (.aware instant)
    | some (.naive _) => .error (fieldName ++ ofString " must include a timezone")
    | none => .error (fieldName ++ ofString " must be an ISO-8601 timestamp")
  | _ => .error (fieldName ++ ofString " must be an ISO-8601 timestamp")

end

/-! ## Decisions -/

structure ConditionEvidence where
  field : Str
  operator : Operator
  actualValue : Json
  expectedValue : Json
  matched : Bool

structure PolicyEvidence where
  matchMode : ConditionMatch
  conditions : List ConditionEvidence

structure PolicyTraceEntry where
  policyId : Str
  policyVersion : Int
  decision : Decision
  reason : Str
  matched : Bool
  evidence : PolicyEvidence

structure AuthorizationDecision where
  decisionId : Uuid
  projectId : Uuid
  evaluatedAt : Moment
  decision : Decision
  policy : Option Str
  policyVersion : Option Int
  reason : Str
  evidence : Option PolicyEvidence
  agent : Str
  action : Str
  context : List (Str × Json)
  trace : List PolicyTraceEntry

def ConditionEvidence.fromDict (value : Json) : Decoded ConditionEvidence := do
  let data ← mapping value "condition evidence"
  let field ← required data "field" >>= (text · "field")
  let operator ← required data "operator" >>= (operatorChoice · "operator")
  let actualValue ← required data "actual_value"
  let expectedValue ← required data "expected_value"
  let matched ← required data "matched" >>= (boolean · "matched")
  return ⟨field, operator, actualValue, expectedValue, matched⟩

def PolicyEvidence.fromDict (value : Json) : Decoded PolicyEvidence := do
  let data ← mapping value "policy evidence"
  let conditions ← required data "conditions" >>= (sequence · "conditions")
  let matchMode ← required data "match" >>= (matchChoice · "match")
  let conditions ← conditions.mapM ConditionEvidence.fromDict
  return ⟨matchMode, conditions⟩

/-- `PolicyEvidence.from_dict(_mapping(raw_evidence, "evidence"))`. -/
def evidenceFromDict (value : Json) (fieldName : Str) : Decoded PolicyEvidence := do
  let _ ← mapping value fieldName
  PolicyEvidence.fromDict value

def PolicyTraceEntry.fromDict (value : Json) : Decoded PolicyTraceEntry := do
  let data ← mapping value "policy trace entry"
  let policyId ← required data "policy_id" >>= (text · "policy_id")
  let policyVersion ← required data "policy_version" >>= (integer · "policy_version")
  let decision ← required data "decision" >>= (decisionChoice · "decision")
  let reason ← required data "reason" >>= (text · "reason")
  let matched ← required data "matched" >>= (boolean · "matched")
  let evidence ← required data "evidence" >>= (evidenceFromDict · "evidence")
  return ⟨policyId, policyVersion, decision, reason, matched, evidence⟩

def AuthorizationDecision.fromDict (platform : Platform) (value : Json) :
    Decoded AuthorizationDecision := do
  let data ← mapping value "authorization decision"
  let rawTrace ← required data "trace" >>= (sequence · "trace")
  let decisionId ← required data "decision_id" >>= (uuid platform · "decision_id")
  let projectId ← required data "project_id" >>= (uuid platform · "project_id")
  let evaluatedAt ← required data "evaluated_at" >>= (timestamp platform · "evaluated_at")
  let decision ← required data "decision" >>= (decisionChoice · "decision")
  let policy ← optional text (Json.lookup "policy" data) "policy"
  let policyVersion ← optional integer (Json.lookup "policy_version" data) "policy_version"
  let reason ← required data "reason" >>= (text · "reason")
  let evidence ← optional evidenceFromDict (Json.lookup "evidence" data) "evidence"
  let agent ← required data "agent" >>= (text · "agent")
  let action ← required data "action" >>= (text · "action")
  let context ← required data "context" >>= (mapping · "context")
  let trace ← rawTrace.mapM PolicyTraceEntry.fromDict
  return ⟨decisionId, projectId, evaluatedAt, decision, policy, policyVersion, reason, evidence,
    agent, action, context, trace⟩

end DecAustrum.Sdk
