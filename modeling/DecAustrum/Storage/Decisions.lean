import DecAustrum.Models

/-!
# The decisions table

Rows of `authorization_decisions`, as text, and the decision each is read back as.
-/
namespace DecAustrum

open Python

structure DecisionRow where
  decisionId : Str
  projectId : Str
  evaluatedAt : Str
  decision : Str
  policyId : Option Str
  policyVersion : Option Int
  reason : Str
  evidenceJson : Option Str
  traceJson : Str
  agent : Str
  action : Str
  contextJson : Str
  deriving DecidableEq

section

variable (platform : Platform)

/-- `json.dumps(v, sort_keys=True, allow_nan=False)`. -/
def storedJson (v : Json) : Except PyExc Str := orRaise .valueError (v.dumps platform.floats .default)

/-- The row `AuthorizationDecisionRepository.insert` writes. The context is stored without a
`model_dump`. -/
def decisionRow (a : AuthorizationResponse) : Except PyExc DecisionRow := do
  let evidenceJson ← match a.evidence with
    | none => Except.ok none
    | some evidence => do
      let dumped ← evidence.dump
      (storedJson platform dumped).map some
  let contextJson ← storedJson platform a.context.json
  let trace ← a.trace.mapM (·.dump)
  let traceJson ← storedJson platform (.arr trace)
  return ⟨a.decisionId.str, a.projectId.str, a.evaluatedAt.isoformat, a.decision.text, a.policy,
    a.policyVersion, a.reason, evidenceJson, traceJson, a.agent, a.action, contextJson⟩

/-- `json.loads`, with the exceptions it raises. -/
def loadJson (text : Str) : Except PyExc Json :=
  match Json.loads platform.floats text with
  | .ok v => .ok v
  | .error .decode => .error .jsonDecodeError
  | .error .intDigits => .error .valueError

end

private def isConditionsText : Json → Bool
  | .str s => s = ofString "conditions"
  | _ => false

/-- Evidence of the old form, one condition by itself, becomes a list of one matched condition.
`"conditions" in evidence` also holds of a text that contains the word and of a list with the
word as an item; neither that test nor `{**evidence}` works on other values. -/
def upgradeEvidence : Json → Except PyExc Json
  | .null => .ok .null
  | .obj fields =>
    if (Json.lookup "conditions" fields).isSome then .ok (.obj fields)
    else .ok (.obj [("match", .str "all"),
      ("conditions", .arr [.obj (Json.assign "matched" (.bool true) fields)])])
  | .arr items => if items.any isConditionsText then .ok (.arr items) else .error .typeError
  | .str s => if ofString "conditions" <:+: s then .ok (.str s) else .error .typeError
  | _ => .error .typeError

/-- The dictionary a row is validated from. -/
def rowFields (row : DecisionRow) (evidence trace context : Json) : Json :=
  .obj [("decision_id", .str row.decisionId), ("project_id", .str row.projectId),
    ("evaluated_at", .str row.evaluatedAt), ("decision", .str row.decision),
    ("policy", dumpOptional .str row.policyId),
    ("policy_version", dumpOptional .int row.policyVersion), ("reason", .str row.reason),
    ("evidence", evidence), ("trace", trace), ("agent", .str row.agent),
    ("action", .str row.action), ("context", context)]

/-- `_row_to_authorization`. -/
def rowToAuthorization (platform : Platform) (row : DecisionRow) :
    Except PyExc AuthorizationResponse := do
  let loaded ← match row.evidenceJson with
    | none => Except.ok .null
    | some text => loadJson platform text
  let evidence ← upgradeEvidence loaded
  let trace ← loadJson platform row.traceJson
  let context ← loadJson platform row.contextJson
  orRaise .validationError
    (AuthorizationResponse.validate platform (rowFields row evidence trace context))

end DecAustrum
