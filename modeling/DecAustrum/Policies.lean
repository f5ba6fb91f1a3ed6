import DecAustrum.EvidenceModels

/-!
# Policies and requests

The policies of a project and the request an agent sends.
-/
namespace DecAustrum

open Python

/-- Stripped text with a character in it. -/
structure NonEmptyString where
  text : Str
  stripped : strip text = text
  nonempty : 1 ≤ text.length
  encodable : text.any isSurrogate = false

theorem NonEmptyString.ext (s t : NonEmptyString) (same : s.text = t.text) : s = t := by
  cases s
  cases t
  cases same
  rfl

instance : DecidableEq NonEmptyString := fun s t =>
  decidable_of_iff (s.text = t.text) ⟨NonEmptyString.ext s t, congrArg _⟩

structure AuthorizationRequest where
  agent : NonEmptyString
  action : NonEmptyString
  context : StrictObject

def AuthorizationRequest.dumped (r : AuthorizationRequest) : Json :=
  .obj [("agent", .str r.agent.text), ("action", .str r.action.text), ("context", r.context.dumped)]

def AuthorizationRequest.dump (r : AuthorizationRequest) : Except PyExc Json := do
  let _ ← r.context.dump
  return r.dumped

theorem AuthorizationRequest.dump_eq_ok (r : AuthorizationRequest) (v : Json) :
    r.dump = .ok v ↔ r.context.Dumpable ∧ v = r.dumped := by
  simp only [dump, bind_eq_ok, StrictObject.dump_eq_ok, pure, Except.pure, Except.ok.injEq]
  constructor
  · rintro ⟨_, ⟨dumpable, -⟩, rfl⟩
    exact ⟨dumpable, rfl⟩
  · rintro ⟨dumpable, rfl⟩
    exact ⟨_, ⟨dumpable, rfl⟩, rfl⟩

structure PolicyCondition where
  field : Str
  operator : Operator
  value : StrictJson

structure Policy where
  id : Str
  version : Int
  action : Str
  matchMode : ConditionMatch
  conditions : List PolicyCondition
  decision : Decision
  reason : Str
  positive : 1 ≤ version
  conditional : 1 ≤ conditions.length

def PolicyCondition.dumped (c : PolicyCondition) : Json :=
  .obj [("field", .str c.field), ("operator", .str c.operator.text), ("value", c.value.json)]

def Policy.dumped (p : Policy) : Json :=
  .obj [("id", .str p.id), ("version", .int p.version), ("action", .str p.action),
    ("match", .str p.matchMode.text), ("conditions", .arr (p.conditions.map (·.dumped))),
    ("decision", .str p.decision.text), ("reason", .str p.reason)]

def Policy.dump (p : Policy) : Except PyExc Json := do
  let _ ← p.conditions.mapM fun c => serializeAny c.value.json
  return p.dumped

structure PolicyEvaluation where
  decision : Decision
  policyId : Option Str
  policyVersion : Option Int
  reason : Str
  evidence : Option PolicyEvidence
  trace : List PolicyTraceEntry

end DecAustrum
