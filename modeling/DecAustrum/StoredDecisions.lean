import DecAustrum.ModelRoundTrip
import DecAustrum.Python.JsonStrings
import DecAustrum.Storage.Decisions

/-!
# Stored decisions

A decision whose payload has a digest is read back from its row unchanged. The digest is
needed: the escapes of a table cannot tell two surrogates from the character they spell,
and a payload with surrogates has no digest.
-/
namespace DecAustrum

open Python

variable {platform : Platform}

/-! ## Strings of a hashed payload -/

theorem scalar_of_digest (v : Json) (hash : Str) (hashed : digest platform v = .ok hash) :
    ∀ s ∈ v.strings, ∀ c ∈ s, isSurrogate c = false := by
  obtain ⟨-, bytes, encoded, -⟩ := (digest_eq_ok_iff platform v hash).mp hashed
  intro s member
  exact Json.scalar_of_encodes platform.floats v.sortKeys bytes encoded s
    ((Json.mem_strings_sortKeys s v).mpr member)

/-- The members of a dictionary have their strings among its own. -/
theorem strings_of_member (fields : List (Str × Json)) (key : Str) (v : Json)
    (member : (key, v) ∈ fields) : ∀ s ∈ v.strings, s ∈ (Json.obj fields).strings := by
  intro s inside
  rw [Json.strings, Json.mem_stringsFields]
  exact ⟨(key, v), member, .inr inside⟩

theorem readable_of_payload (a : AuthorizationResponse) (hash : Str)
    (hashed : digest platform a.payload = .ok hash) :
    Json.Readable true (dumpOptional PolicyEvidence.dumped a.evidence) ∧
      Json.Readable true a.context.dumped ∧ Json.Readable true (.arr (a.trace.map (·.dumped))) := by
  have scalar := scalar_of_digest _ hash hashed
  rw [a.payload_eq_dumped] at scalar
  have part (key : Str) (v : Json) (member : a.dumped.get? key = some v) : Json.Readable true v := by
    intro s inside _ c present
    refine scalar s (strings_of_member _ key v ?_ s inside) c present
    simp only [AuthorizationResponse.dumped, Json.get?, Json.lookup, Option.map_eq_some_iff] at member
    obtain ⟨field, found, rfl⟩ := member
    have named := List.find?_some found
    simp only [decide_eq_true_eq] at named
    exact named ▸ List.mem_of_find?_eq_some found
  exact ⟨part "evidence" _ rfl, part "context" _ rfl, part "trace" _ rfl⟩

/-! ## The stored context -/

/-- The object read back from its column. -/
def StrictObject.stored (c : StrictObject) : StrictObject where
  fields := Json.sortKeysFields (Json.toDict (Json.toDictsFields
    (Json.rereadFields true (c.fields.insertionSort Json.keyLe))))
  unique := by
    rw [Json.uniqueKeys_sortKeysFields]
    exact Json.uniqueKeys_toDicts (.obj _)
  encodable := by
    rw [Json.encodable_sortKeysFields]
    apply Json.encodable_toDicts (.obj _)
    exact (Json.encodable_reread true (.obj _)).trans c.canonical.encodable
  sorted := Json.sortKeysFields_sortKeysFields _

theorem StrictObject.validate_stored (c : StrictObject) :
    StrictObject.validate (c.json.reread true).toDicts = some c.stored := by
  rw [c.json_eq, Json.reread, Json.toDicts, StrictObject.validate]
  refine dif_pos ⟨Json.uniqueKeys_toDicts (.obj _), ?_⟩
  apply Json.encodable_toDicts (.obj _)
  exact (Json.encodable_reread true (.obj _)).trans c.canonical.encodable

/-- An object whose strings survive their escapes is read back with its keys in order. -/
theorem StrictObject.stored_eq_canonical (c : StrictObject) (readable : Json.Readable true c.json) :
    c.stored = c.canonical := by
  have validated := c.validate_stored
  rw [Json.reread_of_readable true _ readable, Json.toDicts_of_uniqueKeys c.json c.value.unique,
    c.validate_json] at validated
  exact (Option.some.inj validated).symm

/-- A context under keys that are written as they are is dumped alike in key order. -/
theorem StrictObject.canonical_dumped (c : StrictObject) (scalar : c.ScalarKeys) :
    c.canonical.dumped = c.dumped := by
  rw [c.dumped_eq_json_iff.mpr scalar,
    c.canonical.dumped_eq_json_iff.mpr (c.canonical_scalarKeys.mpr scalar), canonical_json]

theorem AuthorizationResponse.canonical_dumped (a : AuthorizationResponse)
    (scalar : a.context.ScalarKeys) : a.canonical.dumped = a.dumped := by
  simp only [dumped, canonical, a.context.canonical_dumped scalar]

theorem AuthorizationResponse.canonical_dumpable (a : AuthorizationResponse)
    (dumpable : a.Dumpable) : a.canonical.Dumpable :=
  ⟨dumpable.evidence, a.context.canonical_dumpable.mpr dumpable.context, dumpable.trace⟩

theorem payloadHash_canonical (a : AuthorizationResponse) (dumpable : a.Dumpable)
    (scalar : a.context.ScalarKeys) :
    calculateAuthorizationPayloadHash platform a.canonical =
      calculateAuthorizationPayloadHash platform a := by
  have payload : a.canonical.payload = a.payload := a.canonical_dumped scalar
  rw [calculateAuthorizationPayloadHash, calculateAuthorizationPayloadHash,
    (authorizationPayloadV1_eq_ok a _).mpr ⟨dumpable, rfl⟩,
    (authorizationPayloadV1_eq_ok a.canonical _).mpr ⟨a.canonical_dumpable dumpable, rfl⟩, payload]

/-- The object read back from its column is dumped as the object itself is. -/
def StrictObject.Redumps (c : StrictObject) : Prop := ∀ v, c.dump = .ok v → c.stored.dump = .ok v

theorem StrictObject.redumps_of_readable (c : StrictObject) (readable : Json.Readable true c.json)
    (scalar : c.ScalarKeys) : c.Redumps := by
  intro v dumped
  obtain ⟨dumpable, rfl⟩ := (c.dump_eq_ok v).mp dumped
  rw [c.stored_eq_canonical readable, dump_eq_ok, canonical_dumpable, c.canonical_dumped scalar]
  exact ⟨dumpable, rfl⟩

/-- The decision read back from its row. -/
def AuthorizationResponse.stored (a : AuthorizationResponse) : AuthorizationResponse :=
  { a with context := a.context.stored }

/-- A decision whose context is dumped alike from its column keeps its payload hash. -/
theorem payloadHash_stored (a : AuthorizationResponse) (redumps : a.context.Redumps) (hash : Str)
    (hashed : calculateAuthorizationPayloadHash platform a = .ok hash) :
    calculateAuthorizationPayloadHash platform a.stored = .ok hash := by
  rw [payloadHash_eq_ok] at hashed ⊢
  obtain ⟨dumpable, hashed⟩ := hashed
  have dumped := (a.context.dump_eq_ok _).mpr ⟨dumpable.context, rfl⟩
  obtain ⟨context, same⟩ := (a.context.stored.dump_eq_ok _).mp (redumps _ dumped)
  have payload : a.stored.payload = a.payload := by
    simp only [AuthorizationResponse.payload, AuthorizationResponse.stored, ← same]
  rw [payload]
  exact ⟨⟨dumpable.evidence, context, dumpable.trace⟩, hashed⟩

/-! ## Loading what was stored -/

theorem loadJson_storedJson_reread (lawful : platform.Lawful) (v : Json) (s : Str)
    (stored : storedJson platform v = .ok s) :
    loadJson platform s = .ok (v.sortKeys.reread true).toDicts := by
  rw [storedJson, orRaise_eq_ok] at stored
  have loaded := Json.loads_dumps_reread platform.floats .default lawful.floats
    Style.default_lawful v s [] (by simp) stored
  rw [List.append_nil] at loaded
  rw [loadJson, loaded]
  rfl

theorem loadJson_storedJson (lawful : platform.Lawful) (v : Json) (s : Str)
    (unique : v.uniqueKeys = true) (readable : Json.Readable true v)
    (stored : storedJson platform v = .ok s) : loadJson platform s = .ok v.sortKeys := by
  rw [storedJson, orRaise_eq_ok] at stored
  have loaded := Json.loads_dumps platform.floats .default lawful.floats Style.default_lawful v s
    unique readable stored
  rw [loadJson, loaded]

theorem upgradeEvidence_dumped (e : PolicyEvidence) :
    upgradeEvidence e.dumped.sortKeys = .ok e.dumped.sortKeys := by
  have found := Json.get?_sortKeys "conditions" e.dumped e.dumped_unique
  have form : ∃ fields, e.dumped.sortKeys = .obj fields := ⟨_, rfl⟩
  obtain ⟨fields, sorted⟩ := form
  rw [sorted] at found ⊢
  have present : Json.lookup "conditions" fields =
      some (Json.arr (e.conditions.map (·.dumped))).sortKeys := found
  rw [upgradeEvidence, present]
  rfl

theorem requiredField_found {α : Type} (key : Str) (read : Json → Option α) (v w : Json) (a : α)
    (found : v.get? key = some w) (reads : read w = some a) : requiredField key read v = some a := by
  rw [requiredField, found]
  exact reads

private theorem readOptional_str (value : Option Str) :
    readOptional readStr (dumpOptional .str value) = some value := by
  cases value <;> rfl

private theorem readOptional_int (lawful : platform.Lawful) (value : Option Int) :
    readOptional platform.readInt (dumpOptional .int value) = some value := by
  cases value with
  | none => rfl
  | some n => simp [readOptional, dumpOptional, lawful.readInt_int]

private theorem validate_fields (lawful : platform.Lawful) (a : AuthorizationResponse) (v : Json)
    (decisionId : v.get? "decision_id" = some (.str a.decisionId.str))
    (projectId : v.get? "project_id" = some (.str a.projectId.str))
    (evaluatedAt : v.get? "evaluated_at" = some (.str a.evaluatedAt.isoformat))
    (decision : v.get? "decision" = some (.str a.decision.text))
    (policy : v.get? "policy" = some (dumpOptional .str a.policy))
    (policyVersion : v.get? "policy_version" = some (dumpOptional .int a.policyVersion))
    (reason : v.get? "reason" = some (.str a.reason))
    (evidence : v.get? "evidence" = some (dumpOptional PolicyEvidence.dumped a.evidence).sortKeys)
    (agent : v.get? "agent" = some (.str a.agent)) (action : v.get? "action" = some (.str a.action))
    (context : v.get? "context" = some (a.context.json.reread true).toDicts)
    (trace : v.get? "trace" = some (Json.arr (a.trace.map (·.dumped))).sortKeys) :
    AuthorizationResponse.validate platform v = some a.stored := by
  simp only [AuthorizationResponse.validate,
    requiredField_found _ platform.readUuid v _ a.decisionId decisionId (lawful.readUuid_str _),
    requiredField_found _ platform.readUuid v _ a.projectId projectId (lawful.readUuid_str _),
    requiredField_found _ platform.readDatetime v _ a.evaluatedAt evaluatedAt
      (lawful.readDatetime_isoformat _),
    requiredField_found _ readDecision v _ a.decision decision (readDecision_text _),
    requiredField_found _ (readOptional readStr) v _ a.policy policy (readOptional_str _),
    requiredField_found _ (readOptional platform.readInt) v _ a.policyVersion policyVersion
      (readOptional_int lawful _),
    requiredField_found _ readStr v _ a.reason reason rfl,
    requiredField_found _ (readOptional (PolicyEvidence.validate platform)) v _ a.evidence evidence
      (readEvidence_dump lawful _),
    requiredField_found _ readStr v _ a.agent agent rfl,
    requiredField_found _ readStr v _ a.action action rfl,
    requiredField_found _ StrictObject.validate v _ a.context.stored context
      a.context.validate_stored,
    requiredField_found _ (readList (PolicyTraceEntry.validate platform)) v _ a.trace trace
      (readTrace_dump lawful _)]
  rfl

/-- The texts of evidence, trace and context among the columns of a decision. -/
def storedRow (a : AuthorizationResponse) (evidenceJson : Option Str) (traceJson contextJson : Str) :
    DecisionRow :=
  ⟨a.decisionId.str, a.projectId.str, a.evaluatedAt.isoformat, a.decision.text, a.policy,
    a.policyVersion, a.reason, evidenceJson, traceJson, a.agent, a.action, contextJson⟩

theorem decisionRow_spec (a : AuthorizationResponse) (row : DecisionRow)
    (written : decisionRow platform a = .ok row) :
    ∃ evidenceJson traceJson contextJson, row = storedRow a evidenceJson traceJson contextJson ∧
      (∀ e, a.evidence = some e → ∃ text, storedJson platform e.dumped = .ok text ∧
        evidenceJson = some text) ∧
      (a.evidence = none → evidenceJson = none) ∧
      storedJson platform (.arr (a.trace.map (·.dumped))) = .ok traceJson ∧
      storedJson platform a.context.json = .ok contextJson := by
  unfold decisionRow at written
  cases present : a.evidence with
  | none =>
    simp only [present, bind_eq_ok, mapM_eq_map_iff PolicyTraceEntry.dump_eq_ok, pure, Except.pure,
      Except.ok.injEq] at written
    obtain ⟨_, rfl, contextJson, context, _, ⟨-, rfl⟩, traceJson, trace, isRow⟩ := written
    exact ⟨none, traceJson, contextJson, isRow.symm, by simp, by simp, trace, context⟩
  | some e =>
    simp only [present, bind_eq_ok, mapM_eq_map_iff PolicyTraceEntry.dump_eq_ok,
      PolicyEvidence.dump_eq_ok, pure, Except.pure, Except.ok.injEq] at written
    obtain ⟨_, ⟨-, rfl⟩, evidenceJson, stored, contextJson, context, _, ⟨-, rfl⟩, traceJson, trace,
      isRow⟩ := written
    cases text : storedJson platform e.dumped with
    | error exc =>
      rw [text] at stored
      cases stored
    | ok evidenceText =>
      rw [text] at stored
      cases stored
      refine ⟨some evidenceText, traceJson, contextJson, isRow.symm, ?_, by simp, trace, context⟩
      rintro f same
      cases same
      exact ⟨evidenceText, text, rfl⟩

/-- The row of a decision with a digest is read back, with the context of its column. -/
theorem rowToAuthorization_decisionRow (lawful : platform.Lawful) (a : AuthorizationResponse)
    (row : DecisionRow) (hash : Str) (written : decisionRow platform a = .ok row)
    (hashed : digest platform a.payload = .ok hash) :
    rowToAuthorization platform row = .ok a.stored := by
  obtain ⟨evidenceReadable, -, traceReadable⟩ := readable_of_payload a hash hashed
  obtain ⟨evidenceJson, traceJson, contextJson, rfl, stored, absent, traceStored, contextStored⟩ :=
    decisionRow_spec a row written
  have context := loadJson_storedJson_reread lawful _ _ contextStored
  rw [StrictObject.json, a.context.value.sorted] at context
  have trace := loadJson_storedJson lawful _ _
    (uniqueKeys_list _ PolicyTraceEntry.dumped_unique a.trace) traceReadable traceStored
  have valid := validate_fields lawful a (rowFields (storedRow a evidenceJson traceJson contextJson)
    (dumpOptional PolicyEvidence.dumped a.evidence).sortKeys
    (Json.arr (a.trace.map (·.dumped))).sortKeys (a.context.json.reread true).toDicts)
    rfl rfl rfl rfl rfl rfl rfl rfl rfl rfl rfl rfl
  cases present : a.evidence with
  | none =>
    rw [present] at valid
    change AuthorizationResponse.validate platform (rowFields _ .null _ _) = _ at valid
    simp only [rowToAuthorization, storedRow, absent present, upgradeEvidence, context, trace, bind,
      Except.bind, orRaise_eq_ok] at valid ⊢
    exact valid
  | some e =>
    obtain ⟨text, evidenceStored, rfl⟩ := stored e present
    rw [present] at valid evidenceReadable
    have loaded := loadJson_storedJson lawful e.dumped text e.dumped_unique evidenceReadable
      evidenceStored
    simp only [dumpOptional] at valid
    simp only [rowToAuthorization, storedRow, loaded, upgradeEvidence_dumped, context, trace, bind,
      Except.bind, orRaise_eq_ok] at valid ⊢
    exact valid

/-! ## The columns of a row -/

private theorem requiredField_present {α : Type} (key : Str) (read : Json → Option α) (v w : Json)
    (a : α) (present : v.get? key = some w) (required : requiredField key read v = some a) :
    read w = some a := by
  rw [requiredField, present] at required
  exact required

private theorem rowToAuthorization_valid (row : DecisionRow) (a : AuthorizationResponse)
    (rebuilt : rowToAuthorization platform row = .ok a) : ∃ evidence trace context,
      AuthorizationResponse.validate platform (rowFields row evidence trace context) = some a := by
  unfold rowToAuthorization at rebuilt
  cases evidenceJson : row.evidenceJson with
  | none =>
    simp only [evidenceJson, bind_eq_ok, orRaise_eq_ok] at rebuilt
    obtain ⟨_, _, _, _, _, _, _, _, valid⟩ := rebuilt
    exact ⟨_, _, _, valid⟩
  | some text =>
    simp only [evidenceJson, bind_eq_ok, orRaise_eq_ok] at rebuilt
    obtain ⟨_, _, _, _, _, _, _, _, valid⟩ := rebuilt
    exact ⟨_, _, _, valid⟩

/-- What a decision holds of the columns that name it. -/
structure ReadsFrom (platform : Platform) (row : DecisionRow) (a : AuthorizationResponse) : Prop where
  decisionId : platform.readUuid (.str row.decisionId) = some a.decisionId
  projectId : platform.readUuid (.str row.projectId) = some a.projectId
  evaluatedAt : platform.readDatetime (.str row.evaluatedAt) = some a.evaluatedAt

theorem rowToAuthorization_reads (row : DecisionRow) (a : AuthorizationResponse)
    (rebuilt : rowToAuthorization platform row = .ok a) : ReadsFrom platform row a := by
  obtain ⟨evidence, trace, context, valid⟩ := rowToAuthorization_valid row a rebuilt
  simp only [AuthorizationResponse.validate, Option.bind_eq_bind, Option.bind_eq_some_iff,
    Option.pure_def, Option.some.injEq] at valid
  obtain ⟨decisionId, readId, projectId, readProject, evaluatedAt, readTime, _, _, _, _, _, _, _, _,
    _, _, _, _, _, _, _, _, _, _, rfl⟩ := valid
  exact ⟨requiredField_present _ _ _ _ _ rfl readId, requiredField_present _ _ _ _ _ rfl readProject,
    requiredField_present _ _ _ _ _ rfl readTime⟩

/-- What a decision holds of the columns that are texts. -/
structure TextColumns (row : DecisionRow) (a : AuthorizationResponse) : Prop where
  decision : row.decision = a.decision.text
  policyId : row.policyId = a.policy
  reason : row.reason = a.reason
  agent : row.agent = a.agent
  action : row.action = a.action

private theorem readDecision_eq_some (s : Str) (d : Decision) (read : readDecision (.str s) = some d) :
    s = d.text := by
  have named := List.find?_some read
  exact (of_decide_eq_true named).symm

private theorem readOptional_str_eq_some (value read : Option Str)
    (done : readOptional readStr (dumpOptional .str value) = some read) : value = read := by
  rw [readOptional_str] at done
  exact Option.some.inj done

theorem rowToAuthorization_texts (row : DecisionRow) (a : AuthorizationResponse)
    (rebuilt : rowToAuthorization platform row = .ok a) : TextColumns row a := by
  obtain ⟨evidence, trace, context, valid⟩ := rowToAuthorization_valid row a rebuilt
  simp only [AuthorizationResponse.validate, Option.bind_eq_bind, Option.bind_eq_some_iff,
    Option.pure_def, Option.some.injEq] at valid
  obtain ⟨_, _, _, _, _, _, decision, decisionRead, policy, policyRead, _, _, reason, reasonRead, _,
    _, agent, agentRead, action, actionRead, _, _, _, _, rfl⟩ := valid
  have text {key column value : Str} {v : Json} (required : requiredField key readStr v = some value)
      (present : v.get? key = some (.str column)) : column = value :=
    Option.some.inj (requiredField_present _ _ _ _ _ present required)
  exact
    { decision := readDecision_eq_some _ _ (requiredField_present _ _ _ _ _ rfl decisionRead)
      policyId := readOptional_str_eq_some _ _ (requiredField_present _ _ _ _ _ rfl policyRead)
      reason := text reasonRead rfl
      agent := text agentRead rfl
      action := text actionRead rfl }

end DecAustrum
