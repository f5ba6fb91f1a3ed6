import DecAustrum.EvidenceModels

/-!
# Reading back what a record dumps

Every record is read back from its dump with the keys in order, which is how the dump
returns from a table or an archive.
-/
namespace DecAustrum

open Python

/-! ## Fields -/

theorem requiredField_sorted {α : Type} (key : Str) (read : Json → Option α) (v w : Json) (a : α)
    (unique : v.uniqueKeys = true) (found : v.get? key = some w)
    (reads : read w.sortKeys = some a) : requiredField key read v.sortKeys = some a := by
  rw [requiredField, Json.get?_sortKeys key v unique, found]
  exact reads

theorem defaultField_sorted {α : Type} (key : Str) (default : α) (read : Json → Option α)
    (v w : Json) (a : α) (unique : v.uniqueKeys = true) (found : v.get? key = some w)
    (reads : read w.sortKeys = some a) : defaultField key default read v.sortKeys = some a := by
  rw [defaultField, Json.get?_sortKeys key v unique, found]
  exact reads

theorem raisingField_sorted {α : Type} (key : Str) (missing : Option α)
    (read : Json → Except PyExc (Option α)) (v w : Json) (a : α) (unique : v.uniqueKeys = true)
    (found : v.get? key = some w) (reads : read w.sortKeys = .ok (some a)) :
    raisingField key missing read v.sortKeys = .ok (some a) := by
  rw [raisingField, Json.get?_sortKeys key v unique, found]
  exact reads

theorem readOptional_dump {α : Type} (read : Json → Option α) (dump : α → Json)
    (reads : ∀ a, read (dump a).sortKeys = some a) (solid : ∀ a, (dump a).sortKeys ≠ .null)
    (value : Option α) : readOptional read (dumpOptional dump value).sortKeys = some value := by
  cases value with
  | none => rfl
  | some a =>
    have read_ := reads a
    have notNull := solid a
    change readOptional read (dump a).sortKeys = some (some a)
    cases form : (dump a).sortKeys with
    | null => exact absurd form notNull
    | _ =>
      rw [form] at read_
      simp [readOptional, read_]

/-- The elements of a list are read back as `g` of each. -/
theorem readList_written {α β : Type} {g : α → β} (read : Json → Option β) (dump : α → Json)
    (reads : ∀ a, read (dump a).sortKeys = some (g a)) (values : List α) :
    readList read (Json.arr (values.map dump)).sortKeys = some (values.map g) := by
  rw [Json.sortKeys, Json.sortKeysItems_eq, readList]
  induction values with
  | nil => rfl
  | cons a values ih =>
    rw [List.map_cons, List.map_cons, List.mapM_cons, reads a, ih]
    rfl

theorem readList_dump {α : Type} (read : Json → Option α) (dump : α → Json)
    (reads : ∀ a, read (dump a).sortKeys = some a) (values : List α) :
    readList read (Json.arr (values.map dump)).sortKeys = some values := by
  rw [readList_written read dump reads, List.map_id' values]

theorem uniqueKeys_list {α : Type} (dump : α → Json) (unique : ∀ a, (dump a).uniqueKeys = true)
    (values : List α) : (Json.arr (values.map dump)).uniqueKeys = true := by
  rw [Json.uniqueKeys, Json.uniqueKeysItems_iff]
  simpa using fun a _ => unique a

theorem uniqueKeys_optional {α : Type} (dump : α → Json) (unique : ∀ a, (dump a).uniqueKeys = true)
    (value : Option α) : (dumpOptional dump value).uniqueKeys = true := by
  cases value with
  | none => rfl
  | some a => exact unique a

/-- A dictionary has distinct keys when its own keys and its values' keys are distinct. -/
theorem uniqueKeys_obj (fields : List (Str × Json)) (distinct : (fields.map Prod.fst).Nodup)
    (unique : ∀ field ∈ fields, field.2.uniqueKeys = true) :
    (Json.obj fields).uniqueKeys = true := by
  rw [Json.uniqueKeys, Bool.and_eq_true, Json.uniqueKeysFields_iff]
  exact ⟨decide_eq_true distinct, unique⟩

/-! ## Decisions -/

theorem ConditionEvidence.dumped_unique (c : ConditionEvidence) : c.dumped.uniqueKeys = true := by
  refine uniqueKeys_obj _ (by simp only [List.map_cons, List.map_nil]; decide) ?_
  simp [Json.uniqueKeys, c.actualValue.unique, c.expectedValue.unique]

theorem PolicyEvidence.dumped_unique (e : PolicyEvidence) : e.dumped.uniqueKeys = true := by
  refine uniqueKeys_obj _ (by simp only [List.map_cons, List.map_nil]; decide) ?_
  have conditions := uniqueKeys_list ConditionEvidence.dumped ConditionEvidence.dumped_unique e.conditions
  simp only [List.mem_cons, List.not_mem_nil, or_false, forall_eq_or_imp, forall_eq]
  exact ⟨rfl, conditions⟩

theorem PolicyTraceEntry.dumped_unique (t : PolicyTraceEntry) : t.dumped.uniqueKeys = true := by
  refine uniqueKeys_obj _ (by simp only [List.map_cons, List.map_nil]; decide) ?_
  simp [Json.uniqueKeys, t.evidence.dumped_unique]

theorem AuthorizationResponse.dumped_unique (a : AuthorizationResponse) : a.dumped.uniqueKeys = true := by
  refine uniqueKeys_obj _ (by simp only [List.map_cons, List.map_nil]; decide) ?_
  simp only [List.mem_cons, List.not_mem_nil, or_false, forall_eq_or_imp, forall_eq]
  exact ⟨rfl, rfl, rfl, rfl, uniqueKeys_optional _ (fun _ => rfl) a.policy,
    uniqueKeys_optional _ (fun _ => rfl) a.policyVersion, rfl,
    uniqueKeys_optional _ PolicyEvidence.dumped_unique a.evidence, rfl, rfl, a.context.dumped_unique,
    uniqueKeys_list _ PolicyTraceEntry.dumped_unique a.trace⟩

section

variable {platform : Platform} (lawful : platform.Lawful)

include lawful

theorem ConditionEvidence.validate_dumped (c : ConditionEvidence) :
    ConditionEvidence.validate platform c.dumped.sortKeys = some c := by
  have unique := c.dumped_unique
  have value (v : StrictJson) : StrictJson.validate v.json.sortKeys = some v := by
    rw [v.sorted, v.validate_json]
  simp only [ConditionEvidence.validate,
    requiredField_sorted "field" readStr c.dumped _ c.field unique rfl rfl,
    requiredField_sorted "operator" readOperator c.dumped _ c.operator unique rfl
      (readOperator_text _),
    requiredField_sorted "actual_value" StrictJson.validate c.dumped _ c.actualValue unique rfl
      (value _),
    requiredField_sorted "expected_value" StrictJson.validate c.dumped _ c.expectedValue unique rfl
      (value _),
    requiredField_sorted "matched" platform.readBool c.dumped _ c.matched unique rfl
      (lawful.readBool_bool _)]
  rfl

theorem PolicyEvidence.validate_dumped (e : PolicyEvidence) :
    PolicyEvidence.validate platform e.dumped.sortKeys = some e := by
  have unique := e.dumped_unique
  simp only [PolicyEvidence.validate,
    requiredField_sorted "match" readConditionMatch e.dumped _ e.matchMode unique rfl
      (readConditionMatch_text _),
    requiredField_sorted "conditions" (readList (ConditionEvidence.validate platform)) e.dumped _
      e.conditions unique rfl
      (readList_dump _ _ (ConditionEvidence.validate_dumped lawful) e.conditions)]
  rfl

theorem PolicyTraceEntry.validate_dumped (t : PolicyTraceEntry) :
    PolicyTraceEntry.validate platform t.dumped.sortKeys = some t := by
  have unique := t.dumped_unique
  simp only [PolicyTraceEntry.validate,
    requiredField_sorted "policy_id" readStr t.dumped _ t.policyId unique rfl rfl,
    requiredField_sorted "policy_version" platform.readInt t.dumped _ t.policyVersion unique rfl
      (lawful.readInt_int _),
    requiredField_sorted "decision" readDecision t.dumped _ t.decision unique rfl
      (readDecision_text _),
    requiredField_sorted "reason" readStr t.dumped _ t.reason unique rfl rfl,
    requiredField_sorted "matched" platform.readBool t.dumped _ t.matched unique rfl
      (lawful.readBool_bool _),
    requiredField_sorted "evidence" (PolicyEvidence.validate platform) t.dumped _ t.evidence unique rfl
      (PolicyEvidence.validate_dumped lawful _)]
  rfl

omit lawful in
private theorem evidence_solid (e : PolicyEvidence) : e.dumped.sortKeys ≠ .null := by
  simp [PolicyEvidence.dumped, Json.sortKeys]

theorem readEvidence_dump (evidence : Option PolicyEvidence) :
    readOptional (PolicyEvidence.validate platform)
      (dumpOptional PolicyEvidence.dumped evidence).sortKeys = some evidence :=
  readOptional_dump _ _ (PolicyEvidence.validate_dumped lawful) evidence_solid evidence

theorem readTrace_dump (trace : List PolicyTraceEntry) :
    readList (PolicyTraceEntry.validate platform) (Json.arr (trace.map (·.dumped))).sortKeys =
      some trace :=
  readList_dump _ _ (PolicyTraceEntry.validate_dumped lawful) trace

theorem AuthorizationResponse.validate_dumped (a : AuthorizationResponse) :
    AuthorizationResponse.validate platform a.dumped.sortKeys = some a.written := by
  have unique := a.dumped_unique
  simp only [AuthorizationResponse.validate,
    requiredField_sorted "decision_id" platform.readUuid a.dumped _ a.decisionId unique rfl
      (lawful.readUuid_str _),
    requiredField_sorted "project_id" platform.readUuid a.dumped _ a.projectId unique rfl
      (lawful.readUuid_str _),
    requiredField_sorted "evaluated_at" platform.readDatetime a.dumped _ a.evaluatedAt unique rfl
      (lawful.readDatetime_json _),
    requiredField_sorted "decision" readDecision a.dumped _ a.decision unique rfl
      (readDecision_text _),
    requiredField_sorted "policy" (readOptional readStr) a.dumped _ a.policy unique rfl
      (readOptional_dump readStr .str (fun _ => rfl) (by simp [Json.sortKeys]) _),
    requiredField_sorted "policy_version" (readOptional platform.readInt) a.dumped _ a.policyVersion
      unique rfl (readOptional_dump platform.readInt .int lawful.readInt_int
        (by simp [Json.sortKeys]) _),
    requiredField_sorted "reason" readStr a.dumped _ a.reason unique rfl rfl,
    requiredField_sorted "evidence" (readOptional (PolicyEvidence.validate platform)) a.dumped _
      a.evidence unique rfl (readEvidence_dump lawful _),
    requiredField_sorted "agent" readStr a.dumped _ a.agent unique rfl rfl,
    requiredField_sorted "action" readStr a.dumped _ a.action unique rfl rfl,
    requiredField_sorted "context" StrictObject.validate a.dumped _ a.context.written unique
      rfl (by rw [StrictObject.dumped_sorted, StrictObject.validate_dumped]),
    requiredField_sorted "trace" (readList (PolicyTraceEntry.validate platform)) a.dumped _ a.trace
      unique rfl (readTrace_dump lawful _)]
  rfl

/-! ## Evidence bundles -/

omit lawful in
theorem DecisionIntegrityProof.dump_unique (p : DecisionIntegrityProof) : p.dump.uniqueKeys = true := by
  refine uniqueKeys_obj _ (by simp only [List.map_cons, List.map_nil]; decide) ?_
  simp only [List.mem_cons, List.not_mem_nil, or_false, forall_eq_or_imp, forall_eq]
  exact ⟨rfl, rfl, rfl, uniqueKeys_optional _ (fun _ => rfl) p.previousHash, rfl, rfl, rfl, rfl, rfl⟩

omit lawful in
theorem VerifiableDecisionRecord.dumped_unique (r : VerifiableDecisionRecord) :
    r.dumped.uniqueKeys = true := by
  refine uniqueKeys_obj _ (by simp only [List.map_cons, List.map_nil]; decide) ?_
  simp only [List.mem_cons, List.not_mem_nil, or_false, forall_eq_or_imp, forall_eq]
  exact ⟨r.decision.dumped_unique, r.integrity.dump_unique⟩

omit lawful in
theorem DecisionSearchFilters.dump_unique (f : DecisionSearchFilters) : f.dump.uniqueKeys = true := by
  refine uniqueKeys_obj _ (by simp only [List.map_cons, List.map_nil]; decide) ?_
  simp only [List.mem_cons, List.not_mem_nil, or_false, forall_eq_or_imp, forall_eq]
  exact ⟨uniqueKeys_optional _ (fun _ => rfl) _, uniqueKeys_optional _ (fun _ => rfl) _,
    uniqueKeys_optional _ (fun _ => rfl) _, uniqueKeys_optional _ (fun _ => rfl) _,
    uniqueKeys_optional _ (fun _ => rfl) _, uniqueKeys_optional _ (fun _ => rfl) _,
    uniqueKeys_optional _ (fun _ => rfl) _, uniqueKeys_optional _ (fun _ => rfl) _,
    uniqueKeys_optional _ (fun _ => rfl) _, rfl⟩

omit lawful in
theorem EvidenceBundleManifest.dump_unique (m : EvidenceBundleManifest) :
    m.dump.uniqueKeys = true := by
  refine uniqueKeys_obj _ ?_ ?_
  · simp only [fields, List.map_append, List.map_cons, List.map_nil]
    decide
  · simp only [fields, List.mem_append, List.mem_cons, List.not_mem_nil, or_false, or_imp,
      forall_and, forall_eq]
    exact ⟨⟨rfl, rfl, rfl, rfl, rfl, m.criteria.dump_unique, rfl, rfl,
      uniqueKeys_optional _ (fun _ => rfl) _, uniqueKeys_optional _ (fun _ => rfl) _, rfl, rfl⟩, rfl⟩

omit lawful in
private theorem readPreviousHash (hash : Option Sha256Digest) :
    readOptional readDigest (dumpOptional dumpDigest hash).sortKeys = some hash :=
  readOptional_dump readDigest dumpDigest readDigest_dump (by simp [dumpDigest, Json.sortKeys]) hash

theorem DecisionIntegrityProof.validate_dump (p : DecisionIntegrityProof) :
    DecisionIntegrityProof.validate platform p.dump.sortKeys = some p := by
  have unique := p.dump_unique
  simp only [DecisionIntegrityProof.validate,
    requiredField_sorted "decision_id" platform.readUuid p.dump _ p.decisionId unique rfl
      (lawful.readUuid_str _),
    requiredField_sorted "project_id" platform.readUuid p.dump _ p.projectId unique rfl
      (lawful.readUuid_str _),
    requiredField_sorted "sequence_number" platform.readInt p.dump _ p.sequenceNumber unique rfl
      (lawful.readInt_int _),
    defaultField_sorted "previous_hash" none (readOptional readDigest) p.dump _ p.previousHash unique
      rfl (readPreviousHash _),
    requiredField_sorted "payload_hash" readDigest p.dump _ p.payloadHash unique rfl
      (readDigest_dump _),
    requiredField_sorted "record_hash" readDigest p.dump _ p.recordHash unique rfl
      (readDigest_dump _),
    defaultField_sorted "algorithm" () readAlgorithm p.dump _ () unique rfl rfl,
    defaultField_sorted "schema_version" () readSchemaVersion p.dump _ () unique rfl rfl,
    requiredField_sorted "created_at" platform.readDatetime p.dump _ p.createdAt unique rfl
      (lawful.readDatetime_json _), Option.bind_eq_bind, Option.bind_some, dif_pos p.positive]
  rfl

theorem VerifiableDecisionRecord.validate_dumped (r : VerifiableDecisionRecord) :
    VerifiableDecisionRecord.validate platform r.dumped.sortKeys = some r.written := by
  have unique := r.dumped_unique
  simp only [VerifiableDecisionRecord.validate,
    requiredField_sorted "decision" (AuthorizationResponse.validate platform) r.dumped _
      r.decision.written unique rfl (AuthorizationResponse.validate_dumped lawful _),
    requiredField_sorted "integrity" (DecisionIntegrityProof.validate platform) r.dumped _ r.integrity
      unique rfl (DecisionIntegrityProof.validate_dump lawful _)]
  rfl

theorem readTimezone_json (d : UtcDatetime) :
    readTimezone platform (.str d.val.json) = .ok (some d) := by
  rw [readTimezone, lawful.readDatetime_json]
  simp only [UtcDatetime.of_val]

private theorem readTimezoneOptional_dump (d : Option UtcDatetime) :
    readTimezoneOptional platform
      (dumpOptional (fun d : UtcDatetime => .str d.val.json) d).sortKeys = .ok (some d) := by
  cases d with
  | none => rfl
  | some d =>
    have read := readTimezone_json lawful d
    simp only [dumpOptional, Json.sortKeys, readTimezoneOptional, read]
    rfl

omit lawful in
private theorem readSearchText (t : Option SearchText) : readOptional SearchText.validate
    (dumpOptional (fun t : SearchText => .str t.text) t).sortKeys = some t :=
  readOptional_dump _ _ SearchText.validate_text (by simp [Json.sortKeys]) t

theorem DecisionSearchFilters.validateWith_dump (f : DecisionSearchFilters) :
    validateWith platform (some f.evaluatedAfter) (some f.evaluatedBefore) f.dump.sortKeys =
      some f := by
  have unique := f.dump_unique
  simp only [validateWith,
    defaultField_sorted "decision" none (readOptional readDecision) f.dump _ f.decision unique rfl
      (readOptional_dump _ _ readDecision_text (by simp [Json.sortKeys]) _),
    defaultField_sorted "agent" none (readOptional SearchText.validate) f.dump _ f.agent unique rfl
      (readSearchText _),
    defaultField_sorted "action" none (readOptional SearchText.validate) f.dump _ f.action unique rfl
      (readSearchText _),
    defaultField_sorted "policy_id" none (readOptional SearchText.validate) f.dump _ f.policyId unique
      rfl (readSearchText _),
    defaultField_sorted "has_policy" none (readOptional platform.readBool) f.dump _ f.hasPolicy unique
      rfl (readOptional_dump _ _ lawful.readBool_bool (by simp [Json.sortKeys]) _),
    defaultField_sorted "approval_status" none (readOptional readApprovalStatus) f.dump _
      f.approvalStatus unique rfl
      (readOptional_dump _ _ readApprovalStatus_text (by simp [Json.sortKeys]) _),
    defaultField_sorted "query" none (readOptional SearchText.validate) f.dump _ f.query unique rfl
      (readSearchText _),
    defaultField_sorted "sort" .desc readSortOrder f.dump _ f.sort unique rfl (readSortOrder_text _),
    Option.bind_eq_bind, Option.bind_some, dif_pos f.combination, dif_pos f.period]
  rfl

theorem DecisionSearchFilters.validate_dump (f : DecisionSearchFilters) :
    DecisionSearchFilters.validate platform f.dump.sortKeys = .ok (some f) := by
  have unique := f.dump_unique
  have after := raisingField_sorted "evaluated_after" (some none) (readTimezoneOptional platform)
    f.dump _ f.evaluatedAfter unique rfl (readTimezoneOptional_dump lawful _)
  have before := raisingField_sorted "evaluated_before" (some none) (readTimezoneOptional platform)
    f.dump _ f.evaluatedBefore unique rfl (readTimezoneOptional_dump lawful _)
  have rest := f.validateWith_dump lawful
  obtain ⟨fields, object⟩ : ∃ fields, f.dump.sortKeys = .obj fields := by
    rw [dump, Json.sortKeys]
    exact ⟨_, rfl⟩
  rw [object] at after before rest ⊢
  simp only [validate, after, before, rest, bind, Except.bind, pure, Except.pure]

theorem EvidenceBundleManifest.validateWith_dump (m : EvidenceBundleManifest) :
    validateWith platform (some m.generatedAt) (some m.snapshotAt) (some m.criteria)
      m.dump.sortKeys = some m := by
  have unique := m.dump_unique
  have count (n : Nat) : readCount platform (.int n) = some n := by
    simp [readCount, lawful.readInt_int]
  simp only [validateWith,
    defaultField_sorted "schema_version" () readSchemaVersion m.dump _ () unique rfl rfl,
    requiredField_sorted "export_id" platform.readUuid m.dump _ m.exportId unique rfl
      (lawful.readUuid_str _),
    requiredField_sorted "project_id" platform.readUuid m.dump _ m.projectId unique rfl
      (lawful.readUuid_str _),
    requiredField_sorted "record_count" (readCount platform) m.dump _ m.recordCount unique rfl
      (count _),
    requiredField_sorted "chain_record_count" (readCount platform) m.dump _ m.chainRecordCount unique
      rfl (count _),
    defaultField_sorted "chain_head_hash" none (readOptional readDigest) m.dump _ m.chainHeadHash
      unique rfl (readPreviousHash _),
    defaultField_sorted "expected_head_hash" none (readOptional readDigest) m.dump _
      m.expectedHeadHash unique rfl (readPreviousHash _),
    requiredField_sorted "records_sha256" readDigest m.dump _ m.recordsSha256 unique rfl
      (readDigest_dump _),
    requiredField_sorted "chain_sha256" readDigest m.dump _ m.chainSha256 unique rfl
      (readDigest_dump _),
    requiredField_sorted "bundle_sha256" readDigest m.dump _ m.bundleSha256 unique rfl
      (readDigest_dump _), Option.bind_eq_bind, Option.bind_some]
  rfl

theorem EvidenceBundleManifest.validate_dump (m : EvidenceBundleManifest) :
    EvidenceBundleManifest.validate platform m.dump.sortKeys = .ok (some m) := by
  have unique := m.dump_unique
  have generated := raisingField_sorted "generated_at" none (readTimezone platform) m.dump _
    m.generatedAt unique rfl (readTimezone_json lawful _)
  have snapshot := raisingField_sorted "snapshot_at" none (readTimezone platform) m.dump _
    m.snapshotAt unique rfl (readTimezone_json lawful _)
  have filters := raisingField_sorted "criteria" none (DecisionSearchFilters.validate platform)
    m.dump _ m.criteria unique rfl (DecisionSearchFilters.validate_dump lawful _)
  simp only [validate, generated, snapshot, filters, m.validateWith_dump lawful, bind, Except.bind,
    pure, Except.pure]

end

end DecAustrum
