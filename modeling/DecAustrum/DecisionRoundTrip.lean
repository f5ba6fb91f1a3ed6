import DecAustrum.EvidenceStore.AuthorityUnits
import DecAustrum.RequestEncoding

/-!
# Decisions through their rows

The decision of a request under the stored policies is inserted whenever its identifier is new,
and its row is read back as the same decision, unless a value is too deep to be hashed.
-/
namespace DecAustrum

open Python Transaction Table

/-! ## Stored policies -/

/-- The version of every stored policy is a SQLite integer. -/
def StoredVersions (db : Database) : Prop := ∀ row ∈ db.policies, fitsInteger row.policy.version = true

section Statements

variable {db db' : Database} {projectId : Uuid} {policy : Policy} {updatedAt : UtcDatetime}

theorem StoredVersions.append {row : PolicyRow} (stored : StoredVersions db)
    (fits : fitsInteger row.policy.version = true) :
    StoredVersions { db with policies := db.policies ++ [row] } := by
  intro other inside
  rcases List.mem_append.mp inside with old | new
  · exact stored other old
  · obtain rfl := List.mem_singleton.mp new
    exact fits

theorem StoredVersions.update {hit : PolicyRow → Bool} {update : PolicyRow → PolicyRow}
    (stored : StoredVersions db)
    (fits : ∀ row ∈ db.policies, fitsInteger (update row).policy.version = true) :
    StoredVersions { db with policies := updateWhere hit update db.policies } := by
  intro row inside
  obtain ⟨old, member, rfl⟩ := List.mem_map.mp inside
  split
  · exact fits old member
  · exact stored old member

theorem StoredVersions.of_policies (stored : StoredVersions db)
    (same : db'.policies = db.policies) : StoredVersions db' := by
  unfold StoredVersions
  rwa [same]

theorem storedVersions_insertPolicy {u : Unit} (stored : StoredVersions db)
    (ran : ProjectPolicyRepository.insertPolicy projectId policy updatedAt db = .ok (db', u)) :
    StoredVersions db' := by
  have fits : fitsInteger policy.version = true := by
    unfold ProjectPolicyRepository.insertPolicy at ran
    split at ran
    · cases ran
    · simp_all
  rw [(insertPolicy_ok ran).2]
  exact stored.append fits

theorem storedVersions_insertOrIgnore {rowcount : Nat} (stored : StoredVersions db)
    (ran : ProjectPolicyRepository.insertOrIgnorePolicy projectId policy updatedAt db =
      .ok (db', rowcount)) : StoredVersions db' := by
  rcases insertOrIgnorePolicy_ok ran with ⟨-, -, rfl⟩ | ⟨-, -, rfl⟩
  · exact stored
  · exact stored.append (insertOrIgnorePolicy_fits ran)

theorem storedVersions_updatePolicy {currentVersion : Int} {rowcount : Nat}
    (stored : StoredVersions db)
    (ran : ProjectPolicyRepository.updatePolicy projectId policy updatedAt currentVersion db =
      .ok (db', rowcount)) : StoredVersions db' := by
  have fits : fitsInteger policy.version = true := by
    unfold ProjectPolicyRepository.updatePolicy at ran
    dsimp only at ran
    split at ran
    · cases ran
    · simp_all
  rw [(updatePolicy_ok ran).2]
  exact stored.update fun _ _ => fits

end Statements

section Units

open Block (Maintains maintains_execute maintains_statement leaves_ret leaves_raise leaves_query)

variable (projectId : Uuid) (policy : Policy) (updatedAt : UtcDatetime)

theorem maintains_of_leaves {β : Type} {x : Body β} (leaves : x.Leaves Database.policies) :
    x.Maintains StoredVersions :=
  leaves.maintains fun _ _ same stored => stored.of_policies same

theorem maintains_insertVersion (changeType : PolicyVersionChangeType)
    (sourceVersion : Option Int) :
    (ProjectPolicyRepository.insertVersion projectId policy changeType updatedAt
      sourceVersion).Maintains StoredVersions :=
  maintains_of_leaves (leaves_insertVersion _ _ _ (fun _ _ => rfl) _ _)

theorem maintains_insertSeed :
    (ProjectPolicyRepository.insertSeed projectId policy updatedAt).Maintains StoredVersions := by
  apply Maintains.bind
  · exact maintains_statement fun _ _ _ stored ran => storedVersions_insertOrIgnore stored ran
  · intro rowcount
    split
    · exact maintains_insertVersion _ _ _ _ _
    · exact maintains_of_leaves (leaves_ret _)

theorem maintains_writePolicy (changeType : PolicyVersionChangeType) (current : Option PolicyRow) :
    (ProjectPolicyRepository.writePolicy projectId policy updatedAt changeType current).Maintains
      StoredVersions := by
  cases current with
  | none =>
    apply maintains_execute
    · exact fun _ _ _ stored ran => storedVersions_insertPolicy stored ran
    · intro result
      apply maintains_of_leaves
      cases result with
      | ok u => exact leaves_ret _
      | error exc =>
        simp only [Block.bind]
        split
        · refine (leaves_query _).bind fun concurrent => ?_
          cases concurrent <;> exact leaves_raise _
        · exact leaves_raise _
  | some current =>
    apply Maintains.bind
    · exact maintains_statement fun _ _ _ stored ran => storedVersions_updatePolicy stored ran
    · intro rowcount
      apply maintains_of_leaves
      split
      · exact (leaves_query _).bind fun concurrent => leaves_raise _
      · exact leaves_ret _

theorem maintains_writeVersion (changeType : PolicyVersionChangeType) (sourceVersion : Option Int)
    (current : Option PolicyRow) :
    (ProjectPolicyRepository.writeVersion projectId policy updatedAt changeType sourceVersion
      current).Maintains StoredVersions :=
  (maintains_writePolicy _ _ _ _ _).bind fun _ => maintains_insertVersion _ _ _ _ _

theorem maintains_disableRows (policyId : Str) :
    (ProjectPolicyRepository.disableRows projectId policyId updatedAt).Maintains
      StoredVersions := by
  apply maintains_statement
  intro s t u stored ran
  cases ran
  exact stored.update fun row member => stored row member

end Units

/-- Every run keeps the versions of its policies. -/
theorem storedVersions_reachable {C ω : Type} [DecidableEq C] {platform : Platform}
    {start : Database} (stored : StoredVersions start) {calls : C → Operation}
    {w : World C Database Uuid ω StoreExc Unit}
    (reachable : Reachable anyOpening start (fun c => (calls c).session platform) w) :
    StoredVersions w.committed := by
  have units : ∀ c (β : Type) (x : Body β), StoreUnit platform (calls c).scope β x →
      x.Keeps StoredVersions fun _ _ => True := by
    intro c β x unit
    apply unit.keeps_authority
    · exact fun s t same stored => ⟨stored.of_policies (congrArg (·.2.1) same), trivial⟩
    · intro γ y writes
      cases writes with
      | insertSeed => exact (maintains_insertSeed _ _ _).keeps trivial
      | writeVersion projectId policy updatedAt changeType sourceVersion current =>
        refine (maintains_writeVersion _ _ _ _ _ _).keeps ?_
        cases current <;> trivial
      | disablePolicy => exact (maintains_disableRows _ _ _).keeps trivial
      | recordDecision authorization =>
        exact (maintains_of_leaves (leaves_recordDecision _ fun _ _ => rfl)).keeps trivial
  exact holds_of_units units stored reachable

/-! ## The row of a decision -/

section Rows

variable {platform : Platform} (lawful : platform.Lawful) {a : AuthorizationResponse}

theorem storedJson_total {v : Json} (digestible : Digestible v) :
    storedJson platform v = .ok (v.sortKeys.text platform.floats .default) := by
  rw [storedJson, orRaise_eq_ok, Json.dumps, if_pos digestible.encodable]

include lawful in
theorem storedJson_scalar {v : Json} {s : Str} (stored : storedJson platform v = .ok s) :
    IsScalar s := by
  rw [storedJson, orRaise_eq_ok, Json.dumps_eq_some_iff] at stored
  obtain ⟨encodable, rfl⟩ := stored
  apply isScalar_of_isPlain
  exact Json.isPlain_text platform.floats lawful.floats v.sortKeys
    (by rw [Json.encodable_sortKeys, encodable])

/-- What a row is inserted of: every text has a UTF-8 form, and the version is an integer. -/
structure Insertable (row : DecisionRow) : Prop where
  texts : ∀ s ∈ row.texts, IsScalar s
  version : ∀ n ∈ row.policyVersion, fitsInteger n = true

theorem insertDecision_eq {row : DecisionRow} (written : decisionRow platform a = .ok row)
    (insertable : Insertable row) (ledger : Ledger) :
    ledger.insertDecision platform a =
      if ledger.decisions.any (fun d => d.decisionId = a.decisionId.str) then
        .error .integrityError
      else .ok { ledger with decisions := ledger.decisions ++ [row] } := by
  have scalar : row.texts.any (fun s => s.any isSurrogate) = false := by
    simpa [IsScalar] using insertable.texts
  have version : row.policyVersion.any (fun n => !fitsInteger n) = false := by
    cases stored : row.policyVersion with
    | none => rfl
    | some n => simp [insertable.version n stored]
  have id : row.decisionId = a.decisionId.str := by
    obtain ⟨_, _, _, rfl, -⟩ := decisionRow_spec a row written
    rfl
  unfold Ledger.insertDecision
  simp only [written, bind, Except.bind, scalar, version, id, Bool.false_eq_true, if_false]
  rfl

/-- The texts and the JSON columns of a decision with a digest. -/
structure DigestibleColumns (a : AuthorizationResponse) : Prop where
  policy : ∀ id ∈ a.policy, IsScalar id
  reason : IsScalar a.reason
  evidence : ∀ e ∈ a.evidence, Digestible e.dumped
  agent : IsScalar a.agent
  action : IsScalar a.action
  context : Digestible a.context.json
  trace : Digestible (.arr (a.trace.map (·.dumped)))

theorem digestibleColumns (digestible : Digestible a.dumped) (context : Digestible a.context.json) :
    DigestibleColumns a := by
  rw [AuthorizationResponse.dumped,
    digestible_record_iff (by simp only [List.all_cons, List.all_nil]; decide)] at digestible
  simp only [List.map_cons, List.map_nil, List.mem_cons, List.not_mem_nil, or_false,
    forall_eq_or_imp, forall_eq, digestible_optional_iff, digestible_str_iff] at digestible
  obtain ⟨-, -, -, -, policy, -, reason, evidence, agent, action, -, trace⟩ := digestible
  exact ⟨policy, reason, evidence, agent, action, context, trace⟩

theorem decisionRow_total (dumpable : a.Dumpable) (columns : DigestibleColumns a) :
    ∃ row, decisionRow platform a = .ok row := by
  have trace := (mapM_eq_map_iff PolicyTraceEntry.dump_eq_ok a.trace _).mpr ⟨dumpable.trace, rfl⟩
  unfold decisionRow
  rw [storedJson_total columns.context, trace]
  simp only [bind, Except.bind]
  rw [storedJson_total columns.trace]
  cases present : a.evidence with
  | none => exact ⟨_, rfl⟩
  | some e =>
    dsimp only
    rw [(e.dump_eq_ok _).mpr ⟨dumpable.evidence e present, rfl⟩]
    dsimp only
    rw [storedJson_total (columns.evidence e present)]
    exact ⟨_, rfl⟩

include lawful in
/-- A decision with a digest whose version is an integer has a row, and the row is inserted. -/
theorem decisionRow_insertable (digests : Digests a.dump) (stored : Digestible a.context.json)
    (version : ∀ n ∈ a.policyVersion, fitsInteger n = true) :
    ∃ row, decisionRow platform a = .ok row ∧ Insertable row := by
  obtain ⟨dumpable, digestible⟩ := a.digests_iff.mp digests
  have columns := digestibleColumns digestible stored
  obtain ⟨row, written⟩ := @decisionRow_total platform a dumpable columns
  obtain ⟨evidenceJson, traceJson, contextJson, isRow, stored, absent, trace, context⟩ :=
    decisionRow_spec a row written
  have evidence : ∀ text ∈ evidenceJson, IsScalar text := by
    intro text inside
    cases present : a.evidence with
    | none =>
      rw [absent present] at inside
      cases inside
    | some e =>
      obtain ⟨_, evidenceStored, rfl⟩ := stored e present
      cases inside
      exact storedJson_scalar lawful evidenceStored
  have decision : IsScalar a.decision.text := by
    cases a.decision <;> exact isScalar_of_all _ (by decide)
  have uuid (u : Uuid) : IsScalar u.str := isScalar_of_isPlain _ u.isPlain_str
  have moment : IsScalar a.evaluatedAt.isoformat := isScalar_of_isPlain _ a.evaluatedAt.isPlain_isoformat
  have traceJson_scalar := storedJson_scalar lawful trace
  have contextJson_scalar := storedJson_scalar lawful context
  subst isRow
  refine ⟨_, written, ?_, version⟩
  simp only [DecisionRow.texts, storedRow, List.forall_mem_append, List.forall_mem_cons,
    List.not_mem_nil, Option.mem_toList, false_imp_iff, forall_true_iff, and_true]
  exact ⟨⟨⟨uuid _, uuid _, moment, decision, columns.reason, traceJson_scalar, columns.agent,
    columns.action, contextJson_scalar⟩, columns.policy⟩, evidence⟩

end Rows

/-! ## The decision of a request -/

/-- The texts of a policy that its trace entry repeats hold no surrogate. -/
structure ScalarPolicy (policy : Policy) : Prop where
  id : IsScalar policy.id
  reason : IsScalar policy.reason
  fields : ∀ c ∈ policy.conditions, IsScalar c.field
  values : ∀ c ∈ policy.conditions, ∀ s ∈ c.value.json.strings, IsScalar s

/-- The context values the conditions are compared with are as deep as the context lets them be. -/
theorem ScalarPolicy.printable_iff {policy : Policy} (scalar : ScalarPolicy policy)
    (fits : fitsInteger policy.version = true) {context : StrictObject}
    (members : ∀ field ∈ context.fields, Encodes 255 field.2) :
    Printable 255 context policy ↔ ∀ c ∈ policy.conditions, c.value.json.nesting ≤ 255 := by
  constructor
  · exact fun printable c inside => (printable.expected c inside).nesting
  · intro shallow
    refine ⟨scalar.id, digestible_int_of_fits fits, scalar.reason, scalar.fields,
      fun c inside => ⟨⟨c.value.encodable, scalar.values c inside⟩, shallow c inside⟩,
      fun c _ v found => ?_⟩
    rw [context.json_eq, Json.get?, Json.lookup, Option.map_eq_some_iff] at found
    obtain ⟨field, first, rfl⟩ := found
    exact members field ((List.mem_insertionSort ..).mp (List.mem_of_find?_eq_some first))

/-- A context without surrogates. -/
def ScalarContext (context : StrictObject) : Prop := ∀ s ∈ context.json.strings, IsScalar s

theorem ScalarContext.member {context : StrictObject} (scalar : ScalarContext context)
    {field : Str × Json} (present : field ∈ context.fields) :
    field.1.any isSurrogate = false ∧ Digestible field.2 := by
  have within (s : Str) (inside : s = field.1 ∨ s ∈ field.2.strings) : IsScalar s := by
    refine scalar s ?_
    rw [context.json_eq, Json.strings, Json.mem_stringsFields]
    exact ⟨field, (List.mem_insertionSort ..).mpr present, inside⟩
  have encodable := context.encodable
  rw [Json.encodable, Json.encodableFields_iff] at encodable
  exact ⟨List.any_eq_false.mpr fun c inside => by simp [within field.1 (.inl rfl) c inside],
    encodable field present, fun s inside => within s (.inr inside)⟩

theorem ScalarContext.scalarKeys {context : StrictObject} (scalar : ScalarContext context) :
    context.ScalarKeys := fun _ present => (scalar.member present).1

/-- A context without surrogates can be hashed when its values are shallow enough. -/
theorem ScalarContext.digests_iff {context : StrictObject} (scalar : ScalarContext context) :
    context.Dumpable ∧ Digestible context.dumped ↔
      ∀ field ∈ context.fields, field.2.nesting ≤ 255 := by
  have encodes (field : Str × Json) (present : field ∈ context.fields) :
      Serializable field.2 ↔ field.2.nesting ≤ 255 := by
    have digestible := (scalar.member present).2
    exact ⟨fun serializable => serializable.nesting, fun nesting =>
      ((encodes_iff_serializable _).mp ⟨digestible, nesting⟩).2⟩
  have digestible : Digestible context.dumped := by
    rw [context.dumped_eq_json_iff.mpr scalar.scalarKeys]
    exact ⟨context.value.encodable, scalar⟩
  exact ⟨fun both field present => (encodes field present).mp (both.1 field present),
    fun shallow => ⟨fun field present => (encodes field present).mpr (shallow field present),
      digestible⟩⟩

theorem activePolicies_fit {db : Database} (stored : StoredVersions db) {projectId : Uuid}
    {policy : Policy} (listed : policy ∈ db.activePolicies projectId) :
    fitsInteger policy.version = true := by
  simp only [Database.activePolicies, Database.policyConfigurations, List.mem_map, List.mem_filter,
    List.mem_insertionSort] at listed
  obtain ⟨_, ⟨⟨row, ⟨inTable, -⟩, rfl⟩, -⟩, rfl⟩ := listed
  exact stored row inTable

/-- The version an evaluation reports is that of one of its policies. -/
theorem reported_version {request : AuthorizationRequest} {policies : List Policy}
    {evaluation : PolicyEvaluation}
    (evaluated : evaluatePolicy request.action.text request.context policies = .ok evaluation)
    {n : Int} (reported : n ∈ evaluation.policyVersion) : ∃ p ∈ policies, p.version = n := by
  by_cases covered : ∃ policy ∈ policies, policy.action = request.action.text
  · obtain ⟨-, exc, raised⟩ | ⟨-, result, done, meets⟩ :=
      evaluatePolicy_cases request.action.text request.context policies covered
    · rw [raised] at evaluated
      cases evaluated
    · rw [done, Except.ok.injEq] at evaluated
      subst evaluated
      by_cases allowed : result.decision = .allow
      · rw [(meets.unreported allowed).2.1] at reported
        cases reported
      · obtain ⟨before, policy, after, split, -, reports, -⟩ := meets.reported allowed
        have listed : policy ∈ applicablePolicies request.action.text policies := by
          rw [split]
          simp
        rw [reports.policyVersion] at reported
        cases reported
        exact ⟨policy, (mem_applicablePolicies.mp listed).1, rfl⟩
  · rw [evaluatePolicy_uncovered _ _ _ (by simpa using covered), Except.ok.injEq] at evaluated
    subst evaluated
    cases reported

/-- The row of a decision is inserted wherever its identifier is new and read back as an equal
decision, so the payload hash stays the same. -/
def RowRoundTrips (platform : Platform) (a : AuthorizationResponse) : Prop :=
  ∃ row, decisionRow platform a = .ok row ∧
    (∀ ledger : Ledger, ledger.insertDecision platform a =
      if ledger.decisions.any (fun d => d.decisionId = a.decisionId.str) then
        .error .integrityError
      else .ok { ledger with decisions := ledger.decisions ++ [row] }) ∧
    rowToAuthorization platform row = .ok a.canonical ∧
    ∃ hash, calculateAuthorizationPayloadHash platform a = .ok hash ∧
      (rowToAuthorization platform row >>= calculateAuthorizationPayloadHash platform) = .ok hash

/-- A decision whose context holds no surrogate is read back if it has a payload hash. -/
theorem rowRoundTrips_iff {platform : Platform} (lawful : platform.Lawful)
    {a : AuthorizationResponse} (context : ScalarContext a.context)
    (version : ∀ n ∈ a.policyVersion, fitsInteger n = true) :
    RowRoundTrips platform a ↔ Digests a.dump := by
  rw [← payloadHash_defined_iff lawful]
  constructor
  · rintro ⟨row, -, -, -, hash, hashed, -⟩
    exact ⟨hash, hashed⟩
  · rintro ⟨hash, hashed⟩
    have digests := (payloadHash_defined_iff lawful a).mp ⟨hash, hashed⟩
    obtain ⟨dumpable, payload⟩ := (payloadHash_eq_ok platform a hash).mp hashed
    obtain ⟨row, written, insertable⟩ := decisionRow_insertable lawful digests
      ⟨a.context.value.encodable, context⟩ version
    have readable : Json.Readable true a.context.json := fun s inside _ => context s inside
    have rebuilt := rowToAuthorization_decisionRow lawful a row hash written payload
    rw [AuthorizationResponse.stored, a.context.stored_eq_canonical readable] at rebuilt
    refine ⟨row, written, insertDecision_eq written insertable, rebuilt, hash, hashed, ?_⟩
    rw [rebuilt]
    exact (payloadHash_canonical a dumpable context.scalarKeys).trans hashed

/-- In every run, the decision of a request under the policies of its project, the texts of both
without surrogates, goes through its row if and only if no value of its context or of the
policies' conditions nests deeper than the serializer follows. -/
theorem decision_row_round_trip_iff {C ω : Type} [DecidableEq C] (platform : Platform)
    (lawful : platform.Lawful) (start : Database) (stored : StoredVersions start)
    (calls : C → Operation) (w : World C Database Uuid ω StoreExc Unit)
    (reachable : Reachable anyOpening start (fun c => (calls c).session platform) w)
    (projectId decisionId : Uuid) (evaluatedAt : UtcDatetime) (request : AuthorizationRequest)
    (evaluation : PolicyEvaluation)
    (evaluated : evaluatePolicy request.action.text request.context
      (w.committed.activePolicies projectId) = .ok evaluation)
    (context : ScalarContext request.context)
    (policies : ∀ policy ∈ w.committed.activePolicies projectId,
      policy.action = request.action.text → ScalarPolicy policy) :
    RowRoundTrips platform
        (authorizationOf decisionId projectId evaluatedAt request evaluation) ↔
      (∀ field ∈ request.context.fields, field.2.nesting ≤ 255) ∧
        ∀ policy ∈ w.committed.activePolicies projectId, policy.action = request.action.text →
          ∀ c ∈ policy.conditions, c.value.json.nesting ≤ 255 := by
  have fits : ∀ policy ∈ w.committed.activePolicies projectId,
      fitsInteger policy.version = true := fun policy listed =>
    activePolicies_fit (storedVersions_reachable stored reachable) listed
  have version : ∀ n ∈ evaluation.policyVersion, fitsInteger n = true := by
    intro n reported
    obtain ⟨policy, listed, rfl⟩ := reported_version evaluated reported
    exact fits policy listed
  rw [rowRoundTrips_iff lawful (a := authorizationOf decisionId projectId evaluatedAt request
    evaluation) context version, decision_digestible_iff evaluated, ← and_assoc,
    context.digests_iff]
  refine and_congr_right fun shallow => ?_
  have members : ∀ field ∈ request.context.fields, Encodes 255 field.2 := fun field present =>
    ⟨(context.member present).2, shallow field present⟩
  have each (policy : Policy) (listed : policy ∈ w.committed.activePolicies projectId)
      (action : policy.action = request.action.text) :=
    (policies policy listed action).printable_iff (fits policy listed) members
  constructor
  · intro printable policy listed action
    exact (each policy listed action).mp
      (printable policy (mem_applicablePolicies.mpr ⟨listed, action⟩))
  · intro conditions policy applicable
    obtain ⟨listed, action⟩ := mem_applicablePolicies.mp applicable
    exact (each policy listed action).mpr (conditions policy listed action)

/-! ## Values too deep for the serializer -/

/-- A list in a list, and so on. -/
def nestedLists : Nat → Json
  | 0 => .null
  | depth + 1 => .arr [nestedLists depth]

theorem nesting_nestedLists (depth : Nat) : (nestedLists depth).nesting = depth + 1 := by
  induction depth with
  | zero => rfl
  | succ depth ih => simp [nestedLists, Json.nesting, Json.nestingItems, ih]

theorem nestedLists_accepted (depth : Nat) : (nestedLists depth).uniqueKeys = true ∧
    (nestedLists depth).encodable = true ∧ (nestedLists depth).sortKeys = nestedLists depth ∧
      (nestedLists depth).strings = [] := by
  induction depth with
  | zero => exact ⟨rfl, rfl, rfl, rfl⟩
  | succ depth ih =>
    obtain ⟨unique, encodable, sorted, strings⟩ := ih
    simp [nestedLists, Json.uniqueKeys, Json.uniqueKeysItems, Json.encodable, Json.encodableItems,
      Json.sortKeys, Json.sortKeysItems, Json.strings, Json.stringsItems, unique, encodable, sorted,
      strings]

/-- A request whose context holds one value that deep. -/
def nestedRequest (depth : Nat) : AuthorizationRequest :=
  ⟨plainRequest.agent, plainRequest.action,
    ⟨[("limits", nestedLists depth)],
      by simp [Json.uniqueKeys, Json.uniqueKeysFields, nestedLists_accepted],
      by simp [Json.encodable, Json.encodableFields, nestedLists_accepted],
      by simp [Json.sortKeysFields, nestedLists_accepted]⟩⟩

theorem nestedRequest_accepted (depth : Nat) :
    StrictObject.validate (.obj [("limits", nestedLists depth)]) =
      some (nestedRequest depth).context := by
  have unique := (nestedRequest depth).context.unique
  have encodable := (nestedRequest depth).context.encodable
  exact (dif_pos ⟨unique, encodable⟩).trans
    (congrArg some (StrictObject.ext _ _ (nestedRequest depth).context.sorted))

theorem nestedRequest_scalar (depth : Nat) : ScalarContext (nestedRequest depth).context := by
  intro s inside
  rw [StrictObject.json_eq] at inside
  simp only [nestedRequest, List.insertionSort_cons, List.insertionSort_nil,
    List.orderedInsert_nil, Json.strings, Json.stringsFields, nestedLists_accepted,
    List.append_nil, List.mem_cons, List.not_mem_nil, or_false] at inside
  subst inside
  exact isScalar_of_all _ (by decide)

theorem nestedRequest_shallow {depth : Nat} (dumpable : (nestedRequest depth).context.Dumpable) :
    depth < 255 := by
  have shallow := (dumpable ("limits", nestedLists depth) (by simp [nestedRequest])).nesting
  rw [nesting_nestedLists] at shallow
  omega

/-- The request is accepted, evaluated without an error and holds no surrogate, and its decision
does not go through its row. -/
theorem nested_decision_lost :
    StrictObject.validate (.obj [("limits", nestedLists 255)]) =
        some (nestedRequest 255).context ∧
      evaluatePolicy "pay" (nestedRequest 255).context [] = .ok plainEvaluation ∧
      ScalarContext (nestedRequest 255).context ∧
      ¬ RowRoundTrips (referencePlatform fun _ => [])
        (authorizationOf ⟨1⟩ ⟨2⟩ plainEvaluatedAt (nestedRequest 255) plainEvaluation) := by
  refine ⟨nestedRequest_accepted 255, evaluatePolicy_uncovered _ _ [] (by simp),
    nestedRequest_scalar 255, fun trips => ?_⟩
  have digests := (rowRoundTrips_iff (referencePlatform_lawful _) (nestedRequest_scalar 255)
    (by simp [authorizationOf, plainEvaluation])).mp trips
  have dumpable := ((AuthorizationResponse.digests_iff _).mp digests).1.context
  exact absurd (nestedRequest_shallow dumpable) (by decide)

/-! ## A nested context -/

def sampleNestedRequest : AuthorizationRequest :=
  ⟨plainRequest.agent, plainRequest.action,
    ⟨[("limits", .arr [.int 1, .obj [("x", .null)]]), ("tier", .str "gold")], by decide,
      by decide, rfl⟩⟩

def sampleGoldPolicy : Policy :=
  ⟨"gold", 3, "pay", .all, [⟨"tier", .equals, sampleGold⟩],
    .requireApproval, "Gold needs approval.", by decide, by decide⟩

def sampleGoldEvidence : PolicyEvidence :=
  ⟨.all, [⟨"tier", .equals, sampleGold,
    sampleGold, true⟩]⟩

def sampleGoldEvaluation : PolicyEvaluation :=
  ⟨.requireApproval, some "gold", some 3, "Gold needs approval.", some sampleGoldEvidence,
    [⟨"gold", 3, .requireApproval, "Gold needs approval.", true, sampleGoldEvidence⟩]⟩

def sampleGoldDatabase : Database :=
  { Database.empty with
    policies := [ProjectPolicyRepository.policyRow ⟨2⟩ sampleGoldPolicy plainEvaluatedAt] }

/-- No call has run yet. -/
def sampleGoldWorld : World (Fin 0) Database Uuid Unit StoreExc Unit :=
  (World.start sampleGoldDatabase fun c => c.elim0).play []

theorem decision_row_round_trip_sample :
    RowRoundTrips (referencePlatform fun _ => [])
      (authorizationOf ⟨1⟩ ⟨2⟩ plainEvaluatedAt sampleNestedRequest sampleGoldEvaluation) := by
  have stored : StoredVersions sampleGoldDatabase := by
    intro row inside
    obtain rfl := List.mem_singleton.mp inside
    decide
  have programs : (fun c : Fin 0 => (c.elim0 : Operation).session (referencePlatform fun _ => [])) =
      fun c : Fin 0 => (c.elim0 : Session Database Uuid Unit StoreExc Unit) :=
    funext fun c => c.elim0
  have scalar : ScalarPolicy sampleGoldPolicy := by
    constructor
    · exact isScalar_of_all _ (by decide)
    · exact isScalar_of_all _ (by decide)
    all_goals
      intro c inside
      obtain rfl := List.mem_singleton.mp inside
    · exact isScalar_of_all _ (by decide)
    · intro s string
      obtain rfl := List.mem_singleton.mp string
      exact isScalar_of_all _ (by decide)
  refine (decision_row_round_trip_iff (referencePlatform fun _ => [])
    (referencePlatform_lawful _) sampleGoldDatabase stored (fun c : Fin 0 => c.elim0)
    sampleGoldWorld (programs ▸ play_reachable _ _ _) ⟨2⟩ ⟨1⟩ plainEvaluatedAt sampleNestedRequest
    sampleGoldEvaluation rfl
    (fun s inside => isScalar_of_all s (List.all_eq_true.mp
      (by decide : (sampleNestedRequest.context.json.strings.all fun s => s.all isPlain) = true)
      s inside))
    (fun policy listed _ => (List.mem_singleton.mp listed) ▸ scalar)).mpr
    ⟨by decide, fun policy listed _ => ?_⟩
  obtain rfl := List.mem_singleton.mp listed
  intro c inside
  obtain rfl := List.mem_singleton.mp inside
  decide

end DecAustrum
